import Mathlib.Order.Basic
import Mathlib.Data.List.Nodup

/-!
# `std::map` as its entries in key order

A `std::map<κ, ν>` is modelled by the list of its entries in strict key order, the order being a
field of the structure: an operation never needs it as a precondition, and a map out of order
cannot be built.  An iteration from `begin()` to `end()` walks `entries` front to back.

* `alterEntries` — the one walk every update makes.  `insert` (which leaves a present key alone)
  and the assignment `m[k] = v` are both instances of it.
* `find_alter`, `find_erase`, `find_mapValues` — what `find` returns after each update.  The
  modules above reason about their maps through `find` alone.

The lemmas on `List.lookup` before the structure serve every map of the engine that is a list of
entries, sorted or not.
-/

namespace Vle

/-! ## Lookups in a list of entries

The maps of the engine are lists of entries, in key order (`SortedMap`) or in the order of their
keys' addresses (the model list and the views of the coordinator, the bags of an instant).  What
`find` returns on such a list is said here once, for all of them. -/

section Lookup

variable {α β : Type} [BEq α] [LawfulBEq α]

/-- What `find` returns is an entry of the map. -/
lemma mem_of_lookup {l : List (α × β)} {a : α} {b : β} (h : l.lookup a = some b) : (a, b) ∈ l := by
  obtain ⟨l₁, l₂, rfl, -⟩ := List.lookup_eq_some_iff.1 h
  simp

/-- In a map with one entry per key, the entry of a key is what `find` returns. -/
lemma lookup_eq_of_mem {a : α} {b c : β} :
    ∀ {l : List (α × β)}, (l.map Prod.fst).Nodup → (a, b) ∈ l → l.lookup a = some c → b = c
  | (a', b') :: l, hk, hm, hl => by
    rw [List.map_cons, List.nodup_cons] at hk
    rcases List.mem_cons.1 hm with he | hm'
    · cases he
      simpa using hl
    · have ha : a ≠ a' := fun h => hk.1 (h ▸ List.mem_map.2 ⟨_, hm', rfl⟩)
      rw [List.lookup_cons, beq_false_of_ne ha] at hl
      exact lookup_eq_of_mem hk.2 hm' hl

/-- In a map with one entry per key, `find` on the key of an entry returns it. -/
lemma lookup_of_mem {l : List (α × β)} {a : α} {b : β} (hk : (l.map Prod.fst).Nodup) (hm : (a, b) ∈ l) :
    l.lookup a = some b := by
  cases hl : l.lookup a with
  | none => simpa using List.lookup_eq_none_iff.1 hl _ hm
  | some c => rw [lookup_eq_of_mem hk hm hl]

end Lookup

section Update

variable {κ ν : Type} [DecidableEq κ]

lemma lookup_cons_of_ne {k a : κ} {b : ν} {l : List (κ × ν)} (h : k ≠ a) :
    ((a, b) :: l).lookup k = l.lookup k := by
  rw [List.lookup_cons, beq_false_of_ne h]

/-- `erase(k)` on a list of entries. -/
lemma lookup_filter_ne (k k' : κ) :
    ∀ l : List (κ × ν), (l.filter (fun e => e.1 ≠ k)).lookup k' = if k' = k then none else l.lookup k'
  | [] => by simp
  | (a, b) :: l => by
    have ih := lookup_filter_ne k k' l
    by_cases ha : a = k
    · subst ha
      by_cases hk : k' = a
      · simpa [hk] using ih
      · simpa [hk, lookup_cons_of_ne hk] using ih
    · by_cases hk : k' = a
      · subst hk
        simp [ha]
      · simpa [ha, lookup_cons_of_ne hk] using ih

/-- Every value changed in place, by a function that may read its key: the keys stay, and `find`
returns the changed value. -/
lemma lookup_map_snd (g : κ → ν → ν) (k : κ) :
    ∀ l : List (κ × ν), (l.map (fun e => (e.1, g e.1 e.2))).lookup k = (l.lookup k).map (g k)
  | [] => rfl
  | (a, b) :: l => by
    by_cases hk : k = a
    · subst hk
      simp
    · simp [lookup_cons_of_ne hk, lookup_map_snd g k l]

end Update

/-- A `std::map<κ, ν>`: its entries, in strict key order. -/
structure SortedMap (κ ν : Type) [LinearOrder κ] where
  entries : List (κ × ν)
  sorted : entries.Pairwise (fun a b => a.1 < b.1)

namespace SortedMap

variable {κ ν : Type} [LinearOrder κ]

/-! ## The walk of an update -/

/-- The entries after an update at the key `k`: the entry `(k, f none)` in its place when `k` is
absent, `(k, f (some v))` in place of `(k, v)` otherwise. -/
def alterEntries (k : κ) (f : Option ν → ν) : List (κ × ν) → List (κ × ν)
  | [] => [(k, f none)]
  | x :: l =>
    if k < x.1 then (k, f none) :: x :: l
    else if k = x.1 then (k, f (some x.2)) :: l
    else x :: alterEntries k f l

lemma mem_alterEntries {k : κ} {f : Option ν → ν} {y : κ × ν} :
    ∀ {l : List (κ × ν)}, y ∈ alterEntries k f l → y.1 = k ∨ y ∈ l
  | [], h => .inl (by rw [List.mem_singleton.1 h])
  | x :: l, h => by
    unfold alterEntries at h
    split_ifs at h
    · exact (List.mem_cons.1 h).imp (fun h => by rw [h]) id
    · exact (List.mem_cons.1 h).imp (fun h => by rw [h]) (List.mem_cons_of_mem _)
    · rcases List.mem_cons.1 h with rfl | h
      · exact .inr (List.mem_cons_self _ _)
      · exact (mem_alterEntries h).imp_right (List.mem_cons_of_mem _)

/-- An update keeps the entries in key order. -/
lemma sorted_alterEntries (k : κ) (f : Option ν → ν) :
    ∀ {l : List (κ × ν)}, l.Pairwise (fun a b => a.1 < b.1) →
      (alterEntries k f l).Pairwise (fun a b => a.1 < b.1)
  | [], _ => List.pairwise_singleton _ _
  | x :: l, h => by
    have h' := List.pairwise_cons.1 h
    unfold alterEntries
    split_ifs with hlt heq
    · refine List.pairwise_cons.2 ⟨fun b hb => ?_, h⟩
      rcases List.mem_cons.1 hb with rfl | hb
      · exact hlt
      · exact hlt.trans (h'.1 b hb)
    · exact List.pairwise_cons.2 ⟨fun b hb => heq ▸ h'.1 b hb, h'.2⟩
    · refine List.pairwise_cons.2 ⟨fun b hb => ?_, sorted_alterEntries k f h'.2⟩
      rcases mem_alterEntries hb with hb | hb
      · exact hb ▸ lt_of_le_of_ne (not_lt.1 hlt) (Ne.symm heq)
      · exact h'.1 b hb

/-! ## Lookups in a sorted list -/

/-- No entry holds a key below all the keys. -/
lemma lookup_of_lt {k : κ} {l : List (κ × ν)} (h : ∀ e ∈ l, k < e.1) : l.lookup k = none :=
  List.lookup_eq_none_iff.2 fun e he => bne_iff_ne.2 (ne_of_lt (h e he))

lemma lookup_alterEntries (k k' : κ) (f : Option ν → ν) :
    ∀ {l : List (κ × ν)}, l.Pairwise (fun a b => a.1 < b.1) →
      (alterEntries k f l).lookup k' = if k' = k then some (f (l.lookup k)) else l.lookup k'
  | [], _ => by
    by_cases hk : k' = k
    · simp [alterEntries, hk]
    · simp [alterEntries, lookup_cons_of_ne hk, hk]
  | (a, b) :: l, hs => by
    have hs' := List.pairwise_cons.1 hs
    unfold alterEntries
    by_cases hlt : k < a
    · have hnone : ((a, b) :: l).lookup k = none :=
        lookup_of_lt fun e he => (List.mem_cons.1 he).elim (· ▸ hlt) (hlt.trans ∘ hs'.1 e)
      by_cases hk : k' = k
      · simp [hlt, hk, hnone]
      · simp [hlt, hk, lookup_cons_of_ne hk]
    by_cases heq : k = a
    · subst heq
      by_cases hk : k' = k
      · simp [hk]
      · simp [hk, lookup_cons_of_ne hk]
    by_cases hka : k' = a
    · subst hka
      simp [hlt, heq, Ne.symm heq]
    · simp only [hlt, heq, if_false]
      rw [lookup_cons_of_ne hka, lookup_alterEntries k k' f hs'.2, lookup_cons_of_ne heq,
        lookup_cons_of_ne hka]

/-! ## The operations of a map -/

/-- The empty map. -/
def empty : SortedMap κ ν := ⟨[], .nil⟩

/-- `find(k)`: the value of `k`, or `end()`. -/
def find (m : SortedMap κ ν) (k : κ) : Option ν := m.entries.lookup k

/-- The keys, in order. -/
def keys (m : SortedMap κ ν) : List κ := m.entries.map Prod.fst

/-- An update at the key `k` (see `alterEntries`). -/
def alter (m : SortedMap κ ν) (k : κ) (f : Option ν → ν) : SortedMap κ ν :=
  ⟨alterEntries k f m.entries, sorted_alterEntries k f m.sorted⟩

/-- `insert(std::make_pair(k, v))`: a new entry, unless `k` is there already. -/
def insert (m : SortedMap κ ν) (k : κ) (v : ν) : SortedMap κ ν := m.alter k (fun o => o.getD v)

/-- `m[k] = v`. -/
def assign (m : SortedMap κ ν) (k : κ) (v : ν) : SortedMap κ ν := m.alter k (fun _ => v)

/-- `erase(k)`. -/
def erase (m : SortedMap κ ν) (k : κ) : SortedMap κ ν :=
  ⟨m.entries.filter (fun e => e.1 ≠ k), m.sorted.sublist (List.filter_sublist _)⟩

/-- `it->second = g(it->second)` for every entry, in key order. -/
def mapValues (m : SortedMap κ ν) (g : ν → ν) : SortedMap κ ν :=
  ⟨m.entries.map (fun e => (e.1, g e.2)), List.pairwise_map.2 m.sorted⟩

@[simp] lemma find_empty (k : κ) : (empty : SortedMap κ ν).find k = none := rfl

lemma find_alter (m : SortedMap κ ν) (k k' : κ) (f : Option ν → ν) :
    (m.alter k f).find k' = if k' = k then some (f (m.find k)) else m.find k' :=
  lookup_alterEntries k k' f m.sorted

@[simp] lemma find_insert (m : SortedMap κ ν) (k k' : κ) (v : ν) :
    (m.insert k v).find k' = if k' = k then some ((m.find k).getD v) else m.find k' :=
  find_alter m k k' _

@[simp] lemma find_assign (m : SortedMap κ ν) (k k' : κ) (v : ν) :
    (m.assign k v).find k' = if k' = k then some v else m.find k' :=
  find_alter m k k' _

@[simp] lemma find_erase (m : SortedMap κ ν) (k k' : κ) :
    (m.erase k).find k' = if k' = k then none else m.find k' :=
  lookup_filter_ne k k' m.entries

@[simp] lemma find_mapValues (m : SortedMap κ ν) (g : ν → ν) (k : κ) :
    (m.mapValues g).find k = (m.find k).map g :=
  lookup_map_snd (fun _ => g) k m.entries

/-- What `find` returns is an entry of the map. -/
lemma mem_of_find {m : SortedMap κ ν} {k : κ} {v : ν} (h : m.find k = some v) :
    (k, v) ∈ m.entries :=
  mem_of_lookup h

lemma nodup_keys (m : SortedMap κ ν) : m.keys.Nodup :=
  (List.pairwise_map.2 m.sorted).imp ne_of_lt

/-- `find` on the key of an entry returns its value. -/
lemma find_of_mem {m : SortedMap κ ν} {k : κ} {v : ν} (h : (k, v) ∈ m.entries) :
    m.find k = some v :=
  lookup_of_mem m.nodup_keys h

end SortedMap

end Vle
