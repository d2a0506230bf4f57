import Vle.Graph.Model
import Vle.Utils.SortedMap

/-!
# Translators

A project may describe an atomic model by a translator, a `NoVLE`, that expands it into models,
dynamics, conditions and views of its own.  `NoVLEs::fusion` walks the `AtomicModelList` of the
model, a `std::map` from `graph::Model*` to the description of an atomic model, with one
iterator: on an entry that names a translator it calls that translator, advances the iterator
and erases the entry behind it; on any other entry it advances.  A translator may add entries to
the very map the loop walks.  The map is ordered by the addresses of the models, so a new entry
may land before the iterator as well as after it.

The translators, and the rest of the project they read and change, are parameters: a translator
is known by what one call of it does (`NoVLE`), and the rest of the project is a type `ε`.  The
loop records each call it makes as a ghost (`Call`).

* `AtomicModelList` — the map, its entries in key order, carrying that order.
* `Expanding` — the invariant of the loop: what lies behind the iterator has been dealt with.
  One turn keeps it (`Expanding.skip`, `Expanding.translate`), and so does the whole loop
  (`fusionFrom_expanding`).
* **`fusion_expands`** — when `fusion` returns normally, every entry that named a translator had
  that translator called exactly once, every entry that named none is kept as it was, and an
  entry that still names a translator was added by the call of a model after it.
* `fusion_leaves_nested_translator` — so expansion is not complete: a translator that adds a
  model to be translated in turn, at an address before its own, returns with that entry left,
  its translator never called.
-/

namespace Vle

/-- `vpz::AtomicModel`, of which `fusion` reads only `translator()`: the name of the translator
that expands the model, empty for none. -/
structure AtomicModel where
  translator : String
  deriving DecidableEq, Repr

/-! ## The atomic model list -/

/-- `std::map::insert` of the entry `e` into the entries of a map in key order: in its place,
unless its key is there already. -/
def insertEntry : List (ModelId × AtomicModel) → ModelId × AtomicModel → List (ModelId × AtomicModel)
  | [], e => [e]
  | x :: l, e => if e.1 < x.1 then e :: x :: l else if e.1 = x.1 then x :: l else x :: insertEntry l e

lemma mem_insertEntry {e y : ModelId × AtomicModel} :
    ∀ {l : List (ModelId × AtomicModel)}, y ∈ insertEntry l e → y ∈ l ∨ y = e
  | [], h => .inr (List.mem_singleton.1 h)
  | x :: l, h => by
    unfold insertEntry at h
    split_ifs at h
    · exact (List.mem_cons.1 h).elim .inr .inl
    · exact .inl h
    · rcases List.mem_cons.1 h with rfl | h
      · exact .inl (List.mem_cons_self _ _)
      · exact (mem_insertEntry h).imp_left (List.mem_cons_of_mem _)

lemma mem_insertEntry_of_mem {e y : ModelId × AtomicModel} :
    ∀ {l : List (ModelId × AtomicModel)}, y ∈ l → y ∈ insertEntry l e
  | x :: l, h => by
    unfold insertEntry
    split_ifs
    · exact List.mem_cons_of_mem _ h
    · exact h
    · rcases List.mem_cons.1 h with rfl | h
      · exact List.mem_cons_self _ _
      · exact List.mem_cons_of_mem _ (mem_insertEntry_of_mem h)

/-- Inserting keeps the entries in key order. -/
lemma pairwise_insertEntry (e : ModelId × AtomicModel) :
    ∀ {l : List (ModelId × AtomicModel)}, l.Pairwise (fun a b => a.1 < b.1) →
      (insertEntry l e).Pairwise (fun a b => a.1 < b.1)
  | [], _ => List.pairwise_singleton _ _
  | x :: l, h => by
    have h' := List.pairwise_cons.1 h
    unfold insertEntry
    split_ifs with hlt heq
    · refine List.pairwise_cons.2 ⟨fun b hb => ?_, h⟩
      rcases List.mem_cons.1 hb with rfl | hb
      · exact hlt
      · exact hlt.trans (h'.1 b hb)
    · exact h
    · refine List.pairwise_cons.2 ⟨fun b hb => ?_, pairwise_insertEntry e h'.2⟩
      rcases mem_insertEntry hb with hb | rfl
      · exact h'.1 b hb
      · exact lt_of_le_of_ne (not_lt.1 hlt) (Ne.symm heq)

/-- `vpz::AtomicModelList`, a `std::map<graph::Model*, AtomicModel>`: its entries in key order. -/
structure AtomicModelList where
  entries : List (ModelId × AtomicModel)
  sorted : entries.Pairwise (fun a b => a.1 < b.1)

namespace AtomicModelList

/-- `insert(e)`. -/
def insert (l : AtomicModelList) (e : ModelId × AtomicModel) : AtomicModelList :=
  ⟨insertEntry l.entries e, pairwise_insertEntry e l.sorted⟩

/-- The entries a translator adds, inserted in turn. -/
def insertAll (l : AtomicModelList) (es : List (ModelId × AtomicModel)) : AtomicModelList :=
  es.foldl insert l

/-- `erase(it)` on the entry of `k`. -/
def erase (l : AtomicModelList) (k : ModelId) : AtomicModelList :=
  ⟨l.entries.filter (·.1 ≠ k), l.sorted.sublist (List.filter_sublist _)⟩

lemma nodup_keys (l : AtomicModelList) : (l.entries.map Prod.fst).Nodup :=
  (List.pairwise_map.2 l.sorted).imp ne_of_lt

/-- The entry of a key is the one `find` returns. -/
lemma eq_of_lookup (l : AtomicModelList) {k : ModelId} {am : AtomicModel} (hl : l.entries.lookup k = some am)
    {e : ModelId × AtomicModel} (he : e ∈ l.entries) (hk : e.1 = k) : e.2 = am :=
  lookup_eq_of_mem l.nodup_keys (hk ▸ he) hl

lemma mem_insertAll_of_mem {y : ModelId × AtomicModel} :
    ∀ {es : List (ModelId × AtomicModel)} {l : AtomicModelList}, y ∈ l.entries → y ∈ (l.insertAll es).entries
  | [], _, h => h
  | _ :: es, _, h => @mem_insertAll_of_mem _ es _ (mem_insertEntry_of_mem h)

lemma mem_insertAll {y : ModelId × AtomicModel} :
    ∀ {es : List (ModelId × AtomicModel)} {l : AtomicModelList}, y ∈ (l.insertAll es).entries →
      y ∈ l.entries ∨ y ∈ es
  | [], _, h => .inl h
  | e :: es, l, h => by
    rcases @mem_insertAll _ es (l.insert e) h with h | h
    · rcases mem_insertEntry h with h | rfl
      · exact .inl h
      · exact .inr (List.mem_cons_self _ _)
    · exact .inr (List.mem_cons_of_mem _ h)

@[simp] lemma mem_erase {l : AtomicModelList} {k : ModelId} {y : ModelId × AtomicModel} :
    y ∈ (l.erase k).entries ↔ y ∈ l.entries ∧ y.1 ≠ k := by
  simp [erase]

end AtomicModelList

/-! ## Translators and the loop of `fusion` -/

/-- `vpz::NoVLE`, a registered translator, known by what `callTranslator(prj, mdl, model,
dynamics, conditions, views)` does: from the model `mdl` it expands, the atomic model list and
the rest of the project, it throws, or returns the rest of the project changed and the entries it
adds to the list. -/
structure NoVLE (ε : Type) where
  callTranslator : ModelId → AtomicModelList → ε → Outcome (ε × List (ModelId × AtomicModel))

/-- `vpz::NoVLEs`, a `std::map<std::string, NoVLE>`: the translators by name. -/
abbrev NoVLEs (ε : Type) := List (String × NoVLE ε)

/-- A call of a translator, recorded as a ghost: the model expanded, the name of its translator,
and the entries the call added. -/
structure Call where
  mdl : ModelId
  translator : String
  added : List (ModelId × AtomicModel)
  deriving DecidableEq, Repr

/-- What `fusion` works on: the atomic model list of the model, the rest of the project, and the
calls made so far. -/
structure Fusion (ε : Type) where
  models : AtomicModelList
  env : ε
  calls : List Call

namespace NoVLEs

variable {ε : Type} (ts : NoVLEs ε)

/-- `get(novle)`: the translator of that name; the `Assert` throws `SaxParserError`. -/
def get (novle : String) : Outcome (NoVLE ε) :=
  match ts.lookup novle with
  | some n => .ok n
  | none => .raise ("The NoVLE " ++ novle ++ " not exist.")

/-- `add(novle)`, for a translator whose `name()` is `name`: the `Assert` refuses a name already
in the table with `SaxParserError`.  The order of the entries, which only `write` reads, is not
kept. -/
def add (name : String) (novle : NoVLE ε) : Outcome (NoVLEs ε) :=
  match ts.lookup name with
  | none => .ok ((name, novle) :: ts)
  | some _ => .raise ("NoVLE " ++ name ++ " already exist")

/-- `del(modelname)`: erase the translator of that name, if there is one. -/
def del (modelname : String) : NoVLEs ε := ts.filter (fun e => e.1 ≠ modelname)

/-- After `add` of a new name, `get` finds the translator under it, and every other name as
before. -/
lemma get_of_add {n : String} {t : NoVLE ε} {ts' : NoVLEs ε} (h : ts.add n t = .ok ts') (m : String) :
    get ts' m = if m = n then .ok t else get ts m := by
  unfold add at h
  split at h
  · cases h
    by_cases hm : m = n <;> simp [get, hm, lookup_cons_of_ne]
  · cases h

/-- `add` refuses a name already registered. -/
lemma add_of_lookup {n : String} {t : NoVLE ε} (hn : ts.lookup n ≠ none) :
    ts.add n t = .raise ("NoVLE " ++ n ++ " already exist") := by
  obtain ⟨t', ht'⟩ := Option.ne_none_iff_exists'.1 hn
  rw [add, ht']

/-- After `del`, `get` of the name throws, and of every other name returns what it did. -/
lemma get_del (n m : String) :
    get (ts.del n) m = if m = n then .raise ("The NoVLE " ++ n ++ " not exist.") else get ts m := by
  unfold get del
  rw [lookup_filter_ne]
  by_cases hm : m = n <;> simp [hm]

/-- The loop of `fusion`, from the iterator standing on `it` (`none` is `end()`): on an entry
whose translator is not empty, call it, advance the iterator and erase the entry behind it. -/
def fusionFrom : Nat → Option ModelId → Fusion ε → Outcome (Fusion ε)
  | 0, _, _ => .outOfFuel
  | _ + 1, none, S => .ok S
  | fuel + 1, some k, S =>
    match S.models.entries.lookup k with
    | none => .undefined
    | some am =>
      if am.translator ≠ "" then do
        let novle ← get ts am.translator
        let (env, added) ← novle.callTranslator k S.models S.env
        let models := S.models.insertAll added
        let next ← nextKey models.entries k
        fusionFrom fuel next ⟨models.erase k, env, S.calls ++ [⟨k, am.translator, added⟩]⟩
      else do
        let next ← nextKey S.models.entries k
        fusionFrom fuel next S

/-- `fusion(prj, model, dynamics, conditions, views)` on the atomic model list `l` and the rest of
the project `env`. -/
def fusion (fuel : Nat) (l : AtomicModelList) (env : ε) : Outcome (Fusion ε) :=
  fusionFrom ts fuel (beginKey l.entries) ⟨l, env, []⟩

end NoVLEs

/-! ## What lies behind the iterator -/

/-- The iterator `it` (`none` is `end()`) has yet to pass the key `m`. -/
def Ahead : Option ModelId → ModelId → Prop
  | none, _ => False
  | some k, m => k ≤ m

section Iterator

variable {ν : Type}

/-- `begin()` of a map in key order has yet to pass any of its keys. -/
lemma ahead_beginKey {m : ModelId} :
    ∀ {l : List (ModelId × ν)}, l.Pairwise (fun a b => a.1 < b.1) → m ∈ l.map Prod.fst → Ahead (beginKey l) m
  | x :: l, hs, hm => by
    show x.1 ≤ m
    rcases List.mem_cons.1 hm with rfl | hm
    · exact le_rfl
    · obtain ⟨y, hy, rfl⟩ := List.mem_map.1 hm
      exact ((List.pairwise_cons.1 hs).1 y hy).le

lemma mem_of_beginKey {k : ModelId} : ∀ {l : List (ModelId × ν)}, beginKey l = some k → k ∈ l.map Prod.fst
  | x :: _, h => by
    cases h
    exact List.mem_cons_self _ _

/-- In a map in key order, `++it` from a key of the map moves to a later key of the map, and has
yet to pass any later key. -/
lemma nextKey_sorted {k : ModelId} {next : Option ModelId} :
    ∀ {l : List (ModelId × ν)}, l.Pairwise (fun a b => a.1 < b.1) → k ∈ l.map Prod.fst →
      nextKey l k = .ok next →
      (∀ k', next = some k' → k < k' ∧ k' ∈ l.map Prod.fst) ∧ ∀ m ∈ l.map Prod.fst, k < m → Ahead next m
  | x :: l, hs, hk, h => by
    have hs' := List.pairwise_cons.1 hs
    by_cases hx : x.1 = k
    · rw [nextKey, List.dropWhile_cons_of_neg (by simpa using hx)] at h
      cases h
      refine ⟨fun k' hk' => ?_, fun m hm hkm => ?_⟩
      · cases l with
        | nil => cases hk'
        | cons y l =>
          cases hk'
          exact ⟨hx ▸ hs'.1 y (List.mem_cons_self _ _), List.mem_cons_of_mem _ (List.mem_cons_self _ _)⟩
      · rcases List.mem_cons.1 hm with rfl | hm
        · exact absurd hx (ne_of_gt hkm)
        · exact ahead_beginKey hs'.2 hm
    · rw [nextKey, List.dropWhile_cons_of_pos (by simpa using hx)] at h
      have hk' : k ∈ l.map Prod.fst := (List.mem_cons.1 hk).resolve_left (Ne.symm hx)
      obtain ⟨h1, h2⟩ := nextKey_sorted hs'.2 hk' h
      refine ⟨fun k' hk'' => ⟨(h1 k' hk'').1, List.mem_cons_of_mem _ (h1 k' hk'').2⟩, fun m hm hkm => ?_⟩
      rcases List.mem_cons.1 hm with rfl | hm
      · obtain ⟨y, hy, rfl⟩ := List.mem_map.1 hk'
        exact absurd (hs'.1 y hy) (not_lt.2 hkm.le)
      · exact h2 m hm hkm

/-- The same, in the form a turn of the loop uses: the new position is a key of the map, what it
has yet to pass is after `k`, and a key of the map it has passed is at most `k`. -/
lemma nextKey_ahead {l : List (ModelId × ν)} (hs : l.Pairwise (fun a b => a.1 < b.1)) {k : ModelId}
    (hk : k ∈ l.map Prod.fst) {next : Option ModelId} (h : nextKey l k = .ok next) :
    (∀ k', next = some k' → k' ∈ l.map Prod.fst) ∧ (∀ m, Ahead next m → k < m) ∧
      ∀ m ∈ l.map Prod.fst, ¬ Ahead next m → m ≤ k := by
  obtain ⟨h1, h2⟩ := nextKey_sorted hs hk h
  refine ⟨fun k' hk' => (h1 k' hk').2, fun m hm => ?_, fun m hm hna => not_lt.1 fun hkm => hna (h2 m hm hkm)⟩
  cases next with
  | none => exact hm.elim
  | some k' => exact (h1 k' rfl).1.trans_le hm

end Iterator

namespace NoVLEs

variable {ε : Type}

/-- What holds at the head of the loop of `fusion` started on `l₀`, with the iterator on `it`:
the iterator stands on an entry; every call so far was of a model behind it, in key order; an
entry of `l₀` with no translator is still there, and one with a translator is still there while
the iterator has yet to reach it, and has had its translator called once the iterator has passed
it; an entry behind the iterator that names a translator was added by the call of a later
model. -/
structure Expanding (l₀ : AtomicModelList) (it : Option ModelId) (S : Fusion ε) : Prop where
  onEntry : ∀ k, it = some k → k ∈ S.models.entries.map Prod.fst
  callsBehind : ∀ x ∈ S.calls, ¬ Ahead it x.mdl
  callsSorted : (S.calls.map (·.mdl)).Pairwise (· < ·)
  kept : ∀ e ∈ l₀.entries, e.2.translator = "" → e ∈ S.models.entries
  pending : ∀ e ∈ l₀.entries, e.2.translator ≠ "" → Ahead it e.1 → e ∈ S.models.entries
  called : ∀ e ∈ l₀.entries, e.2.translator ≠ "" → ¬ Ahead it e.1 →
    ∃ x ∈ S.calls, x.mdl = e.1 ∧ x.translator = e.2.translator
  addedBehind : ∀ e ∈ S.models.entries, e.2.translator ≠ "" → ¬ Ahead it e.1 →
    ∃ x ∈ S.calls, e ∈ x.added ∧ e.1 < x.mdl

/-- Before the loop the iterator is on `begin()`, and has passed nothing. -/
lemma expanding_start (l₀ : AtomicModelList) (env : ε) :
    Expanding l₀ (beginKey l₀.entries) ⟨l₀, env, []⟩ where
  onEntry _ hk := mem_of_beginKey hk
  callsBehind _ hx := by cases hx
  callsSorted := List.Pairwise.nil
  kept _ he _ := he
  pending _ he _ _ := he
  called e he _ hna := (hna (ahead_beginKey l₀.sorted (List.mem_map_of_mem _ he))).elim
  addedBehind e he _ hna := (hna (ahead_beginKey l₀.sorted (List.mem_map_of_mem _ he))).elim

variable {l₀ : AtomicModelList} {k : ModelId} {S : Fusion ε} {am : AtomicModel} {next : Option ModelId}

/-- A turn on an entry with no translator only advances the iterator. -/
lemma Expanding.skip (I : Expanding l₀ (some k) S) (hl : S.models.entries.lookup k = some am)
    (htr : am.translator = "") (hn : nextKey S.models.entries k = .ok next) : Expanding l₀ next S := by
  obtain ⟨hon, hA, hB⟩ := nextKey_ahead S.models.sorted (I.onEntry k rfl) hn
  have hlt : ∀ e ∈ S.models.entries, e.2.translator ≠ "" → ¬ Ahead next e.1 → e.1 < k := fun e he he' hna =>
    (hB _ (List.mem_map_of_mem _ he) hna).lt_of_ne fun hek => he' (S.models.eq_of_lookup hl he hek ▸ htr)
  refine ⟨hon, fun x hx ha => I.callsBehind x hx (hA _ ha).le, I.callsSorted, I.kept,
    fun e he he' ha => I.pending e he he' (hA _ ha).le, fun e he he' hna => ?_,
    fun e he he' hna => I.addedBehind e he he' (not_le.2 (hlt e he he' hna))⟩
  by_cases hke : k ≤ e.1
  · exact absurd hke (not_le.2 (hlt e (I.pending e he he' hke) he' hna))
  · exact I.called e he he' hke

/-- A turn on an entry with a translator calls it, inserts what it adds, advances the iterator
and erases the entry behind it. -/
lemma Expanding.translate (I : Expanding l₀ (some k) S) (hl : S.models.entries.lookup k = some am)
    (htr : am.translator ≠ "") (env' : ε) (added : List (ModelId × AtomicModel))
    (hn : nextKey (S.models.insertAll added).entries k = .ok next) :
    Expanding l₀ next ⟨(S.models.insertAll added).erase k, env', S.calls ++ [⟨k, am.translator, added⟩]⟩ := by
  have hk : k ∈ (S.models.insertAll added).entries.map Prod.fst :=
    List.map_subset _ (fun _ hy => AtomicModelList.mem_insertAll_of_mem hy) (I.onEntry k rfl)
  obtain ⟨hon, hA, hB⟩ := nextKey_ahead (S.models.insertAll added).sorted hk hn
  have hat : ∀ e ∈ S.models.entries, e.1 = k → e.2 = am := fun e he => S.models.eq_of_lookup hl he
  have hbehind : ∀ a ∈ S.calls.map (·.mdl), a < k := fun _ ha => by
    obtain ⟨x, hx, rfl⟩ := List.mem_map.1 ha
    exact not_le.1 (I.callsBehind x hx)
  have hnew : ∀ e ∈ S.models.entries, e.1 ≠ k → e ∈ ((S.models.insertAll added).erase k).entries :=
    fun e he hek => AtomicModelList.mem_erase.2 ⟨AtomicModelList.mem_insertAll_of_mem he, hek⟩
  refine ⟨fun k' hk' => ?_, fun x hx ha => ?_, ?_, fun e he he' => ?_, fun e he he' ha => ?_,
    fun e he he' hna => ?_, fun e he he' hna => ?_⟩
  · -- the new position is a key other than the erased one
    obtain ⟨y, hy, hyk⟩ := List.mem_map.1 (hon k' hk')
    exact List.mem_map.2 ⟨y, AtomicModelList.mem_erase.2 ⟨hy, hyk ▸ (ne_of_gt (hA k' (hk' ▸ le_rfl)))⟩, hyk⟩
  · rcases List.mem_append.1 hx with hx | hx
    · exact lt_asymm (hbehind _ (List.mem_map_of_mem _ hx)) (hA _ ha)
    · rw [List.mem_singleton.1 hx] at ha
      exact lt_irrefl k (hA _ ha)
  · rw [List.map_append]
    exact List.pairwise_append.2 ⟨I.callsSorted, List.pairwise_singleton _ _,
      fun a ha b hb => List.mem_singleton.1 hb ▸ hbehind a ha⟩
  · -- kept: the erased entry has a translator
    exact hnew e (I.kept e he he') fun hek => htr (hat e (I.kept e he he') hek ▸ he')
  · exact hnew e (I.pending e he he' (hA _ ha).le) (ne_of_gt (hA _ ha))
  · -- called: an entry of `l₀` passed now is the one just translated
    by_cases hke : k ≤ e.1
    · have hmem := I.pending e he he' hke
      have hek : e.1 = k := le_antisymm
        (hB _ (List.mem_map_of_mem _ (AtomicModelList.mem_insertAll_of_mem hmem)) hna) hke
      exact ⟨_, List.mem_append_right _ (List.mem_singleton_self _), hek.symm, (hat e hmem hek).symm ▸ rfl⟩
    · obtain ⟨x, hx, h⟩ := I.called e he he' hke
      exact ⟨x, List.mem_append_left _ hx, h⟩
  · -- addedBehind: an entry passed now was there before, or added by this call
    obtain ⟨he, hek⟩ := AtomicModelList.mem_erase.1 he
    have hlt : e.1 < k := (hB _ (List.mem_map_of_mem _ he) hna).lt_of_ne hek
    rcases AtomicModelList.mem_insertAll he with he | he
    · obtain ⟨x, hx, h⟩ := I.addedBehind e he he' (not_le.2 hlt)
      exact ⟨x, List.mem_append_left _ hx, h⟩
    · exact ⟨_, List.mem_append_right _ (List.mem_singleton_self _), he, hlt⟩

variable (ts : NoVLEs ε)

/-- **The loop keeps the invariant**, down to `end()`. -/
lemma fusionFrom_expanding :
    ∀ {fuel : Nat} {it : Option ModelId} {S S' : Fusion ε}, fusionFrom ts fuel it S = .ok S' →
      Expanding l₀ it S → Expanding l₀ none S'
  | 0, _, _, _, h, _ => by cases h
  | _ + 1, none, _, _, h, I => by cases h; exact I
  | fuel + 1, some k, S, S', h, I => by
    rw [fusionFrom] at h
    split at h
    · cases h
    · next am hl =>
      split_ifs at h with htr
      · obtain ⟨novle, -, h⟩ := Outcome.bind_eq_ok.1 h
        obtain ⟨⟨env', added⟩, -, h⟩ := Outcome.bind_eq_ok.1 h
        obtain ⟨next, hn, h⟩ := Outcome.bind_eq_ok.1 h
        exact fusionFrom_expanding h (I.translate hl htr env' added hn)
      · obtain ⟨next, hn, h⟩ := Outcome.bind_eq_ok.1 h
        exact fusionFrom_expanding h (I.skip hl (not_not.1 htr) hn)

/-- **What `fusion` does when it returns normally**, for every atomic model list and every
behaviour of the translators: every entry that named a translator had that translator called
exactly once; every entry that named none is kept as it was; and an entry that names a
translator afterwards was added by the call of a model after it, which the iterator had reached
when the entry landed behind it. -/
theorem fusion_expands {fuel : Nat} {l : AtomicModelList} {env : ε} {S : Fusion ε}
    (h : fusion ts fuel l env = .ok S) :
    (∀ e ∈ l.entries, e.2.translator ≠ "" →
      (∃ x ∈ S.calls, x.mdl = e.1 ∧ x.translator = e.2.translator) ∧ (S.calls.map (·.mdl)).count e.1 = 1) ∧
    (∀ e ∈ l.entries, e.2.translator = "" → e ∈ S.models.entries) ∧
    ∀ e ∈ S.models.entries, e.2.translator ≠ "" → ∃ x ∈ S.calls, e ∈ x.added ∧ e.1 < x.mdl := by
  have I := fusionFrom_expanding ts h (expanding_start l env)
  refine ⟨fun e he htr => ?_, I.kept, fun e he htr => I.addedBehind e he htr id⟩
  obtain ⟨x, hx, hxm, hxt⟩ := I.called e he htr id
  exact ⟨⟨x, hx, hxm, hxt⟩,
    List.count_eq_one_of_mem (I.callsSorted.imp ne_of_lt) (hxm ▸ List.mem_map_of_mem _ hx)⟩

/-- Two translators: `outer` adds two models to be expanded by `inner`, one at the address `1`
and one at `3`; `inner` adds nothing. -/
def nested : NoVLEs Unit :=
  [("inner", ⟨fun _ _ env => .ok (env, [])⟩),
    ("outer", ⟨fun _ _ env => .ok (env, [(1, ⟨"inner"⟩), (3, ⟨"inner"⟩)])⟩)]

/-- `fusion_expands` on the model `2`, expanded by `outer`, beside the model `4`, with no
translator: `outer` and then `inner` on `3` are called, `4` is kept, and the model `1` that
`outer` added is left, behind `2`. -/
theorem fusion_expands_nested :
    ∃ S, fusion nested 5 ⟨[(2, ⟨"outer"⟩), (4, ⟨""⟩)], by decide⟩ () = .ok S ∧
      S.models.entries = [(1, ⟨"inner"⟩), (4, ⟨""⟩)] ∧
      ((∀ e ∈ [((2 : ModelId), (⟨"outer"⟩ : AtomicModel)), (4, ⟨""⟩)], e.2.translator ≠ "" →
        (∃ x ∈ S.calls, x.mdl = e.1 ∧ x.translator = e.2.translator) ∧ (S.calls.map (·.mdl)).count e.1 = 1) ∧
      (∀ e ∈ [((2 : ModelId), (⟨"outer"⟩ : AtomicModel)), (4, ⟨""⟩)], e.2.translator = "" →
        e ∈ S.models.entries) ∧
      ∀ e ∈ S.models.entries, e.2.translator ≠ "" → ∃ x ∈ S.calls, e ∈ x.added ∧ e.1 < x.mdl) :=
  ⟨_, rfl, rfl, @fusion_expands _ nested 5 ⟨[(2, ⟨"outer"⟩), (4, ⟨""⟩)], by decide⟩ () _ rfl⟩

/-- **`fusion` can return with a translator left unexpanded.**  On the single model `2`, expanded
by `outer`, the loop calls `outer`, then `inner` on the model `3` that `outer` added after `2`;
the model `1` that `outer` added before `2` is never reached, and `fusion` returns with its entry
still naming `inner`. -/
theorem fusion_leaves_nested_translator :
    ∃ S, fusion nested 4 ⟨[(2, ⟨"outer"⟩)], by decide⟩ () = .ok S ∧
      S.models.entries = [(1, ⟨"inner"⟩)] ∧ S.calls.map (fun x => (x.mdl, x.translator)) = [(2, "outer"), (3, "inner")] :=
  ⟨_, rfl, rfl, rfl⟩

end NoVLEs

end Vle
