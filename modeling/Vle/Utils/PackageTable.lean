import Mathlib.Data.Finset.Basic

/-!
# The package table

`utils::PackageTable` keeps the names of the packages a simulation refers to in a `std::set`, and
an iterator `m_current` to the package being worked on.  Callers hold `index`es (iterators) into
the table and give them back to `remove`.

Two iterators into one `std::set` are equal exactly when they point at the same element, and an
iterator to an element stays valid until that element is erased.  A valid `index` is therefore
modelled by the key it points at, and "`m_current` designates an element of the table" is
`mCurrent ∈ mTable`.

* `Reachable` — the states a table can be in after construction and any sequence of
  `current`, `get` and `remove`, where `remove` is given a valid index.
* **`current_never_removed`** — in every reachable state the current index designates an element
  of the table, `remove` refuses it with `ArgError` and leaves the table alone, and `remove` of
  any other index erases exactly that element.
* `current_selects_iff` — `current(p)` moves `m_current` only when `insert` reports a new element,
  so it selects `p` exactly when `p` is new or already current; `current_ignores_known_package`
  gives reachable tables where it does not.
-/

namespace Vle

/-- `utils::PackageTable`: the set `m_table` of package names and the iterator `m_current`. -/
structure PackageTable where
  mTable : Finset String
  mCurrent : String
  deriving DecidableEq

namespace PackageTable

/-- `PackageTable::index`, a `std::set` iterator, modelled by the key it points at. -/
abbrev index := String

/-- `PackageTable()`: insert the empty name and make it current. -/
def new : PackageTable := ⟨{""}, ""⟩

/-- `current(package)`: insert `package`; `m_current` moves to it only when the insertion took
place (`r.second`). -/
def current (t : PackageTable) (package : String) : PackageTable :=
  if package ∈ t.mTable then t else ⟨insert package t.mTable, package⟩

/-- `get(package)`: insert `package` and return the iterator to it. -/
def get (t : PackageTable) (package : String) : PackageTable × index :=
  (⟨insert package t.mTable, t.mCurrent⟩, package)

/-- The text of the `ArgError` thrown by `remove`. -/
def removeCurrentError : String := "PackageTable: Cannot remove currrent package"

/-- `remove(i)`: throw `ArgError` when `i` is the current index, `m_table.erase(i)` otherwise.
The object after the call is returned beside the outcome. -/
def remove (t : PackageTable) (i : index) : PackageTable × Except String Unit :=
  if t.mCurrent = i then (t, .error removeCurrentError)
  else (⟨t.mTable.erase i, t.mCurrent⟩, .ok ())

/-- The tables reachable from construction.  `remove` is only ever given a valid index: one
obtained from `get` and not removed since, that is, an element of the table. -/
inductive Reachable : PackageTable → Prop
  | new : Reachable new
  | current {t : PackageTable} (p : String) : Reachable t → Reachable (t.current p)
  | get {t : PackageTable} (p : String) : Reachable t → Reachable (t.get p).1
  | remove {t : PackageTable} (i : index) : Reachable t → i ∈ t.mTable → Reachable (t.remove i).1

/-! ## One lemma per operation -/

lemma remove_self (t : PackageTable) : t.remove t.mCurrent = (t, .error removeCurrentError) := by
  simp [remove]

lemma remove_of_ne {t : PackageTable} {i : index} (h : i ≠ t.mCurrent) :
    t.remove i = (⟨t.mTable.erase i, t.mCurrent⟩, .ok ()) := by
  simp [remove, Ne.symm h]

lemma current_mem_current {t : PackageTable} (h : t.mCurrent ∈ t.mTable) (p : String) :
    (t.current p).mCurrent ∈ (t.current p).mTable := by
  unfold current
  split <;> simp [h]

lemma current_mem_remove {t : PackageTable} (h : t.mCurrent ∈ t.mTable) (i : index) :
    (t.remove i).1.mCurrent ∈ (t.remove i).1.mTable := by
  by_cases hi : i = t.mCurrent
  · rw [hi, remove_self]; exact h
  · rw [remove_of_ne hi]; exact Finset.mem_erase.2 ⟨Ne.symm hi, h⟩

/-- **The current index always designates an element of the table.** -/
lemma Reachable.current_mem {t : PackageTable} (h : Reachable t) : t.mCurrent ∈ t.mTable := by
  induction h with
  | new => exact Finset.mem_singleton_self _
  | current p _ ih => exact current_mem_current ih p
  | get p _ ih => exact Finset.mem_insert_of_mem ih
  | remove i _ _ ih => exact current_mem_remove ih i

/-- **The current package can never be removed.**  In every reachable table the current index
designates an element, `remove` of it throws `ArgError` and leaves the object as it was, and
`remove` of any other valid index erases exactly that element, the current one staying in the
table. -/
theorem current_never_removed {t : PackageTable} (h : Reachable t) :
    t.mCurrent ∈ t.mTable ∧
    t.remove t.mCurrent = (t, .error removeCurrentError) ∧
    ∀ i ∈ t.mTable, i ≠ t.mCurrent →
      t.remove i = (⟨t.mTable.erase i, t.mCurrent⟩, .ok ()) ∧
      (t.remove i).1.mCurrent ∈ (t.remove i).1.mTable :=
  ⟨h.current_mem, remove_self t, fun i _ hi =>
    ⟨remove_of_ne hi, current_mem_remove h.current_mem i⟩⟩

/-- The table after `get("vle")` from construction: both parts of `current_never_removed` apply,
the current index being `""` and `"vle"` another valid index. -/
theorem current_never_removed_after_get :
    (new.get "vle").1.mCurrent ∈ (new.get "vle").1.mTable ∧
    (new.get "vle").1.remove (new.get "vle").1.mCurrent =
      ((new.get "vle").1, .error removeCurrentError) ∧
    ∀ i ∈ (new.get "vle").1.mTable, i ≠ (new.get "vle").1.mCurrent →
      (new.get "vle").1.remove i =
        (⟨(new.get "vle").1.mTable.erase i, (new.get "vle").1.mCurrent⟩, .ok ()) ∧
      ((new.get "vle").1.remove i).1.mCurrent ∈ ((new.get "vle").1.remove i).1.mTable :=
  current_never_removed (.get "vle" .new)

/-! ## Selecting a package -/

/-- `current(p)` on a name the table holds changes nothing: `insert` finds the element and reports
no insertion, so `m_current` stays where it was. -/
lemma current_of_mem {t : PackageTable} {p : String} (h : p ∈ t.mTable) : t.current p = t :=
  if_pos h

/-- `current(p)` selects `p` exactly when `p` is new to the table, or already current. -/
lemma current_selects_iff (t : PackageTable) (p : String) :
    (t.current p).mCurrent = p ↔ p ∉ t.mTable ∨ t.mCurrent = p := by
  by_cases h : p ∈ t.mTable
  · simp [current_of_mem h, h]
  · simp [current, h]

/-- **`current` does not select a package the table already holds.**  From construction,
`get("vle")` then `current("vle")` leaves the current index on `""`; and `current("a")`,
`current("b")`, `current("a")` leaves it on `"b"`. -/
theorem current_ignores_known_package :
    Reachable (new.get "vle").1 ∧ ((new.get "vle").1.current "vle").mCurrent = "" ∧
    Reachable ((new.current "a").current "b") ∧
      (((new.current "a").current "b").current "a").mCurrent = "b" :=
  ⟨.get _ .new, by rw [current_of_mem (Finset.mem_insert_self _ _)]; rfl,
    .current _ (.current _ .new), by decide⟩

end PackageTable

end Vle
