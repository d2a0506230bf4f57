import Mathlib.Data.String.Basic
import Vle.Utils.Outcome
import Vle.Utils.SortedMap

/-!
# Conditions

A `vpz::Condition` holds the initial values of the models that use it.  It is a `std::map` from
port names to the `value::Set` of values of each port, with the condition's name `m_name` and
the name `m_last_port` of the port last added, which the reader of a project file appends the
values it parses to.  `firstValues` builds from it the `ValueList` a model is initialised with:
the first value of every port.  The values are of any type `α` (`value::Value`), and a
`value::Set` is the list of its values.

* `firstValuesFrom_ok`, `firstValuesFrom_raise` — the loop of `firstValues` over ports that all
  hold a value, and over ports one of which holds none.
* **`firstValues_agrees`** — when every port holds a value, `firstValues` succeeds, and `get` on
  the list it builds agrees with `firstValue` on every port and throws on every other name.
* **`firstValues_raises_iff`** — `firstValues` throws, naming the condition, exactly when some
  port holds no value.

What each operation does to the ports and to the last port is said once, through `find`
(`find_add`, `find_addValueToPort`, `lastAddedPort_add`, `lastAddedPort_addValueToPort`):
`addValueToPort` moves the last port only when it creates a port.
-/

namespace Vle

/-- `value::Set`: its values, in order. -/
abbrev ValueSet (α : Type) := List α

/-- `SetFactory::getValue(i)`, the `i`-th value.  `SetFactory` is not under `src/`; reading past
the end is taken as undefined. -/
def ValueSet.getValue {α : Type} (s : ValueSet α) (i : ℕ) : Outcome α :=
  match s.get? i with
  | some v => .ok v
  | none => .undefined

/-- `vpz::ValueList`, a `std::map` from port names to values. -/
abbrev ValueList (α : Type) := SortedMap String α

/-- The text of the `InternalError` of `ValueList::get`. -/
def unknownPort (name : String) : String := "Unknow port " ++ name ++ " for condition"

/-- `ValueList::get(name)`. -/
def ValueList.get {α : Type} (vl : ValueList α) (name : String) : Outcome α :=
  match vl.find name with
  | some v => .ok v
  | none => .raise (unknownPort name)

/-- `vpz::Condition`: the ports and their sets, the name `m_name` and the last port
`m_last_port`. -/
structure Condition (α : Type) where
  mName : String
  ports : SortedMap String (ValueSet α)
  mLastPort : String

namespace Condition

variable {α : Type}

/-- The text of the `SaxParserError` of `firstValues`. -/
def emptyFirstValues (name : String) : String :=
  "Build a empty first values for condition " ++ name ++ "."

/-- The text of the `Assert` of `getSetValues` and `lastAddedPort`. -/
def noPort (name portname : String) : String :=
  "Condition " ++ name ++ " have no port " ++ portname

/-! ## The operations -/

/-- `Condition(name)`: no port yet, and `m_last_port` empty. -/
def new (name : String) : Condition α := ⟨name, .empty, ""⟩

/-- `add(portname)`: a port with an empty set, unless the port is there already; either way it
becomes the last port. -/
def add (c : Condition α) (portname : String) : Condition α :=
  { c with
    ports := if (c.ports.find portname).isNone then c.ports.insert portname [] else c.ports
    mLastPort := portname }

/-- `del(portname)`. -/
def del (c : Condition α) (portname : String) : Condition α :=
  { c with ports := c.ports.erase portname }

/-- `addValueToPort(portname, value)`: a new port holds `value` and becomes the last port; on an
existing port `value` is appended, and the last port stays. -/
def addValueToPort (c : Condition α) (portname : String) (value : α) : Condition α :=
  match c.ports.find portname with
  | none => { c with ports := c.ports.insert portname [value], mLastPort := portname }
  | some _ => { c with ports := c.ports.alter portname (fun s => s.getD [] ++ [value]) }

/-- The loop of `firstValues`: in key order, each port puts its first value into `result`
(`result[it->first] = it->second->getValue(0)`), and a port with no value throws. -/
def firstValuesFrom (name : String) :
    List (String × ValueSet α) → ValueList α → Outcome (ValueList α)
  | [], result => .ok result
  | (port, s) :: rest, result =>
    if 0 < s.length then s.getValue 0 >>= fun v => firstValuesFrom name rest (result.assign port v)
    else .raise (emptyFirstValues name)

/-- `firstValues()`. -/
def firstValues (c : Condition α) : Outcome (ValueList α) :=
  firstValuesFrom c.mName c.ports.entries .empty

/-- `getSetValues(portname)`. -/
def getSetValues (c : Condition α) (portname : String) : Outcome (ValueSet α) :=
  match c.ports.find portname with
  | some s => .ok s
  | none => .raise (noPort c.mName portname)

/-- `nValue(portname, i)`. -/
def nValue (c : Condition α) (portname : String) (i : ℕ) : Outcome α :=
  c.getSetValues portname >>= fun s => s.getValue i

/-- `firstValue(portname)`: `getSetValues(portname)->getValue(0)`. -/
def firstValue (c : Condition α) (portname : String) : Outcome α := c.nValue portname 0

/-- `lastAddedPort()`: the set of `m_last_port`, found and asserted as `getSetValues` does. -/
def lastAddedPort (c : Condition α) : Outcome (ValueSet α) := c.getSetValues c.mLastPort

/-- `write(out)`: the condition as XML, its ports in key order, each value written by `toXML`
(`value::Value::toXML`, not under `src/`). -/
def write (toXML : α → String) (c : Condition α) : String :=
  "<condition name=\"" ++ c.mName ++ "\" >\n" ++
    String.join (c.ports.entries.map fun e =>
      " <port " ++ "name=\"" ++ e.1 ++ "\" " ++ ">\n" ++ String.join (e.2.map toXML) ++ "</port>\n") ++
    "</condition>\n"

/-- `rebuildValueSet()`: every port gets a new, empty set. -/
def rebuildValueSet (c : Condition α) : Condition α :=
  { c with ports := c.ports.mapValues (fun _ => []) }

/-! ## What the operations do to the ports -/

lemma getValue_zero {s : ValueSet α} (h : s ≠ []) : s.getValue 0 = .ok (s.head h) := by
  obtain ⟨v, s⟩ := s
  · exact absurd rfl h
  · rfl

lemma getSetValues_of_find {c : Condition α} {p : String} {s : ValueSet α}
    (h : c.ports.find p = some s) : c.getSetValues p = .ok s := by
  rw [getSetValues, h]

@[simp] lemma find_add (c : Condition α) (p q : String) :
    (c.add p).ports.find q = if q = p then some ((c.ports.find p).getD []) else c.ports.find q := by
  unfold add
  cases hp : c.ports.find p with
  | none => simp [hp]
  | some s =>
    by_cases hq : q = p
    · simp [hq, hp]
    · simp [hq]

@[simp] lemma find_addValueToPort (c : Condition α) (p q : String) (v : α) :
    (c.addValueToPort p v).ports.find q =
      if q = p then some ((c.ports.find p).getD [] ++ [v]) else c.ports.find q := by
  unfold addValueToPort
  split <;> simp [SortedMap.find_alter, *]

/-- After `add(p)`, `lastAddedPort()` is the set of `p`, holding the values it had. -/
lemma lastAddedPort_add (c : Condition α) (p : String) :
    (c.add p).lastAddedPort = .ok ((c.ports.find p).getD []) :=
  getSetValues_of_find (by rw [find_add]; exact if_pos rfl)

/-- After `addValueToPort(p, v)`, `lastAddedPort()` is the new set `{v}` when `p` was no port;
on an existing port it is what it was, `v` appended when `p` is the last port. -/
lemma lastAddedPort_addValueToPort (c : Condition α) (p : String) (v : α) :
    (c.addValueToPort p v).lastAddedPort =
      match c.ports.find p with
      | none => .ok [v]
      | some s => if c.mLastPort = p then .ok (s ++ [v]) else c.lastAddedPort := by
  unfold addValueToPort
  cases hp : c.ports.find p with
  | none => simp [lastAddedPort, getSetValues, hp]
  | some s =>
    by_cases hl : c.mLastPort = p <;> simp [lastAddedPort, getSetValues, SortedMap.find_alter, hl, hp]

/-! ## The first values -/

/-- Over ports that all hold a value, the loop succeeds: a port it has met gets its first value,
any other name keeps what `result` gave it. -/
lemma firstValuesFrom_ok (name : String) :
    ∀ (l : List (String × ValueSet α)) (result : ValueList α), (∀ e ∈ l, e.2 ≠ []) →
      (l.map Prod.fst).Nodup →
      ∃ vl, firstValuesFrom name l result = .ok vl ∧
        (∀ e ∈ l, vl.find e.1 = e.2.head?) ∧ ∀ p ∉ l.map Prod.fst, vl.find p = result.find p
  | [], result, _, _ => ⟨result, rfl, fun _ h => absurd h (List.not_mem_nil _), fun _ _ => rfl⟩
  | (q, s) :: rest, result, hne, hnd => by
    have hs : s ≠ [] := hne _ (List.mem_cons_self _ _)
    have hq : q ∉ rest.map Prod.fst := (List.nodup_cons.1 hnd).1
    obtain ⟨vl, hvl, hin, hout⟩ := firstValuesFrom_ok name rest (result.assign q (s.head hs))
      (fun e he => hne e (List.mem_cons_of_mem _ he)) (List.nodup_cons.1 hnd).2
    refine ⟨vl, ?_, fun e he => ?_, fun p hp => ?_⟩
    · rw [firstValuesFrom, if_pos (List.length_pos.2 hs), getValue_zero hs]
      exact hvl
    · rcases List.mem_cons.1 he with rfl | he
      · rw [hout _ hq, SortedMap.find_assign, if_pos rfl, List.head?_eq_head hs]
      · exact hin e he
    · simp only [List.map_cons, List.mem_cons, not_or] at hp
      rw [hout p hp.2, SortedMap.find_assign, if_neg hp.1]

/-- Over ports one of which holds no value, the loop throws. -/
lemma firstValuesFrom_raise (name : String) :
    ∀ (l : List (String × ValueSet α)) (result : ValueList α), (∃ e ∈ l, e.2 = []) →
      firstValuesFrom name l result = .raise (emptyFirstValues name)
  | (q, s) :: rest, result, ⟨e, he, hempty⟩ => by
    rw [firstValuesFrom]
    by_cases hs : s = []
    · simp [hs]
    · rw [if_pos (List.length_pos.2 hs), getValue_zero hs]
      refine firstValuesFrom_raise name rest _ ⟨e, ?_, hempty⟩
      rcases List.mem_cons.1 he with rfl | he
      · exact absurd hempty hs
      · exact he

/-- When every port holds a value, `firstValues` succeeds, and its list agrees with
`firstValue` on every port and throws on every other name. -/
theorem firstValues_agrees {c : Condition α} (h : ∀ e ∈ c.ports.entries, e.2 ≠ []) :
    ∃ vl, c.firstValues = .ok vl ∧ ∀ p,
      (p ∈ c.ports.keys → vl.get p = c.firstValue p) ∧
      (p ∉ c.ports.keys → vl.get p = .raise (unknownPort p)) := by
  obtain ⟨vl, hvl, hin, hout⟩ :=
    firstValuesFrom_ok c.mName c.ports.entries .empty h c.ports.nodup_keys
  refine ⟨vl, hvl, fun p => ⟨fun hp => ?_, fun hp => ?_⟩⟩
  · obtain ⟨⟨_, s⟩, he, rfl⟩ := List.mem_map.1 hp
    have hne : s ≠ [] := h _ he
    rw [ValueList.get, hin _ he, List.head?_eq_head hne, firstValue, nValue,
      getSetValues_of_find (SortedMap.find_of_mem he), Outcome.ok_bind, getValue_zero hne]
  · rw [ValueList.get, hout p hp, SortedMap.find_empty]

theorem firstValues_agrees_two_ports :
    let c : Condition ℕ :=
      ⟨"init", ⟨[("a", [1, 2]), ("b", [3])], List.pairwise_pair.2 (String.lt_iff_toList_lt.2 (by decide))⟩, "b"⟩
    (∀ e ∈ c.ports.entries, e.2 ≠ []) ∧ ∃ vl, c.firstValues = .ok vl ∧ ∀ p,
      (p ∈ c.ports.keys → vl.get p = c.firstValue p) ∧
      (p ∉ c.ports.keys → vl.get p = .raise (unknownPort p)) :=
  ⟨by decide, firstValues_agrees (by decide)⟩

/-- `firstValues` throws, naming the condition, exactly when some port holds no value. -/
theorem firstValues_raises_iff (c : Condition α) :
    c.firstValues = .raise (emptyFirstValues c.mName) ↔ ∃ e ∈ c.ports.entries, e.2 = [] := by
  refine ⟨fun hr => ?_, firstValuesFrom_raise c.mName c.ports.entries .empty⟩
  by_contra hno
  push_neg at hno
  obtain ⟨vl, hvl, -⟩ := firstValuesFrom_ok c.mName c.ports.entries .empty hno c.ports.nodup_keys
  rw [firstValues, hvl] at hr
  cases hr

end Condition

end Vle
