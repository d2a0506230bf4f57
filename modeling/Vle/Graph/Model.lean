import Mathlib.Data.List.Sort
import Mathlib.Data.String.Basic
import Mathlib.Logic.Function.Basic
import Vle.Utils.Outcome
import Vle.Utils.SortedMap

/-!
# The model graph

The coordinator edits the structure of the simulated system while it runs: executive models
create atomic models and delete atomic or coupled ones.  The structure is a tree of
`graph::Model`s, where a `CoupledModel` keeps its children in a `std::map<std::string, Model*>`
(its `ModelList`) and the connections between their ports.  The graph library itself is not
under `src/`; what the coordinator calls of it is modelled here from the spec.

A node is known by its address, `ModelId`, and the graph maps addresses to nodes; a deleted node
maps to nothing.

The coordinator walks a `ModelList` with an iterator while the loop body erases entries of that
same map.  An iterator into a `std::map` is modelled by the key it stands on: `++it` moves to the
next key, and is undefined once the entry under `it` has been erased (`nextKey`).
-/

namespace Vle

/-- `graph::Model*`: the address of a node of the model graph. -/
abbrev ModelId := Nat

/-- A connection inside a coupled model, from a port of one model to a port of another. -/
structure Connection where
  src : ModelId
  srcPort : String
  dst : ModelId
  dstPort : String
  deriving DecidableEq, Repr

/-- A node of the model graph: an atomic model, or a coupled model with its `ModelList`, kept in
key order as the `std::map` keeps it, and its connections. -/
inductive Node where
  | atomic (name : String)
  | coupled (name : String) (modelList : List (String × ModelId)) (connections : List Connection)
  deriving DecidableEq, Repr

namespace Node

/-- `getName()`. -/
def name : Node → String
  | atomic n => n
  | coupled n _ _ => n

/-- `isAtomic()`. -/
def isAtomic : Node → Bool
  | atomic _ => true
  | coupled .. => false

/-- `getModelList()`; an atomic model has none. -/
def modelList : Node → List (String × ModelId)
  | atomic _ => []
  | coupled _ l _ => l

end Node

/-- The model graph: the node at each address. -/
abbrev Graph := ModelId → Option Node

namespace Graph

/-- Whether the node at `m` is an atomic model. -/
def isAtomic (g : Graph) (m : ModelId) : Bool :=
  (g m).any Node.isAtomic

/-- `parent->findModel(name)`. -/
def findModel (g : Graph) (parent : ModelId) (name : String) : Option ModelId :=
  (g parent).bind fun n => n.modelList.lookup name

/-- The model list of `m`. -/
def modelList (g : Graph) (m : ModelId) : List (String × ModelId) :=
  ((g m).map Node.modelList).getD []

/-- Modelled from the spec: `parent->delAllConnection(m)` "removes all connections touching the
coupled boundary" of `m` in `parent`. -/
def delAllConnection (g : Graph) (parent m : ModelId) : Graph :=
  match g parent with
  | some (.coupled name l cs) =>
    Function.update g parent (some (.coupled name l (cs.filter fun c => c.src ≠ m ∧ c.dst ≠ m)))
  | _ => g

/-- Modelled from the spec: `parent->delModel(m)` "removes the node from its parent": the entry
of `m` is erased from the model list of `parent`, with the connections that touch `m`, and the
node is deleted. -/
def delModel (g : Graph) (parent m : ModelId) : Graph :=
  match g parent with
  | some (.coupled name l cs) =>
    Function.update
      (Function.update g parent
        (some (.coupled name (l.filter fun e => e.2 ≠ m) (cs.filter fun c => c.src ≠ m ∧ c.dst ≠ m))))
      m none
  | _ => g

/-- Modelled from the spec: `new graph::AtomicModel(name, parent)`, the node an executive builds
before asking the coordinator to create its simulator, at the fresh address `m`. -/
def addAtomicModel (g : Graph) (parent m : ModelId) (name : String) : Graph :=
  match g parent with
  | some (.coupled pname l cs) =>
    Function.update
      (Function.update g parent
        (some (.coupled pname (l.orderedInsert (fun a b => a.1 ≤ b.1) (name, m)) cs)))
      m (some (.atomic name))
  | _ => g

@[simp] lemma modelList_delAllConnection (g : Graph) (p m x : ModelId) :
    (g.delAllConnection p m).modelList x = g.modelList x := by
  unfold delAllConnection
  split
  · next name l cs hp =>
    by_cases hx : x = p
    · subst hx; simp [modelList, hp, Node.modelList]
    · simp [modelList, Function.update_noteq hx]
  · rfl

/-- Erasing `m` from the model list of `p` erases its key, keys being unique in a `std::map`. -/
lemma key_not_mem_delModel {g : Graph} {p m : ModelId} {key : String}
    (hk : ((g.modelList p).map Prod.fst).Nodup) (hm : (key, m) ∈ g.modelList p) :
    key ∉ ((g.delModel p m).modelList p).map Prod.fst := by
  unfold delModel
  split
  · next name l cs hp =>
    simp only [modelList, hp, Option.map_some', Option.getD_some, Node.modelList] at hk hm
    by_cases hpm : p = m
    · subst hpm; simp [modelList]
    · simp only [modelList, Function.update_noteq hpm, Function.update_same, Option.map_some',
        Option.getD_some, Node.modelList, List.mem_map, List.mem_filter, not_exists, not_and]
      intro e he hkey
      exact of_decide_eq_true he.2 (congrArg Prod.snd (List.inj_on_of_nodup_map hk he.1 hm hkey))
  · next hp =>
    exfalso
    revert hm
    unfold modelList
    cases h : g p with
    | none => simp
    | some n =>
      cases n with
      | atomic => simp [Node.modelList]
      | coupled name l cs => exact absurd h (hp name l cs)

end Graph

/-! ## Iterators into a `std::map` -/

section Iterators

variable {κ ν : Type} [DecidableEq κ]

/-- `begin()` of a map kept as its list of entries in key order (a `ModelList`, an
`AtomicModelList`): the first key, or `end()`. -/
def beginKey (l : List (κ × ν)) : Option κ :=
  l.head?.map Prod.fst

/-- `++it` on an iterator standing on the key `k`: the next key, or `end()`; undefined when the
entry under `it` is no longer in the map. -/
def nextKey (l : List (κ × ν)) (k : κ) : Outcome (Option κ) :=
  match l.dropWhile (fun e => e.1 ≠ k) with
  | [] => .undefined
  | _ :: rest => .ok (beginKey rest)

/-- Incrementing an iterator whose entry has been erased is undefined. -/
lemma nextKey_of_not_mem {k : κ} :
    ∀ {l : List (κ × ν)}, k ∉ l.map Prod.fst → nextKey l k = .undefined
  | [], _ => rfl
  | e :: l, h => by
    simp only [List.map_cons, List.mem_cons, not_or] at h
    rw [nextKey, List.dropWhile_cons_of_pos (by simpa using Ne.symm h.1)]
    exact nextKey_of_not_mem h.2

end Iterators

section Update

variable {α β : Type} [DecidableEq α]

/-- Replacing the entry of `a` by `b'` (`map[a] = b'` on a key of the map) keeps the keys. -/
lemma map_fst_update (l : List (α × β)) (a : α) (b' : β) :
    (l.map fun q => if q.1 = a then (q.1, b') else q).map Prod.fst = l.map Prod.fst := by
  rw [List.map_map]
  congr 1
  funext q
  simp only [Function.comp]
  split <;> rfl

/-- After replacing the entry of `a` by `b'`, an entry is an old one or `(a, b')`. -/
lemma mem_map_update {l : List (α × β)} {a : α} {b' : β} {p : α × β}
    (h : p ∈ l.map fun q => if q.1 = a then (q.1, b') else q) : p ∈ l ∨ p = (a, b') := by
  obtain ⟨q, hq, rfl⟩ := List.mem_map.1 h
  split
  · next he => exact .inr (he ▸ rfl)
  · exact .inl hq

end Update

end Vle
