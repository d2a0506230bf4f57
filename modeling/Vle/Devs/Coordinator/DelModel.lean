import Vle.Devs.Coordinator.Executive

/-!
# Deleting a coupled model

`delCoupledModel(parent, mdl)` walks the model list of `mdl` with an iterator and deletes the
child under it:

```
for (graph::ModelList::iterator it = lst.begin(); it != lst.end(); ++it) {
    if (it->second->isAtomic()) delAtomicModel(mdl, ...);
    else if (it->second->isCoupled()) delCoupledModel(mdl, ...);
}
```

Both branches end in `mdl->delModel(child)`, which erases the child's entry from that same
`std::map` (`Graph.delModel`, after the spec: "removes the node from its parent").  The iterator
then stands on an erased entry, and `++it` is undefined.  So the loop never gets past its first
child: whatever the tree, deleting a coupled model that has a child never completes
(`delCoupledModel_ne_ok`), and on the smallest tree with two atomic children the first `++it` is
undefined (`delModel_coupled_undefined`).  The erase idiom of `NoVLEs::fusion`, which moves the
iterator on before erasing, is what the loop lacks.

Keys are unique in a `std::map`; on the model `ModelList`s are lists, so the results assume
every list of the graph has distinct keys.
-/

namespace Vle

namespace Coordinator

variable {σ : Type}

/-- Deleting an atomic model erases it from its parent in the graph. -/
lemma delAtomicModel_graph {parent atom : ModelId} {s s' : Coordinator σ}
    (h : delAtomicModel parent atom s = .ok s') : s'.graph = s.graph.delModel parent atom := by
  obtain ⟨-, -, rfl⟩ := delAtomicModel_eq h
  rfl

/-- Deleting a coupled model with no child only edits the graph. -/
lemma delCoupledModel_graph_of_nil {fuel : Nat} {parent mdl : ModelId} {s s' : Coordinator σ}
    (hnil : s.graph.modelList mdl = []) (h : delCoupledModel fuel parent mdl s = .ok s') :
    s'.graph = (s.graph.delAllConnection parent mdl).delModel parent mdl := by
  cases fuel with
  | zero => cases h
  | succ fuel =>
    obtain ⟨-, -, h⟩ := Outcome.bind_eq_ok.1 h
    obtain ⟨s1, h1, h⟩ := Outcome.bind_eq_ok.1 h
    rw [hnil, beginKey, List.head?_nil, Option.map_none', delChildren] at h1
    cases h1
    cases h
    rfl

/-- **The loop of `delCoupledModel` never gets past its first child.**  When `mdl` has a child,
deleting it erases the entry under the iterator, and the `++it` that follows is undefined, unless
the deletion of the child already failed. -/
theorem delCoupledModel_ne_ok :
    ∀ {fuel : Nat} {parent mdl : ModelId} {s s' : Coordinator σ},
      (∀ m, ((s.graph.modelList m).map Prod.fst).Nodup) → s.graph.modelList mdl ≠ [] →
      delCoupledModel fuel parent mdl s ≠ .ok s'
  | 0, _, _, _, _, _, _, h => by cases h
  | fuel + 1, parent, mdl, s, s', hk, hne, h => by
    obtain ⟨-, -, h⟩ := Outcome.bind_eq_ok.1 h
    obtain ⟨s1, h1, -⟩ := Outcome.bind_eq_ok.1 h
    obtain ⟨⟨key, c⟩, rest, hl⟩ := List.exists_cons_of_ne_nil hne
    have hmem : (key, c) ∈ s.graph.modelList mdl := hl ▸ List.mem_cons_self _ _
    -- once the child `c` under the iterator is deleted, `++it` is undefined
    have hnext : ∀ {g : Graph}, g.modelList mdl = s.graph.modelList mdl →
        nextKey ((g.delModel mdl c).modelList mdl) key = .undefined := fun hg =>
      nextKey_of_not_mem (Graph.key_not_mem_delModel (hg ▸ hk mdl) (hg ▸ hmem))
    cases fuel with
    | zero => rw [hl] at h1; cases h1
    | succ fuel =>
      rw [hl, beginKey, List.head?_cons, Option.map_some', delChildren] at h1
      dsimp only at h1
      rw [hl, List.lookup_cons_self] at h1
      dsimp only at h1
      split at h1
      · obtain ⟨s2, h2, h1⟩ := Outcome.bind_eq_ok.1 h1
        rw [delAtomicModel_graph h2, hnext rfl] at h1
        cases h1
      · obtain ⟨s2, h2, h1⟩ := Outcome.bind_eq_ok.1 h1
        by_cases hc : s.graph.modelList c = []
        · rw [delCoupledModel_graph_of_nil hc h2, hnext (Graph.modelList_delAllConnection ..)] at h1
          cases h1
        · exact delCoupledModel_ne_ok hk hc h2
      · cases h1

/-- A coupled model `M` at `3` under `top` at `1`, with two atomic children `a` at `4` and `b`
at `5`, `a` connected to `b`. -/
def nestedGraph : Graph := fun m =>
  if m = 1 then some (.coupled "top" [("M", 3)] [])
  else if m = 3 then some (.coupled "M" [("a", 4), ("b", 5)] [⟨4, "out", 5, "in"⟩])
  else if m = 4 then some (.atomic "a")
  else if m = 5 then some (.atomic "b")
  else none

/-- Models that never schedule, send or create anything. -/
def idle : Kernel Unit where
  dynamics :=
    { init := fun st _ => (st, none)
      confluentTransitions := fun _ _ _ => .EXTERNAL
      output := fun _ _ => []
      internalTransition := fun st _ => (st, none, [])
      externalTransition := fun st _ _ => (st, none, [])
      request := fun _ _ _ => []
      observation := fun _ _ => none }
  getTargetPortList := fun _ _ _ => []
  getTargetPortList_atomic := by simp

/-- **`delModel` of a coupled model with a child never completes.**  For every graph whose model
lists have distinct keys, `delModel(parent, name)` of a coupled model with at least one child is
never `ok`.  On `nestedGraph`, with a simulator for `a` and `b`, `delModel(top, "M")` is
undefined: `a` is deleted and erased from the model list of `M`, and the `++it` that follows runs
on the erased entry. -/
theorem delModel_coupled_undefined :
    (∀ {σ : Type} (fuel : Nat) (parent mdl : ModelId) (name : String) (s s' : Coordinator σ),
      (∀ m, ((s.graph.modelList m).map Prod.fst).Nodup) →
      s.graph.findModel parent name = some mdl → s.graph.modelList mdl ≠ [] →
      delModel fuel parent name s ≠ .ok s') ∧
    ((new [] nestedGraph : Coordinator Unit).init idle 0 [(4, ()), (5, ())] >>= delModel 4 1 "M" >>=
      fun _ => .ok ()) = .undefined := by
  refine ⟨fun fuel parent mdl name s s' hk hfind hne h => ?_, by decide⟩
  rw [delModel] at h
  split at h
  · rw [hfind] at h
    dsimp only at h
    split at h
    · exact delCoupledModel_ne_ok hk hne h
    · next n hn => simp [Graph.modelList, hn, Node.modelList] at hne
    · cases h
  · cases h

end Coordinator

end Vle
