import Mathlib.Data.List.Nodup
import Mathlib.Logic.Relation
import Vle.Devs.Coordinator.Executive

/-!
# What an instant does to the simulators' lifetimes

Two-phase deletion keeps its books in four places: the registered simulators (`m_modelList`), the
queue of simulators deleted but not yet freed (`m_deletedSimulator`), the counter `m_toDelete`,
and the heap, from which `run()` frees the head of the queue.  `Book` is that part of the state,
`Coordinator.book` the projection.

During an instant, the only changes to the books are two **moves**: `delAtomicModel` takes a
registered simulator out of `m_modelList` and queues it (`Move.unregister`), and the model
factory registers a simulator at a fresh address (`Move.register`).  Everything else the drain
does (routing, transitions, views, the table) leaves the books as they were.  After the drain,
`run()` frees the head of the queue (`Book.free`).  This file proves that for the pieces of an
instant (`turns_moves`), from which `drain_rel` gives it for the whole drain, and what the moves
and the freeing keep:

* `Moves.frame` — `m_toDelete` and the freed simulators do not change, and the queue only grows
  at its end;
* `Moves.inv`, `Inv.free` — the invariant `Book.Inv`: the counter within the queue, no simulator
  in two places or twice in one, the listed simulators allocated or freed as they should be.
-/

namespace Vle

/-- The simulators the trace records as freed, in order. -/
def destroyedSims (t : List Trace) : List SimId :=
  t.filterMap fun
    | .destroyed x => some x
    | _ => none

@[simp] lemma destroyedSims_append (t t' : List Trace) :
    destroyedSims (t ++ t') = destroyedSims t ++ destroyedSims t' := by
  simp [destroyedSims, List.filterMap_append]

@[simp] lemma destroyedSims_call (sim : SimId) (cb : Callback) :
    destroyedSims [.call sim cb] = [] := rfl

@[simp] lemma destroyedSims_put (e : Event) : destroyedSims [.put e] = [] := rfl

@[simp] lemma destroyedSims_deleted (sim : SimId) : destroyedSims [.deleted sim] = [] := rfl

@[simp] lemma destroyedSims_destroyed (sim : SimId) : destroyedSims [.destroyed sim] = [sim] := rfl

/-- The books of the two-phase deletion. -/
structure Book where
  registered : List (ModelId × SimId)
  queued : List SimId
  toDelete : Nat
  nextSim : SimId
  allocated : SimId → Bool
  destroyed : List SimId

namespace Coordinator

variable {σ : Type}

/-- The books of a coordinator. -/
def book (s : Coordinator σ) : Book :=
  ⟨s.mModelList, s.mDeletedSimulator, s.mToDelete, s.nextSim, fun x => (s.simulators x).isSome,
    destroyedSims s.trace⟩

@[simp] lemma book_log (s : Coordinator σ) (sim : SimId) (cb : Callback) :
    (s.log (.call sim cb)).book = s.book := by
  simp [book, log]

@[simp] lemma book_put (s : Coordinator σ) (e : Event) : (s.put e).book = s.book := by
  simp [book, put]

@[simp] lemma book_putNext (s : Coordinator σ) (sim : SimId) (next : Option Time) :
    (s.putNext sim next).book = s.book := by
  cases next <;> simp [putNext]

@[simp] lemma book_modifyBag (s : Coordinator σ) (sim : SimId) (f : EventBagModel → EventBagModel) :
    (s.modifyBag sim f).book = s.book := rfl

/-- Allocating or freeing the simulator at `n`. -/
lemma allocated_update (f : SimId → Option (Simulator σ)) (n : SimId) (v : Option (Simulator σ)) :
    (fun x => (Function.update f n v x).isSome) = Function.update (fun x => (f x).isSome) n v.isSome := by
  funext x
  by_cases hx : x = n
  · subst hx; simp
  · simp [Function.update_noteq hx]

@[simp] lemma book_setState (s : Coordinator σ) (sim : SimId) (st : σ) :
    (s.setState sim st).book = s.book := by
  simp [book, setState, allocated_update]

@[simp] lemma book_mViewList (s : Coordinator σ) (v : List (String × View)) :
    ({ s with mViewList := v }).book = s.book := rfl

@[simp] lemma book_mEventTable (s : Coordinator σ) (t : EventTable) :
    ({ s with mEventTable := t }).book = s.book := rfl

@[simp] lemma book_graph (s : Coordinator σ) (g : Graph) : ({ s with graph := g }).book = s.book := rfl

@[simp] lemma book_popInstant (s : Coordinator σ) : s.popInstant.book = s.book := by
  simp only [popInstant]
  split <;> rfl

end Coordinator

namespace Book

/-- One move of the books during an instant: `delAtomicModel` unregisters the simulator of
`atom` and queues it, or the model factory registers a simulator at the next address. -/
inductive Move : Book → Book → Prop
  | unregister {b : Book} {atom : ModelId} {x : SimId} (h : b.registered.lookup atom = some x) :
      Move b { b with registered := b.registered.filter (·.1 ≠ atom), queued := b.queued ++ [x] }
  | register {b : Book} {model : ModelId} (h : b.registered.lookup model = none) :
      Move b { b with
        registered := b.registered.orderedInsert (fun a b => a.1 ≤ b.1) (model, b.nextSim)
        nextSim := b.nextSim + 1
        allocated := Function.update b.allocated b.nextSim true }

/-- Any number of moves. -/
abbrev Moves : Book → Book → Prop := Relation.ReflTransGen Move

/-- What the books keep: `m_toDelete` within the queue; no simulator registered, queued or freed
twice or in two places; registered and queued simulators live at non-null addresses below the
allocator's next one, freed ones gone from the heap. -/
structure Inv (b : Book) : Prop where
  toDelete_le : b.toDelete ≤ b.queued.length
  nodup : (b.registered.map Prod.snd ++ b.queued ++ b.destroyed).Nodup
  live : ∀ x ∈ b.registered.map Prod.snd ++ b.queued, x ≠ 0 ∧ b.allocated x = true
  below : ∀ x ∈ b.registered.map Prod.snd ++ b.queued ++ b.destroyed, x < b.nextSim
  dead : ∀ x ∈ b.destroyed, b.allocated x = false
  nextSim_pos : 0 < b.nextSim

/-- What a move keeps: the counter, the queue as a prefix, the freed simulators. -/
lemma Move.frame {b b' : Book} (h : Move b b') :
    b'.toDelete = b.toDelete ∧ b.queued <+: b'.queued ∧ b'.destroyed = b.destroyed := by
  cases h with
  | unregister => exact ⟨rfl, List.prefix_append _ _, rfl⟩
  | register => exact ⟨rfl, List.prefix_refl _, rfl⟩

lemma Moves.frame {b b' : Book} (h : Moves b b') :
    b'.toDelete = b.toDelete ∧ b.queued <+: b'.queued ∧ b'.destroyed = b.destroyed := by
  induction h with
  | refl => exact ⟨rfl, List.prefix_refl _, rfl⟩
  | tail _ hm ih =>
    obtain ⟨h1, h2, h3⟩ := hm.frame
    exact ⟨h1.trans ih.1, ih.2.1.trans h2, h3.trans ih.2.2⟩

lemma nodup_of_subperm {l₁ l₂ : List SimId} (h : l₁.Subperm l₂) (hn : l₂.Nodup) : l₁.Nodup := by
  obtain ⟨l, hp, hs⟩ := h
  exact hp.nodup_iff.1 (hn.sublist hs)

/-- Unregistering `x` and queueing it moves it from one list to the other. -/
lemma unregister_subperm {r : List (ModelId × SimId)} {atom : ModelId} {x : SimId}
    (h : r.lookup atom = some x) (q d : List SimId) :
    ((r.filter (·.1 ≠ atom)).map Prod.snd ++ (q ++ [x]) ++ d).Subperm (r.map Prod.snd ++ q ++ d) := by
  have hx : (atom, x) ∈ r := mem_of_lookup h
  have hsplit : ((r.filter (·.1 ≠ atom)).map Prod.snd ++ [x]).Subperm (r.map Prod.snd) := by
    refine .trans ?_ ((List.filter_append_perm (fun e => decide (e.1 ≠ atom)) r).map Prod.snd).subperm
    rw [List.map_append]
    refine (List.subperm_append_left _).2 (List.singleton_subperm_iff.2 ?_)
    exact List.mem_map.2 ⟨(atom, x), List.mem_filter.2 ⟨hx, by simp⟩, rfl⟩
  refine List.Subperm.trans (List.Perm.subperm ?_) ((List.subperm_append_right d).2
    ((List.subperm_append_right q).2 hsplit))
  simp only [List.append_assoc, List.singleton_append]
  exact List.perm_middle.append_left _

/-- **Every move keeps the invariant.** -/
lemma Move.inv {b b' : Book} (h : Move b b') (hi : Inv b) : Inv b' := by
  cases h with
  | @unregister atom x hx =>
    have hmem : x ∈ b.registered.map Prod.snd := List.mem_map_of_mem Prod.snd (mem_of_lookup hx)
    have hsub := unregister_subperm hx b.queued b.destroyed
    refine ⟨?_, nodup_of_subperm hsub hi.nodup, fun y hy => hi.live y ?_, fun y hy => hi.below y ?_,
      hi.dead, hi.nextSim_pos⟩
    · simpa using hi.toDelete_le.trans (Nat.le_succ _)
    · rcases List.mem_append.1 hy with hy | hy
      · exact List.mem_append_left _ (List.map_subset _ (List.filter_sublist _).subset hy)
      · rcases List.mem_append.1 hy with hy | hy
        · exact List.mem_append_right _ hy
        · exact List.mem_append_left _ (List.mem_singleton.1 hy ▸ hmem)
    · exact hsub.subset hy
  | @register model hm =>
    have hfresh : ∀ y ∈ b.registered.map Prod.snd ++ b.queued ++ b.destroyed, y ≠ b.nextSim :=
      fun y hy => (hi.below y hy).ne
    have hperm : ((b.registered.orderedInsert (fun a b => a.1 ≤ b.1) (model, b.nextSim)).map
        Prod.snd).Perm (b.nextSim :: b.registered.map Prod.snd) :=
      (List.perm_orderedInsert _ _ _).map Prod.snd
    refine ⟨hi.toDelete_le, ?_, fun y hy => ?_, fun y hy => ?_, fun y hy => ?_, Nat.succ_pos _⟩
    · rw [((hperm.append_right _).append_right _).nodup_iff]
      exact List.nodup_cons.2 ⟨fun h' => hfresh _ h' rfl, hi.nodup⟩
    · rw [(hperm.append_right _).mem_iff] at hy
      rcases List.mem_cons.1 hy with rfl | hy
      · exact ⟨hi.nextSim_pos.ne', by simp⟩
      · have hne : y ≠ b.nextSim := hfresh y (List.mem_append_left _ hy)
        simpa [Function.update_noteq hne] using hi.live y hy
    · rw [((hperm.append_right _).append_right _).mem_iff] at hy
      rcases List.mem_cons.1 hy with rfl | hy
      · exact Nat.lt_succ_self _
      · exact (hi.below y hy).trans (Nat.lt_succ_self _)
    · have hne : y ≠ b.nextSim := hfresh y (List.mem_append_right _ hy)
      simpa [Function.update_noteq hne] using hi.dead y hy

lemma Moves.inv {b b' : Book} (h : Moves b b') (hi : Inv b) : Inv b' := by
  induction h with
  | refl => exact hi
  | tail _ hm ih => exact hm.inv ih

/-- The books once the first `n` queued simulators are freed and erased, and the counter
refreshed: the end of an instant. -/
def free (b : Book) (n : Nat) : Book :=
  { b with
    queued := b.queued.drop n
    toDelete := (b.queued.drop n).length
    allocated := fun x => !decide (x ∈ b.queued.take n) && b.allocated x
    destroyed := b.destroyed ++ b.queued.take n }

/-- Freeing the head of the queue moves it from the queue to the freed simulators. -/
lemma free_perm (b : Book) (n : Nat) :
    ((b.free n).registered.map Prod.snd ++ (b.free n).queued ++ (b.free n).destroyed).Perm
      (b.registered.map Prod.snd ++ b.queued ++ b.destroyed) := by
  simp only [free, List.append_assoc]
  refine List.Perm.append_left _ ?_
  conv_rhs => rw [← List.take_append_drop n b.queued, List.append_assoc]
  rw [← List.append_assoc]
  exact List.perm_append_comm

/-- **Freeing the head of the queue keeps the invariant.** -/
lemma Inv.free {b : Book} (hi : Inv b) (n : Nat) : Inv (b.free n) := by
  have hp := free_perm b n
  have hnd : ((b.free n).registered.map Prod.snd ++ (b.free n).queued ++ (b.free n).destroyed).Nodup :=
    hp.nodup_iff.2 hi.nodup
  refine ⟨le_refl _, hnd, fun x hx => ?_, fun x hx => hi.below x (hp.subset hx), fun x hx => ?_,
    hi.nextSim_pos⟩
  · have hxt : x ∉ b.queued.take n := fun h' =>
      List.disjoint_of_nodup_append hnd hx (List.mem_append_right _ h')
    have hx' : x ∈ b.registered.map Prod.snd ++ b.queued := by
      rcases List.mem_append.1 hx with hx | hx
      · exact List.mem_append_left _ hx
      · exact List.mem_append_right _ (List.mem_of_mem_drop hx)
    simpa [Book.free, hxt] using hi.live x hx'
  · simp only [Book.free, List.mem_append] at hx ⊢
    rcases hx with hx | hx
    · simp [hi.dead x hx]
    · simp [hx]

end Book

/-! ## What each function of an instant does to the books -/

namespace Coordinator

variable {σ : Type} (k : Kernel σ)
open Book

/-! Subscribing a simulator to a view and the observations of an instant leave the books as they
are. -/

lemma addObservableToView_book {model : ModelId} {port view : String} {s s' : Coordinator σ}
    (h : addObservableToView model port view s = .ok s') : s'.book = s.book := by
  obtain ⟨-, -, -, s1, rfl, rfl | ⟨e, -, rfl⟩⟩ := addObservableToView_eq h <;> simp

lemma processObservationEvents_book :
    ∀ {l : List ObservationEvent} {s s' : Coordinator σ},
      processObservationEvents k l s = .ok s' → s'.book = s.book
  | [], _, _, h => by cases h; rfl
  | e :: rest, s, s', h => by
    simp only [processObservationEvents, Outcome.ok_bind, Outcome.undefined_bind] at h
    split at h
    · split at h
      · rw [processObservationEvents_book h, book_log]
      · split at h
        · cases h
        · rw [processObservationEvents_book h]
          split <;> simp
    · cases h

/-! Deleting and creating models move the books. -/

lemma delAtomicModel_move {parent atom : ModelId} {s s' : Coordinator σ}
    (h : delAtomicModel parent atom s = .ok s') : Move s.book s'.book := by
  obtain ⟨satom, hl, rfl⟩ := delAtomicModel_eq h
  convert Move.unregister (b := s.book) hl using 1
  simp [book]

lemma newSimulator_move {model : ModelId} {st : σ} {time : Time} {s s' : Coordinator σ}
    (h : newSimulator k model st time s = .ok s') : Move s.book s'.book := by
  obtain ⟨hl, rfl⟩ := newSimulator_eq h
  convert Move.register (b := s.book) hl using 1
  rw [book_putNext]
  simp [book, allocated_update]

/-- **The functions of an instant only move the books**: the executive moves them, and logging,
putting, storing a state and editing a bag leave them alone. -/
lemma turns_moves : Turns k fun s s' : Coordinator σ => Moves s.book s'.book where
  refl _ := .refl
  trans := .trans
  graph _ _ := .refl
  createModel h := .single (newSimulator_move k h :)
  addObservableToView h := addObservableToView_book h ▸ .refl
  delAtomicModel h := .single (delAtomicModel_move h)
  log s sim cb := book_log s sim cb ▸ .refl
  put s e _ := book_put s e ▸ .refl
  setState s sim _ st _ _ := book_setState s sim st ▸ .refl
  modifyBag s sim f := book_modifyBag s sim f ▸ .refl

end Coordinator

end Vle
