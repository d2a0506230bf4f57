import Vle.Devs.Coordinator.Bookkeeping

/-!
# Two-phase deletion over whole runs

A simulator that `delAtomicModel` unregisters is not freed at once: it is queued in
`m_deletedSimulator`, so that the callbacks still on the stack can finish, and `run()` frees the
first `m_toDelete` queued simulators at the end of the next instant.  `m_toDelete` is read at the
start of `run()` and refreshed, to the length of what is left of the queue, only when it was
positive:

```
SimulatorList::size_type oldToDelete(m_toDelete);
...
if (oldToDelete > 0) { ...; m_toDelete = m_deletedSimulator.size(); }
```

`init` sets it to `0`.  It therefore stays `0` for ever (`Reachable.toDelete_eq_zero`), and no
`run()` ever frees a simulator (`toDelete_never_refreshed`): the queue only grows, and the
simulators in it are leaked, as the destructor frees only those of `m_modelList`.

What the bookkeeping does guarantee holds whatever the counter: from any state whose books satisfy
`Book.Inv`, an instant keeps them so, and frees exactly the first `m_toDelete` simulators queued
before it began (`run_book`, `run_inv`).  Over every run this gives `destruction_safe`: no
simulator is freed twice, none is freed while registered, and the destructor frees only live
simulators.
-/

namespace Vle

namespace Coordinator

variable {σ : Type} (k : Kernel σ)
open Book

/-! ## Freeing the head of the queue -/

/-- Freeing the live simulators `l`, each once: all are freed, and recorded in order. -/
lemma freeSimulators_ok :
    ∀ {l : List SimId} {s : Coordinator σ}, l.Nodup → (∀ x ∈ l, x ≠ 0 ∧ s.book.allocated x = true) →
      ∃ s', freeSimulators l s = .ok s' ∧
        s'.book = { s.book with
          allocated := fun x => !decide (x ∈ l) && s.book.allocated x
          destroyed := s.book.destroyed ++ l }
  | [], s, _, _ => ⟨s, rfl, by simp [book]⟩
  | x :: l, s, hn, hl => by
    obtain ⟨hx0, hxa⟩ := hl x (List.mem_cons_self _ _)
    obtain ⟨sx, hsx⟩ := Option.isSome_iff_exists.1 hxa
    obtain ⟨hxl, hn⟩ := List.nodup_cons.1 hn
    let s1 : Coordinator σ :=
      { s with simulators := Function.update s.simulators x none, trace := s.trace ++ [.destroyed x] }
    have hb1 : s1.book = { s.book with
        allocated := Function.update s.book.allocated x false
        destroyed := s.book.destroyed ++ [x] } := by
      simp [s1, book, allocated_update]
    obtain ⟨s', h', hb⟩ := freeSimulators_ok (s := s1) hn fun y hy => by
      have hyx : y ≠ x := fun e => hxl (e ▸ hy)
      simpa [hb1, Function.update_noteq hyx] using hl y (List.mem_cons_of_mem _ hy)
    refine ⟨s', by simp [freeSimulators, hx0, hsx, h'], ?_⟩
    rw [hb, hb1]
    simp only [Book.mk.injEq, List.append_assoc, List.singleton_append, true_and, and_true]
    funext y
    by_cases hyx : y = x
    · subst hyx; simp
    · simp [Function.update_noteq hyx, hyx]

/-- The end of an instant on the books: nothing when `oldToDelete` is `0`, `Book.free` otherwise.
It is never stuck when the books satisfy the invariant and the range is in the queue. -/
lemma deleteQueued_book (old : Nat) {s : Coordinator σ} (hi : Inv s.book)
    (hold : old ≤ s.mDeletedSimulator.length) :
    ∃ s', deleteQueued old s = .ok s' ∧ s'.book = if 0 < old then s.book.free old else s.book := by
  by_cases h0 : 0 < old
  · have hsub : (s.mDeletedSimulator.take old).Sublist (s.book.registered.map Prod.snd ++ s.book.queued) :=
      (List.take_sublist _ _).trans (List.sublist_append_right _ _)
    obtain ⟨s2, h2, hb2⟩ := freeSimulators_ok (s := s) (l := s.mDeletedSimulator.take old)
      ((hi.nodup.sublist (List.sublist_append_left _ _)).sublist hsub)
      fun x hx => hi.live x (hsub.subset hx)
    refine ⟨{ s2 with
        mDeletedSimulator := s2.mDeletedSimulator.drop old
        mToDelete := (s2.mDeletedSimulator.drop old).length },
      by simp only [deleteQueued, if_pos h0, if_pos hold, h2, Outcome.ok_bind], ?_⟩
    simp only [book, Book.mk.injEq] at hb2
    obtain ⟨hr, hq, -, hn, ha, hd⟩ := hb2
    simp only [if_pos h0, book, Book.free, hr, hq, hn, ha, hd]
  · exact ⟨s, by simp [deleteQueued, h0], by simp [h0]⟩

/-! ## One instant -/

/-- **One instant on the books**: the drain only moves them, then the first `m_toDelete`
simulators queued before the instant are freed, when `m_toDelete` is positive. -/
lemma run_book {fuel : Nat} {s s' : Coordinator σ} (hi : Inv s.book) (h : run k fuel s = .ok s') :
    ∃ b, Moves s.book b ∧ s'.book = if 0 < s.mToDelete then b.free s.mToDelete else b := by
  obtain ⟨s2, h2, h⟩ := Outcome.bind_eq_ok.1 h
  obtain ⟨s3, h3, h⟩ := Outcome.bind_eq_ok.1 h
  obtain ⟨s4, h4, h⟩ := Outcome.bind_eq_ok.1 h
  cases h
  have hm : Moves s.book s2.book := book_popInstant s ▸ drain_rel (turns_moves k) h2
  obtain ⟨-, hq, -⟩ := hm.frame
  obtain ⟨s3', h3', hb3⟩ := deleteQueued_book s.mToDelete (hm.inv hi) (hi.toDelete_le.trans hq.length_le)
  rw [h3'] at h3
  cases h3
  exact ⟨s2.book, hm, by rw [book_mEventTable, processObservationEvents_book k h4, hb3]⟩

/-- **What an instant keeps and frees**: from books satisfying the invariant, `run()` keeps it,
frees exactly the first `m_toDelete` simulators queued before it began, and refreshes
`m_toDelete` only when it was positive. -/
theorem run_inv {fuel : Nat} {s s' : Coordinator σ} (hi : Inv s.book) (h : run k fuel s = .ok s') :
    Inv s'.book ∧
      destroyedSims s'.trace = destroyedSims s.trace ++ s.mDeletedSimulator.take s.mToDelete ∧
      s'.mToDelete = if 0 < s.mToDelete then s'.mDeletedSimulator.length else s.mToDelete := by
  obtain ⟨b, hm, hb⟩ := run_book k hi h
  obtain ⟨ht, hq, hd⟩ := hm.frame
  have hfree : b.queued.take s.mToDelete = s.mDeletedSimulator.take s.mToDelete := by
    obtain ⟨t, ht⟩ := hq
    rw [← ht]
    exact List.take_append_of_le_length hi.toDelete_le
  have hd' : destroyedSims s'.trace = s'.book.destroyed := rfl
  have ht' : s'.mToDelete = s'.book.toDelete := rfl
  have hq' : s'.mDeletedSimulator = s'.book.queued := rfl
  rw [hd', ht', hq', hb]
  by_cases h0 : 0 < s.mToDelete
  · simp only [if_pos h0]
    exact ⟨(hm.inv hi).free _, by simp [Book.free, hd, hfree, book], rfl⟩
  · simp only [if_neg h0]
    have : s.mToDelete = 0 := Nat.eq_zero_of_not_pos h0
    exact ⟨hm.inv hi, by simp [hd, this, book], by rw [ht]; rfl⟩

/-! ## Runs -/

/-- What each `addView` of `buildViews()` keeps holds of a new coordinator, when it holds of the
coordinator with no view. -/
lemma new_induction {P : Coordinator σ → Prop} (views : List (String × ViewType)) (g : Graph)
    (h0 : P ⟨0, [], [], 0, ⟨[], [], CompleteEventBagModel.nil, 0⟩, [], g, fun _ => none, 1, []⟩)
    (hv : ∀ (s : Coordinator σ) (v : String × ViewType), P s → P (s.addView ⟨v.1, v.2, []⟩)) :
    P (new views g) := by
  suffices ∀ (vs : List (String × ViewType)) (s : Coordinator σ), P s →
      P (vs.foldl (fun s v => s.addView ⟨v.1, v.2, []⟩) s) from this views _ h0
  intro vs
  induction vs with
  | nil => exact fun _ h => h
  | cons v vs ih => exact fun s h => ih _ (hv s v h)

@[simp] lemma book_addView (s : Coordinator σ) (v : View) : (s.addView v).book = s.book := by
  unfold addView
  split <;> rfl

/-- The books of a new coordinator: nothing registered, queued, allocated or freed. -/
lemma book_new (views : List (String × ViewType)) (g : Graph) :
    (new views g : Coordinator σ).book = ⟨[], [], 0, 1, fun _ => false, []⟩ :=
  new_induction (P := fun s => s.book = _) views g rfl fun s _ h => (book_addView s _).trans h

lemma addModels_moves {time : Time} :
    ∀ {atoms : List (ModelId × σ)} {s s' : Coordinator σ},
      addModels k time atoms s = .ok s' → Moves s.book s'.book
  | [], _, _, h => by cases h; exact .refl
  | (m, st) :: rest, s, s', h => by
    obtain ⟨s1, h1, h⟩ := Outcome.bind_eq_ok.1 h
    exact .head (newSimulator_move k h1) (addModels_moves h)

/-- The states a coordinator reaches: `init` on a new coordinator, then instant after instant. -/
inductive Reachable : Coordinator σ → Prop
  | init {views : List (String × ViewType)} {g : Graph} {time : Time} {atoms : List (ModelId × σ)}
      {s : Coordinator σ} : (new views g : Coordinator σ).init k time atoms = .ok s → Reachable s
  | run {fuel : Nat} {s s' : Coordinator σ} : Reachable s → s.run k fuel = .ok s' → Reachable s'

variable {k}

/-- After `init` the books satisfy the invariant, with `m_toDelete = 0`. -/
lemma init_inv {views : List (String × ViewType)} {g : Graph} {time : Time} {atoms : List (ModelId × σ)}
    {s : Coordinator σ} (h : (new views g : Coordinator σ).init k time atoms = .ok s) :
    Inv s.book ∧ s.mToDelete = 0 := by
  obtain ⟨s1, h1, h⟩ := Outcome.bind_eq_ok.1 h
  cases h
  have hm := addModels_moves k h1
  rw [book_new] at hm
  have hi : Inv s1.book := hm.inv ⟨le_refl _, List.nodup_nil, by simp, by simp, by simp, Nat.one_pos⟩
  exact ⟨{ hi with toDelete_le := Nat.zero_le _ }, rfl⟩

/-- **Every reachable state keeps the books' invariant.** -/
lemma Reachable.inv {s : Coordinator σ} (h : Reachable k s) : Inv s.book := by
  induction h with
  | init h => exact (init_inv h).1
  | run _ h ih => exact (run_inv k ih h).1

/-- `m_toDelete` is `0` in every reachable state: `init` sets it so, and `run()` refreshes it only
when it is positive. -/
lemma Reachable.toDelete_eq_zero {s : Coordinator σ} (h : Reachable k s) : s.mToDelete = 0 := by
  induction h with
  | init h => exact (init_inv h).2
  | run hr h ih =>
    rw [(run_inv k hr.inv h).2.2, ih]
    rfl

/-- `~Coordinator()` from books satisfying the invariant: it frees every registered simulator, and
no simulator is freed twice over the whole run; it is never stuck. -/
lemma destroy_ok {s : Coordinator σ} (hi : Inv s.book) :
    ∃ s', s.destroy = .ok s' ∧ destroyedSims s'.trace = destroyedSims s.trace ++ s.mModelList.map Prod.snd ∧
      (destroyedSims s'.trace).Nodup := by
  obtain ⟨s', h, hb⟩ := freeSimulators_ok (s := s) (l := s.mModelList.map Prod.snd)
    (hi.nodup.sublist ((List.sublist_append_left _ _).trans (List.sublist_append_left _ _)))
    fun x hx => hi.live x (List.mem_append_left _ hx)
  have hd : destroyedSims s'.trace = destroyedSims s.trace ++ s.mModelList.map Prod.snd :=
    congrArg Book.destroyed hb
  refine ⟨s', h, hd, ?_⟩
  rw [hd, List.nodup_append_comm]
  refine hi.nodup.sublist ?_
  rw [List.append_assoc]
  exact (List.sublist_append_right _ _).append_left _

/-! ## A simulator that deletes itself -/

/-- A coupled model `top` at `1` with one atomic child `E` at `2`. -/
def selfDeletingGraph : Graph := fun m =>
  if m = 1 then some (.coupled "top" [("E", 2)] []) else if m = 2 then some (.atomic "E") else none

/-- `E` counts its internal transitions.  The first, at time `1`, deletes `E` itself
(`delModel(top, "E")`) and asks for another internal event at time `2`, as every later one does. -/
def selfDeleting : Kernel Nat where
  dynamics :=
    { init := fun st _ => (st, some 1)
      confluentTransitions := fun _ _ _ => .EXTERNAL
      output := fun _ _ => []
      internalTransition := fun st _ => (st + 1, some 2, if st = 0 then [.delModel 1 "E"] else [])
      externalTransition := fun st _ _ => (st, none, [])
      request := fun _ _ _ => []
      observation := fun _ _ => none }
  getTargetPortList := fun _ _ _ => []
  getTargetPortList_atomic := by simp

/-- **No simulator is ever freed by `run()`.**  In every reachable state `m_toDelete` is `0`, so
an instant frees nothing.  On `selfDeleting`, the first instant queues the simulator of `E`
while `m_toDelete` stays `0`, and the second frees nothing: the queue is still `[1]`. -/
theorem toDelete_never_refreshed :
    (∀ {σ : Type} (k : Kernel σ) (s : Coordinator σ), Reachable k s → s.mToDelete = 0 ∧
      ∀ fuel s', s.run k fuel = .ok s' → destroyedSims s'.trace = destroyedSims s.trace) ∧
    ((new [] selfDeletingGraph : Coordinator Nat).init selfDeleting 0 [(2, 0)] >>= run selfDeleting 4 >>=
      fun s => .ok (s.mDeletedSimulator, s.mToDelete)) = .ok ([1], 0) ∧
    ((new [] selfDeletingGraph : Coordinator Nat).init selfDeleting 0 [(2, 0)] >>= run selfDeleting 4 >>=
      run selfDeleting 4 >>= fun s => .ok (s.mDeletedSimulator, destroyedSims s.trace)) = .ok ([1], []) := by
  refine ⟨fun k s hr => ⟨hr.toDelete_eq_zero, fun fuel s' h => ?_⟩, by decide, by decide⟩
  have := (run_inv k hr.inv h).2.1
  rwa [hr.toDelete_eq_zero, List.take_zero, List.append_nil] at this

/-- **A simulator that deletes itself is scheduled and run again.**  On `selfDeleting`, the
internal transition of `E` deletes `E`, and `processInternalEvent` still puts the internal event
the transition asked for; in the next instant the coordinator pops it and calls the output and
internal transition of the deleted simulator. -/
theorem deleted_simulator_rescheduled :
    ((new [] selfDeletingGraph : Coordinator Nat).init selfDeleting 0 [(2, 0)] >>= run selfDeleting 4 >>=
      run selfDeleting 4 >>= fun s => .ok s.trace) =
    .ok [.put (.internal ⟨1, 1⟩), .call 1 .output, .call 1 (.internal ⟨1, 1⟩), .deleted 1,
      .put (.internal ⟨2, 1⟩), .call 1 .output, .call 1 (.internal ⟨2, 1⟩), .put (.internal ⟨2, 1⟩)] := by
  decide

/-! ## Destruction safety -/

/-- **Destruction safety over every run.**  In every reachable state `m_toDelete` is within the
queue; no simulator is registered, queued or freed twice or in two places; an instant frees
exactly the first `m_toDelete` simulators queued before it, none of them registered after it; and
the destructor frees the registered simulators without freeing any twice. -/
theorem destruction_safe {s : Coordinator σ} (hr : Reachable k s) :
    s.mToDelete ≤ s.mDeletedSimulator.length ∧
    (s.mModelList.map Prod.snd ++ s.mDeletedSimulator ++ destroyedSims s.trace).Nodup ∧
    (∀ fuel s', s.run k fuel = .ok s' →
      destroyedSims s'.trace = destroyedSims s.trace ++ s.mDeletedSimulator.take s.mToDelete ∧
      ∀ x ∈ s.mDeletedSimulator.take s.mToDelete, x ∉ s'.mModelList.map Prod.snd) ∧
    ∃ s', s.destroy = .ok s' ∧ (destroyedSims s'.trace).Nodup := by
  have hi := hr.inv
  refine ⟨hi.toDelete_le, hi.nodup, fun fuel s' h => ?_, ?_⟩
  · obtain ⟨hi', hd, -⟩ := run_inv k hi h
    refine ⟨hd, fun x hx hreg => ?_⟩
    have hxd : x ∈ destroyedSims s'.trace := hd ▸ List.mem_append_right _ hx
    exact List.disjoint_of_nodup_append hi'.nodup (List.mem_append_left _ hreg) hxd
  · obtain ⟨s', h, -, hn⟩ := destroy_ok hi
    exact ⟨s', h, hn⟩

/-- `destruction_safe` after the first instant on `selfDeletingGraph`, in which `E` deleted
itself: its simulator `1` is queued, and no longer registered. -/
theorem destruction_safe_after_self_deletion :
    ∃ s₀ s : Coordinator Nat, (new [] selfDeletingGraph).init selfDeleting 0 [(2, 0)] = .ok s₀ ∧
      s₀.run selfDeleting 4 = .ok s ∧ s.mDeletedSimulator = [1] ∧ s.mModelList = [] ∧
      s.mToDelete ≤ s.mDeletedSimulator.length ∧
      (s.mModelList.map Prod.snd ++ s.mDeletedSimulator ++ destroyedSims s.trace).Nodup ∧
      (∀ fuel s', s.run selfDeleting fuel = .ok s' →
        destroyedSims s'.trace = destroyedSims s.trace ++ s.mDeletedSimulator.take s.mToDelete ∧
        ∀ x ∈ s.mDeletedSimulator.take s.mToDelete, x ∉ s'.mModelList.map Prod.snd) ∧
      ∃ s', s.destroy = .ok s' ∧ (destroyedSims s'.trace).Nodup :=
  have h₀ : (new [] selfDeletingGraph : Coordinator Nat).init selfDeleting 0 [(2, 0)] = _ := rfl
  have h₁ : Coordinator.run selfDeleting 4 _ = _ := by with_unfolding_all exact rfl
  ⟨_, _, h₀, h₁, by with_unfolding_all exact rfl, by with_unfolding_all exact rfl,
    destruction_safe (.run (.init h₀) h₁)⟩

end Coordinator

end Vle
