import Vle.Devs.Coordinator.TwoPhase

/-!
# One event per simulator

`putInternalEvent(e)` replaces the pending internal event of the simulator of `e`, and the
complete bag of an instant keeps one bag per simulator.  So the table holds at most one next
internal event per simulator, and an instant at most one bag per simulator
(`EventTable.Scheduled`).

* `popEvent` makes the bags of an instant from the internal events it pops, one bag per event, so
  their keys are distinct because the simulators of those events are (`Scheduled.popEvent`).
* Routing adds to the bag of a simulator, or appends a bag for a simulator that has none
  (`nodup_modifyBag`); a deletion drops events and empties bags but keeps the keys.
* Hence every function of an instant keeps the table scheduled (`turns_scheduled`), and so does
  `run()` (`run_scheduled`): **every reachable state schedules each simulator at most once**
  (`Reachable.scheduled`).
* In a scheduled instant the bag that `topBag()` names is the bag the inner loop drains, so that
  loop runs at least one turn on it (`drainBag_of_topBag`); every instant of a reachable state
  starts scheduled (`scheduled_popInstant`) and stays so (`turns_scheduled`).  With two bags for
  one simulator the outer loop could pick it for its second bag while the inner loop reads the
  first, empty one, and turn without progress.
-/

namespace Vle

namespace CompleteEventBagModel

/-- `modifyBag` changes a bag in place, or appends one for a simulator that has none: the keys
stay distinct. -/
lemma nodup_modifyBag {c : CompleteEventBagModel} (h : (c.bags.map Prod.fst).Nodup) (sim : SimId)
    (f : EventBagModel → EventBagModel) : ((c.modifyBag sim f).bags.map Prod.fst).Nodup := by
  unfold modifyBag
  split
  · simpa [List.map_map, Function.comp_def] using h
  · next hn =>
    rw [List.map_append, List.nodup_append]
    refine ⟨h, List.nodup_singleton _, fun x hx hy => hn ?_⟩
    obtain ⟨p, hp, rfl⟩ := List.mem_map.1 hx
    rw [show sim = p.1 by simpa [eq_comm] using hy, lookup_of_mem h hp]
    rfl

/-- In a map of bags with one bag per simulator, the simulator `topBag()` names has a bag that
is not empty. -/
lemma topBag_bag {c : CompleteEventBagModel} (h : (c.bags.map Prod.fst).Nodup) {sim : SimId}
    (ht : c.topBag = some sim) : (c.bag sim).empty = false := by
  obtain ⟨p, hp, rfl⟩ := Option.map_eq_some'.1 ht
  rw [bag, lookup_of_mem h (List.mem_of_find?_eq_some hp)]
  simpa using List.find?_some hp

end CompleteEventBagModel

/-! ## One internal event and one bag per simulator -/

namespace EventTable

/-- The table holds at most one pending internal event per simulator, and the instant at most
one bag per simulator. -/
structure Scheduled (tb : EventTable) : Prop where
  internals : (tb.internals.map (·.model)).Nodup
  bags : (tb.current.bags.map Prod.fst).Nodup

lemma Scheduled.putInternalEvent {tb : EventTable} (h : tb.Scheduled) (e : InternalEvent) :
    (tb.putInternalEvent e).Scheduled := by
  refine ⟨?_, h.bags⟩
  simp only [EventTable.putInternalEvent, List.map_append, List.nodup_append]
  refine ⟨h.internals.sublist ((List.filter_sublist _).map _), List.nodup_singleton _, fun x hx hy => ?_⟩
  obtain ⟨e', he', rfl⟩ := List.mem_map.1 hx
  exact of_decide_eq_true (List.mem_filter.1 he').2 (List.eq_of_mem_singleton hy)

lemma Scheduled.modifyBag {tb : EventTable} (h : tb.Scheduled) (sim : SimId)
    (f : EventBagModel → EventBagModel) : { tb with current := tb.current.modifyBag sim f }.Scheduled :=
  ⟨h.internals, CompleteEventBagModel.nodup_modifyBag h.bags sim f⟩

lemma Scheduled.delModelEvents {tb : EventTable} (h : tb.Scheduled) (sim : SimId) :
    (tb.delModelEvents sim).Scheduled := by
  refine ⟨h.internals.sublist ((List.filter_sublist _).map _), ?_⟩
  have hk : (tb.current.bags.map fun p => if p.1 = sim then (p.1, EventBagModel.nil)
      else (p.1, p.2.forget sim)).map Prod.fst = tb.current.bags.map Prod.fst := by
    rw [List.map_map]
    congr 1
    funext p
    simp only [Function.comp]
    split <;> rfl
  exact hk ▸ h.bags

/-- Popping the table at its next time makes one bag per internal event due then, each of another
simulator. -/
lemma Scheduled.popEvent {tb : EventTable} (h : tb.Scheduled) : tb.popEvent.Scheduled := by
  unfold EventTable.popEvent
  split
  · exact ⟨h.internals, List.nodup_nil⟩
  · refine ⟨h.internals.sublist ((List.filter_sublist _).map _), ?_⟩
    rw [List.map_map]
    exact h.internals.sublist ((List.filter_sublist _).map _)

end EventTable

namespace Coordinator

variable {σ : Type} {k : Kernel σ}

lemma scheduled_put {s : Coordinator σ} {e : Event} (hs : s.mEventTable.Scheduled) :
    (s.put e).mEventTable.Scheduled := by
  cases e with
  | internal e => exact hs.putInternalEvent e
  | external e => exact hs.modifyBag _ _
  | request e => exact hs.modifyBag _ _
  | observation e => exact ⟨hs.internals, hs.bags⟩

lemma scheduled_putNext {s : Coordinator σ} {sim : SimId} {next : Option Time}
    (hs : s.mEventTable.Scheduled) : (s.putNext sim next).mEventTable.Scheduled := by
  cases next with
  | none => exact hs
  | some t => exact scheduled_put hs

lemma newSimulator_scheduled {model : ModelId} {st : σ} {time : Time} {s s' : Coordinator σ}
    (h : newSimulator k model st time s = .ok s') (hs : s.mEventTable.Scheduled) :
    s'.mEventTable.Scheduled := by
  obtain ⟨-, rfl⟩ := newSimulator_eq h
  exact scheduled_putNext hs

/-- **Every function of an instant keeps the table scheduled.** -/
lemma turns_scheduled : Turns k fun s s' : Coordinator σ => s.mEventTable.Scheduled → s'.mEventTable.Scheduled where
  refl _ := id
  trans h₁ h₂ := h₂ ∘ h₁
  graph _ _ := id
  createModel h hs := (newSimulator_scheduled h hs :)
  addObservableToView h hs := by
    obtain ⟨-, -, -, s1, rfl, rfl | ⟨e, -, rfl⟩⟩ := addObservableToView_eq h
    · exact hs
    · exact scheduled_put hs
  delAtomicModel h hs := by
    obtain ⟨-, -, rfl⟩ := delAtomicModel_eq h
    exact hs.delModelEvents _
  log _ _ _ := id
  put _ _ _ hs := scheduled_put hs
  setState _ _ _ _ _ _ := id
  modifyBag _ _ _ hs := hs.modifyBag _ _

/-- The observations of an instant only put observations. -/
lemma processObservationEvents_scheduled :
    ∀ {l : List ObservationEvent} {s s' : Coordinator σ}, processObservationEvents k l s = .ok s' →
      s.mEventTable.Scheduled → s'.mEventTable.Scheduled
  | [], _, _, h => by cases h; exact id
  | e :: rest, s, s', h => fun hs => by
    simp only [processObservationEvents, Outcome.ok_bind, Outcome.undefined_bind] at h
    split at h
    · split at h
      · exact processObservationEvents_scheduled h hs
      · split at h
        · cases h
        · split at h
          · exact processObservationEvents_scheduled h (scheduled_put hs)
          · exact processObservationEvents_scheduled h hs
    · cases h

/-- Popping the table starts a scheduled instant: one bag per simulator due. -/
lemma scheduled_popInstant {s : Coordinator σ} (hs : s.mEventTable.Scheduled) :
    s.popInstant.mEventTable.Scheduled := by
  simp only [popInstant]
  split <;> exact hs.popEvent

/-- `run()` keeps the table scheduled: it pops the table, drains the instant, and empties the
complete bag. -/
lemma run_scheduled {fuel : Nat} {s s' : Coordinator σ} (h : run k fuel s = .ok s')
    (hs : s.mEventTable.Scheduled) : s'.mEventTable.Scheduled := by
  obtain ⟨s2, h2, h⟩ := Outcome.bind_eq_ok.1 h
  obtain ⟨s3, h3, h⟩ := Outcome.bind_eq_ok.1 h
  obtain ⟨s4, h4, h⟩ := Outcome.bind_eq_ok.1 h
  cases h
  obtain ⟨sims, tr, q, n, rfl⟩ := deleteQueued_frame h3
  exact ⟨(processObservationEvents_scheduled h4 (drain_rel turns_scheduled h2 (scheduled_popInstant hs))).internals,
    List.nodup_nil⟩

lemma addModels_scheduled {time : Time} :
    ∀ {atoms : List (ModelId × σ)} {s s' : Coordinator σ}, addModels k time atoms s = .ok s' →
      s.mEventTable.Scheduled → s'.mEventTable.Scheduled
  | [], _, _, h => by cases h; exact id
  | (m, st) :: rest, s, s', h => by
    obtain ⟨s1, h1, h⟩ := Outcome.bind_eq_ok.1 h
    exact addModels_scheduled h ∘ newSimulator_scheduled h1

/-- **Every reachable state schedules each simulator at most once**, and has no bag left over from
an instant. -/
lemma Reachable.scheduled {s : Coordinator σ} (h : Reachable k s) : s.mEventTable.Scheduled := by
  induction h with
  | @init views g _ _ _ h =>
    obtain ⟨s1, h1, h⟩ := Outcome.bind_eq_ok.1 h
    cases h
    exact (addModels_scheduled h1 (new_induction (P := fun s : Coordinator σ => s.mEventTable.Scheduled) views g
      ⟨List.nodup_nil, List.nodup_nil⟩ fun s _ h => by unfold addView; split <;> exact h) :)
  | run _ h ih => exact run_scheduled h ih

/-- In a scheduled instant the inner loop runs at least one turn on the bag `topBag()` names. -/
lemma drainBag_of_topBag {s : Coordinator σ} (hs : s.mEventTable.Scheduled) {sim : SimId}
    (ht : s.mEventTable.current.topBag = some sim) (fuel : Nat) :
    drainBag k (fuel + 1) sim s = (bagStep k fuel sim s >>= drainBag k fuel sim) := by
  rw [drainBag, if_neg (by rw [bag, CompleteEventBagModel.topBag_bag hs.bags ht]; decide)]

end Coordinator

end Vle
