import Vle.Devs.Coordinator.TwoPhase

/-!
# What the views point to

A view keeps pointers to the simulators it observes, and the table keeps observation events that
name a simulator and a view.  A simulator deleted during the run is freed at the end of the
instant after, so none of these may still point to it by then: `delAtomicModel` detaches it from
every view (`removeObservable`) and drops its events (`delModelEvents`) before it queues it.

* `Registry` — `m_modelList` has one simulator per model; each view is filed under its own name;
  every port a view observes, and every observation the table holds, is of a registered
  simulator, the latter for a view that exists.  A new coordinator has it, since `buildViews()`
  builds views that observe nothing (`registry_new`); every function of the drain keeps it
  (`turns_registry`); the observations of an instant keep it, a follow-up observing what the
  observation it follows did (`processObservationEvents_registry`); so every reachable state has
  it (`Reachable.registry`).
* **`run_ok_of_drain`** — from every reachable state, an instant whose drain completes completes:
  the deletion and the observations at its end never touch a freed simulator or an unknown view.
* `finish_eq` — when the registered and the observed simulators are alive, `finish()` completes:
  one `finish()` call per registered simulator in the order of the map, then one observation per
  port of each finish view, at the current time, and no view left.
* **`finish_safe`** — from every reachable state `finish()` completes so, and the destructor after
  it frees every registered simulator, none twice over the whole run.
-/

namespace Vle

namespace Coordinator

variable {σ : Type} {k : Kernel σ}

/-! ## Who the views observe -/

/-- The observations the table holds: pending, and those of the current instant. -/
def pendingObservations (s : Coordinator σ) : List ObservationEvent :=
  s.mEventTable.observations ++ s.mEventTable.current.states

/-- The registry of simulators and views: one simulator per model in `m_modelList`; each view filed
under its own name; every port a view observes belongs to a registered simulator; and every
observation the table holds is of a registered simulator, for a view that exists. -/
structure Registry (s : Coordinator σ) : Prop where
  keys : (s.mModelList.map Prod.fst).Nodup
  names : ∀ v ∈ s.mViewList, v.2.name = v.1
  subscribed : ∀ v ∈ s.mViewList, ∀ o ∈ v.2.observables, o.1 ∈ s.mModelList.map Prod.snd
  pending : ∀ o ∈ s.pendingObservations,
    o.model ∈ s.mModelList.map Prod.snd ∧ o.viewName ∈ s.mViewList.map Prod.fst

/-- The registry reads the models, the views and the observations of the table only. -/
lemma Registry.mono {s s' : Coordinator σ} (h : Registry s) (hm : s'.mModelList = s.mModelList)
    (hv : s'.mViewList = s.mViewList) (hp : s'.pendingObservations ⊆ s.pendingObservations) : Registry s' :=
  ⟨hm ▸ h.keys, hv ▸ h.names, hm ▸ hv ▸ h.subscribed, fun o ho => hm ▸ hv ▸ h.pending o (hp ho)⟩

lemma Registry.of_eq {s s' : Coordinator σ} (h : Registry s) (hm : s'.mModelList = s.mModelList)
    (hv : s'.mViewList = s.mViewList) (hp : s'.pendingObservations = s.pendingObservations) : Registry s' :=
  h.mono hm hv (hp ▸ List.Subset.refl _)

/-- Putting an observation of a registered simulator, for a view that exists, keeps the
registry. -/
lemma Registry.put_observation {s : Coordinator σ} (hs : Registry s) {o : ObservationEvent}
    (ho : o.model ∈ s.mModelList.map Prod.snd ∧ o.viewName ∈ s.mViewList.map Prod.fst) :
    Registry (s.put (.observation o)) := by
  refine ⟨hs.keys, hs.names, hs.subscribed, fun o' ho' => ?_⟩
  simp only [pendingObservations, put, EventTable.putObservationEvent, List.mem_append,
    List.mem_singleton] at ho'
  rcases ho' with (ho' | rfl) | ho'
  · exact hs.pending o' (List.mem_append_left _ ho')
  · exact ho
  · exact hs.pending o' (List.mem_append_right _ ho')

@[simp] lemma putNext_mModelList (s : Coordinator σ) (sim : SimId) (next : Option Time) :
    (s.putNext sim next).mModelList = s.mModelList := by
  cases next <;> rfl

@[simp] lemma putNext_mViewList (s : Coordinator σ) (sim : SimId) (next : Option Time) :
    (s.putNext sim next).mViewList = s.mViewList := by
  cases next <;> rfl

@[simp] lemma popInstant_mModelList (s : Coordinator σ) : s.popInstant.mModelList = s.mModelList := by
  simp only [popInstant]
  split <;> rfl

@[simp] lemma popInstant_mViewList (s : Coordinator σ) : s.popInstant.mViewList = s.mViewList := by
  simp only [popInstant]
  split <;> rfl

/-- Only an observation event changes the observations of the table. -/
lemma pendingObservations_put (s : Coordinator σ) {e : Event} (he : ∀ o, e ≠ .observation o) :
    (s.put e).pendingObservations = s.pendingObservations := by
  cases e
  case observation o => exact absurd rfl (he o)
  all_goals simp [pendingObservations, put, EventTable.putInternalEvent, EventTable.putExternalEvent,
    EventTable.putRequestEvent]

@[simp] lemma pendingObservations_putNext (s : Coordinator σ) (sim : SimId) (next : Option Time) :
    (s.putNext sim next).pendingObservations = s.pendingObservations := by
  cases next
  · rfl
  · exact pendingObservations_put s fun _ h => by cases h

/-- Popping the table moves observations from the pending ones into the instant. -/
lemma pendingObservations_popInstant (s : Coordinator σ) :
    s.popInstant.pendingObservations ⊆ s.pendingObservations := by
  intro o ho
  have ho' : o ∈ s.mEventTable.popEvent.observations ++ s.mEventTable.popEvent.current.states := by
    simp only [popInstant] at ho
    split at ho <;> exact ho
  simp only [EventTable.popEvent] at ho'
  split at ho'
  · exact List.mem_append_left _ (by simpa [CompleteEventBagModel.nil] using ho')
  · simp only [List.mem_append, List.mem_filter] at ho'
    exact List.mem_append_left _ (ho'.elim (·.1) (·.1))

/-- Unregistering `atom`, whose simulator is `satom`, keeps every other simulator registered. -/
lemma mem_unregister {l : List (ModelId × SimId)} {atom : ModelId} {satom x : SimId}
    (hk : (l.map Prod.fst).Nodup) (hl : l.lookup atom = some satom) (hx : x ∈ l.map Prod.snd)
    (hne : x ≠ satom) : x ∈ (l.filter (·.1 ≠ atom)).map Prod.snd := by
  obtain ⟨⟨m, y⟩, hmy, rfl⟩ := List.mem_map.1 hx
  refine List.mem_map.2 ⟨(m, y), List.mem_filter.2 ⟨hmy, decide_eq_true fun hm => hne ?_⟩, rfl⟩
  subst hm
  exact lookup_eq_of_mem hk hmy hl

/-- The model factory registers a simulator for a model that has none. -/
lemma newSimulator_registry {model : ModelId} {st : σ} {time : Time} {s s' : Coordinator σ}
    (h : newSimulator k model st time s = .ok s') (hs : Registry s) : Registry s' := by
  obtain ⟨hl, rfl⟩ := newSimulator_eq h
  have hp := List.perm_orderedInsert (fun a b : ModelId × SimId => a.1 ≤ b.1) (model, s.nextSim) s.mModelList
  have hk : model ∉ s.mModelList.map Prod.fst := fun hm => by
    obtain ⟨q, hq, rfl⟩ := List.mem_map.1 hm
    simpa using List.lookup_eq_none_iff.1 hl q hq
  have hsub : s.mModelList.map Prod.snd ⊆
      (s.mModelList.orderedInsert (fun a b => a.1 ≤ b.1) (model, s.nextSim)).map Prod.snd :=
    fun x hx => (hp.map Prod.snd).symm.subset (List.mem_cons_of_mem _ hx)
  refine ⟨?_, ?_, fun v hv o ho => ?_, fun o ho => ?_⟩ <;>
    simp only [putNext_mModelList, putNext_mViewList, pendingObservations_putNext] at *
  · exact (hp.map Prod.fst).nodup_iff.2 (List.nodup_cons.2 ⟨hk, hs.keys⟩)
  · exact hs.names
  · exact hsub (hs.subscribed v hv o ho)
  · exact (hs.pending o ho).imp_left fun h => hsub h

/-- A subscription names the simulator of a registered model, and a view that exists. -/
lemma addObservableToView_registry {model : ModelId} {port view : String} {s s' : Coordinator σ}
    (h : addObservableToView model port view s = .ok s') (hs : Registry s) : Registry s' := by
  obtain ⟨obs, hobs, h0, s1, hs1, h⟩ := addObservableToView_eq h
  have hmem : (view, obs) ∈ s.mViewList := mem_of_lookup hobs
  have hsim : s.getModel model ∈ s.mModelList.map Prod.snd := by
    unfold getModel at h0 ⊢
    cases hl : s.mModelList.lookup model with
    | none => simp [hl] at h0
    | some x => exact List.mem_map_of_mem Prod.snd (mem_of_lookup hl)
  have hkeys := map_fst_update s.mViewList view (obs.addObservable (s.getModel model) port s.mCurrentTime).1
  have hv : Registry s1 := by
    subst hs1
    refine ⟨hs.keys, fun v hv => ?_, fun v hv o ho => ?_, fun o ho => hkeys ▸ hs.pending o ho⟩
    · rcases mem_map_update hv with hv | rfl
      · exact hs.names v hv
      · exact (hs.names _ hmem :)
    · rcases mem_map_update hv with hv | rfl
      · exact hs.subscribed v hv o ho
      · rcases @View.mem_addObservable obs _ port s.mCurrentTime o ho with ho | rfl
        · exact hs.subscribed _ hmem o ho
        · exact hsim
  rcases h with rfl | ⟨e, he, rfl⟩
  · exact hv
  · refine hv.put_observation ?_
    rw [View.addObservable_eq_some he, hs1]
    exact ⟨hsim, hkeys ▸ hs.names _ hmem ▸ List.mem_map_of_mem Prod.fst hmem⟩

/-- A deletion unregisters the simulator, detaches it from every view and drops its
observations. -/
lemma delAtomicModel_registry {parent atom : ModelId} {s s' : Coordinator σ}
    (h : delAtomicModel parent atom s = .ok s') (hs : Registry s) : Registry s' := by
  obtain ⟨satom, hl, rfl⟩ := delAtomicModel_eq h
  have hkeys : (s.mViewList.map fun p => (p.1, p.2.removeObservable satom)).map Prod.fst =
      s.mViewList.map Prod.fst := by
    rw [List.map_map]
    rfl
  refine ⟨hs.keys.sublist ((List.filter_sublist _).map _), fun v hv => ?_, fun v hv o ho => ?_,
    fun o ho => ?_⟩
  · obtain ⟨p, hp, rfl⟩ := List.mem_map.1 hv
    exact hs.names p hp
  · obtain ⟨p, hp, rfl⟩ := List.mem_map.1 hv
    obtain ⟨ho, hne⟩ := List.mem_filter.1 ho
    exact mem_unregister hs.keys hl (hs.subscribed p hp o ho) (of_decide_eq_true hne)
  · have ho' : o ∈ s.pendingObservations ∧ o.model ≠ satom := by
      simp only [pendingObservations, EventTable.delModelEvents, List.mem_append, List.mem_filter,
        decide_eq_true_eq] at ho ⊢
      rcases ho with ⟨ho, hne⟩ | ⟨ho, hne⟩
      · exact ⟨.inl ho, hne⟩
      · exact ⟨.inr ho, hne⟩
    obtain ⟨hm, hv⟩ := hs.pending o ho'.1
    exact ⟨mem_unregister hs.keys hl hm ho'.2, hkeys ▸ hv⟩

/-- **Every function of the drain keeps the registry.** -/
lemma turns_registry : Turns k fun s s' : Coordinator σ => Registry s → Registry s' where
  refl _ := id
  trans h₁ h₂ := h₂ ∘ h₁
  graph _ _ h := h.of_eq rfl rfl rfl
  createModel h hs := newSimulator_registry h (hs.of_eq rfl rfl rfl)
  addObservableToView := addObservableToView_registry
  delAtomicModel := delAtomicModel_registry
  log _ _ _ h := h.of_eq rfl rfl rfl
  put s _ he h := h.of_eq rfl rfl (pendingObservations_put s he)
  setState _ _ _ _ _ _ h := h.of_eq rfl rfl rfl
  modifyBag _ _ _ h := h.of_eq rfl rfl (by simp [pendingObservations, modifyBag])

/-- The observations of an instant keep the registry: the follow-up a timed view asks for is of the
simulator and for the view of the observation it follows. -/
lemma processObservationEvents_registry :
    ∀ {l : List ObservationEvent} {s s' : Coordinator σ}, processObservationEvents k l s = .ok s' →
      (∀ o ∈ l, o.model ∈ s.mModelList.map Prod.snd ∧ o.viewName ∈ s.mViewList.map Prod.fst) →
      Registry s → Registry s'
  | [], _, _, h, _ => by cases h; exact id
  | e :: rest, s, s', h, hl => by
    simp only [processObservationEvents, Outcome.ok_bind, Outcome.undefined_bind] at h
    split at h
    · split at h
      · exact fun hs => processObservationEvents_registry h (fun o ho => hl o (.tail _ ho)) (hs.of_eq rfl rfl rfl)
      · split at h
        · cases h
        · intro hs
          split at h <;> refine processObservationEvents_registry h (fun o ho => hl o (.tail _ ho)) ?_
          · next e2 he2 =>
            obtain ⟨p, -, rfl⟩ := View.processObservationEvent_eq_some he2
            exact Registry.put_observation (s := s.log _) (hs.of_eq rfl rfl rfl) (hl e (.head _))
          · exact hs.of_eq rfl rfl rfl
    · cases h

/-- **A run keeps the registry**: its drain by `turns_registry`, its observations by
`processObservationEvents_registry`, and the deletion at its end frees queued simulators only. -/
lemma run_registry {fuel : Nat} {s s' : Coordinator σ} (h : run k fuel s = .ok s') (hs : Registry s) :
    Registry s' := by
  obtain ⟨s2, h2, h⟩ := Outcome.bind_eq_ok.1 h
  obtain ⟨s3, h3, h⟩ := Outcome.bind_eq_ok.1 h
  obtain ⟨s4, h4, h⟩ := Outcome.bind_eq_ok.1 h
  cases h
  obtain ⟨sims, tr, q, n, rfl⟩ := deleteQueued_frame h3
  have hs2 := drain_rel turns_registry h2
    (hs.mono (popInstant_mModelList s) (popInstant_mViewList s) s.pendingObservations_popInstant)
  have hs4 := processObservationEvents_registry h4 (fun o ho => hs2.pending o (List.mem_append_right _ ho))
    (hs2.of_eq rfl rfl rfl)
  exact hs4.mono rfl rfl fun o ho =>
    List.mem_append_left _ (by simpa [pendingObservations, CompleteEventBagModel.nil] using ho)

/-- A new coordinator has the registry: no model, views filed under their names that observe
nothing, and no event. -/
lemma registry_new (views : List (String × ViewType)) (g : Graph) : Registry (new views g : Coordinator σ) := by
  have h := new_induction (P := fun s : Coordinator σ => s.mModelList = [] ∧ s.pendingObservations = [] ∧
      ∀ v ∈ s.mViewList, v.2.name = v.1 ∧ v.2.observables = [])
    views g ⟨rfl, rfl, by simp⟩ fun s v h => by
      unfold addView
      split
      · exact h
      · refine ⟨h.1, h.2.1, fun w hw => ?_⟩
        rcases (List.mem_orderedInsert _).1 hw with rfl | hw
        · exact ⟨rfl, rfl⟩
        · exact h.2.2 w hw
  refine ⟨by rw [h.1]; exact List.nodup_nil, fun v hv => (h.2.2 v hv).1, fun v hv o ho => ?_, fun o ho => ?_⟩
  · rw [(h.2.2 v hv).2] at ho
    cases ho
  · rw [h.2.1] at ho
    cases ho

lemma addModels_registry {time : Time} :
    ∀ {atoms : List (ModelId × σ)} {s s' : Coordinator σ}, addModels k time atoms s = .ok s' →
      Registry s → Registry s'
  | [], _, _, h => by cases h; exact id
  | (m, st) :: rest, s, s', h => by
    obtain ⟨s1, h1, h⟩ := Outcome.bind_eq_ok.1 h
    exact addModels_registry h ∘ newSimulator_registry h1

/-- **Every reachable state has the registry.** -/
lemma Reachable.registry {s : Coordinator σ} (h : Reachable k s) : Registry s := by
  induction h with
  | init h =>
    obtain ⟨s1, h1, h⟩ := Outcome.bind_eq_ok.1 h
    cases h
    exact (addModels_registry h1 (registry_new _ _)).of_eq rfl rfl rfl
  | run _ h ih => exact run_registry h ih

/-! ## The observations of an instant -/

/-- The observations of an instant complete when each is of a live simulator, for a view that
exists: a callback and a follow-up change neither. -/
lemma processObservationEvents_ok :
    ∀ {l : List ObservationEvent} {s : Coordinator σ},
      (∀ o ∈ l, (s.simulators o.model).isSome ∧ (s.getView o.viewName).isSome) →
      ∃ s', processObservationEvents k l s = .ok s'
  | [], s, _ => ⟨s, rfl⟩
  | e :: rest, s, hl => by
    obtain ⟨x, hx⟩ := Option.isSome_iff_exists.1 (hl e (.head _)).1
    obtain ⟨v, hv⟩ := Option.isSome_iff_exists.1 (hl e (.head _)).2
    rw [processObservationEvents, hx]
    dsimp only
    split
    · exact processObservationEvents_ok fun o ho => hl o (.tail _ ho)
    · rw [show (s.log (.call e.model (.observation e))).getView e.viewName = some v from hv]
      dsimp only
      split <;> exact processObservationEvents_ok fun o ho => hl o (.tail _ ho)

/-- **An instant fails only in its drain.**  From every reachable state, when the drain of an
instant completes, so does `run()`: the deletion at its end frees queued simulators only, and each
observation of the instant is of a registered, live simulator, for a view that exists. -/
theorem run_ok_of_drain {s : Coordinator σ} (hr : Reachable k s) {fuel : Nat} {s2 : Coordinator σ}
    (h : drain k fuel s.popInstant = .ok s2) : ∃ s', run k fuel s = .ok s' := by
  have hi := hr.inv
  have hm : Book.Moves s.book s2.book := book_popInstant s ▸ drain_rel (turns_moves k) h
  have hs2 : Registry s2 := drain_rel turns_registry h
    (hr.registry.mono (popInstant_mModelList s) (popInstant_mViewList s) s.pendingObservations_popInstant)
  obtain ⟨-, hq, -⟩ := hm.frame
  obtain ⟨s3, h3, hb3⟩ := deleteQueued_book s.mToDelete (hm.inv hi) (hi.toDelete_le.trans hq.length_le)
  have hi3 : Book.Inv s3.book := by
    rw [hb3]
    split
    · exact (hm.inv hi).free _
    · exact hm.inv hi
  obtain ⟨sims, tr, q, n, rfl⟩ := deleteQueued_frame h3
  obtain ⟨s4, h4⟩ := processObservationEvents_ok (k := k) (l := s2.mEventTable.current.states)
    (s := { s2 with simulators := sims, trace := tr, mDeletedSimulator := q, mToDelete := n }) fun o ho => by
      obtain ⟨hmo, hvo⟩ := hs2.pending o (List.mem_append_right _ ho)
      obtain ⟨p, hp, hpe⟩ := List.mem_map.1 hvo
      exact ⟨(hi3.live o.model (List.mem_append_left _ hmo)).2, List.lookup_isSome_iff.2 ⟨p, hp, by simp [hpe]⟩⟩
  exact ⟨_, by simp only [run, h, h3, h4, Outcome.ok_bind]; rfl⟩

/-! ## `finish()` -/

lemma finishSimulators_eq :
    ∀ {l : List SimId} {s : Coordinator σ}, (∀ x ∈ l, (s.simulators x).isSome) →
      finishSimulators l s = .ok { s with trace := s.trace ++ l.map fun x => .call x .finish }
  | [], s, _ => by simp [finishSimulators]
  | x :: l, s, hl => by
    obtain ⟨sx, hx⟩ := Option.isSome_iff_exists.1 (hl x (List.mem_cons_self _ _))
    rw [finishSimulators, hx]
    dsimp only
    rw [finishSimulators_eq (s := s.log (.call x .finish)) fun y hy => hl y (List.mem_cons_of_mem _ hy)]
    simp [log]

lemma observeFinish_eq :
    ∀ {l : List ObservationEvent} {s : Coordinator σ}, (∀ e ∈ l, (s.simulators e.model).isSome) →
      observeFinish l s = .ok { s with trace := s.trace ++ l.map fun e => .call e.model (.observation e) }
  | [], s, _ => by simp [observeFinish]
  | e :: l, s, hl => by
    obtain ⟨sx, hx⟩ := Option.isSome_iff_exists.1 (hl e (List.mem_cons_self _ _))
    rw [observeFinish, hx]
    dsimp only
    rw [observeFinish_eq (s := s.log (.call e.model (.observation e))) fun y hy => hl y (List.mem_cons_of_mem _ hy)]
    simp [log]

/-- `finish()` when the registered and the observed simulators are alive: the `finish()` hooks in
the order of the models, the observations of the finish views, and no view left. -/
lemma finish_eq {s : Coordinator σ} (hm : ∀ x ∈ s.mModelList.map Prod.snd, (s.simulators x).isSome)
    (ho : ∀ e ∈ s.finishObservations, (s.simulators e.model).isSome) :
    s.finish = .ok { s with
      trace := s.trace ++ (s.mModelList.map Prod.snd).map (fun x => .call x .finish) ++
        s.finishObservations.map fun e => .call e.model (.observation e)
      mViewList := [] } := by
  rw [finish, finishSimulators_eq hm, Outcome.ok_bind]
  erw [observeFinish_eq (s := { s with trace := s.trace ++ (s.mModelList.map Prod.snd).map fun x => .call x .finish }) ho,
    Outcome.ok_bind]

/-- The callbacks of `finish()` free nothing. -/
lemma destroyedSims_map_call {α : Type} (l : List α) (f : α → SimId) (g : α → Callback) :
    destroyedSims (l.map fun a => .call (f a) (g a)) = [] := by
  induction l with
  | nil => rfl
  | cons a l ih => exact ih

/-- **The end of a simulation is safe.**  From every reachable state, `finish()` completes: it calls
the `finish()` hook of every registered simulator, in the order of the models, then makes one
observation per port of each finish view, at the current time, and leaves no view.  The destructor
then frees every registered simulator, and no simulator is freed twice over the whole run. -/
theorem finish_safe {s : Coordinator σ} (hr : Reachable k s) :
    ∃ s', s.finish = .ok s' ∧
      s'.trace = s.trace ++ (s.mModelList.map Prod.snd).map (fun x => .call x .finish) ++
        s.finishObservations.map (fun e => .call e.model (.observation e)) ∧
      s'.mViewList = [] ∧
      ∃ s'', s'.destroy = .ok s'' ∧
        destroyedSims s''.trace = destroyedSims s.trace ++ s.mModelList.map Prod.snd ∧
        (destroyedSims s''.trace).Nodup := by
  have hi := hr.inv
  have hm : ∀ x ∈ s.mModelList.map Prod.snd, (s.simulators x).isSome :=
    fun x hx => (hi.live x (List.mem_append_left _ hx)).2
  have ho : ∀ e ∈ s.finishObservations, (s.simulators e.model).isSome := by
    intro e he
    simp only [finishObservations, List.mem_flatMap, List.mem_filter, List.mem_map] at he
    obtain ⟨p, ⟨hp, -⟩, o, ho, rfl⟩ := he
    exact hm _ (hr.registry.subscribed p hp o ho)
  refine ⟨_, finish_eq hm ho, rfl, rfl, ?_⟩
  have hb : ({ s with
      trace := s.trace ++ (s.mModelList.map Prod.snd).map (fun x => .call x .finish) ++
        s.finishObservations.map fun e => .call e.model (.observation e)
      mViewList := [] } : Coordinator σ).book = s.book := by
    simp only [book, destroyedSims_append, destroyedSims_map_call, List.append_nil]
  obtain ⟨s'', h, hd, hn⟩ := destroy_ok (hb ▸ hi)
  exact ⟨s'', h, by rw [hd]; simp only [destroyedSims_append, destroyedSims_map_call, List.append_nil], hn⟩

/-- An atomic model `a` at `2` under `top` at `1`. -/
def watchGraph : Graph := fun m =>
  if m = 1 then some (.coupled "top" [("a", 2)] [])
  else if m = 2 then some (.atomic "a")
  else none

/-- A model that, at its first internal transition, subscribes its port `count` to the views
`clock` and `end`, and then stops. -/
def watching : Kernel Nat where
  dynamics :=
    { init := fun st _ => (st, some 1)
      confluentTransitions := fun _ _ _ => .INTERNAL
      output := fun _ _ => []
      internalTransition := fun st _ =>
        (st + 1, none,
          if st = 0 then [.addObservableToView 2 "count" "clock", .addObservableToView 2 "count" "end"] else [])
      externalTransition := fun st _ _ => (st, none, [])
      request := fun _ _ _ => []
      observation := fun st _ => some (toString st) }
  getTargetPortList := fun _ _ _ => []
  getTargetPortList_atomic := by simp

/-- `finish_safe` after one run of `watching` with a timed view `clock` and a finish view `end`:
the run subscribes the simulator `1` of `a` to both, so `finish()` observes `1` once, for `end`, at
time `1`. -/
theorem finish_safe_watching :
    ∃ s s1 : Coordinator Nat,
      (new [("clock", .timed 1), ("end", .finish)] watchGraph).init watching 0 [(2, 0)] = .ok s ∧
      run watching 4 s = .ok s1 ∧ s1.finishObservations = [⟨1, 1, "end", "count"⟩] ∧
      ∃ s', s1.finish = .ok s' ∧
        s'.trace = s1.trace ++ (s1.mModelList.map Prod.snd).map (fun x => .call x .finish) ++
          s1.finishObservations.map (fun e => .call e.model (.observation e)) ∧
        s'.mViewList = [] ∧
        ∃ s'', s'.destroy = .ok s'' ∧
          destroyedSims s''.trace = destroyedSims s1.trace ++ s1.mModelList.map Prod.snd ∧
          (destroyedSims s''.trace).Nodup :=
  ⟨_, _, rfl, by with_unfolding_all exact rfl, by with_unfolding_all decide,
    finish_safe (@Reachable.run _ watching 4 _ _
      (.init (rfl : (new [("clock", .timed 1), ("end", .finish)] watchGraph : Coordinator Nat).init watching 0
        [(2, 0)] = _))
      (by with_unfolding_all exact rfl))⟩

/-- `run_ok_of_drain` at the second instant of `watching`: the observation the subscription to
`clock` scheduled is of the instant, and the instant completes. -/
theorem run_ok_of_drain_watching :
    ∃ s s1 s2 : Coordinator Nat,
      (new [("clock", .timed 1), ("end", .finish)] watchGraph).init watching 0 [(2, 0)] = .ok s ∧
      run watching 4 s = .ok s1 ∧ s1.popInstant.mEventTable.current.states = [⟨1, 1, "clock", "count"⟩] ∧
      drain watching 4 s1.popInstant = .ok s2 ∧ ∃ s', run watching 4 s1 = .ok s' :=
  ⟨_, _, _, rfl, by with_unfolding_all exact rfl, by with_unfolding_all decide, by with_unfolding_all exact rfl,
    @run_ok_of_drain _ watching _ (@Reachable.run _ watching 4 _ _
      (.init (rfl : (new [("clock", .timed 1), ("end", .finish)] watchGraph : Coordinator Nat).init watching 0
        [(2, 0)] = _))
      (by with_unfolding_all exact rfl)) 4 _ (by with_unfolding_all exact rfl)⟩

end Coordinator

end Vle
