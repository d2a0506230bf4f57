import Mathlib.Order.WithBot
import Vle.Devs.Coordinator.Executive

/-!
# Simulated time never goes back

The spec asks that simulated time be monotone across consecutive calls of `run()` (§5, §8
invariant 1).  The coordinator does not check it: `run()` sets the clock to the time of the next
event of the table, whatever it is.  It holds because of what the parts outside `src/` promise:

* a simulator schedules its next internal event `ta ≥ 0` after the time of the callback that
  asks for it (§4.2, §4.3.A, B), `Kernel.Timely`;
* a timed view observes again a period `p ≥ 0` after an observation (§4.5), `View.Timely`.

From these, an instant keeps its time: once `popEvent` has moved the events of the next time `t`
into the complete bag, nothing of the table is due before `t` (`EventTable.Later`), and every
function of the instant, the executive included (`doors_keeps`), puts events at `t` or later
(`AtTime`, `Keeps`).  So the next time never decreases across a run, and the clock, set to it,
never goes back (`run_time_monotone`).
-/

namespace Vle

/-! ## Nothing due before a time -/

namespace EventTable

/-- Nothing of the table is due before `t`: neither its internal and observation events, nor the
internal events of the bags of the instant, nor the observations of the instant. -/
structure Later (t : Time) (tb : EventTable) : Prop where
  internals : ∀ e ∈ tb.internals, t ≤ e.time
  observations : ∀ o ∈ tb.observations, t ≤ o.time
  bags : ∀ x ev, (tb.current.bag x).internal = some ev → t ≤ ev.time
  states : ∀ o ∈ tb.current.states, t ≤ o.time

/-- The next time is the time of a pending event. -/
lemma topEvent_mem {tb : EventTable} {t : Time} (ht : tb.topEvent = some t) :
    (∃ e ∈ tb.internals, e.time = t) ∨ ∃ o ∈ tb.observations, o.time = t := by
  simpa using List.min?_mem (fun a b => min_choice a b) ht

/-- The next time is not before `t`. -/
lemma Later.le_topEvent {t : Time} {tb : EventTable} (h : tb.Later t) {t' : Time}
    (ht : tb.topEvent = some t') : t ≤ t' := by
  rcases topEvent_mem ht with ⟨e, he, rfl⟩ | ⟨o, ho, rfl⟩
  · exact h.internals e he
  · exact h.observations o ho

/-- The next time is not after any pending event. -/
lemma topEvent_le {tb : EventTable} {t : Time} (ht : tb.topEvent = some t) :
    (∀ e ∈ tb.internals, t ≤ e.time) ∧ ∀ o ∈ tb.observations, t ≤ o.time := by
  have hle := fun b hb => (List.le_min?_iff (fun a b c => le_min_iff) ht).1 le_rfl b hb
  exact ⟨fun e he => hle _ (List.mem_append_left _ (List.mem_map_of_mem _ he)),
    fun o ho => hle _ (List.mem_append_right _ (List.mem_map_of_mem _ ho))⟩

/-- **Popping the table** at its next time `t` leaves nothing due before `t`, and a complete bag
that is not empty. -/
lemma popEvent_later {tb : EventTable} {t : Time} (ht : tb.topEvent = some t) :
    tb.popEvent.Later t ∧ tb.popEvent.currentTime = t ∧ tb.popEvent.current.empty = false := by
  obtain ⟨hi, ho⟩ := topEvent_le ht
  have hp : tb.popEvent = ⟨tb.internals.filter (·.time ≠ t), tb.observations.filter (·.time ≠ t),
      ⟨(tb.internals.filter (·.time = t)).map fun e => (e.model, ⟨some e, [], []⟩),
        tb.observations.filter (·.time = t)⟩, t⟩ := by
    simp only [popEvent, ht]
  rw [hp]
  refine ⟨⟨fun e he => hi e (List.mem_filter.1 he).1, fun o ho' => ho o (List.mem_filter.1 ho').1,
    fun x ev hev => ?_, fun o ho' => ?_⟩, rfl, ?_⟩
  · simp only [CompleteEventBagModel.bag] at hev
    cases hl : ((tb.internals.filter (·.time = t)).map
        fun e => (e.model, (⟨some e, [], []⟩ : EventBagModel))).lookup x with
    | none => simp [hl, EventBagModel.nil] at hev
    | some b =>
      rw [hl] at hev
      obtain ⟨e, he, heb⟩ := List.mem_map.1 (mem_of_lookup hl)
      cases heb
      cases hev
      exact (of_decide_eq_true (List.mem_filter.1 he).2).ge
  · exact (of_decide_eq_true (List.mem_filter.1 ho').2).ge
  · simp only [CompleteEventBagModel.empty, Bool.and_eq_false_iff, List.isEmpty_eq_false, ne_eq,
      List.map_eq_nil_iff, List.filter_eq_nil_iff, decide_eq_true_eq, not_forall, not_not]
    rcases topEvent_mem ht with ⟨e, he, rfl⟩ | ⟨o, ho', rfl⟩
    · exact .inl ⟨e, he, rfl⟩
    · exact .inr ⟨o, ho', rfl⟩

variable {t : Time} {tb : EventTable}

lemma Later.putInternalEvent (h : tb.Later t) {e : InternalEvent} (he : t ≤ e.time) :
    (tb.putInternalEvent e).Later t := by
  refine ⟨fun e' he' => ?_, h.observations, h.bags, h.states⟩
  rcases List.mem_append.1 he' with he' | he'
  · exact h.internals e' (List.mem_filter.1 he').1
  · rwa [List.mem_singleton.1 he']

lemma Later.putObservationEvent (h : tb.Later t) {o : ObservationEvent} (ho : t ≤ o.time) :
    (tb.putObservationEvent o).Later t := by
  refine ⟨h.internals, fun o' ho' => ?_, h.bags, h.states⟩
  rcases List.mem_append.1 ho' with ho' | ho'
  · exact h.observations o' ho'
  · rwa [List.mem_singleton.1 ho']

/-- Changing a bag without giving it an internal event. -/
lemma Later.modifyBag (h : tb.Later t) {x : SimId} {f : EventBagModel → EventBagModel}
    (hf : ∀ b, (f b).internal = b.internal ∨ (f b).internal = none) :
    { tb with current := tb.current.modifyBag x f }.Later t := by
  refine ⟨h.internals, h.observations, fun y ev hev => ?_, by simpa using h.states⟩
  simp only [CompleteEventBagModel.bag_modifyBag] at hev
  split at hev
  · rcases hf (tb.current.bag y) with hb | hb <;> rw [hb] at hev
    · exact h.bags y ev hev
    · cases hev
  · exact h.bags y ev hev

lemma Later.delModelEvents (h : tb.Later t) (y : SimId) : (tb.delModelEvents y).Later t := by
  refine ⟨fun e he => h.internals e (List.mem_filter.1 he).1, fun o ho => h.observations o (List.mem_filter.1 ho).1,
    fun x ev hev => ?_, fun o ho => h.states o (List.mem_filter.1 ho).1⟩
  rw [bag_delModelEvents] at hev
  split at hev
  · cases hev
  · exact h.bags x ev hev

end EventTable

/-! ## The contract on time -/

namespace View

/-- A view does not observe back in time: a timed view's period is not negative. -/
def Timely (v : View) : Prop := ∀ p, v.type = .timed p → 0 ≤ p

/-- A view answers an observation no earlier than it. -/
lemma processObservationEvent_time {v : View} (hv : v.Timely) {e e' : ObservationEvent}
    (h : v.processObservationEvent e = some e') : e.time ≤ e'.time := by
  obtain ⟨p, hp, rfl⟩ := v.processObservationEvent_eq_some h
  exact le_add_of_nonneg_right (hv p hp)

end View

/-- The contract of the callbacks on time (§4.2, §4.3): a simulator schedules its next internal
event `ta ≥ 0` after the time of the callback. -/
structure Kernel.Timely {σ : Type} (k : Kernel σ) : Prop where
  init : ∀ st t n, (k.dynamics.init st t).2 = some n → t ≤ n
  internalTransition : ∀ st ev n, (k.dynamics.internalTransition st ev).2.1 = some n → ev.time ≤ n
  externalTransition : ∀ st lst t n, (k.dynamics.externalTransition st lst t).2.1 = some n → t ≤ n

/-! ## An instant keeps its time -/

namespace Coordinator

variable {σ : Type} {k : Kernel σ}

/-- `s` is at time `t`: its clock reads `t`, nothing of its table is due before `t`, and no
view observes back in time. -/
structure AtTime (t : Time) (s : Coordinator σ) : Prop where
  now : s.mCurrentTime = t
  later : s.mEventTable.Later t
  views : ∀ v ∈ s.mViewList, v.2.Timely

/-- From `s` to `s'` within the instant `t`: if `s` is at time `t`, so is `s'`. -/
def Keeps (t : Time) (s s' : Coordinator σ) : Prop := AtTime t s → AtTime t s'

variable {t : Time}

lemma keeps_refl (s : Coordinator σ) : Keeps t s s := id

lemma Keeps.trans {s₁ s₂ s₃ : Coordinator σ} (h₁ : Keeps t s₁ s₂) (h₂ : Keeps t s₂ s₃) : Keeps t s₁ s₃ :=
  h₂ ∘ h₁

lemma keeps_log (s : Coordinator σ) (e : Trace) : Keeps t s (s.log e) := fun h => ⟨h.now, h.later, h.views⟩

lemma keeps_setState (s : Coordinator σ) (x : SimId) (st : σ) : Keeps t s (s.setState x st) :=
  fun h => ⟨h.now, h.later, h.views⟩

/-- Putting an event keeps the instant, when an internal or observation event is not due before
it. -/
lemma keeps_put (s : Coordinator σ) (e : Event) (hi : ∀ e', e = .internal e' → t ≤ e'.time)
    (ho : ∀ o, e = .observation o → t ≤ o.time) : Keeps t s (s.put e) := fun h => by
  refine ⟨h.now, ?_, h.views⟩
  cases e with
  | internal e => exact h.later.putInternalEvent (hi e rfl)
  | external e => exact h.later.modifyBag fun _ => .inl rfl
  | request e => exact h.later.modifyBag fun _ => .inl rfl
  | observation o => exact h.later.putObservationEvent (ho o rfl)

lemma keeps_putNext (s : Coordinator σ) (x : SimId) {next : Option Time} (hn : ∀ n, next = some n → t ≤ n) :
    Keeps t s (s.putNext x next) := by
  cases next with
  | none => exact keeps_refl s
  | some n => exact keeps_put s (.internal ⟨n, x⟩) (fun e he => by cases he; exact hn n rfl) fun _ he => by cases he

lemma keeps_modifyBag (s : Coordinator σ) (x : SimId) {f : EventBagModel → EventBagModel}
    (hf : ∀ b, (f b).internal = b.internal ∨ (f b).internal = none) : Keeps t s (s.modifyBag x f) :=
  fun h => ⟨h.now, h.later.modifyBag hf, h.views⟩

/-- Replacing a view by one of the same kind keeps every view from observing back in time. -/
lemma timely_update {l : List (String × View)} (hl : ∀ v ∈ l, v.2.Timely) {view : String} {obs obs' : View}
    (hobs : l.lookup view = some obs) (htype : obs'.type = obs.type) :
    ∀ v ∈ l.map (fun p => if p.1 = view then (p.1, obs') else p), v.2.Timely := fun v hv => by
  obtain ⟨p, hp, rfl⟩ := List.mem_map.1 hv
  split
  · intro q hq
    exact hl _ (mem_of_lookup hobs) q (htype ▸ hq)
  · exact hl p hp

variable (k)

/-- **The executive keeps the instant**: the models it creates schedule their first internal
event no earlier than now, the views it subscribes observe now, and deletions only remove
events. -/
lemma doors_keeps (hk : k.Timely) (t : Time) : Doors k (Keeps t) where
  refl := keeps_refl
  trans := Keeps.trans
  graph _ _ h := ⟨h.now, h.later, h.views⟩
  createModel h hs := by
    obtain ⟨-, rfl⟩ := newSimulator_eq h
    exact keeps_putNext _ _ (fun n hn => hs.now ▸ hk.init _ _ n hn) ⟨hs.now, hs.later, hs.views⟩
  addObservableToView := fun {model port view s s'} h hs => by
    obtain ⟨obs, hobs, -, s1, rfl, h⟩ := addObservableToView_eq h
    have hv := timely_update hs.views hobs
      (rfl : (obs.addObservable (s.getModel model) port s.mCurrentTime).1.type = obs.type)
    rcases h with rfl | ⟨e, he, rfl⟩
    · exact ⟨hs.now, hs.later, hv⟩
    · exact keeps_put _ _ (fun _ he' => by cases he') (fun o ho => by
        cases ho; rw [View.addObservable_eq_some he]; exact hs.now.ge) ⟨hs.now, hs.later, hv⟩
  delAtomicModel h hs := by
    obtain ⟨-, -, rfl⟩ := delAtomicModel_eq h
    exact ⟨hs.now, hs.later.delModelEvents _, fun v hv => by
      obtain ⟨p, hp, rfl⟩ := List.mem_map.1 hv
      exact hs.views p hp⟩

variable {k}

lemma putTargets_keeps {e : ExternalEvent} :
    ∀ {l : List (ModelId × String)} {s s' : Coordinator σ}, putTargets e l s = .ok s' → Keeps t s s'
  | [], _, _, h => by cases h; exact keeps_refl _
  | (m, p) :: rest, s, s', h => by
    simp only [putTargets, Outcome.bind_eq_ok] at h
    obtain ⟨-, -, h⟩ := h
    refine Keeps.trans (keeps_put s _ (fun _ he => ?_) fun _ he => ?_) (putTargets_keeps h) <;>
      split at he <;> cases he

/-- Routing puts external events and requests only. -/
lemma dispatchExternalEvent_keeps :
    ∀ {l : List ExternalEvent} {x : SimId} {s s' : Coordinator σ},
      dispatchExternalEvent k l x s = .ok s' → Keeps t s s'
  | [], _, _, _, h => by cases h; exact keeps_refl _
  | e :: rest, x, s, s', h => by
    simp only [dispatchExternalEvent] at h
    split at h
    · obtain ⟨s1, h1, h⟩ := Outcome.bind_eq_ok.1 h
      exact (putTargets_keeps h1).trans (dispatchExternalEvent_keeps h)
    · cases h

lemma observe_keeps {x : SimId} :
    ∀ {l : List ObservationEvent} {s s' : Coordinator σ}, observe x l s = .ok s' → Keeps t s s'
  | [], _, _, h => by cases h; exact keeps_refl _
  | e :: rest, s, s', h => by
    simp only [observe] at h
    split at h
    · exact (keeps_log _ _).trans (observe_keeps h)
    · cases h

lemma processEventView_keeps {x : SimId} {ev : Option InternalEvent} {s s' : Coordinator σ}
    (h : processEventView x ev s = .ok s') : Keeps t s s' :=
  observe_keeps h

/-- **The internal path keeps the instant**: the transition schedules its next internal event no
earlier than the event it consumed, which is not due before now. -/
lemma processInternalEvent_keeps (hk : k.Timely) {fuel : Nat} {sim : SimId} {s s' : Coordinator σ}
    (h : processInternalEvent k fuel sim s = .ok s') : Keeps t s s' := fun hs => by
  simp only [processInternalEvent] at h
  split at h
  · next ev hev =>
    split at h
    · obtain ⟨s2, h2, h⟩ := Outcome.bind_eq_ok.1 h
      split at h
      · obtain ⟨s3, h3, h⟩ := Outcome.bind_eq_ok.1 h
        have h3' := runExecutive_rel (doors_keeps k hk t) h3 (keeps_setState _ _ _ (keeps_log _ _
          (dispatchExternalEvent_keeps h2 (keeps_log _ _ (keeps_modifyBag s sim (by intro; exact .inr rfl) hs)))))
        exact processEventView_keeps h (keeps_putNext _ _
          (fun n hn => (hs.later.bags sim ev hev).trans (hk.internalTransition _ _ n hn)) h3')
      · cases h
    · cases h
  · cases h

/-- **The external path keeps the instant**: the transition schedules its next internal event no
earlier than now. -/
lemma processExternalEvents_keeps (hk : k.Timely) {fuel : Nat} {sim : SimId} {s s' : Coordinator σ}
    (h : processExternalEvents k fuel sim s = .ok s') : Keeps t s s' := fun hs => by
  simp only [processExternalEvents] at h
  split at h
  · obtain ⟨s3, h3, h⟩ := Outcome.bind_eq_ok.1 h
    have h3' := runExecutive_rel (doors_keeps k hk t) h3 (keeps_setState _ _ _ (keeps_log _ _ hs))
    exact processEventView_keeps h (keeps_modifyBag _ _ (by intro; exact .inl rfl)
      (keeps_putNext _ _ (fun n hn => hs.now ▸ hk.externalTransition _ _ _ n hn) h3'))
  · cases h

lemma processRequests_keeps {sim : SimId} :
    ∀ {fuel i : Nat} {s s' : Coordinator σ}, processRequests k fuel sim i s = .ok s' → Keeps t s s'
  | 0, _, _, _, h => by cases h
  | fuel + 1, i, s, s', h => by
    rw [processRequests] at h
    split at h
    · cases h; exact keeps_refl _
    · split at h
      · obtain ⟨s1, h1, h⟩ := Outcome.bind_eq_ok.1 h
        exact ((keeps_log _ _).trans (dispatchExternalEvent_keeps h1)).trans (processRequests_keeps h)
      · cases h

lemma processRequestEvents_keeps {fuel : Nat} {sim : SimId} {s s' : Coordinator σ}
    (h : processRequestEvents k fuel sim s = .ok s') : Keeps t s s' := by
  obtain ⟨s1, h1, h⟩ := Outcome.bind_eq_ok.1 h
  cases h
  exact (processRequests_keeps h1).trans (keeps_modifyBag _ _ (by intro; exact .inl rfl))

lemma bagStep_keeps (hk : k.Timely) {fuel : Nat} {sim : SimId} {s s' : Coordinator σ}
    (h : bagStep k fuel sim s = .ok s') : Keeps t s s' := by
  unfold bagStep at h
  split at h
  · split at h
    · exact processInternalEvent_keeps hk h
    · split at h
      · cases h
      · split at h
        · exact (keeps_log _ _).trans (processInternalEvent_keeps hk h)
        · exact (keeps_log _ _).trans (processExternalEvents_keeps hk h)
  · split at h
    · exact processExternalEvents_keeps hk h
    · exact processRequestEvents_keeps h

lemma drainBag_keeps (hk : k.Timely) :
    ∀ {fuel : Nat} {sim : SimId} {s s' : Coordinator σ}, drainBag k fuel sim s = .ok s' → Keeps t s s'
  | 0, _, _, _, h => by cases h
  | fuel + 1, sim, s, s', h => by
    rw [drainBag] at h
    split at h
    · cases h; exact keeps_refl _
    · obtain ⟨s1, h1, h⟩ := Outcome.bind_eq_ok.1 h
      exact (bagStep_keeps hk h1).trans (drainBag_keeps hk h)

/-- **The drain of an instant keeps it.** -/
lemma drain_keeps (hk : k.Timely) :
    ∀ {fuel : Nat} {s s' : Coordinator σ}, drain k fuel s = .ok s' → Keeps t s s'
  | 0, _, _, h => by cases h
  | fuel + 1, s, s', h => by
    rw [drain] at h
    split at h
    · cases h; exact keeps_refl _
    · obtain ⟨s1, h1, h⟩ := Outcome.bind_eq_ok.1 h
      exact (drainBag_keeps hk h1).trans (drain_keeps hk h)

/-- **The observations of the instant keep it**: each view answers an observation of the instant
no earlier than it. -/
lemma processObservationEvents_keeps :
    ∀ {l : List ObservationEvent} {s s' : Coordinator σ}, (∀ e ∈ l, t ≤ e.time) →
      processObservationEvents k l s = .ok s' → Keeps t s s'
  | [], _, _, _, h => by cases h; exact keeps_refl _
  | e :: rest, s, s', hl, h => by
    simp only [processObservationEvents, Outcome.ok_bind, Outcome.undefined_bind] at h
    have hrest : ∀ {s s' : Coordinator σ}, processObservationEvents k rest s = .ok s' → Keeps t s s' :=
      processObservationEvents_keeps fun e he => hl e (List.mem_cons_of_mem _ he)
    split at h
    · split at h
      · exact (keeps_log _ _).trans (hrest h)
      · split at h
        · cases h
        · next v hv =>
          refine (keeps_log s (.call e.model (.observation e))).trans (Keeps.trans ?_ (hrest h))
          split
          · next e' he' =>
            refine fun hs => keeps_put _ _ (fun _ h' => by cases h') (fun o ho => ?_) hs
            cases ho
            exact (hl e (List.mem_cons_self _ _)).trans
              (View.processObservationEvent_time (hs.views _ (mem_of_lookup hv)) he')
          · exact keeps_refl _
    · cases h

lemma le_getNextTime {s : Coordinator σ} (h : s.mEventTable.Later t) : (t : WithTop Time) ≤ s.getNextTime := by
  unfold getNextTime
  cases ht : s.mEventTable.topEvent with
  | none => exact le_top
  | some t' => exact WithTop.coe_le_coe.2 (h.le_topEvent ht)

/-- **One run.**  The clock moves to the next time of the table, or stays when the table is
empty; the next time does not decrease, the clock is not after it, and no view observes back in
time. -/
theorem run_nextTime (hk : k.Timely) {fuel : Nat} {s s' : Coordinator σ}
    (hv : ∀ v ∈ s.mViewList, v.2.Timely) (h : run k fuel s = .ok s') :
    s'.mCurrentTime = s.getNextTime.untop' s.mCurrentTime ∧ s.getNextTime ≤ s'.getNextTime ∧
      (s'.mCurrentTime : WithTop Time) ≤ s'.getNextTime ∧ ∀ v ∈ s'.mViewList, v.2.Timely := by
  simp only [run, popInstant] at h
  obtain ⟨s3, h3, h⟩ := Outcome.bind_eq_ok.1 h
  obtain ⟨s4, h4, h⟩ := Outcome.bind_eq_ok.1 h
  obtain ⟨s5, h5, h⟩ := Outcome.bind_eq_ok.1 h
  cases h
  cases ht : s.mEventTable.topEvent with
  | none =>
    have hp : s.mEventTable.popEvent = { s.mEventTable with current := .nil } := by
      simp only [EventTable.popEvent, ht]
    simp only [hp, CompleteEventBagModel.empty, CompleteEventBagModel.nil, List.isEmpty_nil, Bool.and_self,
      if_true] at h3
    cases fuel with
    | zero => cases h3
    | succ fuel =>
      rw [drain] at h3
      cases h3
      obtain ⟨sims, tr, q, n, rfl⟩ := deleteQueued_frame h4
      cases h5
      have htop : s.getNextTime = ⊤ := by simp only [getNextTime, ht]; rfl
      exact ⟨by rw [htop]; rfl, htop ▸ le_top, htop ▸ le_top, hv⟩
  | some T =>
    obtain ⟨hl, hT, hne⟩ := EventTable.popEvent_later ht
    simp only [hne, Bool.false_eq_true, if_false] at h3
    obtain ⟨sims, tr, q, n, rfl⟩ := deleteQueued_frame h4
    have h3' := drain_keeps hk h3 ⟨hT, hl, hv⟩
    have h4' : AtTime T { s3 with simulators := sims, trace := tr, mDeletedSimulator := q, mToDelete := n } :=
      ⟨h3'.now, h3'.later, h3'.views⟩
    have h5' := processObservationEvents_keeps h4'.later.states h5 h4'
    have hs : s.getNextTime = (T : WithTop Time) := by simp only [getNextTime, ht]; rfl
    have hle := le_getNextTime (s := { s5 with mEventTable := { s5.mEventTable with current := .nil } })
      ⟨h5'.later.internals, h5'.later.observations, fun _ _ h => (by cases h), fun _ h => (by cases h)⟩
    exact ⟨by rw [hs]; exact h5'.now, hs ▸ hle, h5'.now ▸ hle, h5'.views⟩

/-- **Simulated time never goes back** (§5, §8).  When the callbacks schedule no event in the past
and no view observes back in time, the next time of the table never decreases across a run, and
across two consecutive runs the clock does not go back. -/
theorem run_time_monotone (hk : k.Timely) {fuel fuel' : Nat} {s s' s'' : Coordinator σ}
    (hv : ∀ v ∈ s.mViewList, v.2.Timely) (h : run k fuel s = .ok s') (h' : run k fuel' s' = .ok s'') :
    s.getNextTime ≤ s'.getNextTime ∧ s'.getNextTime ≤ s''.getNextTime ∧ s'.mCurrentTime ≤ s''.mCurrentTime := by
  obtain ⟨-, hn, hc, hv'⟩ := run_nextTime hk hv h
  obtain ⟨hc', hn', -, -⟩ := run_nextTime hk hv' h'
  exact ⟨hn, hn', hc' ▸ (WithTop.le_untop'_iff fun _ => le_rfl).2 hc⟩

/-- A model that counts its internal transitions and, after every callback, schedules its next
internal event one unit later. -/
def ticking : Kernel Nat where
  dynamics :=
    { init := fun st t => (st, some (t + 1))
      confluentTransitions := fun _ _ _ => .INTERNAL
      output := fun _ _ => []
      internalTransition := fun st ev => (st + 1, some (ev.time + 1), [])
      externalTransition := fun st _ t => (st, some (t + 1), [])
      request := fun _ _ _ => []
      observation := fun _ _ => none }
  getTargetPortList := fun _ _ _ => []
  getTargetPortList_atomic := by simp

lemma ticking_timely : ticking.Timely where
  init _ t _ h := by cases h; exact (lt_add_one t).le
  internalTransition _ ev _ h := by cases h; exact (lt_add_one ev.time).le
  externalTransition _ _ t _ h := by cases h; exact (lt_add_one t).le

/-- One atomic model `a` at `2` under `top` at `1`. -/
def tickGraph : Graph := fun m =>
  if m = 1 then some (.coupled "top" [("a", 2)] [])
  else if m = 2 then some (.atomic "a")
  else none

/-- `run_time_monotone` on two runs of `ticking`, from time `0`.  The additions of `ℚ` are
irreducible, so the runs are evaluated with every definition unfolded. -/
theorem run_time_monotone_ticking :
    ∃ s s' s'' : Coordinator Nat, (new [] tickGraph : Coordinator Nat).init ticking 0 [(2, 0)] = .ok s ∧
      run ticking 4 s = .ok s' ∧ run ticking 4 s' = .ok s'' ∧
      (s.getNextTime ≤ s'.getNextTime ∧ s'.getNextTime ≤ s''.getNextTime ∧ s'.mCurrentTime ≤ s''.mCurrentTime) :=
  ⟨_, _, _, rfl, by with_unfolding_all exact rfl, by with_unfolding_all exact rfl,
    @run_time_monotone _ ticking ticking_timely 4 4 _ _ _ (fun _ h => by cases h) (by with_unfolding_all exact rfl)
      (by with_unfolding_all exact rfl)⟩

end Coordinator

end Vle
