import Vle.Devs.Coordinator

/-!
# What the executive can do

An executive model edits the structure from inside its transitions (§4.6).  Once the recursion
of `delModel` into the graph is unfolded, every change its calls make to the state goes through
one of four doors:

* `createModel`, which adds the node to the graph and calls the model factory;
* `addObservableToView`;
* `delAtomicModel`, on each atomic model `delModel` reaches;
* an edit of the graph alone (`delCoupledModel` removing a coupled model and its connections).

`newSimulator_eq`, `addObservableToView_eq` and `delAtomicModel_eq` say once what each of the
first three does when it succeeds; every relation below is checked across a door from them.

`runExecutive_rel` proves once that a reflexive, transitive relation between states that holds
across each door (`Doors`) holds across all the executive calls of a transition.  The bag of a
simulator (`Drain`) and the clock (`Time`) are followed through the executive this way.

`drain_rel` does the same for the drain of an instant: a relation that also holds across logging
a callback, putting an event other than an observation, storing the state a transition of a model
returns (`Transition`) and editing a bag (`Turns`) holds across the whole drain.  The books of
two-phase deletion (`Bookkeeping`), the subscriptions of the views (`Views`) and the states of the
models (`Models`) are followed through an instant this way.
-/

namespace Vle

namespace Coordinator

variable {σ : Type} {k : Kernel σ} {R : Coordinator σ → Coordinator σ → Prop}

/-- What the model factory does when `newSimulator` succeeds: `model` had no simulator, and gets
the next one, holding the state `init` returns, with the first internal event `init` asks for. -/
lemma newSimulator_eq {model : ModelId} {st : σ} {time : Time} {s s' : Coordinator σ}
    (h : newSimulator k model st time s = .ok s') :
    s.mModelList.lookup model = none ∧
      s' = ({ s with
        mModelList := s.mModelList.orderedInsert (fun a b => a.1 ≤ b.1) (model, s.nextSim)
        simulators := Function.update s.simulators s.nextSim (some ⟨(k.dynamics.init st time).1, model⟩)
        nextSim := s.nextSim + 1 }).putNext s.nextSim (k.dynamics.init st time).2 := by
  obtain ⟨s1, h1, h⟩ := Outcome.bind_eq_ok.1 h
  simp only [addModel] at h1
  split at h1
  · next hl =>
    cases h1
    cases h
    exact ⟨hl, rfl⟩
  · split at h1 <;> cases h1

/-- What `addObservableToView` does when it succeeds: `view` exists and `model` has a simulator;
the view subscribes the simulator at `portname`, and puts the observation a timed view asks for. -/
lemma addObservableToView_eq {model : ModelId} {portname view : String} {s s' : Coordinator σ}
    (h : addObservableToView model portname view s = .ok s') :
    ∃ obs, s.getView view = some obs ∧ s.getModel model ≠ 0 ∧
      ∃ s1 : Coordinator σ, s1 = { s with mViewList := s.mViewList.map fun p =>
          if p.1 = view then (p.1, (obs.addObservable (s.getModel model) portname s.mCurrentTime).1) else p } ∧
        (s' = s1 ∨ ∃ e, (obs.addObservable (s.getModel model) portname s.mCurrentTime).2 = some e ∧
          s' = s1.put (.observation e)) := by
  simp only [addObservableToView] at h
  split at h
  · next obs hobs =>
    split at h
    · cases h
    · next h0 =>
      refine ⟨obs, hobs, h0, _, rfl, ?_⟩
      split at h <;> cases h
      · exact .inr ⟨_, ‹_›, rfl⟩
      · exact .inl rfl
  · cases h

/-- What `delAtomicModel` does when it succeeds: `atom` had the simulator `satom`, which leaves the
model list, every view and the table, and joins the queue of deleted simulators; the node leaves
the graph. -/
lemma delAtomicModel_eq {parent atom : ModelId} {s s' : Coordinator σ}
    (h : delAtomicModel parent atom s = .ok s') :
    ∃ satom, s.mModelList.lookup atom = some satom ∧ s' = { s with
      mModelList := s.mModelList.filter (·.1 ≠ atom)
      mViewList := s.mViewList.map fun p => (p.1, p.2.removeObservable satom)
      mEventTable := s.mEventTable.delModelEvents satom
      mDeletedSimulator := s.mDeletedSimulator ++ [satom]
      graph := s.graph.delModel parent atom
      trace := s.trace ++ [.deleted satom] } := by
  obtain ⟨-, -, h⟩ := Outcome.bind_eq_ok.1 h
  split at h
  · next satom hl => exact ⟨satom, hl, (Outcome.ok.inj h).symm⟩
  · cases h

/-- `R` is reflexive and transitive, and holds across each door of the executive. -/
structure Doors (k : Kernel σ) (R : Coordinator σ → Coordinator σ → Prop) : Prop where
  refl : ∀ s, R s s
  trans : ∀ {s₁ s₂ s₃}, R s₁ s₂ → R s₂ s₃ → R s₁ s₃
  graph : ∀ (s : Coordinator σ) (g : Graph), R s { s with graph := g }
  createModel : ∀ {parent model name st s s'}, createModel k parent model name st s = .ok s' → R s s'
  addObservableToView : ∀ {model port view s s'}, addObservableToView model port view s = .ok s' → R s s'
  delAtomicModel : ∀ {parent atom s s'}, delAtomicModel parent atom s = .ok s' → R s s'

/-- The loop of `delCoupledModel` keeps `R` when deleting a coupled child does. -/
lemma delChildren_rel (hR : Doors k R) {del : ModelId → ModelId → Coordinator σ → Outcome (Coordinator σ)}
    (hdel : ∀ {p m : ModelId} {s s' : Coordinator σ}, del p m s = .ok s' → R s s') :
    ∀ {fuel : Nat} {mdl : ModelId} {key : Option String} {s s' : Coordinator σ},
      delChildren del fuel mdl key s = .ok s' → R s s'
  | _, _, none, s, _, h => by simp only [delChildren] at h; cases h; exact hR.refl s
  | 0, _, some _, _, _, h => by cases h
  | fuel + 1, mdl, some key, s, s', h => by
    rw [delChildren] at h
    split at h
    · dsimp only at h
      split at h <;> obtain ⟨s1, h1, h⟩ := Outcome.bind_eq_ok.1 h <;>
        obtain ⟨next, -, h⟩ := Outcome.bind_eq_ok.1 h <;> refine hR.trans ?_ (delChildren_rel hR hdel h)
      · exact hR.delAtomicModel h1
      · exact hdel h1
      · cases h1
    · cases h

lemma delCoupledModel_rel (hR : Doors k R) :
    ∀ {fuel : Nat} {parent mdl : ModelId} {s s' : Coordinator σ},
      delCoupledModel fuel parent mdl s = .ok s' → R s s'
  | 0, _, _, _, _, h => by cases h
  | fuel + 1, parent, mdl, s, s', h => by
    obtain ⟨-, -, h⟩ := Outcome.bind_eq_ok.1 h
    obtain ⟨s1, h1, h⟩ := Outcome.bind_eq_ok.1 h
    cases h
    exact hR.trans (delChildren_rel hR (delCoupledModel_rel hR) h1) (hR.graph s1 _)

lemma delModel_rel (hR : Doors k R) {fuel : Nat} {parent : ModelId} {name : String}
    {s s' : Coordinator σ} (h : delModel fuel parent name s = .ok s') : R s s' := by
  simp only [delModel] at h
  split at h
  · split at h
    · split at h
      · exact delCoupledModel_rel hR h
      · exact hR.delAtomicModel h
      · cases h
    · cases h
  · cases h

/-- **The executive calls of a transition keep every relation their doors keep.** -/
lemma runExecutive_rel (hR : Doors k R) {fuel : Nat} :
    ∀ {calls : List (Executive σ)} {s s' : Coordinator σ}, runExecutive k fuel calls s = .ok s' → R s s'
  | [], s, _, h => by cases h; exact hR.refl s
  | e :: rest, s, s', h => by
    cases e <;> rw [runExecutive] at h <;> obtain ⟨s1, h1, h⟩ := Outcome.bind_eq_ok.1 h <;>
      refine hR.trans ?_ (runExecutive_rel hR h)
    case createModel => exact hR.createModel h1
    case addObservableToView => exact hR.addObservableToView h1
    case delModel => exact delModel_rel hR h1

/-! ## Through an instant -/

/-- `st` is a state that a transition of a model in the state `a` returns. -/
def Transition (k : Kernel σ) (a st : σ) : Prop :=
  (∃ ev, st = (k.dynamics.internalTransition a ev).1) ∨
    ∃ lst time, st = (k.dynamics.externalTransition a lst time).1

/-- `R` holds across each door of the executive, and across what else the functions of the drain
do to the state: log a callback, put an event that is not an observation (only the executive puts
those), store the state a transition of a live model returns, edit a bag. -/
structure Turns (k : Kernel σ) (R : Coordinator σ → Coordinator σ → Prop) extends Doors k R : Prop where
  log : ∀ (s : Coordinator σ) (sim : SimId) (cb : Callback), R s (s.log (.call sim cb))
  put : ∀ (s : Coordinator σ) (e : Event), (∀ o, e ≠ .observation o) → R s (s.put e)
  setState : ∀ (s : Coordinator σ) (sim : SimId) (simulator : Simulator σ) (st : σ),
    s.simulators sim = some simulator → Transition k simulator.state st → R s (s.setState sim st)
  modifyBag : ∀ (s : Coordinator σ) (sim : SimId) (f : EventBagModel → EventBagModel), R s (s.modifyBag sim f)

lemma Turns.putNext (hR : Turns k R) (s : Coordinator σ) (sim : SimId) (next : Option Time) :
    R s (s.putNext sim next) := by
  cases next with
  | none => exact hR.refl s
  | some t => exact hR.put s (.internal ⟨t, sim⟩) fun _ h => by cases h

lemma putTargets_rel (hR : Turns k R) {e : ExternalEvent} :
    ∀ {l : List (ModelId × String)} {s s' : Coordinator σ}, putTargets e l s = .ok s' → R s s'
  | [], s, _, h => by cases h; exact hR.refl s
  | (m, p) :: rest, s, s', h => by
    obtain ⟨-, -, h⟩ := Outcome.bind_eq_ok.1 h
    exact hR.trans (hR.put s _ fun _ => by split <;> simp) (putTargets_rel hR h)

lemma dispatchExternalEvent_rel (hR : Turns k R) :
    ∀ {l : List ExternalEvent} {sim : SimId} {s s' : Coordinator σ},
      dispatchExternalEvent k l sim s = .ok s' → R s s'
  | [], _, s, _, h => by cases h; exact hR.refl s
  | e :: rest, sim, s, s', h => by
    rw [dispatchExternalEvent] at h
    split at h
    · obtain ⟨s1, h1, h⟩ := Outcome.bind_eq_ok.1 h
      exact hR.trans (putTargets_rel hR h1) (dispatchExternalEvent_rel hR h)
    · cases h

lemma observe_rel (hR : Turns k R) {sim : SimId} :
    ∀ {l : List ObservationEvent} {s s' : Coordinator σ}, observe sim l s = .ok s' → R s s'
  | [], s, _, h => by cases h; exact hR.refl s
  | e :: rest, s, s', h => by
    rw [observe] at h
    split at h
    · exact hR.trans (hR.log s sim _) (observe_rel hR h)
    · cases h

/-- The internal path: the bag, the output and its routing, the transition, its executive calls,
the next internal event, the event views. -/
lemma processInternalEvent_rel (hR : Turns k R) {fuel : Nat} {sim : SimId} {s s' : Coordinator σ}
    (h : processInternalEvent k fuel sim s = .ok s') : R s s' := by
  simp only [processInternalEvent] at h
  split at h
  · next ev _ =>
    split at h
    · obtain ⟨s1, h1, h⟩ := Outcome.bind_eq_ok.1 h
      split at h
      · next simulator hsim =>
        obtain ⟨s2, h2, h⟩ := Outcome.bind_eq_ok.1 h
        exact hR.trans (hR.modifyBag s sim _) <| hR.trans (hR.log _ sim _) <|
          hR.trans (dispatchExternalEvent_rel hR h1) <| hR.trans (hR.log s1 sim _) <|
          hR.trans (hR.setState _ sim simulator _ hsim (.inl ⟨ev, rfl⟩)) <|
          hR.trans (runExecutive_rel hR.toDoors h2) <|
          hR.trans (hR.putNext s2 sim _) (observe_rel hR h)
      · cases h
    · cases h
  · cases h

/-- The external path: the transition, its executive calls, the next internal event, the bag,
the event views. -/
lemma processExternalEvents_rel (hR : Turns k R) {fuel : Nat} {sim : SimId} {s s' : Coordinator σ}
    (h : processExternalEvents k fuel sim s = .ok s') : R s s' := by
  simp only [processExternalEvents] at h
  split at h
  · next simulator hsim =>
    obtain ⟨s1, h1, h⟩ := Outcome.bind_eq_ok.1 h
    exact hR.trans (hR.log s sim _) <| hR.trans (hR.setState _ sim simulator _ hsim (.inr ⟨_, _, rfl⟩)) <|
      hR.trans (runExecutive_rel hR.toDoors h1) <| hR.trans (hR.putNext s1 sim _) <|
      hR.trans (hR.modifyBag _ sim _) (observe_rel hR h)
  · cases h

lemma processRequests_rel (hR : Turns k R) {sim : SimId} :
    ∀ {fuel i : Nat} {s s' : Coordinator σ}, processRequests k fuel sim i s = .ok s' → R s s'
  | 0, _, _, _, h => by cases h
  | fuel + 1, i, s, s', h => by
    rw [processRequests] at h
    split at h
    · cases h; exact hR.refl s
    · split at h
      · obtain ⟨s1, h1, h⟩ := Outcome.bind_eq_ok.1 h
        exact hR.trans (hR.log s sim _) <| hR.trans (dispatchExternalEvent_rel hR h1) (processRequests_rel hR h)
      · cases h

lemma bagStep_rel (hR : Turns k R) {fuel : Nat} {sim : SimId} {s s' : Coordinator σ}
    (h : bagStep k fuel sim s = .ok s') : R s s' := by
  unfold bagStep at h
  split at h
  · split at h
    · exact processInternalEvent_rel hR h
    · split at h
      · cases h
      · split at h
        · exact hR.trans (hR.log s sim _) (processInternalEvent_rel hR h)
        · exact hR.trans (hR.log s sim _) (processExternalEvents_rel hR h)
  · split at h
    · exact processExternalEvents_rel hR h
    · obtain ⟨s1, h1, h⟩ := Outcome.bind_eq_ok.1 h
      cases h
      exact hR.trans (processRequests_rel hR h1) (hR.modifyBag s1 sim _)

lemma drainBag_rel (hR : Turns k R) :
    ∀ {fuel : Nat} {sim : SimId} {s s' : Coordinator σ}, drainBag k fuel sim s = .ok s' → R s s'
  | 0, _, _, _, h => by cases h
  | fuel + 1, sim, s, s', h => by
    rw [drainBag] at h
    split at h
    · cases h; exact hR.refl s
    · obtain ⟨s1, h1, h⟩ := Outcome.bind_eq_ok.1 h
      exact hR.trans (bagStep_rel hR h1) (drainBag_rel hR h)

/-- **The drain of an instant keeps every relation that its pieces keep.** -/
lemma drain_rel (hR : Turns k R) :
    ∀ {fuel : Nat} {s s' : Coordinator σ}, drain k fuel s = .ok s' → R s s'
  | 0, _, _, h => by cases h
  | fuel + 1, s, s', h => by
    rw [drain] at h
    split at h
    · cases h; exact hR.refl s
    · obtain ⟨s1, h1, h⟩ := Outcome.bind_eq_ok.1 h
      exact hR.trans (drainBag_rel hR h1) (drain_rel hR h)

/-- Freeing simulators touches the heap and the trace only. -/
lemma freeSimulators_frame : ∀ {l : List SimId} {s s' : Coordinator σ}, freeSimulators l s = .ok s' →
    ∃ sims tr, s' = { s with simulators := sims, trace := tr }
  | [], s, _, h => by cases h; exact ⟨s.simulators, s.trace, rfl⟩
  | x :: l, s, s', h => by
    rw [freeSimulators] at h
    split at h
    · exact freeSimulators_frame h
    · split at h
      · cases h
      · obtain ⟨sims, tr, rfl⟩ := freeSimulators_frame h
        exact ⟨sims, tr, rfl⟩

/-- The deletion at the end of `run()` touches the heap, the trace and the queue only. -/
lemma deleteQueued_frame {old : Nat} {s s' : Coordinator σ} (h : deleteQueued old s = .ok s') :
    ∃ sims tr q n, s' = { s with simulators := sims, trace := tr, mDeletedSimulator := q, mToDelete := n } := by
  unfold deleteQueued at h
  split at h
  · split at h
    · obtain ⟨s1, h1, h⟩ := Outcome.bind_eq_ok.1 h
      obtain ⟨sims, tr, rfl⟩ := freeSimulators_frame h1
      cases h
      exact ⟨sims, tr, _, _, rfl⟩
    · cases h
  · cases h
    exact ⟨s.simulators, s.trace, s.mDeletedSimulator, s.mToDelete, rfl⟩

end Coordinator

end Vle
