import Vle.Devs.Event

/-!
# Views

A view observes ports of simulators and writes what it reads to a stream.  A timed view observes
at a fixed period, an event view at every transition of the simulators it observes, a finish
view once at the end.  `View.cpp` is not under `src/`; the views are modelled here from the spec
(§3, §4.5), without the streams they write to.
-/

namespace Vle

/-- The three kinds of view. -/
inductive ViewType where
  | timed (timestep : Time)
  | event
  | finish
  deriving DecidableEq, Repr

/-- Modelled from the spec: a `devs::View`, its kind and its `ObservableList`, "an ordered mapping
from (Simulator, port)", kept as the list of the pairs it observes in that order. -/
structure View where
  name : String
  type : ViewType
  observables : List (SimId × String)
  deriving DecidableEq, Repr

namespace View

/-- `isEvent()`. -/
def isEvent (v : View) : Bool :=
  match v.type with
  | .event => true
  | _ => false

/-- `isFinish()`: a view that is neither timed nor an event view, as `addView` files it. -/
def isFinish (v : View) : Bool :=
  match v.type with
  | .finish => true
  | _ => false

/-- The order of the mapping of the observables: by simulator, then by port. -/
def observableLE (a b : SimId × String) : Prop := a.1 < b.1 ∨ a.1 = b.1 ∧ a.2 ≤ b.2

instance : DecidableRel observableLE := fun _ _ => inferInstanceAs (Decidable (_ ∨ _))

/-- Modelled from the spec: `addObservable(sim, port, time)` subscribes `(sim, port)` in the
mapping, where it stays once; a timed view "on registration at time t0, schedules an
ObservationEvent at t0". -/
def addObservable (v : View) (sim : SimId) (port : String) (time : Time) :
    View × Option ObservationEvent :=
  ({ v with observables :=
      if (sim, port) ∈ v.observables then v.observables
      else v.observables.orderedInsert observableLE (sim, port) },
    match v.type with
    | .timed _ => some ⟨time, sim, v.name, port⟩
    | _ => none)

/-- A subscription schedules, if anything, an observation of what it subscribes, now. -/
lemma addObservable_eq_some {v : View} {sim : SimId} {port : String} {time : Time} {e : ObservationEvent}
    (h : (v.addObservable sim port time).2 = some e) : e = ⟨time, sim, v.name, port⟩ := by
  simp only [addObservable] at h
  split at h <;> cases h
  rfl

/-- A subscription adds no pair but the one it subscribes. -/
lemma mem_addObservable {v : View} {sim : SimId} {port : String} {time : Time} {o : SimId × String}
    (h : o ∈ (v.addObservable sim port time).1.observables) : o ∈ v.observables ∨ o = (sim, port) := by
  simp only [addObservable] at h
  split at h
  · exact .inl h
  · exact ((List.mem_orderedInsert _).1 h).symm

/-- Modelled from the spec: `removeObservable(sim)` "detaches all View subscriptions to S". -/
def removeObservable (v : View) (sim : SimId) : View :=
  { v with observables := v.observables.filter (·.1 ≠ sim) }

/-- Modelled from the spec: `get(&model)`, the ports of `sim` the view observes. -/
def get (v : View) (sim : SimId) : List String :=
  (v.observables.filter (·.1 = sim)).map Prod.snd

/-- Modelled from the spec: `processObservationEvent(e)` writes the observation; a timed view
"after each observation at time t, returns a fresh ObservationEvent at t + p". -/
def processObservationEvent (v : View) (e : ObservationEvent) : Option ObservationEvent :=
  match v.type with
  | .timed p => some { e with time := e.time + p }
  | _ => none

/-- A view answers an observation only when it is timed: with the same observation, a period
later. -/
lemma processObservationEvent_eq_some {v : View} {e e' : ObservationEvent}
    (h : v.processObservationEvent e = some e') : ∃ p, v.type = .timed p ∧ e' = { e with time := e.time + p } := by
  unfold processObservationEvent at h
  split at h
  · next p hp => exact ⟨p, hp, (Option.some.inj h).symm⟩
  · cases h

end View

end Vle
