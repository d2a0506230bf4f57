import Vle.Devs.View

/-!
# The callbacks of a simulator

The coordinator drives each atomic model through its `devs::Simulator`, which forwards the DEVS
callbacks to the model's `Dynamics` (§4.2).  `Simulator.cpp` and the models are not under `src/`.
The callbacks are therefore a parameter, `Dynamics σ` over the state `σ` of the models: every
result about the coordinator holds for every choice of it, that is, for every set of models.

An executive model may edit the structure during its transitions (§4.6).  A transition returns,
beside the model's next state and the time of its next internal event, the calls it made on the
coordinator, in order; the coordinator performs them before it goes on, as it would have inside
the callback.

The coordinator keeps a ghost `Trace` of what it did: the callbacks it invoked, the events it put
into the table, the simulators it queued for deletion and those it freed.
-/

namespace Vle

/-- `Event::EventType`, the answer of `confluentTransitions`. -/
inductive EventType where
  | INTERNAL
  | EXTERNAL
  deriving DecidableEq, Repr

/-- A call an executive model makes on the coordinator: `createModel` for an atomic model it has
just built at `model` under `parent`, `addObservableToView`, `delModel`. -/
inductive Executive (σ : Type) where
  | createModel (parent model : ModelId) (name : String) (init : σ)
  | addObservableToView (model : ModelId) (portname view : String)
  | delModel (parent : ModelId) (modelname : String)

/-- The callbacks of a simulator.  `init`, `internalTransition` and `externalTransition` return
the absolute time of the next internal event (`none` for `+∞`), as `Simulator` builds the
`InternalEvent` it hands back. -/
structure Dynamics (σ : Type) where
  init : σ → Time → σ × Option Time
  confluentTransitions : σ → InternalEvent → List ExternalEvent → EventType
  output : σ → Time → List ExternalEvent
  internalTransition : σ → InternalEvent → σ × Option Time × List (Executive σ)
  externalTransition : σ → List ExternalEvent → Time → σ × Option Time × List (Executive σ)
  request : σ → ExternalEvent → Time → List ExternalEvent
  observation : σ → ObservationEvent → Option String

/-- `devs::Simulator`: the state of its model, and its structure (`getStructure()`). -/
structure Simulator (σ : Type) where
  state : σ
  model : ModelId

/-- A callback the coordinator invokes on a simulator: a DEVS callback, or the `finish()` hook of
the end of the simulation. -/
inductive Callback where
  | confluent
  | output
  | internal (e : InternalEvent)
  | external (events : List ExternalEvent)
  | request (e : ExternalEvent)
  | observation (e : ObservationEvent)
  | finish
  deriving DecidableEq, Repr

/-- One thing the coordinator did. -/
inductive Trace where
  | call (sim : SimId) (cb : Callback)
  | put (e : Event)
  | deleted (sim : SimId)
  | destroyed (sim : SimId)
  deriving DecidableEq, Repr

end Vle
