import Mathlib.Algebra.Order.Field.Rat
import Vle.Graph.Model

/-!
# Events and the event table

The coordinator's run loop pops from the event table the *complete bag* of the next instant: per
simulator, its internal event if it is due, the external and request events sent to it during the
instant, and the observation events due.  It then drains the bags, putting new events back as it
goes.  `EventTable.cpp` is not under `src/`; the table is modelled here from the spec (§3, §4.1):

* internal and observation events wait in the table, keyed by their time; a simulator has at most
  one pending internal event, so putting a new one replaces the old (§3, "For every scheduled
  InternalEvent whose target is S, the event's time equals S.tN");
* `popEvent` moves every event at the least time into the complete bag;
* external and request events are put into the complete bag of the current instant (§4.3.C, E);
* `delModelEvents(sim)` "removes all pending events mentioning `sim` as source or destination".

A `Simulator*` is a number, `0` being the null pointer.
-/

namespace Vle

/-- Simulated time (`devs::Time`); `+∞` is `none` where it can occur. -/
abbrev Time := ℚ

/-- `devs::Simulator*`: the address of a simulator, `0` being the null pointer. -/
abbrev SimId := Nat

/-- The attributes of an external event (a `value::Map`), as names and texts. -/
abbrev Attributes := List (String × String)

/-- `InternalEvent`: the next internal transition of a simulator. -/
structure InternalEvent where
  time : Time
  model : SimId
  deriving DecidableEq, Repr

/-- `ExternalEvent`, or `RequestEvent` when `isRequest`.  As a model emits it, it carries its
output port and attributes; routed, it carries its source simulator, its destination simulator and
the destination's input port. -/
structure ExternalEvent where
  portName : String
  attributes : Attributes
  isRequest : Bool
  source : SimId
  target : SimId
  deriving DecidableEq, Repr

/-- `ObservationEvent`: observe `portName` of a simulator for a view. -/
structure ObservationEvent where
  time : Time
  model : SimId
  viewName : String
  portName : String
  deriving DecidableEq, Repr

/-- An event put into the table, of any kind. -/
inductive Event where
  | internal (e : InternalEvent)
  | external (e : ExternalEvent)
  | request (e : ExternalEvent)
  | observation (e : ObservationEvent)
  deriving DecidableEq, Repr

namespace Event

/-- The simulator an event is for. -/
def target : Event → SimId
  | internal e => e.model
  | external e => e.target
  | request e => e.target
  | observation e => e.model

/-- The external event that putting `e` adds to the bag of `sim`, if any. -/
@[simp] def externalFor (sim : SimId) : Event → List ExternalEvent
  | external e => if e.target = sim then [e] else []
  | _ => []

/-- The request that putting `e` adds to the bag of `sim`, if any. -/
@[simp] def requestFor (sim : SimId) : Event → List ExternalEvent
  | request e => if e.target = sim then [e] else []
  | _ => []

end Event

/-! ## Bags -/

/-- `EventBagModel`: the events of one simulator at one instant. -/
structure EventBagModel where
  internal : Option InternalEvent
  externals : List ExternalEvent
  requests : List ExternalEvent
  deriving DecidableEq, Repr

namespace EventBagModel

/-- The bag with nothing in it. -/
def nil : EventBagModel := ⟨none, [], []⟩

/-- `emptyInternal()`. -/
def emptyInternal (b : EventBagModel) : Bool := b.internal.isNone

/-- `emptyExternal()`. -/
def emptyExternal (b : EventBagModel) : Bool := b.externals.isEmpty

/-- `empty()`: no internal, external or request event left. -/
def empty (b : EventBagModel) : Bool := b.emptyInternal && b.emptyExternal && b.requests.isEmpty

/-- What `delModelEvents` leaves of the bag of another simulator: the events `sim` sent removed. -/
def forget (sim : SimId) (b : EventBagModel) : EventBagModel :=
  ⟨b.internal, b.externals.filter (·.source ≠ sim), b.requests.filter (·.source ≠ sim)⟩

end EventBagModel

/-- `CompleteEventBagModel`: the bags of the current instant, and its observation events. -/
structure CompleteEventBagModel where
  bags : List (SimId × EventBagModel)
  states : List ObservationEvent
  deriving DecidableEq, Repr

namespace CompleteEventBagModel

/-- The complete bag with nothing in it. -/
def nil : CompleteEventBagModel := ⟨[], []⟩

/-- `empty()`: nothing was popped. -/
def empty (c : CompleteEventBagModel) : Bool := c.bags.isEmpty && c.states.isEmpty

/-- `topBag()`: the first simulator whose bag is not empty, if any (`emptyBag()` otherwise). -/
def topBag (c : CompleteEventBagModel) : Option SimId :=
  (c.bags.find? fun p => !p.2.empty).map Prod.fst

/-- The bag of `sim`. -/
def bag (c : CompleteEventBagModel) (sim : SimId) : EventBagModel :=
  (c.bags.lookup sim).getD EventBagModel.nil

/-- Change the bag of `sim`, adding one at the end if it has none. -/
def modifyBag (c : CompleteEventBagModel) (sim : SimId) (f : EventBagModel → EventBagModel) :
    CompleteEventBagModel :=
  if (c.bags.lookup sim).isSome then
    ⟨c.bags.map fun p => (p.1, if p.1 = sim then f p.2 else p.2), c.states⟩
  else ⟨c.bags ++ [(sim, f EventBagModel.nil)], c.states⟩

/-- Changing the bag of `x` changes no other bag. -/
@[simp] lemma bag_modifyBag (c : CompleteEventBagModel) (x y : SimId)
    (f : EventBagModel → EventBagModel) :
    (c.modifyBag x f).bag y = if y = x then f (c.bag y) else c.bag y := by
  unfold modifyBag bag
  split
  · next h =>
    dsimp only
    rw [lookup_map_snd (fun a b => if a = x then f b else b)]
    split
    · next hy => subst hy; obtain ⟨b, hb⟩ := Option.isSome_iff_exists.1 h; simp [hb]
    · next hy => cases c.bags.lookup y <;> simp [hy]
  · next h =>
    dsimp only
    rw [List.lookup_append]
    split
    · next hy =>
      rw [hy, Option.not_isSome_iff_eq_none.1 h]
      simp [List.lookup_cons]
    · next hy =>
      have hb : (y == x) = false := by simpa using hy
      cases c.bags.lookup y <;> simp [List.lookup_cons, hb]

/-- Changing a bag keeps the observations of the instant. -/
@[simp] lemma states_modifyBag (c : CompleteEventBagModel) (x : SimId) (f : EventBagModel → EventBagModel) :
    (c.modifyBag x f).states = c.states := by
  unfold modifyBag; split <;> rfl

end CompleteEventBagModel

/-! ## The table -/

/-- Modelled from the spec: the event table, with the complete bag of the current instant. -/
structure EventTable where
  internals : List InternalEvent
  observations : List ObservationEvent
  current : CompleteEventBagModel
  currentTime : Time
  deriving DecidableEq, Repr

namespace EventTable

/-- `topEvent()`: the time of the next pending event, `+∞` (`none`) if there is none. -/
def topEvent (t : EventTable) : Option Time :=
  (t.internals.map (·.time) ++ t.observations.map (·.time)).min?

/-- Modelled from the spec: `popEvent()` moves every event due at the least time into the
complete bag. -/
def popEvent (t : EventTable) : EventTable :=
  match t.topEvent with
  | none => { t with current := CompleteEventBagModel.nil }
  | some time =>
    { internals := t.internals.filter (·.time ≠ time)
      observations := t.observations.filter (·.time ≠ time)
      current := ⟨(t.internals.filter (·.time = time)).map fun e => (e.model, ⟨some e, [], []⟩),
        t.observations.filter (·.time = time)⟩
      currentTime := time }

/-- Modelled from the spec: `putInternalEvent(e)` schedules `e`, replacing the simulator's
pending internal event. -/
def putInternalEvent (t : EventTable) (e : InternalEvent) : EventTable :=
  { t with internals := t.internals.filter (·.model ≠ e.model) ++ [e] }

/-- Modelled from the spec: `putExternalEvent(e)` adds `e` to its target's bag of the instant. -/
def putExternalEvent (t : EventTable) (e : ExternalEvent) : EventTable :=
  { t with current := t.current.modifyBag e.target fun b => { b with externals := b.externals ++ [e] } }

/-- Modelled from the spec: `putRequestEvent(e)` adds `e` to its target's bag of the instant. -/
def putRequestEvent (t : EventTable) (e : ExternalEvent) : EventTable :=
  { t with current := t.current.modifyBag e.target fun b => { b with requests := b.requests ++ [e] } }

/-- Modelled from the spec: `putObservationEvent(e)` schedules `e`. -/
def putObservationEvent (t : EventTable) (e : ObservationEvent) : EventTable :=
  { t with observations := t.observations ++ [e] }

/-- Modelled from the spec: `delModelEvents(sim)` removes every event for `sim` or sent by it,
pending or in the complete bag of the instant. -/
def delModelEvents (t : EventTable) (sim : SimId) : EventTable :=
  { internals := t.internals.filter (·.model ≠ sim)
    observations := t.observations.filter (·.model ≠ sim)
    current := ⟨t.current.bags.map fun p =>
        if p.1 = sim then (p.1, EventBagModel.nil) else (p.1, p.2.forget sim),
      t.current.states.filter (·.model ≠ sim)⟩
    currentTime := t.currentTime }

/-- The bag of `x` once the events of `y` are removed. -/
lemma bag_delModelEvents (tb : EventTable) (x y : SimId) :
    (tb.delModelEvents y).current.bag x = if x = y then .nil else (tb.current.bag x).forget y := by
  have hf : (fun p : SimId × EventBagModel =>
      if p.1 = y then (p.1, EventBagModel.nil) else (p.1, p.2.forget y)) =
      fun p => (p.1, (fun a b => if a = y then EventBagModel.nil else b.forget y) p.1 p.2) := by
    funext p; by_cases h : p.1 = y <;> simp [h]
  unfold delModelEvents CompleteEventBagModel.bag
  rw [hf, lookup_map_snd (fun (a : SimId) (b : EventBagModel) => if a = y then .nil else b.forget y)]
  cases tb.current.bags.lookup x <;> by_cases h : x = y <;> simp [h, EventBagModel.forget, EventBagModel.nil]

end EventTable

end Vle
