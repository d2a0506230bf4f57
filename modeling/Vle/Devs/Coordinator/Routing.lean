import Vle.Devs.Coordinator

/-!
# Routing

`dispatchExternalEvent(eventList, sim)` stamps each event a simulator emitted with its source,
asks the structure of the simulator for the targets of the event's port
(`getTargetPortList`, outside `src/`), and puts one copy per target into the table, a
`RequestEvent` when the event is a request.  This file states what it should insert, `routed`,
read from the contract of routing: one event per pair of an event of the list and a target of
its port, in list order and then target order, carrying the event's attributes and its source,
destined to the target's simulator at the target's port.  `dispatchExternalEvent_eq` proves
that the nested loops insert exactly that, and nothing else.  The loop asserts that every target
is atomic, which `getTargetPortList` promises (`Kernel.getTargetPortList_atomic`);
`putTargets_raise` says what the loop would do on a list that breaks the promise.
-/

namespace Vle

namespace Coordinator

variable {σ : Type} (k : Kernel σ)

/-- Put the events `es` into the table, in order. -/
def putAll (s : Coordinator σ) (es : List Event) : Coordinator σ :=
  es.foldl put s

@[simp] lemma putAll_nil (s : Coordinator σ) : s.putAll [] = s := rfl

@[simp] lemma putAll_cons (s : Coordinator σ) (e : Event) (es : List Event) :
    s.putAll (e :: es) = (s.put e).putAll es := rfl

lemma putAll_append (s : Coordinator σ) (es es' : List Event) :
    s.putAll (es ++ es') = (s.putAll es).putAll es' :=
  List.foldl_append _ _ _ _

@[simp] lemma put_graph (s : Coordinator σ) (e : Event) : (s.put e).graph = s.graph := rfl

@[simp] lemma put_simulators (s : Coordinator σ) (e : Event) :
    (s.put e).simulators = s.simulators := rfl

@[simp] lemma putNext_simulators (s : Coordinator σ) (sim : SimId) (next : Option Time) :
    (s.putNext sim next).simulators = s.simulators := by
  cases next <;> rfl

@[simp] lemma getModel_put (s : Coordinator σ) (e : Event) (m : ModelId) :
    (s.put e).getModel m = s.getModel m := rfl

@[simp] lemma putAll_graph (s : Coordinator σ) (es : List Event) : (s.putAll es).graph = s.graph := by
  induction es generalizing s <;> simp [*]

@[simp] lemma putAll_simulators (s : Coordinator σ) (es : List Event) :
    (s.putAll es).simulators = s.simulators := by
  induction es generalizing s <;> simp [*]

@[simp] lemma getModel_putAll (s : Coordinator σ) (es : List Event) (m : ModelId) :
    (s.putAll es).getModel m = s.getModel m := by
  induction es generalizing s <;> simp [*]

/-- Putting an event appends it to the bag of its target when it is an external event or a
request, and changes no bag otherwise. -/
lemma bag_put (s : Coordinator σ) (e : Event) (x : SimId) :
    (s.put e).bag x = { s.bag x with
      externals := (s.bag x).externals ++ e.externalFor x
      requests := (s.bag x).requests ++ e.requestFor x } := by
  cases e with
  | internal e | observation e => simp [put, bag, EventTable.putInternalEvent, EventTable.putObservationEvent]
  | external e | request e =>
    by_cases hx : x = e.target
    · subst hx
      simp [put, bag, EventTable.putExternalEvent, EventTable.putRequestEvent]
    · simp [put, bag, EventTable.putExternalEvent, EventTable.putRequestEvent, hx, Ne.symm hx]

lemma bag_putAll (s : Coordinator σ) (es : List Event) (x : SimId) :
    (s.putAll es).bag x = { s.bag x with
      externals := (s.bag x).externals ++ es.flatMap (Event.externalFor x)
      requests := (s.bag x).requests ++ es.flatMap (Event.requestFor x) } := by
  induction es generalizing s with
  | nil => simp
  | cons e es ih => simp [ih, bag_put]

/-- The copy of `e` for the target `(m, p)`: destined to the simulator of `m` at port `p`, a
request when `e` is one. -/
def copyTo (s : Coordinator σ) (e : ExternalEvent) (mp : ModelId × String) : Event :=
  let e' := { e with target := s.getModel mp.1, portName := mp.2 }
  if e.isRequest then .request e' else .external e'

/-- The events routing should insert for the event `e` that `sim`, the simulator of the atomic
model `model`, emitted: one per target of its port, in target order, each from `sim`. -/
def routed (s : Coordinator σ) (sim : SimId) (model : ModelId) (e : ExternalEvent) : List Event :=
  (k.getTargetPortList s.graph model e.portName).map (s.copyTo { e with source := sim })

@[simp] lemma routed_putAll (s : Coordinator σ) (es : List Event) :
    routed k (s.putAll es) = routed k s := by
  funext sim model e
  simp [routed, copyTo]

/-- The inner loop puts one copy of `e` per target, when every target is atomic. -/
lemma putTargets_eq (e : ExternalEvent) :
    ∀ (l : List (ModelId × String)) (s : Coordinator σ), (∀ mp ∈ l, s.graph.isAtomic mp.1 = true) →
      putTargets e l s = .ok (s.putAll (l.map (s.copyTo e)))
  | [], _, _ => rfl
  | (m, p) :: l, s, h => by
    have hm : s.graph.isAtomic m = true := h (m, p) (List.mem_cons_self _ _)
    simp only [putTargets, assertI, if_pos hm, Outcome.ok_bind]
    rw [putTargets_eq e l _ fun mp hmp => by simpa using h mp (List.mem_cons_of_mem _ hmp)]
    rfl

/-- On a target that is not atomic the inner loop throws, naming the assertion, after putting
the copies for the targets before it. -/
lemma putTargets_raise (e : ExternalEvent) :
    ∀ (l : List (ModelId × String)) (s : Coordinator σ), (∃ mp ∈ l, s.graph.isAtomic mp.1 = false) →
      putTargets e l s = .raise "jt->model()->isAtomic()"
  | [], _, h => by simp at h
  | (m, p) :: l, s, h => by
    by_cases hm : s.graph.isAtomic m = true
    · obtain ⟨mp, hmp, hf⟩ := h
      rcases List.mem_cons.1 hmp with rfl | hmp
      · simp [hf] at hm
      · simp only [putTargets, assertI, if_pos hm, Outcome.ok_bind]
        exact putTargets_raise e l _ ⟨mp, hmp, by simpa using hf⟩
    · simp [putTargets, assertI, hm]

/-- **Routing is exact.**  For the events `L` that the live simulator `sim` emitted,
`dispatchExternalEvent(L, sim)` puts exactly the events `routed` says, in list order and then
target order, and changes nothing else. -/
theorem dispatchExternalEvent_eq {sim : SimId} {simulator : Simulator σ} {L : List ExternalEvent}
    {s : Coordinator σ} (hsim : s.simulators sim = some simulator) :
    dispatchExternalEvent k L sim s = .ok (s.putAll (L.flatMap (routed k s sim simulator.model))) := by
  induction L generalizing s with
  | nil => rfl
  | cons e L ih =>
    rw [dispatchExternalEvent, hsim]
    dsimp only
    rw [putTargets_eq _ _ _ (k.getTargetPortList_atomic _ _ _), Outcome.ok_bind,
      ih (by simpa using hsim), List.flatMap_cons, putAll_append, routed_putAll]
    rfl

/-- **What routing leaves in each bag.**  After `dispatchExternalEvent(L, sim)` the bag of every
simulator `x` holds what it held, followed by the copies `routed` destines to `x`: the external
events after the external events, the requests after the requests, in list order and then target
order; its internal event is unchanged. -/
theorem dispatchExternalEvent_bag {sim : SimId} {simulator : Simulator σ} {L : List ExternalEvent}
    {s : Coordinator σ} (hsim : s.simulators sim = some simulator) (x : SimId) :
    ∃ s', dispatchExternalEvent k L sim s = .ok s' ∧
      (s'.bag x).internal = (s.bag x).internal ∧
      (s'.bag x).externals =
        (s.bag x).externals ++ (L.flatMap (routed k s sim simulator.model)).flatMap (Event.externalFor x) ∧
      (s'.bag x).requests =
        (s.bag x).requests ++ (L.flatMap (routed k s sim simulator.model)).flatMap (Event.requestFor x) :=
  ⟨_, dispatchExternalEvent_eq k hsim, by simp [bag_putAll]⟩

/-- A coupled model `top` at `1` with three atomic children, `a` at `2` sending on its port `out`
to `b` at `3` and `c` at `4`. -/
def fanOutGraph : Graph := fun m =>
  if m = 1 then some (.coupled "top" [("a", 2), ("b", 3), ("c", 4)] [⟨2, "out", 3, "in"⟩, ⟨2, "out", 4, "in"⟩])
  else if m = 2 then some (.atomic "a")
  else if m = 3 then some (.atomic "b")
  else if m = 4 then some (.atomic "c")
  else none

/-- The connections of `fanOutGraph`, as `getTargetPortList` reads them: the output port `out`
of `a` leads to the input port `in` of `b` and of `c`. -/
def fanOut : Kernel Unit where
  dynamics :=
    { init := fun st _ => (st, none)
      confluentTransitions := fun _ _ _ => .EXTERNAL
      output := fun _ _ => []
      internalTransition := fun st _ => (st, none, [])
      externalTransition := fun st _ _ => (st, none, [])
      request := fun _ _ _ => []
      observation := fun _ _ => none }
  getTargetPortList := fun g m p =>
    if m = 2 ∧ p = "out" then [(3, "in"), (4, "in")].filter fun mp => g.isAtomic mp.1 else []
  getTargetPortList_atomic := fun g m p mp hmp => by
    dsimp only at hmp
    split at hmp
    · exact (List.mem_filter.1 hmp).2
    · simp at hmp

/-- The simulators `1`, `2`, `3` of `a`, `b`, `c` on `fanOutGraph`. -/
def fanOutState : Coordinator Unit :=
  { mCurrentTime := 0
    mModelList := [(2, 1), (3, 2), (4, 3)]
    mDeletedSimulator := []
    mToDelete := 0
    mEventTable := ⟨[], [], CompleteEventBagModel.nil, 0⟩
    mViewList := []
    graph := fanOutGraph
    simulators := fun x => if x = 1 then some ⟨(), 2⟩ else if x = 2 then some ⟨(), 3⟩
      else if x = 3 then some ⟨(), 4⟩ else none
    nextSim := 4
    trace := [] }

/-- `dispatchExternalEvent_eq` for an event and a request that `a` sends on `out`: two copies of
each, in that order, from the simulator `1` of `a` to those of `b` and `c`. -/
theorem dispatchExternalEvent_fanOut :
    fanOutState.simulators 1 = some ⟨(), 2⟩ ∧
    [(⟨"out", [("x", "1")], false, 0, 0⟩ : ExternalEvent), ⟨"out", [], true, 0, 0⟩].flatMap
        (routed fanOut fanOutState 1 2) =
      [.external ⟨"in", [("x", "1")], false, 1, 2⟩, .external ⟨"in", [("x", "1")], false, 1, 3⟩,
        .request ⟨"in", [], true, 1, 2⟩, .request ⟨"in", [], true, 1, 3⟩] ∧
    dispatchExternalEvent fanOut [⟨"out", [("x", "1")], false, 0, 0⟩, ⟨"out", [], true, 0, 0⟩] 1
        fanOutState =
      .ok (fanOutState.putAll ([(⟨"out", [("x", "1")], false, 0, 0⟩ : ExternalEvent),
        ⟨"out", [], true, 0, 0⟩].flatMap (routed fanOut fanOutState 1 2))) :=
  ⟨rfl, by decide, @dispatchExternalEvent_eq _ fanOut 1 ⟨(), 2⟩ _ _ rfl⟩

end Coordinator

end Vle
