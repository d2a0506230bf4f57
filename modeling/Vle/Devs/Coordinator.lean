import Vle.Devs.Dynamics

/-!
# The coordinator

`devs::Coordinator` (`devs/Coordinator.cpp`) owns the simulators, the views and the event table,
and runs the simulation one instant per call of `run()`.  This file translates it function by
function.  The state adds to the members of the class the model graph it edits, the heap of
simulator objects (a freed simulator is gone from it, and touching it is undefined), the
allocator's next address, and the ghost `Trace`.

What the coordinator calls that is not under `src/` comes in as a `Kernel`: the callbacks of the
simulators and the graph's `getTargetPortList`.  The loops that need not stop (the drain of the
bags, the walk of a request list, the recursion of `delCoupledModel` into the graph) take a
`fuel` bound.
-/

namespace Vle

/-- What the coordinator calls that is not under `src/`: the simulators' callbacks, and
`getTargetPortList`, the atomic models and input ports an output port of a model leads to. -/
structure Kernel (σ : Type) where
  dynamics : Dynamics σ
  getTargetPortList : Graph → ModelId → String → List (ModelId × String)
  /-- Modelled from the spec: routing follows the connections to the destination simulators
  (§4.3.E), so every target is an atomic model of the graph. -/
  getTargetPortList_atomic : ∀ g m p, ∀ mp ∈ getTargetPortList g m p, g.isAtomic mp.1 = true

/-- The state of `devs::Coordinator`, with the graph it edits, the simulator objects, the next
address the allocator hands out for a simulator, and the trace. -/
structure Coordinator (σ : Type) where
  mCurrentTime : Time
  mModelList : List (ModelId × SimId)
  mDeletedSimulator : List SimId
  mToDelete : Nat
  mEventTable : EventTable
  mViewList : List (String × View)
  graph : Graph
  simulators : SimId → Option (Simulator σ)
  nextSim : SimId
  trace : List Trace

namespace Coordinator

variable {σ : Type} (k : Kernel σ)

/-! ## Small pieces -/

/-- Record what the coordinator did. -/
def log (s : Coordinator σ) (e : Trace) : Coordinator σ :=
  { s with trace := s.trace ++ [e] }

/-- `AssertI(cond)` (`utils/Debug.hpp`): throw when `cond` fails, naming the expression. -/
def assertI (cond : Bool) (expr : String) : Outcome Unit :=
  if cond then .ok () else .raise expr

/-- Put an event into the table (`putInternalEvent` and its siblings). -/
def put (s : Coordinator σ) (e : Event) : Coordinator σ :=
  { s with
    mEventTable :=
      match e with
      | .internal e => s.mEventTable.putInternalEvent e
      | .external e => s.mEventTable.putExternalEvent e
      | .request e => s.mEventTable.putRequestEvent e
      | .observation e => s.mEventTable.putObservationEvent e
    trace := s.trace ++ [.put e] }

/-- Schedule the next internal event of `sim` that `init` or a transition asked for, unless it is
at infinity. -/
def putNext (s : Coordinator σ) (sim : SimId) : Option Time → Coordinator σ
  | some t => s.put (.internal ⟨t, sim⟩)
  | none => s

/-- The bag of `sim` at the current instant. -/
def bag (s : Coordinator σ) (sim : SimId) : EventBagModel :=
  s.mEventTable.current.bag sim

/-- Change the bag of `sim` at the current instant. -/
def modifyBag (s : Coordinator σ) (sim : SimId) (f : EventBagModel → EventBagModel) :
    Coordinator σ :=
  { s with mEventTable := { s.mEventTable with current := s.mEventTable.current.modifyBag sim f } }

/-- Store the new state of the model of `sim`. -/
def setState (s : Coordinator σ) (sim : SimId) (st : σ) : Coordinator σ :=
  { s with simulators :=
      Function.update s.simulators sim ((s.simulators sim).map fun x => { x with state := st }) }

/-- `getModel(model)`: the simulator of an atomic model, or the null pointer. -/
def getModel (s : Coordinator σ) (model : ModelId) : SimId :=
  (s.mModelList.lookup model).getD 0

/-- `getModel(name)`: the simulator of the first model, in address order, whose name is `name`, or
the null simulator.  A registered model that is not in the graph is a dangling pointer. -/
def getModelNamed (s : Coordinator σ) (name : String) : Outcome SimId :=
  go s.mModelList
where
  go : List (ModelId × SimId) → Outcome SimId
    | [] => .ok 0
    | (m, sim) :: rest =>
      match s.graph m with
      | some n => if n.name = name then .ok sim else go rest
      | none => .undefined

/-- `getView(name)`. -/
def getView (s : Coordinator σ) (name : String) : Option View :=
  s.mViewList.lookup name

/-- `addModel(model, simulator)`. -/
def addModel (s : Coordinator σ) (model : ModelId) (simulator : SimId) : Outcome (Coordinator σ) :=
  match s.mModelList.lookup model with
  | none =>
    .ok { s with mModelList := s.mModelList.orderedInsert (fun a b => a.1 ≤ b.1) (model, simulator) }
  | some _ =>
    match s.graph model with
    | some n => .raise ("The Atomic model node '" ++ n.name ++ " have already a simulator")
    | none => .undefined

/-- `addView(view)`: register a view under its name, unless the name is taken.  `m_viewList` is a
`std::map`, in the order of the names. -/
def addView (s : Coordinator σ) (v : View) : Coordinator σ :=
  if (s.mViewList.lookup v.name).isSome then s
  else { s with mViewList := s.mViewList.orderedInsert (fun a b => a.1 ≤ b.1) (v.name, v) }

/-! ## Deleting models -/

/-- `delAtomicModel(parent, atom)`: unregister the simulator of `atom`, detach it from the views,
remove its events, queue it for deletion, and remove `atom` from `parent`. -/
def delAtomicModel (parent atom : ModelId) (s : Coordinator σ) : Outcome (Coordinator σ) := do
  assertI (parent != 0 && atom != 0) "parent and atom"
  let some satom := s.mModelList.lookup atom | .raise "it != m_modelList.end()"
  .ok { s with
    mModelList := s.mModelList.filter (·.1 ≠ atom)
    mViewList := s.mViewList.map fun p => (p.1, p.2.removeObservable satom)
    mEventTable := s.mEventTable.delModelEvents satom
    mDeletedSimulator := s.mDeletedSimulator ++ [satom]
    graph := s.graph.delModel parent atom
    trace := s.trace ++ [.deleted satom] }

/-- The loop of `delCoupledModel(parent, mdl)` over the model list of `mdl`, from the iterator
standing on `key`: delete the child there (`del` deletes a coupled one), then `++it`. -/
def delChildren (del : ModelId → ModelId → Coordinator σ → Outcome (Coordinator σ)) :
    Nat → ModelId → Option String → Coordinator σ → Outcome (Coordinator σ)
  | _, _, none, s => .ok s
  | 0, _, some _, _ => .outOfFuel
  | fuel + 1, mdl, some key, s => do
    let some child := (s.graph.modelList mdl).lookup key | .undefined
    let s ← match s.graph child with
      | some (.atomic _) => delAtomicModel mdl child s
      | some (.coupled ..) => del mdl child s
      | none => .undefined
    let next ← nextKey (s.graph.modelList mdl) key
    delChildren del fuel mdl next s

/-- `delCoupledModel(parent, mdl)`: delete every child of `mdl`, then the connections touching
`mdl` in `parent`, then `mdl`. -/
def delCoupledModel : Nat → ModelId → ModelId → Coordinator σ → Outcome (Coordinator σ)
  | 0, _, _, _ => .outOfFuel
  | fuel + 1, parent, mdl, s => do
    assertI (parent != 0 && mdl != 0) "parent and mdl"
    let s ← delChildren (delCoupledModel fuel) fuel mdl (beginKey (s.graph.modelList mdl)) s
    .ok { s with graph := (s.graph.delAllConnection parent mdl).delModel parent mdl }

/-- `delModel(parent, modelname)`. -/
def delModel (fuel : Nat) (parent : ModelId) (modelname : String) (s : Coordinator σ) :
    Outcome (Coordinator σ) := do
  let some _ := s.graph parent | .undefined
  let some mdl := s.graph.findModel parent modelname | .raise "mdl"
  match s.graph mdl with
  | some (.coupled ..) => delCoupledModel fuel parent mdl s
  | some (.atomic _) => delAtomicModel parent mdl s
  | none => .undefined

/-! ## Creating models and observing them -/

/-- Modelled from the spec: the model factory "instantiate[s] a new Simulator" for the atomic
model `model`, registers it (`addModel`), "invoke[s] its init, schedule[s] its first internal
event".  `ModelFactory.cpp` is not under `src/`. -/
def newSimulator (model : ModelId) (st : σ) (time : Time) (s : Coordinator σ) :
    Outcome (Coordinator σ) := do
  let sim := s.nextSim
  let s ← s.addModel model sim
  let (st, first) := k.dynamics.init st time
  .ok ({ s with simulators := Function.update s.simulators sim (some ⟨st, model⟩), nextSim := sim + 1 }.putNext
    sim first)

/-- `createModel(model, ...)` for the atomic model the executive has just built at `model` under
`parent` (`new graph::AtomicModel(name, parent)`). -/
def createModel (parent model : ModelId) (name : String) (st : σ) (s : Coordinator σ) :
    Outcome (Coordinator σ) :=
  newSimulator k model st s.mCurrentTime { s with graph := s.graph.addAtomicModel parent model name }

/-- `addObservableToView(model, portname, view)`.  When `model` has no simulator the message of
the second `Assert` reads the structure of the null simulator. -/
def addObservableToView (model : ModelId) (portname view : String) (s : Coordinator σ) :
    Outcome (Coordinator σ) := do
  let some obs := s.getView view | .raise ("The view " ++ view ++ " is unknow of coordinator view list")
  let simulator := s.getModel model
  if simulator = 0 then .undefined
  else
    let (obs, evt) := obs.addObservable simulator portname s.mCurrentTime
    let s := { s with mViewList := s.mViewList.map fun p => if p.1 = view then (p.1, obs) else p }
    .ok (match evt with
      | some e => s.put (.observation e)
      | none => s)

/-- The executive calls a transition made, in order. -/
def runExecutive (fuel : Nat) : List (Executive σ) → Coordinator σ → Outcome (Coordinator σ)
  | [], s => .ok s
  | e :: rest, s => do
    let s ← match e with
      | .createModel parent model name st => createModel k parent model name st s
      | .addObservableToView model port view => addObservableToView model port view s
      | .delModel parent name => delModel fuel parent name s
    runExecutive fuel rest s

/-! ## Routing -/

/-- The inner loop of `dispatchExternalEvent` for the event `e`: one copy per target, destined to
the target's simulator and input port, a `RequestEvent` when `e` is one. -/
def putTargets (e : ExternalEvent) : List (ModelId × String) → Coordinator σ → Outcome (Coordinator σ)
  | [], s => .ok s
  | (m, p) :: rest, s => do
    assertI (s.graph.isAtomic m) "jt->model()->isAtomic()"
    let e' := { e with target := s.getModel m, portName := p }
    putTargets e rest (s.put (if e.isRequest then .request e' else .external e'))

/-- `dispatchExternalEvent(eventList, sim)`: stamp each event with its source `sim` and route it
through the connections of the structure of `sim`. -/
def dispatchExternalEvent : List ExternalEvent → SimId → Coordinator σ → Outcome (Coordinator σ)
  | [], _, s => .ok s
  | e :: rest, sim, s => do
    let some simulator := s.simulators sim | .undefined
    let s ← putTargets { e with source := sim }
      (k.getTargetPortList s.graph simulator.model e.portName) s
    dispatchExternalEvent rest sim s

/-! ## One instant -/

/-- The observations an event view asks of `sim` at a transition. -/
def observe (sim : SimId) : List ObservationEvent → Coordinator σ → Outcome (Coordinator σ)
  | [], s => .ok s
  | e :: rest, s => do
    let some _ := s.simulators sim | .undefined
    observe sim rest (s.log (.call sim (.observation e)))

/-- `processEventView(model, event)`: every event view observing `sim` observes it, at the time
of the internal event if there is one and at the current time otherwise. -/
def processEventView (sim : SimId) (event : Option InternalEvent) (s : Coordinator σ) :
    Outcome (Coordinator σ) :=
  let time := match event with
    | some e => e.time
    | none => s.mCurrentTime
  observe sim ((s.mViewList.filter (·.2.isEvent)).flatMap fun p =>
    (p.2.get sim).map fun port => ⟨time, sim, p.2.name, port⟩) s

/-- `processInternalEvent(sim, modelbag)`. -/
def processInternalEvent (fuel : Nat) (sim : SimId) (s : Coordinator σ) :
    Outcome (Coordinator σ) := do
  let some ev := (s.bag sim).internal | .undefined
  let some simulator := s.simulators sim | .undefined
  let s := s.modifyBag sim fun b => { b with internal := none }
  let s ← dispatchExternalEvent k (k.dynamics.output simulator.state s.mCurrentTime) sim
    (s.log (.call sim .output))
  let some simulator := s.simulators sim | .undefined
  let (st, next, calls) := k.dynamics.internalTransition simulator.state ev
  let s ← runExecutive k fuel calls ((s.log (.call sim (.internal ev))).setState sim st)
  processEventView sim (some ev) (s.putNext sim next)

/-- `processExternalEvents(sim, modelbag)`. -/
def processExternalEvents (fuel : Nat) (sim : SimId) (s : Coordinator σ) :
    Outcome (Coordinator σ) := do
  let some simulator := s.simulators sim | .undefined
  let lst := (s.bag sim).externals
  let (st, next, calls) := k.dynamics.externalTransition simulator.state lst s.mCurrentTime
  let s ← runExecutive k fuel calls ((s.log (.call sim (.external lst))).setState sim st)
  processEventView sim none ((s.putNext sim next).modifyBag sim fun b => { b with externals := [] })

/-- The loop of `processRequestEvents` over the request list of `sim`, from position `i`.  The
list is read as it stands at each turn, so a request routed back to `sim` is reached too. -/
def processRequests : Nat → SimId → Nat → Coordinator σ → Outcome (Coordinator σ)
  | 0, _, _, _ => .outOfFuel
  | fuel + 1, sim, i, s =>
    match (s.bag sim).requests[i]? with
    | none => .ok s
    | some r => do
      let some simulator := s.simulators sim | .undefined
      let s ← dispatchExternalEvent k (k.dynamics.request simulator.state r s.mCurrentTime) sim
        (s.log (.call sim (.request r)))
      processRequests fuel sim (i + 1) s

/-- `processRequestEvents(sim, modelbag)`. -/
def processRequestEvents (fuel : Nat) (sim : SimId) (s : Coordinator σ) :
    Outcome (Coordinator σ) := do
  let s ← processRequests k fuel sim 0 s
  .ok (s.modifyBag sim fun b => { b with requests := [] })

/-- One turn of the inner loop of `run()` on the bag of `sim`. -/
def bagStep (fuel : Nat) (sim : SimId) (s : Coordinator σ) : Outcome (Coordinator σ) :=
  match (s.bag sim).internal with
  | some ev =>
    if (s.bag sim).emptyExternal then processInternalEvent k fuel sim s
    else
      match s.simulators sim with
      | none => .undefined
      | some simulator =>
        match k.dynamics.confluentTransitions simulator.state ev (s.bag sim).externals with
        | .INTERNAL => processInternalEvent k fuel sim (s.log (.call sim .confluent))
        | .EXTERNAL => processExternalEvents k fuel sim (s.log (.call sim .confluent))
  | none =>
    if !(s.bag sim).emptyExternal then processExternalEvents k fuel sim s
    else processRequestEvents k fuel sim s

/-- The inner loop of `run()`: `while (not bag.second.empty())`. -/
def drainBag : Nat → SimId → Coordinator σ → Outcome (Coordinator σ)
  | 0, _, _ => .outOfFuel
  | fuel + 1, sim, s =>
    if (s.bag sim).empty then .ok s
    else do
      let s ← bagStep k fuel sim s
      drainBag fuel sim s

/-- The outer loop of `run()`: `while (not bags.emptyBag())`, on `topBag()`. -/
def drain : Nat → Coordinator σ → Outcome (Coordinator σ)
  | 0, _ => .outOfFuel
  | fuel + 1, s =>
    match s.mEventTable.current.topBag with
    | none => .ok s
    | some sim => do
      let s ← drainBag k fuel sim s
      drain fuel s

/-- `processObservationEvents(bag)`: each observation of the instant, and the follow-up its view
asks for. -/
def processObservationEvents : List ObservationEvent → Coordinator σ → Outcome (Coordinator σ)
  | [], s => .ok s
  | e :: rest, s => do
    let some simulator := s.simulators e.model | .undefined
    let s := s.log (.call e.model (.observation e))
    let s ← match k.dynamics.observation simulator.state e with
      | none => .ok s
      | some _ =>
        match s.getView e.viewName with
        | none => .undefined
        | some v =>
          .ok (match v.processObservationEvent e with
            | some e2 => s.put (.observation e2)
            | none => s)
    processObservationEvents rest s

/-- `boost::checked_deleter` over a range of simulators: deleting the null pointer does nothing,
deleting a simulator twice is undefined. -/
def freeSimulators : List SimId → Coordinator σ → Outcome (Coordinator σ)
  | [], s => .ok s
  | sim :: rest, s =>
    if sim = 0 then freeSimulators rest s
    else
      match s.simulators sim with
      | none => .undefined
      | some _ =>
        freeSimulators rest
          { s with simulators := Function.update s.simulators sim none
                   trace := s.trace ++ [.destroyed sim] }

/-- The two-phase deletion at the end of `run()`: when `oldToDelete > 0`, free the first
`oldToDelete` queued simulators, erase them, and refresh `m_toDelete`. -/
def deleteQueued (oldToDelete : Nat) (s : Coordinator σ) : Outcome (Coordinator σ) :=
  if oldToDelete > 0 then
    if oldToDelete ≤ s.mDeletedSimulator.length then do
      let s ← freeSimulators (s.mDeletedSimulator.take oldToDelete) s
      let rest := s.mDeletedSimulator.drop oldToDelete
      .ok { s with mDeletedSimulator := rest, mToDelete := rest.length }
    else .undefined
  else .ok s

/-- The first lines of `run()`: `popEvent()` moves the events of the next time into the complete
bag, and the clock moves to that time when the bag is not empty (`updateCurrentTime`). -/
def popInstant (s : Coordinator σ) : Coordinator σ :=
  let s := { s with mEventTable := s.mEventTable.popEvent }
  if s.mEventTable.current.empty then s else { s with mCurrentTime := s.mEventTable.currentTime }

/-- `run()`: one instant. -/
def run (fuel : Nat) (s : Coordinator σ) : Outcome (Coordinator σ) := do
  let oldToDelete := s.mToDelete
  let s ← drain k fuel s.popInstant
  let s ← deleteQueued oldToDelete s
  let s ← processObservationEvents k s.mEventTable.current.states s
  .ok { s with mEventTable := { s.mEventTable with current := CompleteEventBagModel.nil } }

/-! ## Construction, initialisation and destruction -/

/-- `Coordinator(modelfactory)`: time 0, no simulator, and the views of the project.
`buildViews()` builds a view of each name and kind the project lists, observing nothing yet, and
registers it with `addView`. -/
def new (views : List (String × ViewType)) (g : Graph) : Coordinator σ :=
  views.foldl (fun s v => s.addView ⟨v.1, v.2, []⟩)
    ⟨0, [], [], 0, ⟨[], [], CompleteEventBagModel.nil, 0⟩, [], g, fun _ => none, 1, []⟩

/-- A simulator for each atomic model of the initial graph, with the initial state of its
model. -/
def addModels (time : Time) : List (ModelId × σ) → Coordinator σ → Outcome (Coordinator σ)
  | [], s => .ok s
  | (m, st) :: rest, s => newSimulator k m st time s >>= addModels time rest

/-- `init(mdls)`: `addModels(mdls)`, then `m_toDelete = 0`. -/
def init (time : Time) (atoms : List (ModelId × σ)) (s : Coordinator σ) : Outcome (Coordinator σ) :=
  addModels k time atoms s >>= fun s => .ok { s with mToDelete := 0 }

/-- `getNextTime()`: the time of the next event of the table, `+∞` if there is none. -/
def getNextTime (s : Coordinator σ) : WithTop Time := s.mEventTable.topEvent

/-! ## The end of a simulation -/

/-- The first loop of `finish()`: the `finish()` hook of each simulator of the list. -/
def finishSimulators : List SimId → Coordinator σ → Outcome (Coordinator σ)
  | [], s => .ok s
  | sim :: rest, s => do
    let some _ := s.simulators sim | .undefined
    finishSimulators rest (s.log (.call sim .finish))

/-- The observations the second loop of `finish()` makes: for each finish view, in the order of
the names, one per port it observes, at the current time. -/
def finishObservations (s : Coordinator σ) : List ObservationEvent :=
  (s.mViewList.filter (·.2.isFinish)).flatMap fun p =>
    p.2.observables.map fun o => ⟨s.mCurrentTime, o.1, p.1, o.2⟩

/-- The second loop of `finish()`: `observation` on the simulator of each observation, whose
result the finish view writes. -/
def observeFinish : List ObservationEvent → Coordinator σ → Outcome (Coordinator σ)
  | [], s => .ok s
  | e :: rest, s => do
    let some _ := s.simulators e.model | .undefined
    observeFinish rest (s.log (.call e.model (.observation e)))

/-- `finish()`: the `finish()` hook of every simulator, in the order of the models; the
observations of the finish views; then each view is closed and deleted, and `m_viewList`
cleared. -/
def finish (s : Coordinator σ) : Outcome (Coordinator σ) := do
  let s ← finishSimulators (s.mModelList.map Prod.snd) s
  let s ← observeFinish s.finishObservations s
  .ok { s with mViewList := [] }

/-- `~Coordinator()`: delete the simulator of every registered atomic model. -/
def destroy (s : Coordinator σ) : Outcome (Coordinator σ) :=
  freeSimulators (s.mModelList.map Prod.snd) s

end Coordinator

end Vle
