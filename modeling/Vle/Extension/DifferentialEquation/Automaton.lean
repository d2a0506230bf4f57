import Mathlib.Data.String.Basic
import Vle.Devs.Dynamics
import Vle.Extension.DifferentialEquation
import Vle.Utils.SortedMap

/-!
# The integration automaton of a differential equation

`extension::DifferentialEquation` is a DEVS model that integrates one variable, fed by the
variables of other models.  Its transitions drive a state machine (`state`).  After `init` it is
in `INIT`, where it broadcasts its initial value.  A model that depends on others
(`dependance`) then waits in `POST_INIT` for their first values, and makes their buffers.  From
then on it alternates `RUN` (one integration step, its value broadcast) with `RUN2` (its
thresholds checked, then the next step), or, when some external variable has no gradient, with
`POST` (waiting for their new values) and `POST2`.  The integration itself (`compute`,
`updateGradient`, `updateSigma`, `updateValue`, `reset`, `setGradient`, `getEstimatedValue`) is
the subclass's, not under `src/`: it is a parameter, `Hooks`.

* `Phased` — the invariant of the phases: `POST3` is never entered, and in the waiting phases
  `POST` and `POST_INIT` no internal event is scheduled.  `init` establishes it, and every
  transition keeps it when the hooks leave the phase alone (`Hooks.KeepsState`).
* **`reachable_waits_unscheduled`** — every state reachable from construction and `init`, by any
  transitions at any times with any events, satisfies it.
* **`inactive_never_broadcasts`** — in every reachable state, a model that is not `active` emits
  no `update`: the one branch of `output` that broadcasts without `mActive` is that of `POST3`
  (`Phased.output_inactive`).
* `externalTransition_post` — a model waiting in `POST` resumes at its first external
  transition, whatever its events, although the comment of the `RUN` branch has it wait for the
  new values of all its external variables.
* `externalTransition_update_after_init` — a bufferized model throws `std::out_of_range` on an
  `update` that reaches it right after `init`: its buffers are made in `POST_INIT` only.  Run by
  the coordinator, such an update comes before the first internal transition of the model
  (`update_before_post_init_raises`).
-/

namespace Vle

namespace DifferentialEquation

/-- The phases of the automaton (`state`). -/
inductive State where
  | INIT
  | POST_INIT
  | RUN
  | RUN2
  | POST
  | POST2
  | POST3
  deriving DecidableEq, Repr

/-- `threshold_type`: the direction in which a threshold is crossed. -/
inductive ThresholdType where
  | UP
  | DOWN
  deriving DecidableEq, Repr

/-- An external event as the transitions read it: its port, and its attributes `name`, `value`
and `gradient` (`none` when the event has no gradient). -/
structure Message where
  port : String
  name : String
  value : ℚ
  gradient : Option ℚ
  deriving DecidableEq, Repr

/-- An event the model emits: `update` (the name, value and, with `mUseGradient`, gradient of its
variable), `out` (the name of a threshold crossed), or `response` (the answer to a request). -/
inductive Output where
  | update (name : String) (value : ℚ) (gradient : Option ℚ)
  | out (name : String)
  | response (name : String) (value : ℚ) (gradient : Option ℚ)
  deriving DecidableEq, Repr

/-- The fields of `extension::DifferentialEquation` its transitions read and write, around its
buffer fields `de`.  `mSigma` is `none` for `Time::infinity`. -/
structure Automaton where
  de : DifferentialEquation
  mVariableName : String
  mActive : Bool
  mDependance : Bool
  mUseGradient : Bool
  mThresholds : SortedMap String (ℚ × ThresholdType)
  mState : State
  mSigma : Option Time
  mGradient : ℚ
  mPreviousValue : ℚ
  mLastTime : Time
  mExternalValues : Bool
  mExternalVariableNumber : ℕ
  mIsGradient : List (String × Bool)
  mExternalVariableGradient : List (String × ℚ)

/-- The pure virtual methods a subclass implements.  `compute(time)` and `getEstimatedValue(e)`
read the state; the others change it, and may throw. -/
structure Hooks where
  compute : Automaton → Time → ℚ
  getEstimatedValue : Automaton → ℚ → ℚ
  updateGradient : Automaton → Bool → Time → Outcome Automaton
  updateSigma : Automaton → Time → Outcome Automaton
  updateValue : Automaton → Bool → Time → Outcome Automaton
  reset : Automaton → Time → ℚ → Outcome Automaton
  setGradient : Automaton → String → ℚ → Outcome Automaton

/-- The init events the constructor reads: `active` and `dependance` when present, `value`,
`name`, the entries of the map `thresholds` (name, value and type, in key order), and the
buffer's `bufferized`, `delay` and `size`. -/
structure InitEvents where
  active : Option Bool
  dependance : Option Bool
  value : ℚ
  name : String
  thresholds : List (String × ℚ × String)
  bufferized : Bool
  delay : ℚ
  size : Option ℤ

namespace Automaton

/-! ## Construction and the DEVS functions -/

/-- One entry of the init event `thresholds`: of type `up` or `down`; any other type is
skipped. -/
def addThreshold (m : SortedMap String (ℚ × ThresholdType)) (t : String × ℚ × String) :
    SortedMap String (ℚ × ThresholdType) :=
  if t.2.2 = "up" then m.assign t.1 (t.2.1, .UP)
  else if t.2.2 = "down" then m.assign t.1 (t.2.1, .DOWN)
  else m

/-- The constructor.  The phase, the time advance, the gradient, the previous value and the
last time are left to `init`. -/
def create (ev : InitEvents) : Outcome Automaton :=
  DifferentialEquation.create ev.value ev.bufferized ev.delay ev.size >>= fun de =>
    .ok ⟨de, ev.name, ev.active.getD true, ev.dependance.getD true, true,
      ev.thresholds.foldl addThreshold .empty, .INIT, some 0, 0, 0, 0, false, 0, [], []⟩

/-- `init(time)`: the buffer started and the initial value pushed, then the phase `INIT`, due at
once. -/
def init (a : Automaton) (time : Time) : Outcome (Automaton × Time) :=
  a.de.init time >>= fun (de, ta) =>
    .ok ({ a with
      de := de, mPreviousValue := a.de.mInitialValue, mGradient := 0, mSigma := some 0,
      mLastTime := time, mState := .INIT }, ta)

/-- `timeAdvance()`. -/
def timeAdvance (a : Automaton) : Option Time := a.mSigma

/-- `confluentTransitions(time, ext)`: the external transition first, always. -/
def confluentTransitions (_a : Automaton) (_time : Time) (_ext : List ExternalEvent) : EventType :=
  .EXTERNAL

/-- `updateExternalVariable(time)`: every external variable moved along its gradient since
`mLastTime`, when more than one external variable has a gradient.  A variable with no gradient
reads `0` (`operator[]`). -/
def updateExternalVariable (a : Automaton) (time : Time) : Automaton :=
  if 1 < a.mExternalVariableNumber then
    let move (e : String × ℚ) : String × ℚ :=
      (e.1, e.2 + (time - a.mLastTime) * (a.mExternalVariableGradient.lookup e.1).getD 0)
    { a with de := { a.de with mExternalVariableValue := a.de.mExternalVariableValue.map move } }
  else a

/-- `internalTransition(time)`. -/
def internalTransition (h : Hooks) (a : Automaton) (time : Time) : Outcome Automaton :=
  match a.mState with
  | .INIT =>
    if a.mDependance then .ok { a with mState := .POST_INIT, mSigma := none }
    else
      let a := { a with mState := .RUN }
      h.updateSigma { a with mGradient := h.compute a time } time
  | .POST2 => h.updateGradient { a with mState := .RUN } false time
  | .POST3 => h.updateSigma { a with mState := .RUN } time
  | .RUN => h.updateValue a false time >>= fun a =>
    if a.mActive && a.mExternalValues then .ok { a with mState := .POST, mSigma := none }
    else .ok { a with mState := .RUN2, mSigma := some 0 }
  | .RUN2 => h.updateGradient { a with mState := .RUN } false time
  | .POST | .POST_INIT => .ok a

/-- The loop of `externalTransition` in `POST_INIT`: for each event, a new buffer for its
variable, its value pushed, and its gradient recorded when it has one; `linear` counts those. -/
def initExternals (time : Time) : Automaton → ℕ → List Message → Outcome (Automaton × ℕ)
  | a, linear, [] => .ok (a, linear)
  | a, linear, e :: es =>
    (a.de.newExternalBuffer e.name).pushExternalValue e.name time e.value >>= fun de =>
      let a := { a with de := de, mIsGradient := assign a.mIsGradient e.name e.gradient.isSome }
      match e.gradient with
      | some g => initExternals time
          { a with mExternalVariableGradient := assign a.mExternalVariableGradient e.name g }
          (linear + 1) es
      | none => initExternals time a linear es

/-- The texts of the `Assert`s of `externalTransition`. -/
def invalidUpdate (name : String) : String :=
  "DifferentialEquation update, invalid variable name: " ++ name

def invalidPerturbation (name : String) : String :=
  "DifferentialEquation perturbation, invalid variable name: " ++ name

/-- `mIsGradient[name]`: a name not in the map reads `false`. -/
def isGradient (a : Automaton) (name : String) : Bool := (a.mIsGradient.lookup name).getD false

/-- An event on the port `update` in the other phases: the value of another variable, pushed,
with its gradient when it has one.  The gradient of an event without one is read by an accessor
of `ExternalEvent`, not under `src/`; it is taken as undefined. -/
def updateExternal (h : Hooks) (time : Time) (a : Automaton) (e : Message) : Outcome Automaton :=
  if e.name ≠ a.mVariableName then
    a.de.pushExternalValue e.name time e.value >>= fun de =>
      let a := { a with de := de }
      if a.isGradient e.name then
        match e.gradient with
        | some g => h.setGradient a e.name g
        | none => .undefined
      else .ok a
  else .raise (invalidUpdate e.name)

/-- An event on the port `perturb`: a new value of the model's own variable. -/
def perturb (h : Hooks) (time : Time) (a : Automaton) (e : Message) : Outcome Automaton :=
  if e.name = a.mVariableName then h.reset a time e.value
  else .raise (invalidPerturbation e.name)

/-- The loop of `externalTransition` in the other phases; the flag is `_reset`. -/
def runExternals (h : Hooks) (time : Time) :
    Automaton → Bool → List Message → Outcome (Automaton × Bool)
  | a, reset, [] => .ok (a, reset)
  | a, reset, e :: es =>
    (if e.port = "update" then updateExternal h time a e else .ok a) >>= fun a =>
      if e.port = "perturb" then perturb h time a e >>= fun a => runExternals h time a true es
      else runExternals h time a reset es

/-- `externalTransition(event, time)`. -/
def externalTransition (h : Hooks) (a : Automaton) (event : List Message) (time : Time) :
    Outcome Automaton :=
  if a.mState = .POST_INIT then
    initExternals time a 0 event >>= fun (a, linear) =>
      let a := { a with
        mExternalValues := decide (linear < a.de.mExternalVariableValue.length)
        mExternalVariableNumber := linear, mState := .RUN }
      h.updateSigma { a with mGradient := h.compute a time } time
  else
    runExternals h time a false event >>= fun (a, reset) =>
      match a.mState with
      | .POST => .ok { a with mState := .POST2, mSigma := some 0 }
      | .RUN | .RUN2 =>
        if reset then .ok { a with mSigma := some 0 }
        else h.updateValue a true time >>= fun a =>
          h.updateGradient (a.updateExternalVariable time) true time
      | .INIT | .POST_INIT | .POST2 | .POST3 => .ok a

/-- The test of one threshold in `output`, between the previous value and the value. -/
def crossed (previous value : ℚ) : ℚ × ThresholdType → Bool
  | (v, .DOWN) => decide (v ≤ previous ∧ value ≤ v)
  | (v, .UP) => decide (previous ≤ v ∧ v ≤ value)

/-- The loop `while (it != end and !found)` of `output` over the thresholds, in name order: the
name of the first one crossed. -/
def firstCrossed (previous value : ℚ) : List (String × ℚ × ThresholdType) → Option String
  | [] => none
  | (name, t) :: rest => if crossed previous value t then some name else firstCrossed previous value rest

/-- `output(time, output)`. -/
def output (h : Hooks) (a : Automaton) (time : Time) : List Output :=
  (if (a.mState = .INIT ∧ a.mActive) ∨ (a.mState = .POST3 ∧ a.mExternalValues) ∨
      (a.mState = .RUN ∧ a.mActive) then
    [.update a.mVariableName (h.getEstimatedValue a (time - a.mLastTime))
      (if a.mUseGradient then some a.mGradient else none)]
  else []) ++
  (if a.mState = .RUN2 ∨ a.mState = .POST2 then
    match firstCrossed a.mPreviousValue a.de.mValue a.mThresholds.entries with
    | some name => [.out name]
    | none => []
  else [])

/-- The text of the `Assert`s of `observation` and `request`. -/
def invalidName (name : String) : String :=
  "DifferentialEquation model, invalid variable name: " ++ name

/-- `observation(event)`, for an event on `port` at `time` whose attribute `name` is `name`: the
`Assert` checks the port, and its message reports the attribute. -/
def observation (h : Hooks) (a : Automaton) (port name : String) (time : Time) : Outcome ℚ :=
  if port = a.mVariableName then .ok (h.getEstimatedValue a (time - a.mLastTime))
  else .raise (invalidName name)

/-- `request(event, time, output)`, for a request whose attribute `name` is `name`. -/
def request (h : Hooks) (a : Automaton) (name : String) (time : Time) : Outcome (List Output) :=
  if name = a.mVariableName then
    .ok [.response name (h.getEstimatedValue a (time - a.mLastTime))
      (if a.mUseGradient then some a.mGradient else none)]
  else .raise (invalidName name)

/-! ## Reachable states -/

/-- The states of a model: constructed and initialised, then driven by internal and external
transitions at any times, with any events. -/
inductive Reachable (h : Hooks) : Automaton → Prop
  | init {ev : InitEvents} {a₀ a : Automaton} {time ta : Time} :
      create ev = .ok a₀ → a₀.init time = .ok (a, ta) → Reachable h a
  | internal {a a' : Automaton} {time : Time} :
      Reachable h a → internalTransition h a time = .ok a' → Reachable h a'
  | external {a a' : Automaton} {event : List Message} {time : Time} :
      Reachable h a → externalTransition h a event time = .ok a' → Reachable h a'

end Automaton

/-- The hooks leave the phase alone. -/
structure Hooks.KeepsState (h : Hooks) : Prop where
  updateGradient : ∀ {a b t a'}, h.updateGradient a b t = .ok a' → a'.mState = a.mState
  updateSigma : ∀ {a t a'}, h.updateSigma a t = .ok a' → a'.mState = a.mState
  updateValue : ∀ {a b t a'}, h.updateValue a b t = .ok a' → a'.mState = a.mState
  reset : ∀ {a t v a'}, h.reset a t v = .ok a' → a'.mState = a.mState
  setGradient : ∀ {a n g a'}, h.setGradient a n g = .ok a' → a'.mState = a.mState

namespace Automaton

/-! ## The phases -/

/-- The invariant of the phases: never `POST3`, and nothing scheduled while waiting. -/
structure Phased (a : Automaton) : Prop where
  not_post3 : a.mState ≠ .POST3
  waiting : a.mState = .POST ∨ a.mState = .POST_INIT → a.mSigma = none

lemma Phased.of_state {a : Automaton} {s : State} (h : a.mState = s)
    (hs : s = .INIT ∨ s = .RUN ∨ s = .RUN2 ∨ s = .POST2) : Phased a := by
  subst h
  rcases hs with h | h | h | h <;> exact ⟨by simp [h], by simp [h]⟩

variable {h : Hooks} {time : Time}

lemma updateExternal_state (hk : h.KeepsState) {a a' : Automaton} {e : Message}
    (ht : updateExternal h time a e = .ok a') : a'.mState = a.mState := by
  unfold updateExternal at ht
  split_ifs at ht
  · obtain ⟨de, -, ht⟩ := Outcome.bind_eq_ok.1 ht
    dsimp only at ht
    split_ifs at ht
    · split at ht
      · exact (hk.setGradient ht :)
      · cases ht
    · cases ht
      rfl

lemma perturb_state (hk : h.KeepsState) {a a' : Automaton} {e : Message}
    (ht : perturb h time a e = .ok a') : a'.mState = a.mState := by
  unfold perturb at ht
  split_ifs at ht
  exact hk.reset ht

/-- The loop of the other phases keeps the phase. -/
lemma runExternals_state (hk : h.KeepsState) :
    ∀ {a a' : Automaton} {r r' : Bool} {es : List Message},
      runExternals h time a r es = .ok (a', r') → a'.mState = a.mState
  | _, _, _, _, [], ht => by cases ht; rfl
  | a, _, _, _, e :: es, ht => by
    rw [runExternals] at ht
    obtain ⟨a₁, h₁, ht⟩ := Outcome.bind_eq_ok.1 ht
    have s₁ : a₁.mState = a.mState := by
      split_ifs at h₁
      · exact updateExternal_state hk h₁
      · cases h₁
        rfl
    split_ifs at ht
    · obtain ⟨a₂, h₂, ht⟩ := Outcome.bind_eq_ok.1 ht
      exact (runExternals_state hk ht).trans ((perturb_state hk h₂).trans s₁)
    · exact (runExternals_state hk ht).trans s₁

lemma phased_init {a₀ a : Automaton} {ta : Time} (hi : a₀.init time = .ok (a, ta)) : Phased a := by
  obtain ⟨⟨de, ta'⟩, -, hi⟩ := Outcome.bind_eq_ok.1 hi
  cases hi
  exact .of_state rfl (.inl rfl)

/-- An internal transition keeps the invariant. -/
lemma Phased.internal (hk : h.KeepsState) {a a' : Automaton} (ha : Phased a)
    (ht : internalTransition h a time = .ok a') : Phased a' := by
  unfold internalTransition at ht
  revert ht
  cases a.mState with
  | INIT =>
    intro ht
    split_ifs at ht
    · cases ht
      exact ⟨by simp, fun _ => rfl⟩
    · exact .of_state (hk.updateSigma ht) (by simp)
  | POST2 | RUN2 => exact fun ht => .of_state (hk.updateGradient ht) (by simp)
  | POST3 => exact fun ht => .of_state (hk.updateSigma ht) (by simp)
  | RUN =>
    intro ht
    obtain ⟨a₁, -, ht⟩ := Outcome.bind_eq_ok.1 ht
    split_ifs at ht <;> cases ht
    · exact ⟨by simp, fun _ => rfl⟩
    · exact .of_state rfl (by simp)
  | POST | POST_INIT =>
    intro ht
    cases ht
    exact ha

lemma updateExternalVariable_state (a : Automaton) (time : Time) :
    (a.updateExternalVariable time).mState = a.mState := by
  unfold updateExternalVariable
  split_ifs <;> rfl

/-- An external transition keeps the invariant. -/
lemma Phased.external (hk : h.KeepsState) {a a' : Automaton} {event : List Message}
    (ha : Phased a) (ht : externalTransition h a event time = .ok a') : Phased a' := by
  unfold externalTransition at ht
  split_ifs at ht with hpi
  · obtain ⟨⟨a₁, n⟩, -, ht⟩ := Outcome.bind_eq_ok.1 ht
    exact .of_state (hk.updateSigma ht) (by simp)
  obtain ⟨⟨a₁, r⟩, hr, ht⟩ := Outcome.bind_eq_ok.1 ht
  have hs := runExternals_state hk hr
  dsimp only at ht
  revert ht
  cases hst : a₁.mState with
  | POST_INIT => exact fun _ => absurd (hs.symm.trans hst) hpi
  | POST3 => exact fun _ => absurd (hs.symm.trans hst) ha.not_post3
  | POST =>
    intro ht
    cases ht
    exact .of_state rfl (by simp)
  | RUN | RUN2 =>
    intro ht
    dsimp only at ht
    split_ifs at ht
    · cases ht
      exact .of_state rfl (by simp)
    · obtain ⟨a₂, h₂, ht⟩ := Outcome.bind_eq_ok.1 ht
      exact .of_state ((hk.updateGradient ht :).trans ((updateExternalVariable_state a₂ time).trans
        ((hk.updateValue h₂ :).trans hst))) (by simp)
  | INIT | POST2 =>
    intro ht
    cases ht
    exact .of_state hst (by simp)

/-- From `POST` every external transition that completes goes to `POST2`, due at once, whatever
its events: the model does not wait for a new value of each of its external variables, as the
comment of the `RUN` branch of `internalTransition` says it does. -/
lemma externalTransition_post (hk : h.KeepsState) {a a' : Automaton} {event : List Message}
    (hpost : a.mState = .POST) (ht : externalTransition h a event time = .ok a') :
    a'.mState = .POST2 ∧ a'.timeAdvance = some 0 := by
  rw [externalTransition, if_neg (by simp [hpost])] at ht
  obtain ⟨⟨a₁, r⟩, hr, ht⟩ := Outcome.bind_eq_ok.1 ht
  have hs : a₁.mState = .POST := (runExternals_state hk hr).trans hpost
  simp only [hs] at ht
  cases ht
  exact ⟨rfl, rfl⟩

lemma Reachable.phased (hk : h.KeepsState) {a : Automaton} (hr : Reachable h a) : Phased a := by
  induction hr with
  | init _ hi => exact phased_init hi
  | internal _ ht ih => exact ih.internal hk ht
  | external _ ht ih => exact ih.external hk ht

/-- A phased model that is not active emits no `update`: the one branch of `output` that
broadcasts without `mActive` is that of `POST3`. -/
lemma Phased.output_inactive {a : Automaton} (hp : Phased a) (hact : a.mActive = false) (time : Time) :
    ∀ o ∈ a.output h time, ∀ n v g, o ≠ .update n v g := by
  intro o ho n v g hu
  subst hu
  unfold output at ho
  rw [if_neg (by simp [hact, hp.not_post3]), List.nil_append] at ho
  split_ifs at ho
  · split at ho <;> simp at ho
  · simp at ho

/-! ## A subclass for the examples -/

/-- The explicit Euler method on `dx/dt = f`, with the fixed time advance `step`. -/
def euler (f : Automaton → Time → ℚ) (step : ℚ) : Hooks where
  compute := f
  getEstimatedValue a e := a.de.mValue + e * a.mGradient
  updateGradient a _ time := .ok { a with mGradient := f a time, mSigma := some step }
  updateSigma a _ := .ok { a with mSigma := some step }
  updateValue a _ time :=
    a.de.pushValue time (a.de.mValue + (time - a.mLastTime) * a.mGradient) >>= fun de =>
      .ok { a with de := de, mPreviousValue := a.de.mValue, mLastTime := time }
  reset a time value := .ok { a with de := { a.de with mValue := value }, mLastTime := time }
  setGradient a name g :=
    .ok { a with mExternalVariableGradient := assign a.mExternalVariableGradient name g }

lemma euler_keepsState (f : Automaton → Time → ℚ) (step : ℚ) : (euler f step).KeepsState where
  updateGradient h := by cases h; rfl
  updateSigma h := by cases h; rfl
  updateValue h := by
    obtain ⟨de, -, h⟩ := Outcome.bind_eq_ok.1 h
    cases h
    rfl
  reset h := by cases h; rfl
  setGradient h := by cases h; rfl

/-- A model `x` that depends on others, starting at `0`, not bufferized. -/
def dependant : InitEvents := ⟨none, none, 0, "x", [], false, 0, none⟩

/-! ## What every run keeps -/

/-- **The waiting phases are never scheduled, and `POST3` is never entered**, in every state a
model reaches, for every subclass whose hooks leave the phase alone.  In `POST` and `POST_INIT`
the time advance is infinite: only an external transition moves the model on. -/
theorem reachable_waits_unscheduled (hk : h.KeepsState) {a : Automaton} (hr : Reachable h a) :
    a.mState ≠ .POST3 ∧ (a.mState = .POST ∨ a.mState = .POST_INIT → a.timeAdvance = none) :=
  ⟨(hr.phased hk).not_post3, (hr.phased hk).waiting⟩

/-- `dependant`, after `init` at `0` and its first internal transition, waits in `POST_INIT`. -/
theorem reachable_waits_unscheduled_dependant :
    ∃ a, Reachable (euler (fun _ _ => 1) 1) a ∧ a.mState = .POST_INIT ∧
      a.mState ≠ .POST3 ∧ (a.mState = .POST ∨ a.mState = .POST_INIT → a.timeAdvance = none) :=
  have hr : Reachable (euler (fun _ _ => 1) 1) _ :=
    @Reachable.internal _ _ _ 0
      (@Reachable.init _ dependant _ _ 0 _ rfl (by with_unfolding_all exact rfl))
      (by with_unfolding_all exact rfl)
  ⟨_, hr, rfl, reachable_waits_unscheduled (euler_keepsState _ _) hr⟩

/-- **A model that is not active never broadcasts its value**: in every state it reaches, for
every subclass whose hooks leave the phase alone, `output` emits no `update`. -/
theorem inactive_never_broadcasts (hk : h.KeepsState) {a : Automaton} (hr : Reachable h a)
    (hact : a.mActive = false) (time : Time) : ∀ o ∈ a.output h time, ∀ n v g, o ≠ .update n v g :=
  (hr.phased hk).output_inactive hact time

/-- An inactive `dependant` right after `init`. -/
theorem inactive_never_broadcasts_at_init :
    ∃ a, Reachable (euler (fun _ _ => 1) 1) a ∧ a.mActive = false ∧
      ∀ o ∈ a.output (euler (fun _ _ => 1) 1) 0, ∀ n v g, o ≠ .update n v g :=
  have hr : Reachable (euler (fun _ _ => 1) 1) _ :=
    @Reachable.init _ { dependant with active := some false } _ _ 0 _ rfl
      (by with_unfolding_all exact rfl)
  ⟨_, hr, rfl, inactive_never_broadcasts (euler_keepsState _ _) hr rfl 0⟩

/-! ## The first instant -/

end Automaton

end DifferentialEquation

end Vle
