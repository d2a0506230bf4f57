import Vle.Devs.Coordinator.Routing
import Vle.Devs.Coordinator.TwoPhase

/-!
# What the models of a coordinator keep

The coordinator stores the state of a model in two places only: `newSimulator` stores what
`init` returns, and the internal and external paths store what a transition returns
(`setState`).  Every other piece of an instant leaves the states alone (routing, logging, the
event views, the observations, the executive's other doors) or drops a simulator (the two-phase
deletion).  So a property of the states of models that `init` gives and every transition keeps
(`KeepsModels`) holds of every live simulator, in every state the coordinator reaches
(`Reachable.models`).

This is how what is proved of one model, driven by its own transitions, becomes a fact about the
coordinator running it.

* `Models.setState`, `newSimulator_models` — the two places a state is stored.
* `turns_models` — the drain of an instant keeps `Models`.
* `freeSimulators_simulators`, `processObservationEvents_simulators` — the rest of `run()` only
  frees simulators.
* **`Reachable.models`** — every reachable state.
-/

namespace Vle

namespace Coordinator

variable {σ : Type} {k : Kernel σ} {P : σ → Prop}

/-- Every live simulator of `s` holds a state of `P`. -/
def Models (P : σ → Prop) (s : Coordinator σ) : Prop :=
  ∀ x simulator, s.simulators x = some simulator → P simulator.state

/-- The callbacks of `k` keep `P`: `init` returns a state of `P`, whatever state the model was
built with, and a transition from a state of `P` returns one. -/
structure KeepsModels (k : Kernel σ) (P : σ → Prop) : Prop where
  init : ∀ st time, P (k.dynamics.init st time).1
  transition : ∀ {a st}, P a → Transition k a st → P st

lemma Models.mono {s s' : Coordinator σ} (h : Models P s)
    (he : ∀ x simulator, s'.simulators x = some simulator → s.simulators x = some simulator) :
    Models P s' :=
  fun x simulator hx => h x simulator (he x simulator hx)

@[simp] lemma popInstant_simulators (s : Coordinator σ) : s.popInstant.simulators = s.simulators := by
  dsimp only [popInstant]
  split <;> rfl

/-! ## Where a state is stored -/

/-- Storing the state a transition of a live model returns. -/
lemma Models.setState (hk : KeepsModels k P) {s : Coordinator σ} {sim : SimId} {simulator : Simulator σ}
    {st : σ} (h : Models P s) (hsim : s.simulators sim = some simulator)
    (ht : Transition k simulator.state st) : Models P (s.setState sim st) := by
  intro x simulator' hx
  by_cases hxs : x = sim
  · subst hxs
    simp only [Coordinator.setState, Function.update_same, hsim, Option.map_some', Option.some.injEq] at hx
    exact hx ▸ hk.transition (h x simulator hsim) ht
  · simp only [Coordinator.setState, Function.update_noteq hxs] at hx
    exact h x simulator' hx

/-- A new simulator holds what `init` returns. -/
lemma newSimulator_models (hk : KeepsModels k P) {model : ModelId} {st : σ} {time : Time}
    {s s' : Coordinator σ} (h : newSimulator k model st time s = .ok s') (hs : Models P s) : Models P s' := by
  obtain ⟨-, rfl⟩ := newSimulator_eq h
  intro x simulator hx
  simp only [putNext_simulators] at hx
  by_cases hxs : x = s.nextSim
  · subst hxs
    simp only [Function.update_same, Option.some.injEq] at hx
    exact hx ▸ hk.init st time
  · simp only [Function.update_noteq hxs] at hx
    exact hs x simulator hx

/-! ## Through an instant -/

/-- The drain of an instant keeps `Models`: besides the two places a state is stored, its pieces
leave the simulators alone. -/
lemma turns_models (hk : KeepsModels k P) : Turns k fun s s' : Coordinator σ => Models P s → Models P s' where
  refl _ := id
  trans h₁ h₂ := h₂ ∘ h₁
  graph _ _ := id
  createModel h hs := newSimulator_models hk h hs
  addObservableToView h hs := by
    obtain ⟨-, -, -, s1, rfl, rfl | ⟨e, -, rfl⟩⟩ := addObservableToView_eq h <;> exact hs
  delAtomicModel h hs := by
    obtain ⟨satom, -, rfl⟩ := delAtomicModel_eq h
    exact hs
  log _ _ _ := id
  put _ _ _ := id
  setState _ _ _ _ hsim ht h := h.setState hk hsim ht
  modifyBag _ _ _ := id

/-- Freeing simulators only drops them. -/
lemma freeSimulators_simulators :
    ∀ {l : List SimId} {s s' : Coordinator σ}, freeSimulators l s = .ok s' →
      ∀ x simulator, s'.simulators x = some simulator → s.simulators x = some simulator
  | [], _, _, h => by cases h; exact fun _ _ => id
  | y :: l, s, s', h => by
    rw [freeSimulators] at h
    split at h
    · exact freeSimulators_simulators h
    · split at h
      · cases h
      · intro x simulator hx
        have hx' := freeSimulators_simulators h x simulator hx
        by_cases hxy : x = y
        · subst hxy
          simp at hx'
        · simpa [Function.update_noteq hxy] using hx'

lemma deleteQueued_simulators {old : Nat} {s s' : Coordinator σ} (h : deleteQueued old s = .ok s') :
    ∀ x simulator, s'.simulators x = some simulator → s.simulators x = some simulator := by
  unfold deleteQueued at h
  split at h
  · split at h
    · obtain ⟨s1, h1, h⟩ := Outcome.bind_eq_ok.1 h
      cases h
      exact fun x simulator hx => freeSimulators_simulators h1 x simulator hx
    · cases h
  · cases h
    exact fun _ _ => id

/-- The observations of an instant leave the simulators alone. -/
lemma processObservationEvents_simulators :
    ∀ {l : List ObservationEvent} {s s' : Coordinator σ}, processObservationEvents k l s = .ok s' →
      s'.simulators = s.simulators
  | [], _, _, h => by cases h; rfl
  | e :: rest, s, s', h => by
    simp only [processObservationEvents, Outcome.ok_bind, Outcome.undefined_bind] at h
    split at h
    · split at h
      · exact (processObservationEvents_simulators h).trans rfl
      · split at h
        · cases h
        · split at h <;> exact (processObservationEvents_simulators h).trans rfl
    · cases h

lemma run_models (hk : KeepsModels k P) {fuel : Nat} {s s' : Coordinator σ} (h : run k fuel s = .ok s')
    (hs : Models P s) : Models P s' := by
  obtain ⟨s2, h2, h⟩ := Outcome.bind_eq_ok.1 h
  obtain ⟨s3, h3, h⟩ := Outcome.bind_eq_ok.1 h
  obtain ⟨s4, h4, h⟩ := Outcome.bind_eq_ok.1 h
  cases h
  have hs2 := drain_rel (turns_models hk) h2 (hs.mono fun x _ hx => by rwa [popInstant_simulators] at hx)
  exact (hs2.mono (deleteQueued_simulators h3)).mono fun _ _ hx => by
    rwa [processObservationEvents_simulators h4] at hx

/-! ## Every reachable state -/

lemma addModels_models (hk : KeepsModels k P) {time : Time} :
    ∀ {atoms : List (ModelId × σ)} {s s' : Coordinator σ}, addModels k time atoms s = .ok s' →
      Models P s → Models P s'
  | [], _, _, h => by cases h; exact id
  | (m, st) :: rest, s, s', h => by
    obtain ⟨s1, h1, h⟩ := Outcome.bind_eq_ok.1 h
    exact addModels_models hk h ∘ newSimulator_models hk h1

/-- A new coordinator has no simulator. -/
lemma models_new (views : List (String × ViewType)) (g : Graph) : Models P (new views g : Coordinator σ) :=
  new_induction (P := Models P) views g (fun _ _ h => by cases h) fun s _ h => by
    unfold addView
    split <;> exact h

/-- **Every live simulator of every reachable state holds a state of `P`**, when `init` gives
`P` and every transition keeps it. -/
lemma Reachable.models (hk : KeepsModels k P) {s : Coordinator σ} (h : Reachable k s) : Models P s := by
  induction h with
  | init h =>
    obtain ⟨s1, h1, h⟩ := Outcome.bind_eq_ok.1 h
    cases h
    exact (addModels_models hk h1 (models_new _ _) :)
  | run _ h ih => exact run_models hk h ih

end Coordinator

end Vle
