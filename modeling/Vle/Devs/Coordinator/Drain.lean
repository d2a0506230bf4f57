import Vle.Devs.Coordinator.Executive
import Vle.Devs.Coordinator.Routing

/-!
# Draining the bag of a simulator

The inner loop of `run()` drains the bag of one simulator: while the bag is not empty it runs
the internal path (`output` then `internalTransition`), the external path (`externalTransition`
on every pending external event) or the request path (`request` on every pending request),
choosing between the first two by `confluentTransitions` when both are pending.  The callbacks
route new events, some of them back into this same bag.

The trace says what each callback of the simulator consumed (`internalCalls`, `externalCalls`,
`requestCalls`), what routing put into its bag (`externalsTo`, `requestsTo`), and which simulators
the executive deleted (`deletedSims`).  A deletion removes from the bag the events the deleted
simulator sent, and everything when it deletes the simulator itself (`delModelEvents`): what it
leaves of a list of events is a sublist, whole on every part the deletions spare (`Thinned`,
`BagThinned.delete`); in particular every event of a simulator no deletion removed is left
(`Thinned.survivors`).

A `Ledger` balances the callbacks against the bag: what the callbacks consumed, followed by what
is still in the bag, is what the deletions left of what the bag held, followed by what was routed
into it.  Every function of the drain keeps it (`Drained`).  The pieces of a transition that
neither consume nor route (the executive, the event views) only thin the bag (`Still`); routing
only appends to it (`Routed`); the request loop, which walks the list by index while routing may
lengthen it, answers it from its position on (`processRequests_served`).  When the loop exits the
bag is empty, so every event the bag held or received went through at most one callback, in
order, exactly one unless a deletion dropped it, and a confluence came first, followed by the
transition it selected (`drainBag_exact`).

The loop does not, however, hold requests back while an external event is pending: a reply that
a request sends back to the simulator itself waits, pending, while the rest of the requests are
answered; and a deletion drops the events of the deleted simulator
(`reply_waits_and_deletion_drops`).
-/

namespace Vle

/-! ## What the trace records of one simulator -/

section Projections

variable (sim : SimId)

/-- The callbacks invoked on `sim`, in order. -/
def callsOf (t : List Trace) : List Callback :=
  t.filterMap fun
    | .call x cb => if x = sim then some cb else none
    | _ => none

/-- The internal event an entry of the trace says `sim` went through a transition on. -/
@[simp] def internalOf : Trace → List InternalEvent
  | .call x (.internal e) => if x = sim then [e] else []
  | _ => []

/-- Whether an entry of the trace is a call of the output function of `sim`. -/
@[simp] def outputOf : Trace → Bool
  | .call x .output => x = sim
  | _ => false

/-- The external events an entry of the trace says `sim` went through a transition on. -/
@[simp] def externalOf : Trace → List ExternalEvent
  | .call x (.external l) => if x = sim then l else []
  | _ => []

/-- The request an entry of the trace says `sim` answered. -/
@[simp] def requestOf : Trace → List ExternalEvent
  | .call x (.request e) => if x = sim then [e] else []
  | _ => []

/-- The external event an entry of the trace put for `sim`. -/
@[simp] def externalToOf : Trace → List ExternalEvent
  | .put e => e.externalFor sim
  | _ => []

/-- The request an entry of the trace put for `sim`. -/
@[simp] def requestToOf : Trace → List ExternalEvent
  | .put e => e.requestFor sim
  | _ => []

/-- The simulators the trace records as deleted, in order. -/
def deletedSims (t : List Trace) : List SimId :=
  t.filterMap fun
    | .deleted x => some x
    | _ => none

lemma mem_deletedSims {x : SimId} {t : List Trace} : x ∈ deletedSims t ↔ Trace.deleted x ∈ t := by
  simp only [deletedSims, List.mem_filterMap]
  constructor
  · rintro ⟨a, ha, h⟩
    cases a <;> simp at h
    exact h ▸ ha
  · exact fun h => ⟨_, h, rfl⟩

/-- The internal events `sim` went through an internal transition on. -/
def internalCalls (t : List Trace) : List InternalEvent := t.flatMap (internalOf sim)

/-- How many times the output function of `sim` was called. -/
def outputCalls (t : List Trace) : Nat := t.countP (outputOf sim)

/-- The external events `sim` went through an external transition on, list after list. -/
def externalCalls (t : List Trace) : List ExternalEvent := t.flatMap (externalOf sim)

/-- The requests `sim` answered. -/
def requestCalls (t : List Trace) : List ExternalEvent := t.flatMap (requestOf sim)

/-- The external events put for `sim`. -/
def externalsTo (t : List Trace) : List ExternalEvent := t.flatMap (externalToOf sim)

/-- The requests put for `sim`. -/
def requestsTo (t : List Trace) : List ExternalEvent := t.flatMap (requestToOf sim)

@[simp] lemma callsOf_append (t t' : List Trace) : callsOf sim (t ++ t') = callsOf sim t ++ callsOf sim t' :=
  List.filterMap_append _ _ _

@[simp] lemma callsOf_call_self (cb : Callback) (t : List Trace) :
    callsOf sim (.call sim cb :: t) = cb :: callsOf sim t := by
  simp [callsOf]

@[simp] lemma internalCalls_nil : internalCalls sim [] = [] := rfl
@[simp] lemma outputCalls_nil : outputCalls sim [] = 0 := rfl
@[simp] lemma externalCalls_nil : externalCalls sim [] = [] := rfl
@[simp] lemma requestCalls_nil : requestCalls sim [] = [] := rfl
@[simp] lemma externalsTo_nil : externalsTo sim [] = [] := rfl
@[simp] lemma requestsTo_nil : requestsTo sim [] = [] := rfl

@[simp] lemma internalCalls_cons (a : Trace) (t : List Trace) :
    internalCalls sim (a :: t) = internalOf sim a ++ internalCalls sim t := List.flatMap_cons _ _ _

@[simp] lemma outputCalls_cons (a : Trace) (t : List Trace) :
    outputCalls sim (a :: t) = outputCalls sim t + if outputOf sim a then 1 else 0 := List.countP_cons _ _ _

@[simp] lemma externalCalls_cons (a : Trace) (t : List Trace) :
    externalCalls sim (a :: t) = externalOf sim a ++ externalCalls sim t := List.flatMap_cons _ _ _

@[simp] lemma requestCalls_cons (a : Trace) (t : List Trace) :
    requestCalls sim (a :: t) = requestOf sim a ++ requestCalls sim t := List.flatMap_cons _ _ _

@[simp] lemma externalsTo_cons (a : Trace) (t : List Trace) :
    externalsTo sim (a :: t) = externalToOf sim a ++ externalsTo sim t := List.flatMap_cons _ _ _

@[simp] lemma requestsTo_cons (a : Trace) (t : List Trace) :
    requestsTo sim (a :: t) = requestToOf sim a ++ requestsTo sim t := List.flatMap_cons _ _ _

@[simp] lemma internalCalls_append (t t' : List Trace) :
    internalCalls sim (t ++ t') = internalCalls sim t ++ internalCalls sim t' := List.flatMap_append _ _ _

@[simp] lemma outputCalls_append (t t' : List Trace) :
    outputCalls sim (t ++ t') = outputCalls sim t + outputCalls sim t' := List.countP_append _ _ _

@[simp] lemma externalCalls_append (t t' : List Trace) :
    externalCalls sim (t ++ t') = externalCalls sim t ++ externalCalls sim t' := List.flatMap_append _ _ _

@[simp] lemma requestCalls_append (t t' : List Trace) :
    requestCalls sim (t ++ t') = requestCalls sim t ++ requestCalls sim t' := List.flatMap_append _ _ _

@[simp] lemma externalsTo_append (t t' : List Trace) :
    externalsTo sim (t ++ t') = externalsTo sim t ++ externalsTo sim t' := List.flatMap_append _ _ _

@[simp] lemma requestsTo_append (t t' : List Trace) :
    requestsTo sim (t ++ t') = requestsTo sim t ++ requestsTo sim t' := List.flatMap_append _ _ _

end Projections

namespace EventBagModel

@[simp] lemma empty_eq_true (b : EventBagModel) :
    b.empty = true ↔ b.internal = none ∧ b.externals = [] ∧ b.requests = [] := by
  simp [empty, emptyInternal, emptyExternal, Option.isNone_iff_eq_none, and_assoc]

@[simp] lemma emptyExternal_eq_true (b : EventBagModel) : b.emptyExternal = true ↔ b.externals = [] := by
  simp [emptyExternal]

end EventBagModel

/-! ## What a deletion leaves of a bag

A deletion during the drain removes from the bag of `sim` the events the deleted simulator sent,
or, when it deletes `sim` itself, everything (`delModelEvents`).  `Thinned` says what is left of
a list of events of the bag after the deletions a piece of the trace records: a sublist, equal to
the list on every part of it that the deletions spare. -/

section Thinning

variable {α : Type} (src : α → SimId) (sim : SimId)

/-- The deletions recorded in `Δ` spare the events `l` of the bag of `sim`: none deletes `sim`,
nor the simulator `src e` an event `e` of `l` comes from. -/
def Spared (Δ : List Trace) (l : List α) : Prop :=
  ∀ x ∈ deletedSims Δ, x ≠ sim ∧ ∀ e ∈ l, src e ≠ x

/-- `l'` is what the deletions recorded in `Δ` leave of the events `l` of the bag of `sim`: the
events of `l'` are events of `l`, in their order, and every part of `l` that the deletions spare
is all there. -/
structure Thinned (Δ : List Trace) (l l' : List α) : Prop where
  sublist : l'.Sublist l
  spared : ∀ p : α → Bool, Spared src sim Δ (l.filter p) → l'.filter p = l.filter p

variable {src sim} {Δ Δ₁ Δ₂ : List Trace}

lemma Spared.mono {Δ' : List Trace} {l l' : List α} (h : Spared src sim Δ l) (hΔ : Δ' ⊆ Δ)
    (hl : l' ⊆ l) : Spared src sim Δ' l' :=
  fun x hx =>
    have hx' := mem_deletedSims.2 (hΔ (mem_deletedSims.1 hx))
    ⟨(h x hx').1, fun e he => (h x hx').2 e (hl he)⟩

lemma Thinned.refl (Δ : List Trace) (l : List α) : Thinned src sim Δ l l :=
  ⟨List.Sublist.refl l, fun _ _ => rfl⟩

lemma Thinned.mono {Δ' : List Trace} {l l' : List α} (h : Thinned src sim Δ l l') (hΔ : Δ ⊆ Δ') :
    Thinned src sim Δ' l l' :=
  ⟨h.sublist, fun p hs => h.spared p (hs.mono hΔ (List.Subset.refl _))⟩

/-- Two stages of thinning, the events `c` consumed before the second stage and the events `r`
received between them. -/
lemma Thinned.trans_append {L c b r M : List α} (h₁ : Thinned src sim Δ₁ L (c ++ b))
    (h₂ : Thinned src sim Δ₂ (b ++ r) M) : Thinned src sim (Δ₁ ++ Δ₂) (L ++ r) (c ++ M) := by
  have hcb : (c ++ (b ++ r)).Sublist (L ++ r) := by
    rw [← List.append_assoc]
    exact h₁.sublist.append_right r
  refine ⟨(h₂.sublist.append_left c).trans hcb, fun p hs => ?_⟩
  have h1 := h₁.spared p (hs.mono (List.subset_append_left _ _) ((List.sublist_append_left L r).filter p).subset)
  have h2 := h₂.spared p (hs.mono (List.subset_append_right _ _)
    (((List.sublist_append_right c _).trans hcb).filter p).subset)
  calc (c ++ M).filter p = (c ++ b).filter p ++ r.filter p := by
        rw [List.filter_append, h2, List.filter_append, List.filter_append, List.append_assoc]
    _ = (L ++ r).filter p := by rw [h1, List.filter_append]

/-- Two stages of thinning, the events `c` consumed before the second stage. -/
lemma Thinned.trans_consume {L c b M : List α} (h₁ : Thinned src sim Δ₁ L (c ++ b))
    (h₂ : Thinned src sim Δ₂ b M) : Thinned src sim (Δ₁ ++ Δ₂) L (c ++ M) := by
  simpa using h₁.trans_append (r := []) (by simpa using h₂)

lemma Thinned.trans {l₁ l₂ l₃ : List α} (h₁ : Thinned src sim Δ₁ l₁ l₂) (h₂ : Thinned src sim Δ₂ l₂ l₃) :
    Thinned src sim (Δ₁ ++ Δ₂) l₁ l₃ := by
  simpa using Thinned.trans_consume (c := []) (by simpa using h₁) h₂

/-- Nothing is left of no events. -/
lemma Thinned.eq_nil {l' : List α} (h : Thinned src sim Δ [] l') : l' = [] :=
  List.sublist_nil.1 h.sublist

/-- When the deletions spare all of `l`, all of `l` is left. -/
lemma Thinned.eq {l l' : List α} (h : Thinned src sim Δ l l') (hs : Spared src sim Δ l) : l' = l := by
  simpa using h.spared (fun _ => true) (by simpa using hs)

/-- **What a deletion drops.**  Unless `sim` itself was deleted, every event whose sender no
deletion removed is left. -/
lemma Thinned.survivors {l l' : List α} (h : Thinned src sim Δ l l') (hsim : sim ∉ deletedSims Δ) :
    l'.filter (fun e => src e ∉ deletedSims Δ) = l.filter (fun e => src e ∉ deletedSims Δ) :=
  h.spared _ fun _ hx => ⟨fun he => hsim (he ▸ hx),
    fun _ he hex => of_decide_eq_true (List.mem_filter.1 he).2 (hex ▸ hx)⟩

/-- Deleting `sim` itself leaves nothing of its bag. -/
lemma Thinned.of_deleted (l : List α) : Thinned src sim [.deleted sim] l [] :=
  ⟨List.nil_sublist l, fun _ hs => absurd rfl (hs sim (List.mem_singleton_self _)).1⟩

/-- Deleting another simulator `y` drops the events `y` sent. -/
lemma Thinned.filter_source (y : SimId) (l : List α) :
    Thinned src sim [.deleted y] l (l.filter fun e => src e ≠ y) := by
  refine ⟨List.filter_sublist l, fun p hs => ?_⟩
  rw [List.filter_filter]
  refine List.filter_congr fun e he => ?_
  cases hp : p e
  · rfl
  · simpa using (hs y (List.mem_singleton_self _)).2 e (List.mem_filter.2 ⟨he, hp⟩)

end Thinning

/-- What the deletions recorded in `Δ` leave of the bag `b` of `sim`: its internal event, which
only the deletion of `sim` drops, and its external events and requests. -/
structure BagThinned (sim : SimId) (Δ : List Trace) (b b' : EventBagModel) : Prop where
  internal : Thinned (fun _ => sim) sim Δ b.internal.toList b'.internal.toList
  externals : Thinned ExternalEvent.source sim Δ b.externals b'.externals
  requests : Thinned ExternalEvent.source sim Δ b.requests b'.requests

namespace BagThinned

variable {sim : SimId} {Δ₁ Δ₂ : List Trace}

lemma refl (Δ : List Trace) (b : EventBagModel) : BagThinned sim Δ b b :=
  ⟨.refl _ _, .refl _ _, .refl _ _⟩

lemma trans {b₁ b₂ b₃ : EventBagModel} (h₁ : BagThinned sim Δ₁ b₁ b₂) (h₂ : BagThinned sim Δ₂ b₂ b₃) :
    BagThinned sim (Δ₁ ++ Δ₂) b₁ b₃ :=
  ⟨h₁.internal.trans h₂.internal, h₁.externals.trans h₂.externals, h₁.requests.trans h₂.requests⟩

/-- Thinning commutes with emptying the external events. -/
lemma clear {b b' : EventBagModel} (h : BagThinned sim Δ₁ b b') :
    BagThinned sim Δ₁ { b with externals := [] } { b' with externals := [] } :=
  ⟨h.internal, .refl _ _, h.requests⟩

/-- **A deletion thins a bag**: the deletion of `y` empties the bag of `y` and drops the events `y`
sent from every other bag (`bag_delModelEvents`). -/
lemma delete (y : SimId) (b : EventBagModel) :
    BagThinned sim [.deleted y] b (if sim = y then .nil else b.forget y) := by
  split
  · next h =>
    subst h
    exact ⟨.of_deleted _, .of_deleted _, .of_deleted _⟩
  · exact ⟨.refl _ _, .filter_source y _, .filter_source y _⟩

end BagThinned

namespace Coordinator

variable {σ : Type} (k : Kernel σ) (sim : SimId)

/-! ## Reading the bag -/

@[simp] lemma bag_log (s : Coordinator σ) (e : Trace) : (s.log e).bag = s.bag := rfl

@[simp] lemma bag_setState (s : Coordinator σ) (x : SimId) (st : σ) : (s.setState x st).bag = s.bag := rfl

@[simp] lemma bag_putNext (s : Coordinator σ) (x : SimId) (next : Option Time) : (s.putNext x next).bag = s.bag := by
  cases next <;> rfl

@[simp] lemma bag_modifyBag (s : Coordinator σ) (x y : SimId) (f : EventBagModel → EventBagModel) :
    (s.modifyBag x f).bag y = if y = x then f (s.bag y) else s.bag y :=
  CompleteEventBagModel.bag_modifyBag _ _ _ _

/-! ## The ledger of a bag -/

/-- The ledger of the bag of `sim` between `s` and `s'`, the trace having grown by `Δ`: what the
callbacks of `sim` consumed, followed by what is left in the bag, is what the deletions of `Δ`
leave of what the bag held, followed by what was routed into it; and each internal transition
came with one output. -/
structure Ledger (s : Coordinator σ) (Δ : List Trace) (s' : Coordinator σ) : Prop where
  internal : Thinned (fun _ => sim) sim Δ (s.bag sim).internal.toList
    (internalCalls sim Δ ++ (s'.bag sim).internal.toList)
  outputs : outputCalls sim Δ = (internalCalls sim Δ).length
  externals : Thinned ExternalEvent.source sim Δ ((s.bag sim).externals ++ externalsTo sim Δ)
    (externalCalls sim Δ ++ (s'.bag sim).externals)
  requests : Thinned ExternalEvent.source sim Δ ((s.bag sim).requests ++ requestsTo sim Δ)
    (requestCalls sim Δ ++ (s'.bag sim).requests)

/-- `s'` follows `s` in the drain, the trace having grown by `Δ`, and the ledger of the bag of
`sim` balances. -/
structure Drained (s : Coordinator σ) (Δ : List Trace) (s' : Coordinator σ) : Prop where
  trace : s'.trace = s.trace ++ Δ
  ledger : Ledger sim s Δ s'

variable {sim}

lemma Ledger.trans {s₁ s₂ s₃ : Coordinator σ} {Δ₁ Δ₂ : List Trace} (h₁ : Ledger sim s₁ Δ₁ s₂)
    (h₂ : Ledger sim s₂ Δ₂ s₃) : Ledger sim s₁ (Δ₁ ++ Δ₂) s₃ where
  internal := by simpa only [internalCalls_append, List.append_assoc] using h₁.internal.trans_consume h₂.internal
  outputs := by rw [outputCalls_append, internalCalls_append, List.length_append, h₁.outputs, h₂.outputs]
  externals := by
    simpa only [externalCalls_append, externalsTo_append, List.append_assoc] using
      h₁.externals.trans_append h₂.externals
  requests := by
    simpa only [requestCalls_append, requestsTo_append, List.append_assoc] using
      h₁.requests.trans_append h₂.requests

lemma Drained.trans {s₁ s₂ s₃ : Coordinator σ} {Δ₁ Δ₂ : List Trace} (h₁ : Drained sim s₁ Δ₁ s₂)
    (h₂ : Drained sim s₂ Δ₂ s₃) : Drained sim s₁ (Δ₁ ++ Δ₂) s₃ where
  trace := by rw [h₂.trace, h₁.trace, List.append_assoc]
  ledger := h₁.ledger.trans h₂.ledger

/-! ## Pieces that consume nothing -/

/-- A piece of trace that records no callback consuming from the bag of `sim` and puts nothing
for it. -/
structure Quiet (sim : SimId) (Δ : List Trace) : Prop where
  internal : internalCalls sim Δ = []
  outputs : outputCalls sim Δ = 0
  externals : externalCalls sim Δ = []
  requests : requestCalls sim Δ = []
  externalsTo : externalsTo sim Δ = []
  requestsTo : requestsTo sim Δ = []

lemma Quiet.nil : Quiet sim [] := ⟨rfl, rfl, rfl, rfl, rfl, rfl⟩

lemma Quiet.append {Δ₁ Δ₂ : List Trace} (h₁ : Quiet sim Δ₁) (h₂ : Quiet sim Δ₂) : Quiet sim (Δ₁ ++ Δ₂) :=
  ⟨by simp [h₁.1, h₂.1], by simp [h₁.2, h₂.2], by simp [h₁.3, h₂.3], by simp [h₁.4, h₂.4],
    by simp [h₁.5, h₂.5], by simp [h₁.6, h₂.6]⟩

/-- A quiet piece of trace balances when the deletions it records thin the bag of `sim`. -/
lemma Ledger.of_quiet {s s' : Coordinator σ} {Δ : List Trace} (hb : BagThinned sim Δ (s.bag sim) (s'.bag sim))
    (hq : Quiet sim Δ) : Ledger sim s Δ s' :=
  ⟨by simpa [hq.internal] using hb.internal, by simp [hq.outputs, hq.internal],
    by simpa [hq.externals, hq.externalsTo] using hb.externals,
    by simpa [hq.requests, hq.requestsTo] using hb.requests⟩

/-- `s'` follows `s`, the trace having grown by `Δ`, which is quiet for `sim`; the bag of `sim` is
what the deletions of `Δ` leave of it. -/
structure Still (sim : SimId) (s : Coordinator σ) (Δ : List Trace) (s' : Coordinator σ) : Prop where
  trace : s'.trace = s.trace ++ Δ
  quiet : Quiet sim Δ
  bag : BagThinned sim Δ (s.bag sim) (s'.bag sim)

lemma Still.refl (s : Coordinator σ) : Still sim s [] s :=
  ⟨(List.append_nil _).symm, .nil, .refl _ _⟩

lemma Still.trans {s₁ s₂ s₃ : Coordinator σ} {Δ₁ Δ₂ : List Trace} (h₁ : Still sim s₁ Δ₁ s₂)
    (h₂ : Still sim s₂ Δ₂ s₃) : Still sim s₁ (Δ₁ ++ Δ₂) s₃ where
  trace := by rw [h₂.trace, h₁.trace, List.append_assoc]
  quiet := h₁.quiet.append h₂.quiet
  bag := h₁.bag.trans h₂.bag

lemma Still.exists_trans {s₁ s₂ s₃ : Coordinator σ} {Δ₁ Δ₂ : List Trace} (h₁ : Still sim s₁ Δ₁ s₂)
    (h₂ : Still sim s₂ Δ₂ s₃) : ∃ Δ, Still sim s₁ Δ s₃ :=
  ⟨_, h₁.trans h₂⟩

/-- A change of the state that leaves the bag of `sim` and the trace alone. -/
lemma Still.of_frame {s s₁ s' : Coordinator σ} {Δ : List Trace} (hb : s₁.bag sim = s.bag sim)
    (ht : s₁.trace = s.trace) (h : Still sim s₁ Δ s') : Still sim s Δ s' :=
  ⟨by rw [h.trace, ht], h.quiet, hb ▸ h.bag⟩

/-- A quiet piece of trace around the clearing of the externals of `sim`. -/
lemma Still.clear {s₁ s₂ s₃ : Coordinator σ} {Δ₁ Δ₂ : List Trace} (h₁ : Still sim s₁ Δ₁ s₂)
    (h₂ : Still sim (s₂.modifyBag sim fun b => { b with externals := [] }) Δ₂ s₃) :
    ∃ Δ, s₃.trace = s₁.trace ++ Δ ∧ Quiet sim Δ ∧
      BagThinned sim Δ { s₁.bag sim with externals := [] } (s₃.bag sim) := by
  have hb := h₂.bag
  rw [bag_modifyBag, if_pos rfl] at hb
  exact ⟨Δ₁ ++ Δ₂, by rw [h₂.trace]; show s₂.trace ++ Δ₂ = _; rw [h₁.trace, List.append_assoc],
    h₁.quiet.append h₂.quiet, h₁.bag.clear.trans hb⟩

lemma Still.drained {s s' : Coordinator σ} {Δ : List Trace} (h : Still sim s Δ s') : Drained sim s Δ s' :=
  ⟨h.trace, .of_quiet h.bag h.quiet⟩

lemma Drained.refl (s : Coordinator σ) : Drained sim s [] s :=
  (Still.refl s).drained

lemma still_putNext (s : Coordinator σ) (x : SimId) :
    ∀ next : Option Time,
      Still sim s (next.toList.map fun t => .put (.internal ⟨t, x⟩)) (s.putNext x next)
  | some _ => ⟨rfl, ⟨rfl, rfl, rfl, rfl, rfl, rfl⟩, .refl _ _⟩
  | none => .refl s

lemma still_put_observation (s : Coordinator σ) (e : ObservationEvent) :
    Still sim s [.put (.observation e)] (s.put (.observation e)) :=
  ⟨rfl, ⟨rfl, rfl, rfl, rfl, rfl, rfl⟩, .refl _ _⟩

/-- Logging an observation or a confluence callback. -/
lemma still_log (s : Coordinator σ) (x : SimId) {cb : Callback}
    (hcb : cb = .confluent ∨ ∃ e, cb = .observation e) : Still sim s [.call x cb] (s.log (.call x cb)) :=
  ⟨rfl, by rcases hcb with rfl | ⟨e, rfl⟩ <;> exact ⟨rfl, rfl, rfl, rfl, rfl, rfl⟩, .refl _ _⟩

lemma observe_still {x : SimId} :
    ∀ {l : List ObservationEvent} {s s' : Coordinator σ}, observe x l s = .ok s' → ∃ Δ, Still sim s Δ s'
  | [], _, _, h => by cases h; exact ⟨[], .refl _⟩
  | e :: rest, s, s', h => by
    simp only [observe] at h
    split at h
    · obtain ⟨Δ, hΔ⟩ := observe_still h
      exact ⟨_, (still_log s x (.inr ⟨e, rfl⟩)).trans hΔ⟩
    · cases h

lemma processEventView_still {x : SimId} {ev : Option InternalEvent} {s s' : Coordinator σ}
    (h : processEventView x ev s = .ok s') : ∃ Δ, Still sim s Δ s' :=
  observe_still h

lemma addObservableToView_still {model : ModelId} {port view : String} {s s' : Coordinator σ}
    (h : addObservableToView model port view s = .ok s') : ∃ Δ, Still sim s Δ s' := by
  obtain ⟨-, -, -, s1, rfl, rfl | ⟨e, -, rfl⟩⟩ := addObservableToView_eq h
  · exact ⟨_, (Still.refl _).of_frame (by rfl) (by rfl)⟩
  · exact ⟨_, (still_put_observation _ _).of_frame (by rfl) (by rfl)⟩

lemma newSimulator_still {model : ModelId} {st : σ} {time : Time} {s s' : Coordinator σ}
    (h : newSimulator k model st time s = .ok s') : ∃ Δ, Still sim s Δ s' := by
  obtain ⟨-, rfl⟩ := newSimulator_eq h
  exact ⟨_, (still_putNext _ _ _).of_frame (by rfl) (by rfl)⟩

/-- A deletion records `.deleted` in the trace, and thins the bag. -/
lemma delAtomicModel_still {parent atom : ModelId} {s s' : Coordinator σ}
    (h : delAtomicModel parent atom s = .ok s') : ∃ Δ, Still sim s Δ s' := by
  obtain ⟨satom, -, rfl⟩ := delAtomicModel_eq h
  refine ⟨[.deleted satom], rfl, ⟨rfl, rfl, rfl, rfl, rfl, rfl⟩, ?_⟩
  show BagThinned sim _ (s.bag sim) ((s.mEventTable.delModelEvents satom).current.bag sim)
  rw [EventTable.bag_delModelEvents]
  exact .delete satom _

/-- The executive consumes nothing from the bag, and its deletions thin it. -/
lemma doors_still : Doors k fun s s' : Coordinator σ => ∃ Δ, Still sim s Δ s' where
  refl s := ⟨[], .refl s⟩
  trans := fun ⟨_, h₁⟩ ⟨_, h₂⟩ => ⟨_, h₁.trans h₂⟩
  graph s g := ⟨[], (Still.refl { s with graph := g }).of_frame (by rfl) (by rfl)⟩
  createModel h := (newSimulator_still k h).imp fun _ h => h.of_frame (by rfl) (by rfl)
  addObservableToView := addObservableToView_still
  delAtomicModel := delAtomicModel_still

/-! ## Routing -/

/-- `s'` follows `s` by routing, and by callbacks of `sim` that answer requests at most: the trace
grew by `Δ`, which records no internal, output or external callback of `sim`, and the bag of
`sim` received what `Δ` put for it. -/
structure Routed (sim : SimId) (s : Coordinator σ) (Δ : List Trace) (s' : Coordinator σ) : Prop where
  trace : s'.trace = s.trace ++ Δ
  internal : (s'.bag sim).internal = (s.bag sim).internal
  externals : (s'.bag sim).externals = (s.bag sim).externals ++ externalsTo sim Δ
  requests : (s'.bag sim).requests = (s.bag sim).requests ++ requestsTo sim Δ
  calls : internalCalls sim Δ = [] ∧ outputCalls sim Δ = 0 ∧ externalCalls sim Δ = []

lemma Routed.refl (s : Coordinator σ) : Routed sim s [] s :=
  ⟨by simp, rfl, by simp, by simp, rfl, rfl, rfl⟩

lemma Routed.trans {s₁ s₂ s₃ : Coordinator σ} {Δ₁ Δ₂ : List Trace} (h₁ : Routed sim s₁ Δ₁ s₂)
    (h₂ : Routed sim s₂ Δ₂ s₃) : Routed sim s₁ (Δ₁ ++ Δ₂) s₃ :=
  ⟨by rw [h₂.trace, h₁.trace, List.append_assoc], h₂.internal.trans h₁.internal,
    by rw [h₂.externals, h₁.externals, externalsTo_append, List.append_assoc],
    by rw [h₂.requests, h₁.requests, requestsTo_append, List.append_assoc],
    by simp [h₁.calls, h₂.calls]⟩

/-- Putting an event appends it to the bag of its target when it is an external event or a
request, and changes no bag otherwise. -/
lemma routed_put (s : Coordinator σ) (e : Event) : Routed sim s [.put e] (s.put e) :=
  ⟨rfl, by rw [bag_put], by simp [bag_put], by simp [bag_put], rfl, rfl, rfl⟩

lemma putTargets_routed {e : ExternalEvent} :
    ∀ {l : List (ModelId × String)} {s s' : Coordinator σ}, putTargets e l s = .ok s' →
      ∃ Δ, Routed sim s Δ s' ∧ requestCalls sim Δ = []
  | [], _, _, h => by cases h; exact ⟨[], .refl _, rfl⟩
  | (m, p) :: rest, s, s', h => by
    simp only [putTargets, Outcome.bind_eq_ok] at h
    obtain ⟨-, -, h⟩ := h
    obtain ⟨Δ, hΔ, hr⟩ := putTargets_routed h
    exact ⟨_, (routed_put s _).trans hΔ, by simpa using hr⟩

/-- Routing only puts events. -/
lemma dispatchExternalEvent_routed :
    ∀ {l : List ExternalEvent} {x : SimId} {s s' : Coordinator σ},
      dispatchExternalEvent k l x s = .ok s' → ∃ Δ, Routed sim s Δ s' ∧ requestCalls sim Δ = []
  | [], _, _, _, h => by cases h; exact ⟨[], .refl _, rfl⟩
  | e :: rest, x, s, s', h => by
    simp only [dispatchExternalEvent] at h
    split at h
    · obtain ⟨s1, h1, h⟩ := Outcome.bind_eq_ok.1 h
      obtain ⟨Δ₁, h₁, hr₁⟩ := putTargets_routed h1
      obtain ⟨Δ₂, h₂, hr₂⟩ := dispatchExternalEvent_routed h
      exact ⟨_, h₁.trans h₂, by simp [hr₁, hr₂]⟩
    · cases h

/-! ## The three paths -/

/-- **The internal path consumes the internal event of the bag**, with one output call, around
the routing of the output; it answers no request. -/
lemma processInternalEvent_drained {fuel : Nat} {s s' : Coordinator σ}
    (h : processInternalEvent k fuel sim s = .ok s') :
    ∃ Δ, Drained sim s Δ s' ∧ (∃ rest, callsOf sim Δ = .output :: rest) ∧ requestCalls sim Δ = [] := by
  simp only [processInternalEvent] at h
  split at h
  · rename_i ev hev
    split at h
    · obtain ⟨s2, h2, h⟩ := Outcome.bind_eq_ok.1 h
      split at h
      · obtain ⟨s3, h3, h⟩ := Outcome.bind_eq_ok.1 h
        obtain ⟨Δd, hd, hdr⟩ : ∃ Δ, Routed sim _ Δ s2 ∧ _ := dispatchExternalEvent_routed k h2
        obtain ⟨Δr, hr⟩ : ∃ Δ, Still sim _ Δ s3 := runExecutive_rel (doors_still k) h3
        obtain ⟨Δv, hv⟩ : ∃ Δ, Still sim _ Δ s' := processEventView_still h
        obtain ⟨Δrv, hrv⟩ := hr.exists_trans ((still_putNext _ _ _).trans hv)
        have hΔ : Δrv ⊆ .call sim .output :: (Δd ++ .call sim (.internal ev) :: Δrv) :=
          fun x hx => by simp [hx]
        have hq := hrv.quiet
        have hb : BagThinned sim Δrv (s2.bag sim) (s'.bag sim) := by simpa using hrv.bag
        have hi : (s'.bag sim).internal.toList = [] := by
          have h2 := hb.internal
          rw [hd.internal] at h2
          exact (by simpa using h2 : Thinned _ sim Δrv [] _).eq_nil
        refine ⟨.call sim .output :: (Δd ++ .call sim (.internal ev) :: Δrv), ⟨?_, ?_, ?_, ?_, ?_⟩,
          ⟨_, callsOf_call_self _ _ _⟩, by simp [hdr, hq.requests]⟩
        · rw [hrv.trace]
          show (s2.trace ++ _) ++ _ = _
          rw [hd.trace]
          simp [log, modifyBag]
        · simpa [hd.calls, hq.internal, hev, hi] using @Thinned.refl _ (fun _ => sim) sim _ [ev]
        · simp [hd.calls, hq.internal, hq.outputs]
        · simpa [hd.calls, hd.externals, hq.externals, hq.externalsTo] using hb.externals.mono hΔ
        · simpa [hd.requests, hdr, hq.requests, hq.requestsTo] using hb.requests.mono hΔ
      · cases h
    · cases h
  · cases h

/-- **The external path consumes the externals of the bag**, in one call of
`externalTransition`; it answers no request. -/
lemma processExternalEvents_drained {fuel : Nat} {s s' : Coordinator σ}
    (h : processExternalEvents k fuel sim s = .ok s') :
    ∃ Δ, Drained sim s Δ s' ∧ (∃ rest, callsOf sim Δ = .external (s.bag sim).externals :: rest) ∧
      requestCalls sim Δ = [] := by
  simp only [processExternalEvents] at h
  split at h
  · obtain ⟨s3, h3, h⟩ := Outcome.bind_eq_ok.1 h
    obtain ⟨Δr, hr⟩ : ∃ Δ, Still sim _ Δ s3 := runExecutive_rel (doors_still k) h3
    obtain ⟨Δv, hv⟩ : ∃ Δ, Still sim _ Δ s' := processEventView_still h
    obtain ⟨Δ, ht, hq, hb⟩ := (hr.trans (still_putNext _ _ _)).clear hv
    simp only [bag_setState, bag_log] at hb
    have hΔ : Δ ⊆ .call sim (.external (s.bag sim).externals) :: Δ := fun _ => List.mem_cons_of_mem _
    have hx : (s'.bag sim).externals = [] := hb.externals.eq_nil
    refine ⟨.call sim (.external (s.bag sim).externals) :: Δ, ⟨by simp [ht, log, setState], ?_, ?_, ?_, ?_⟩,
      ⟨_, callsOf_call_self _ _ _⟩, by simp [hq.requests]⟩
    · simpa [hq.internal] using hb.internal.mono hΔ
    · simp [hq.outputs, hq.internal]
    · simpa [hq.externals, hq.externalsTo, hx] using Thinned.refl _ (s.bag sim).externals
    · simpa [hq.requests, hq.requestsTo] using hb.requests.mono hΔ
  · cases h

/-- Answering a request logs the call. -/
lemma routed_log_request (s : Coordinator σ) (x : SimId) (r : ExternalEvent) :
    Routed sim s [.call x (.request r)] (s.log (.call x (.request r))) :=
  ⟨rfl, rfl, by simp, by simp, rfl, rfl, rfl⟩

/-- **The request loop answers the requests of the bag from position `i` on**, those routed back
into the bag while it runs included, one call each and in order. -/
lemma processRequests_served :
    ∀ {fuel i : Nat} {s s' : Coordinator σ}, processRequests k fuel sim i s = .ok s' →
      i ≤ (s.bag sim).requests.length →
      ∃ Δ, Routed sim s Δ s' ∧ requestCalls sim Δ = ((s.bag sim).requests ++ requestsTo sim Δ).drop i
  | 0, _, _, _, h, _ => by cases h
  | fuel + 1, i, s, s', h, hi => by
    rw [processRequests] at h
    split at h
    · next hn =>
      cases h
      have : (s.bag sim).requests.length ≤ i := List.getElem?_eq_none_iff.1 hn
      exact ⟨[], .refl _, by simp [List.drop_eq_nil_of_le this]⟩
    · next r hr =>
      obtain ⟨hlt, rfl⟩ := List.getElem?_eq_some_iff.1 hr
      split at h
      · obtain ⟨s2, h2, h⟩ := Outcome.bind_eq_ok.1 h
        obtain ⟨Δd, hd, hdr⟩ : ∃ Δ, Routed sim _ Δ s2 ∧ _ := dispatchExternalEvent_routed k h2
        have hi' : i + 1 ≤ (s2.bag sim).requests.length := by simp [hd.requests]; omega
        obtain ⟨Δ', h', hr'⟩ := processRequests_served h hi'
        refine ⟨_, (routed_log_request s sim _).trans (hd.trans h'), ?_⟩
        simp [hdr, hr', hd.requests, List.drop_append_of_le_length hlt, List.drop_append_of_le_length hlt.le,
          List.drop_eq_getElem_cons hlt, -List.getElem_cons_drop]
      · cases h

/-- **The request path answers every request of the bag**, those routed back into it while it
runs included, and leaves the list empty.  It deletes nothing, so its ledger always balances. -/
lemma processRequestEvents_drained {fuel : Nat} {s s' : Coordinator σ}
    (h : processRequestEvents k fuel sim s = .ok s') : ∃ Δ, Drained sim s Δ s' := by
  obtain ⟨s1, h1, h⟩ := Outcome.bind_eq_ok.1 h
  cases h
  obtain ⟨Δ, hr, hc⟩ := processRequests_served k h1 (Nat.zero_le _)
  exact ⟨Δ, hr.trace, by simpa [hr.calls, hr.internal] using Thinned.refl _ _, by simp [hr.calls],
    by simpa [hr.calls, hr.externals] using Thinned.refl _ _, by simpa [hc] using Thinned.refl _ _⟩

/-! ## The loop -/

/-- The callback the transition that `confluentTransitions` selects begins with: the output
function for the internal one, `externalTransition` on `lst` for the external one. -/
def selected (st : σ) (ev : InternalEvent) (lst : List ExternalEvent) : Callback :=
  match k.dynamics.confluentTransitions st ev lst with
  | .INTERNAL => .output
  | .EXTERNAL => .external lst

/-- **One turn of the loop.**  It keeps the ledger unless it deletes a model; when the bag holds
an internal event and externals, it calls the confluence function and then runs the transition
selected; and a turn that finds an internal or external event pending answers no request. -/
lemma bagStep_drained {fuel : Nat} {s s' : Coordinator σ} (h : bagStep k fuel sim s = .ok s') :
    ∃ Δ, Drained sim s Δ s' ∧
      (∀ ev, (s.bag sim).internal = some ev → (s.bag sim).externals ≠ [] →
        ∃ simulator rest, s.simulators sim = some simulator ∧
          callsOf sim Δ = .confluent :: selected k simulator.state ev (s.bag sim).externals :: rest) ∧
      ((s.bag sim).internal ≠ none ∨ (s.bag sim).externals ≠ [] → requestCalls sim Δ = []) := by
  unfold bagStep at h
  split at h
  · next ev hev =>
    split at h
    · next he =>
      obtain ⟨Δ, hd, -, hr⟩ := processInternalEvent_drained k h
      exact ⟨Δ, hd, fun _ _ hne => absurd ((EventBagModel.emptyExternal_eq_true _).1 he) hne, fun _ => hr⟩
    · split at h
      · cases h
      · next simulator hsim =>
        have hc : Still sim s [.call sim .confluent] (s.log (.call sim .confluent)) := still_log s sim (.inl rfl)
        split at h
        · next hsel =>
          obtain ⟨Δ, hd, ⟨rest, hrest⟩, hr⟩ := processInternalEvent_drained k h
          refine ⟨_, hc.drained.trans hd, fun ev' hev' _ => ⟨simulator, rest, hsim, ?_⟩, fun _ => by simpa using hr⟩
          rw [hev] at hev'
          cases hev'
          simp [hrest, selected, hsel]
        · next hsel =>
          obtain ⟨Δ, hd, ⟨rest, hrest⟩, hr⟩ := processExternalEvents_drained k h
          refine ⟨_, hc.drained.trans hd, fun ev' hev' _ => ⟨simulator, rest, hsim, ?_⟩, fun _ => by simpa using hr⟩
          rw [hev] at hev'
          cases hev'
          simp [hrest, selected, hsel]
  · next hev =>
    split at h
    · obtain ⟨Δ, hd, -, hr⟩ := processExternalEvents_drained k h
      exact ⟨Δ, hd, fun _ hev' => absurd hev' (by simp [hev]), fun _ => hr⟩
    · next he =>
      obtain ⟨Δ, hd⟩ := processRequestEvents_drained k h
      refine ⟨Δ, hd, fun _ hev' => absurd hev' (by simp [hev]), fun hp => absurd hp ?_⟩
      simpa [hev] using he

/-- **The loop drains the bag**: when it exits the bag of `sim` is empty, the ledger balances
unless a model was deleted, and a confluence, if any, came first. -/
lemma drainBag_drained :
    ∀ {fuel : Nat} {s s' : Coordinator σ}, drainBag k fuel sim s = .ok s' →
      ∃ Δ, Drained sim s Δ s' ∧ (s'.bag sim).empty ∧
        ∀ ev, (s.bag sim).internal = some ev → (s.bag sim).externals ≠ [] →
          ∃ simulator rest, s.simulators sim = some simulator ∧
            callsOf sim Δ = .confluent :: selected k simulator.state ev (s.bag sim).externals :: rest
  | 0, _, _, h => by cases h
  | fuel + 1, s, s', h => by
    rw [drainBag] at h
    split at h
    · next he =>
      cases h
      refine ⟨[], .refl _, he, fun ev hev _ => ?_⟩
      simp [hev] at he
    · obtain ⟨s1, h1, h⟩ := Outcome.bind_eq_ok.1 h
      obtain ⟨Δ₁, hd₁, hc₁, -⟩ := bagStep_drained k h1
      obtain ⟨Δ₂, hd₂, he, -⟩ := drainBag_drained h
      refine ⟨_, hd₁.trans hd₂, he, fun ev hev hne => ?_⟩
      obtain ⟨simulator, rest, hsim, hc⟩ := hc₁ ev hev hne
      exact ⟨simulator, rest ++ callsOf sim Δ₂, hsim, by simp [hc]⟩

/-- What the drain of the bag of `sim` from `s` to `s'` guarantees, the trace having grown by
`Δ`.  The bag is empty.  The internal event of the bag went through at most one internal
transition, each with one output, and the external events and requests the bag held, followed by
those routed into it, went through at most one call each of `externalTransition` and `request`,
in order: what the callbacks received is what the deletions of `Δ` left of them (`Thinned`).
When an internal event and externals were both pending, the confluence function was called first,
then the transition it selected. -/
structure Exact (sim : SimId) (s : Coordinator σ) (Δ : List Trace) (s' : Coordinator σ) : Prop where
  trace : s'.trace = s.trace ++ Δ
  empty : (s'.bag sim).empty
  internal : Thinned (fun _ => sim) sim Δ (s.bag sim).internal.toList (internalCalls sim Δ)
  outputs : outputCalls sim Δ = (internalCalls sim Δ).length
  externals : Thinned ExternalEvent.source sim Δ ((s.bag sim).externals ++ externalsTo sim Δ)
    (externalCalls sim Δ)
  requests : Thinned ExternalEvent.source sim Δ ((s.bag sim).requests ++ requestsTo sim Δ)
    (requestCalls sim Δ)
  confluent : ∀ ev, (s.bag sim).internal = some ev → (s.bag sim).externals ≠ [] →
    ∃ simulator rest, s.simulators sim = some simulator ∧
      callsOf sim Δ = .confluent :: selected k simulator.state ev (s.bag sim).externals :: rest

/-- **The drain of a bag empties it and duplicates nothing; it loses only what a deletion
drops.**  When the inner loop of `run()` exits on the bag of `sim`, the bag is empty, and every
event the bag held or received went through at most one callback, in order; a confluence came
first, followed by the transition selected.  When no deletion during the drain removes `sim` or a
simulator that sent an event into its bag, every such event went through exactly one callback.
A turn of the loop that finds an internal or external event pending answers no request. -/
theorem drainBag_exact (sim : SimId) :
    (∀ {fuel : Nat} {s s' : Coordinator σ}, drainBag k fuel sim s = .ok s' →
      ∃ Δ, Exact k sim s Δ s' ∧
        (Spared ExternalEvent.source sim Δ
            ((s.bag sim).externals ++ externalsTo sim Δ ++ ((s.bag sim).requests ++ requestsTo sim Δ)) →
          internalCalls sim Δ = (s.bag sim).internal.toList ∧
          externalCalls sim Δ = (s.bag sim).externals ++ externalsTo sim Δ ∧
          requestCalls sim Δ = (s.bag sim).requests ++ requestsTo sim Δ)) ∧
    (∀ {fuel : Nat} {s s' : Coordinator σ}, bagStep k fuel sim s = .ok s' →
      (s.bag sim).internal ≠ none ∨ (s.bag sim).externals ≠ [] →
      ∃ Δ, s'.trace = s.trace ++ Δ ∧ requestCalls sim Δ = []) := by
  refine ⟨@fun _ s s' h => ?_, fun h hp => ?_⟩
  · obtain ⟨Δ, hd, he, hc⟩ := drainBag_drained k h
    obtain ⟨hi, hx, hr⟩ := (EventBagModel.empty_eq_true _).1 he
    have hl := hd.ledger
    have hE : Exact k sim s Δ s' := ⟨hd.trace, he, by simpa [hi] using hl.internal, hl.outputs,
      by simpa [hx] using hl.externals, by simpa [hr] using hl.requests, hc⟩
    refine ⟨Δ, hE, fun hs => ⟨hE.internal.eq fun x hx => ⟨(hs x hx).1, fun _ _ => Ne.symm (hs x hx).1⟩,
      hE.externals.eq (hs.mono (List.Subset.refl _) (List.subset_append_left _ _)),
      hE.requests.eq (hs.mono (List.Subset.refl _) (List.subset_append_right _ _))⟩⟩
  · obtain ⟨Δ, hd, -, hr⟩ := bagStep_drained k h
    exact ⟨Δ, hd.trace, hr hp⟩

/-! ## A drain, and what it does not promise -/

/-- A coupled model `top` at `1` with two atomic children, `A` at `2` and `B` at `3`: `B` asks on
its port `ask`, connected to the port `in` of `A`, and `A` answers on its port `out`, connected
back to its own port `in`. -/
def echoGraph : Graph := fun m =>
  if m = 1 then some (.coupled "top" [("A", 2), ("B", 3)] [⟨3, "ask", 2, "in"⟩, ⟨2, "out", 2, "in"⟩])
  else if m = 2 then some (.atomic "A")
  else if m = 3 then some (.atomic "B")
  else none

/-- The models of `echoGraph`, by their state: `0` is `B`, which sends two requests at time `0`;
`1` is `A`, which answers each request on `out`; `2` is an `A` whose internal transition at time
`0` deletes `A` itself.  Confluence always selects the internal transition. -/
def echo : Kernel Nat where
  dynamics :=
    { init := fun st _ => (st, if st = 1 then none else some 0)
      confluentTransitions := fun _ _ _ => .INTERNAL
      output := fun st _ =>
        if st = 0 then [⟨"ask", [("n", "1")], true, 0, 0⟩, ⟨"ask", [("n", "2")], true, 0, 0⟩] else []
      internalTransition := fun st _ => (st, none, if st = 2 then [.delModel 1 "A"] else [])
      externalTransition := fun st _ _ => (st, none, [])
      request := fun _ r _ => [{ r with portName := "out", isRequest := false }]
      observation := fun _ _ => none }
  getTargetPortList := fun g m p =>
    (if m = 3 ∧ p = "ask" ∨ m = 2 ∧ p = "out" then [(2, "in")] else []).filter fun mp => g.isAtomic mp.1
  getTargetPortList_atomic := fun _ _ _ _ hmp => (List.mem_filter.1 hmp).2

/-- The simulators `1` of `B` and `2` of `A` at time `0`, the bag of `A` holding an internal event,
an external event and a request from `B`. -/
def echoState : Coordinator Nat :=
  { mCurrentTime := 0
    mModelList := [(2, 2), (3, 1)]
    mDeletedSimulator := []
    mToDelete := 0
    mEventTable := ⟨[], [], ⟨[(2, ⟨some ⟨0, 2⟩, [⟨"in", [("n", "0")], false, 1, 2⟩],
      [⟨"in", [("n", "1")], true, 1, 2⟩]⟩)], []⟩, 0⟩
    mViewList := []
    graph := echoGraph
    simulators := fun x => if x = 1 then some ⟨0, 3⟩ else if x = 2 then some ⟨1, 2⟩ else none
    nextSim := 3
    trace := [] }

/-- `drainBag_exact` on `echoState`: the drain of the bag of `A`, which runs the confluence, the
internal, external and request paths, and then the external path on the reply `A` routed to
itself; it deletes nothing, so every event went through one callback.  And its first turn, which
finds an internal event pending. -/
theorem drainBag_exact_echoState :
    (∃ s' Δ, drainBag echo 6 2 echoState = .ok s' ∧ Exact echo 2 echoState Δ s' ∧ deletedSims Δ = [] ∧
      internalCalls 2 Δ = [⟨0, 2⟩] ∧
      externalCalls 2 Δ = (echoState.bag 2).externals ++ externalsTo 2 Δ ∧
      requestCalls 2 Δ = (echoState.bag 2).requests ++ requestsTo 2 Δ) ∧
    ∃ s', bagStep echo 5 2 echoState = .ok s' ∧
      ∃ Δ, s'.trace = echoState.trace ++ Δ ∧ requestCalls 2 Δ = [] := by
  obtain ⟨Δ, hE, heq⟩ := (drainBag_exact echo 2).1 (rfl : drainBag echo 6 2 echoState = _)
  have hnil : deletedSims Δ = [] := by
    have ht := hE.trace
    change _ = [] ++ Δ at ht
    rw [List.nil_append] at ht
    rw [← ht]
    decide
  obtain ⟨hi, hx, hr⟩ := heq fun x hx => by simp [hnil] at hx
  exact ⟨⟨_, Δ, rfl, hE, hnil, by rw [hi]; rfl, hx, hr⟩,
    _, rfl, (drainBag_exact echo 2).2 (rfl : bagStep echo 5 2 echoState = _) (.inl (by decide))⟩

/-- **A reply waits while requests are answered, and a deletion drops events.**  One instant from
the start, with `B` and `A`: `B` sends two requests to `A`; the reply to the first is routed back
into the bag of `A` as an external event, and `A` answers the second request while that event is
pending.  With the self-deleting `A` instead, `A` deletes itself in its internal transition while
the two requests of `B` are in its bag, and they are never answered. -/
theorem reply_waits_and_deletion_drops :
    ((new [] echoGraph : Coordinator Nat).init echo 0 [(3, 0), (2, 1)] >>= run echo 8 >>=
      fun s => .ok s.trace) =
      .ok [.put (.internal ⟨0, 1⟩), .call 1 .output,
        .put (.request ⟨"in", [("n", "1")], true, 1, 2⟩), .put (.request ⟨"in", [("n", "2")], true, 1, 2⟩),
        .call 1 (.internal ⟨0, 1⟩),
        .call 2 (.request ⟨"in", [("n", "1")], true, 1, 2⟩), .put (.external ⟨"in", [("n", "1")], false, 2, 2⟩),
        .call 2 (.request ⟨"in", [("n", "2")], true, 1, 2⟩), .put (.external ⟨"in", [("n", "2")], false, 2, 2⟩),
        .call 2 (.external [⟨"in", [("n", "1")], false, 2, 2⟩, ⟨"in", [("n", "2")], false, 2, 2⟩])] ∧
    ((new [] echoGraph : Coordinator Nat).init echo 0 [(3, 0), (2, 2)] >>= run echo 8 >>=
      fun s => .ok s.trace) =
      .ok [.put (.internal ⟨0, 1⟩), .put (.internal ⟨0, 2⟩), .call 1 .output,
        .put (.request ⟨"in", [("n", "1")], true, 1, 2⟩), .put (.request ⟨"in", [("n", "2")], true, 1, 2⟩),
        .call 1 (.internal ⟨0, 1⟩), .call 2 .output, .call 2 (.internal ⟨0, 2⟩), .deleted 2] :=
  ⟨by decide, by decide⟩


end Coordinator

end Vle
