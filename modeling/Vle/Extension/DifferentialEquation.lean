import Vle.Extension.ValueBuffer

/-!
# Delayed values of a differential equation

`extension::DifferentialEquation` answers `getValue(now, delay)`, the value its variable had
`delay` ago, from the buffer that `init` and `pushValue` fill (and `getValue(name, now, delay)`
likewise for an external variable, from the buffer `pushExternalValue` fills).  With a bounded
buffer (`mSize > 0`) the delay counts in steps of `mDelay`, and the buffer is walked from the
oldest sample; without one (`mSize < 0`) the delay is a time, and the buffer is walked from the
newest sample.  Both walks are one loop, `scan`, with the comparison as parameter.

* `scan_eq` — what the loop returns when it stops inside the buffer; `scan_undefined` — it reads
  past the end when every sample is passed.
* **`getValue_reads_past_newest`** — with a bounded buffer, a target later than the newest sample
  makes the walk dereference `rend()`.
* **`getValue_unbounded_holds_next`** — without a bound, a target between two samples gets the
  value of the later one.
* **`trim_keeps_window`** — a bounded buffer filled by pushes at non-decreasing times is sorted,
  holds the latest push at the front, and answers every sample-and-hold lookup inside the window
  as the whole history would.
-/

namespace Vle

/-- The fields of `extension::DifferentialEquation` that its buffer code reads and writes.  The
`std::map`s are association lists. -/
structure DifferentialEquation where
  mInitialValue : ℚ
  mBuffer : Bool
  mDelay : ℚ
  mSize : ℤ
  mStartTime : ℚ
  mValue : ℚ
  mValueBuffer : ValueBuffer
  mExternalVariableValue : List (String × ℚ)
  mExternalValueBuffer : List (String × ValueBuffer)
  deriving DecidableEq, Repr

namespace DifferentialEquation

open ValueBuffer

/-! ## Construction and pushing values -/

/-- The state the constructor leaves for the init events `value`, `bufferized`, `delay` and
`size`: a given `size` must be positive (`Assert`), a missing one leaves the buffer unbounded
(`mSize = -1`).  The start time and the current value are set later, by `init`. -/
def create (value : ℚ) (bufferized : Bool) (delay : ℚ) (size : Option ℤ) :
    Outcome DifferentialEquation :=
  let de : DifferentialEquation := ⟨value, bufferized, delay, -1, 0, 0, [], [], []⟩
  match size with
  | none => .ok de
  | some n => if 0 < n then .ok { de with mSize := n }
    else .raise ("DifferentialEquation: invalid size: " ++ toString n)

/-- `m[name] = v` on a `std::map` kept as an association list. -/
def assign {α : Type} (m : List (String × α)) (name : String) (v : α) : List (String × α) :=
  (name, v) :: m.filter (fun p => p.1 ≠ name)

/-- `m.at(name)`, which throws `std::out_of_range` for a missing key. -/
def mapAt {α : Type} (m : List (String × α)) (name : String) : Outcome α :=
  match m.lookup name with
  | some v => .ok v
  | none => .raise "map::at"

/-- `pushValue(now, value)`. -/
def pushValue (de : DifferentialEquation) (now value : ℚ) : Outcome DifferentialEquation :=
  if de.mBuffer then
    pushSample de.mSize de.mDelay de.mStartTime de.mValueBuffer now value >>= fun b =>
      .ok { de with mValue := value, mValueBuffer := b }
  else .ok { de with mValue := value }

/-- `getValue(name)`, the current value of the external variable `name`: an accessor of the
header (not under `src/`), read here from `mExternalVariableValue`. -/
def externalValue (de : DifferentialEquation) (name : String) : Outcome ℚ :=
  mapAt de.mExternalVariableValue name

/-- `pushExternalValue(name, now, value)`: record the value, and push it into the buffer of
`name`. -/
def pushExternalValue (de : DifferentialEquation) (name : String) (now value : ℚ) :
    Outcome DifferentialEquation :=
  let de := { de with mExternalVariableValue := assign de.mExternalVariableValue name value }
  if de.mBuffer then do
    let b ← mapAt de.mExternalValueBuffer name
    let v ← de.externalValue name
    let b' ← pushSample de.mSize de.mDelay de.mStartTime b now v
    .ok { de with mExternalValueBuffer := assign de.mExternalValueBuffer name b' }
  else .ok de

/-- `init(time)`: record the start time and push the initial value; the time advance is `0`.
(`init` also resets the integration state, which nothing here reads.) -/
def init (de : DifferentialEquation) (time : ℚ) : Outcome (DifferentialEquation × ℚ) :=
  { de with mStartTime := time }.pushValue time de.mInitialValue >>= fun de => .ok (de, 0)

/-- `pushValue` for each sample in turn. -/
def pushValues (de : DifferentialEquation) : List Sample → Outcome DifferentialEquation
  | [] => .ok de
  | s :: rest => de.pushValue s.1 s.2 >>= fun de => pushValues de rest

/-- `pushExternalValue(name, ·, ·)` for each sample in turn. -/
def pushExternalValues (de : DifferentialEquation) (name : String) :
    List Sample → Outcome DifferentialEquation
  | [] => .ok de
  | s :: rest => de.pushExternalValue name s.1 s.2 >>= fun de => pushExternalValues de name rest

/-- The fresh buffer `externalTransition` makes in state `POST_INIT` before the first
`pushExternalValue`: `mExternalValueBuffer[name] = valueBuffer()`. -/
def newExternalBuffer (de : DifferentialEquation) (name : String) : DifferentialEquation :=
  { de with mExternalValueBuffer := assign de.mExternalValueBuffer name [] }

/-! ## Reading delayed values -/

/-- The loop of both delayed branches of `getValue`:
`while (it != end and past(it->first)) { value = it->second; ++it; }`, then
`it->first == time ? it->second : value`.  At the end of the buffer `it->first` is undefined. -/
def scan (past : ℚ → Bool) (time value : ℚ) : List Sample → Outcome ℚ
  | [] => .undefined
  | s :: rest => if past s.1 then scan past time s.2 rest else if s.1 = time then .ok s.2 else .ok value

/-- The loop started at the first sample, with `value = it->second`. -/
def scanFrom (past : ℚ → Bool) (time : ℚ) : List Sample → Outcome ℚ
  | [] => .undefined
  | s :: rest => scan past time s.2 (s :: rest)

/-- The delayed branches shared by both `getValue` overloads, on the buffer `buf`: with a bound,
walk from `rbegin()` towards the target `now + delay * mDelay`; without one, walk from `begin()`
towards `now + delay`.  A target before the start time reads `back()`. -/
def delayedValue (mSize : ℤ) (mDelay mStartTime : ℚ) (buf : ValueBuffer) (now delay : ℚ) :
    Outcome ℚ :=
  if 0 < mSize then
    if now - mStartTime < -delay * mDelay then back buf
    else scanFrom (fun t => decide (t < now + delay * mDelay)) (now + delay * mDelay) buf
  else
    if now - mStartTime < -delay then back buf
    else scanFrom (fun t => decide (now + delay < t)) (now + delay) buf.reverse

/-- The text of the `Assert` both `getValue` overloads make on `delay`. -/
def invalidDelay (delay : ℚ) : String := "DifferentialEquation: invalid delay: " ++ toString delay

/-- `getValue(now, delay)`. -/
def getValue (de : DifferentialEquation) (now delay : ℚ) : Outcome ℚ :=
  if delay ≤ 0 ∧ (de.mSize < 0 ∨ -delay ≤ de.mSize) then
    if delay = 0 then .ok de.mValue
    else delayedValue de.mSize de.mDelay de.mStartTime de.mValueBuffer now delay
  else .raise (invalidDelay delay)

/-- `getValue(name, now, delay)`, on the buffer of the external variable `name`. -/
def getValueOf (de : DifferentialEquation) (name : String) (now delay : ℚ) : Outcome ℚ :=
  if delay ≤ 0 ∧ (de.mSize < 0 ∨ -delay ≤ de.mSize) then
    if delay = 0 then de.externalValue name
    else mapAt de.mExternalValueBuffer name >>= fun buf =>
      delayedValue de.mSize de.mDelay de.mStartTime buf now delay
  else .raise (invalidDelay delay)

/-! ## The pushes refine the buffer runs -/

@[simp] lemma mapAt_assign {α : Type} (m : List (String × α)) (name : String) (v : α) :
    mapAt (assign m name v) name = .ok v := by
  simp [mapAt, assign, List.lookup_cons]

/-- A run of `pushValue` does to the value buffer what the run of its buffer part does. -/
lemma pushValues_buffer {de : DifferentialEquation} (hb : de.mBuffer = true) (l : List Sample) :
    (de.pushValues l >>= fun d => .ok d.mValueBuffer) =
      pushSamples de.mSize de.mDelay de.mStartTime de.mValueBuffer l := by
  induction l generalizing de with
  | nil => rfl
  | cons s rest ih =>
    simp only [pushValues, pushValue, hb, if_true, pushSamples, Outcome.bind_assoc]
    cases pushSample de.mSize de.mDelay de.mStartTime de.mValueBuffer s.1 s.2 with
    | ok b' => exact ih rfl
    | raise m => rfl
    | undefined => rfl
    | outOfFuel => rfl

/-- A run of `pushExternalValue` does to the buffer of its variable what the run of the buffer
part does. -/
lemma pushExternalValues_buffer {de : DifferentialEquation} (hb : de.mBuffer = true)
    {name : String} {b : ValueBuffer} (hname : mapAt de.mExternalValueBuffer name = .ok b)
    (l : List Sample) :
    (de.pushExternalValues name l >>= fun d => mapAt d.mExternalValueBuffer name) =
      pushSamples de.mSize de.mDelay de.mStartTime b l := by
  induction l generalizing de b with
  | nil => simpa [pushExternalValues] using hname
  | cons s rest ih =>
    simp only [pushExternalValues, pushExternalValue, hb, if_true, externalValue, hname,
      mapAt_assign, pushSamples, Outcome.bind_assoc, Outcome.ok_bind]
    cases pushSample de.mSize de.mDelay de.mStartTime b s.1 s.2 with
    | ok b' => exact ih rfl (mapAt_assign _ _ _)
    | raise m => rfl
    | undefined => rfl
    | outOfFuel => rfl

/-! ## What the delayed branches read -/

/-- The loop dereferences the end of the buffer when it passes every sample. -/
lemma scan_undefined {past : ℚ → Bool} {time : ℚ} :
    ∀ {l : List Sample} (v : ℚ), (∀ s ∈ l, past s.1) → scan past time v l = .undefined
  | [], _, _ => rfl
  | s :: rest, _, h => by
    rw [scan, if_pos (h s (List.mem_cons_self _ _))]
    exact scan_undefined _ fun x hx => h x (List.mem_cons_of_mem _ hx)

/-- **What the loop returns when it stops inside the buffer**, at the first sample `s` it does
not pass: `s` if it is at the target, and otherwise the last sample passed (the value it started
with if none was). -/
lemma scan_eq {past : ℚ → Bool} {time : ℚ} {s : Sample} {post : List Sample} (hs : past s.1 = false) :
    ∀ {pre : List Sample} (v : ℚ), (∀ x ∈ pre, past x.1) →
      scan past time v (pre ++ s :: post) =
        .ok (if s.1 = time then s.2 else (pre.getLast?.map Prod.snd).getD v)
  | [], v, _ => by
    simp only [List.nil_append, scan, hs, Bool.false_eq_true, if_false]
    split <;> rfl
  | x :: pre, v, h => by
    rw [List.cons_append, scan, if_pos (h x (List.mem_cons_self _ _)),
      scan_eq hs x.2 fun y hy => h y (List.mem_cons_of_mem _ hy)]
    cases hl : pre.getLast? <;> simp [List.getLast?_cons, hl]

/-- The delayed branches are reached once the assertion holds, the delay is not zero and the
target is not before the start time. -/
lemma getValue_eq_delayedValue {de : DifferentialEquation} {now delay : ℚ} (hdelay : delay < 0)
    (hadm : de.mSize < 0 ∨ -delay ≤ de.mSize) :
    de.getValue now delay =
      delayedValue de.mSize de.mDelay de.mStartTime de.mValueBuffer now delay := by
  simp [getValue, hdelay.le, hadm, hdelay.ne]

/-- **The bounded branch.**  Walking from the oldest sample towards the target
`T = now + delay * mDelay`, with `s` the first sample not before `T`: `s` if it is at `T`, and
otherwise the last sample before `T`. -/
theorem getValue_bounded_eq {de : DifferentialEquation} {now delay : ℚ} {pre post : List Sample}
    {s : Sample} (hsize : 0 < de.mSize) (hdelay : delay < 0) (hadm : -delay ≤ de.mSize)
    (hstart : -delay * de.mDelay ≤ now - de.mStartTime) (hbuf : de.mValueBuffer = pre ++ s :: post)
    (hpre : ∀ x ∈ pre, x.1 < now + delay * de.mDelay) (hs : now + delay * de.mDelay ≤ s.1) :
    de.getValue now delay =
      .ok (if s.1 = now + delay * de.mDelay then s.2 else (pre.getLast?.map Prod.snd).getD s.2) := by
  rw [getValue_eq_delayedValue hdelay (.inr hadm), delayedValue, if_pos hsize,
    if_neg (not_lt.2 hstart), hbuf]
  have hs' : decide (s.1 < now + delay * de.mDelay) = false := by simpa using hs
  cases pre with
  | nil => simp [scanFrom, scan, hs']
  | cons x pre =>
    rw [List.cons_append, scanFrom, ← List.cons_append,
      scan_eq hs' x.2 fun y hy => by simpa using hpre y hy]
    simp [List.getLast?_cons]

/-- **Bounded buffer, target later than the newest sample: `getValue` dereferences `rend()`.** -/
theorem getValue_reads_past_newest {de : DifferentialEquation} {now delay : ℚ}
    (hsize : 0 < de.mSize) (hdelay : delay < 0) (hadm : -delay ≤ de.mSize)
    (hstart : -delay * de.mDelay ≤ now - de.mStartTime)
    (hpast : ∀ s ∈ de.mValueBuffer, s.1 < now + delay * de.mDelay) :
    de.getValue now delay = .undefined := by
  rw [getValue_eq_delayedValue hdelay (.inr hadm), delayedValue, if_pos hsize,
    if_neg (not_lt.2 hstart)]
  cases h : de.mValueBuffer with
  | nil => rfl
  | cons x rest =>
    rw [h] at hpast
    exact scan_undefined _ fun y hy => by simpa using hpast y hy

/-- A buffer of size 1 and step 1, started at time 0 and not pushed since: at time 2 the value
one step back lies after the only sample, and the walk reads past it. -/
theorem getValue_undefined_after_init :
    (create 0 true 1 (some 1) >>= fun de => de.init 0 >>= fun r => r.1.getValue 2 (-1)) =
      .undefined := by
  with_unfolding_all rfl

/-- **The unbounded branch.**  Walking from the newest sample towards the target
`T = now + delay`, with `s` the newest sample not after `T`: `s` if it is at `T`, and otherwise
the oldest sample after `T`. -/
theorem getValue_unbounded_eq {de : DifferentialEquation} {now delay : ℚ} {pre post : List Sample}
    {s : Sample} (hsize : de.mSize < 0) (hdelay : delay < 0)
    (hstart : -delay ≤ now - de.mStartTime) (hbuf : de.mValueBuffer = pre ++ s :: post)
    (hpost : ∀ x ∈ post, now + delay < x.1) (hs : s.1 ≤ now + delay) :
    de.getValue now delay =
      .ok (if s.1 = now + delay then s.2 else (post.head?.map Prod.snd).getD s.2) := by
  rw [getValue_eq_delayedValue hdelay (.inl hsize), delayedValue, if_neg (not_lt.2 hsize.le),
    if_neg (not_lt.2 hstart), hbuf]
  have hs' : decide (now + delay < s.1) = false := by simpa using hs
  rw [List.reverse_append, List.reverse_cons, List.append_assoc, List.singleton_append]
  cases hp : post.reverse with
  | nil =>
    rw [List.reverse_eq_nil_iff] at hp
    simp [hp, scanFrom, scan, hs']
  | cons x rest =>
    rw [List.cons_append, scanFrom, ← List.cons_append,
      scan_eq hs' x.2 fun y hy => by simpa using hpost y (by simpa [← hp] using hy)]
    rw [← List.getLast?_reverse, hp]
    simp [List.getLast?_cons]

/-- Without a bound, samples at times 0 and 2 and the value one time unit before 2: the walk
returns the sample at 2, where the sample in force at time 1 is the one at 0. -/
theorem getValue_unbounded_reads_next :
    (create 0 true 1 none >>= fun de => de.init 0 >>= fun r => r.1.pushValue 2 5 >>=
      fun de => de.getValue 2 (-1)) = .ok 5 ∧
    ValueBuffer.lookup [(0, 0), (2, 5)] 1 = some (0, 0) := by
  constructor
  · with_unfolding_all rfl
  · decide

/-! ## Trimming keeps the window -/

/-- **Trimming the bounded buffer loses nothing inside the window.**  A bufferized equation with
`size > 0` and step `delay > 0`, started by `init` at `start` and pushed at non-decreasing times:
every push completes, and the buffer is in time order, ends with the latest push (its front), and
answers every sample-and-hold lookup at a target no earlier than `now - mSize * mDelay`, `now`
the time of the latest push, as the whole history of pushes would.  The same holds of the buffer
of an external variable, from the push that creates it. -/
theorem trim_keeps_window (value delay start : ℚ) (size : ℤ) (pushes : List Sample)
    (hsize : 0 < size) (hdelay : 0 < delay)
    (hmono : (start :: pushes.map Prod.fst).Chain' (· ≤ ·)) :
    (∃ de b, create value true delay (some size) = .ok de ∧
      (de.init start >>= fun r => r.1.pushValues pushes >>= fun d => .ok d.mValueBuffer) = .ok b ∧
      KeepsHistory (size * delay) ((start :: pushes.map Prod.fst).getLast (List.cons_ne_nil _ _))
        ((start, value) :: pushes) b) ∧
    ∀ (de : DifferentialEquation) (name : String) (first : Sample) (more : List Sample),
      de.mBuffer = true → 0 < de.mSize → 0 < de.mDelay →
      (first.1 :: more.map Prod.fst).Chain' (· ≤ ·) →
      ∃ b, ((de.newExternalBuffer name).pushExternalValues name (first :: more) >>= fun d =>
          mapAt d.mExternalValueBuffer name) = .ok b ∧
        KeepsHistory (de.mSize * de.mDelay)
          ((first.1 :: more.map Prod.fst).getLast (List.cons_ne_nil _ _)) (first :: more) b := by
  constructor
  · have hw : (0 : ℚ) ≤ size * delay := by positivity
    obtain ⟨b, hb, hk⟩ := keepsHistory_pushSamples start hw (start, value) pushes hmono
    refine ⟨_, b, by simp [create, hsize]; rfl, ?_, hk⟩
    rw [← hb, ← @pushValues_buffer ⟨value, true, delay, size, start, 0, [], [], []⟩ rfl]
    simp [init, pushValues]
  · intro de name first more hbuf hsize' hdelay' hmono'
    have hw : (0 : ℚ) ≤ de.mSize * de.mDelay := by positivity
    obtain ⟨b, hb, hk⟩ := keepsHistory_pushSamples de.mStartTime hw first more hmono'
    refine ⟨b, ?_, hk⟩
    rw [← hb]
    exact @pushExternalValues_buffer (de.newExternalBuffer name) hbuf name [] (mapAt_assign _ _ _) _

/-- A window of two steps of 1, started at 0 and pushed at times 1 and 3: `trim_keeps_window`
applies, the push at 3 trimming the sample at 0. -/
theorem trim_keeps_window_at_three :
    (∃ de b, create 0 true 1 (some 2) = .ok de ∧
      (de.init 0 >>= fun r => r.1.pushValues [(1, 1), (3, 2)] >>= fun d => .ok d.mValueBuffer) =
        .ok b ∧
      KeepsHistory ((2 : ℤ) * (1 : ℚ))
        ((0 :: [((1 : ℚ), (1 : ℚ)), (3, 2)].map Prod.fst).getLast (List.cons_ne_nil _ _))
        ((0, 0) :: [(1, 1), (3, 2)]) b) ∧
    ∀ (de : DifferentialEquation) (name : String) (first : Sample) (more : List Sample),
      de.mBuffer = true → 0 < de.mSize → 0 < de.mDelay →
      (first.1 :: more.map Prod.fst).Chain' (· ≤ ·) →
      ∃ b, ((de.newExternalBuffer name).pushExternalValues name (first :: more) >>= fun d =>
          mapAt d.mExternalValueBuffer name) = .ok b ∧
        KeepsHistory (de.mSize * de.mDelay)
          ((first.1 :: more.map Prod.fst).getLast (List.cons_ne_nil _ _)) (first :: more) b :=
  trim_keeps_window 0 1 0 2 [(1, 1), (3, 2)] (by decide) zero_lt_one (by simp)

end DifferentialEquation

end Vle
