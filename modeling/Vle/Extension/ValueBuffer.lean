import Mathlib.Algebra.Order.Field.Rat
import Mathlib.Data.List.Chain
import Mathlib.Data.List.Sort
import Mathlib.Tactic.Linarith
import Vle.Utils.Outcome

/-!
# The value buffer of a delayed differential equation

A bufferized `DifferentialEquation` keeps the values its variable took in a
`std::deque<std::pair<Time, double>>`: `pushValue` adds the newest sample at the front, and once
the simulated time has run past the window `mSize * mDelay`, it trims the back.  The trimming loop
pops old samples while they are older than `now - mSize * mDelay`, and then pushes the last one it
popped back again, so that the sample in force at the start of the window is kept.

A deque is listed here from `back()` to `front()`, which is the order of the pushes.  Times and
values, `double`s in the source, are exact rationals.

* `popOlder`, `trim`, `pushSample` — the loop and the buffer part of `pushValue`.
* `trim_eq` — what the loop computes: the samples from the first one inside the window on,
  behind the last sample popped.
* `KeepsWindow` — the buffer is a suffix of the history of pushes, and either the whole history
  or it starts before the window; `KeepsWindow.push` — every push keeps it.
* `lookup_eq_of_keepsWindow` — from it, a sample-and-hold lookup at any target inside the window
  reads the same sample on the buffer as on the whole history.
-/

namespace Vle

/-- A sample `(time, value)`. -/
abbrev Sample := ℚ × ℚ

/-- `valueBuffer`, a deque of samples, listed from `back()` (oldest) to `front()` (newest). -/
abbrev ValueBuffer := List Sample

namespace ValueBuffer

/-! ## The buffer part of `pushValue` -/

/-- `back().second`; `back()` of an empty deque is undefined. -/
def back : ValueBuffer → Outcome ℚ
  | [] => .undefined
  | s :: _ => .ok s.2

/-- The trimming loop `while (back().first < last) { value = back(); pop_back(); }`: what is
left, and the last sample popped if any. -/
def popOlder (last : ℚ) : ValueBuffer → Option Sample → Outcome (ValueBuffer × Option Sample)
  | [], _ => .undefined
  | s :: rest, removed => if s.1 < last then popOlder last rest (some s) else .ok (s :: rest, removed)

/-- The loop followed by `if (remove) push_back(value)`. -/
def trim (last : ℚ) (b : ValueBuffer) : Outcome ValueBuffer :=
  popOlder last b none >>= fun r => .ok (r.2.toList ++ r.1)

/-- The buffer part of `pushValue(now, value)`, shared with `pushExternalValue`: push the sample
at the front, and once the window `mSize * mDelay` has been reached, trim the back to it. -/
def pushSample (mSize : ℤ) (mDelay mStartTime : ℚ) (b : ValueBuffer) (now v : ℚ) :
    Outcome ValueBuffer :=
  if mSize < 0 ∨ now - mStartTime < mSize * mDelay then .ok (b ++ [(now, v)])
  else trim (now - mSize * mDelay) (b ++ [(now, v)])

/-- `pushSample` for each sample in turn. -/
def pushSamples (mSize : ℤ) (mDelay mStartTime : ℚ) (b : ValueBuffer) :
    List Sample → Outcome ValueBuffer
  | [] => .ok b
  | s :: rest =>
    pushSample mSize mDelay mStartTime b s.1 s.2 >>= fun b => pushSamples mSize mDelay mStartTime b rest

/-- The samples the trimming loop pops. -/
abbrev Older (last : ℚ) : Sample → Bool := fun s => decide (s.1 < last)

/-- **What the trimming loop computes**, as long as some sample is not older than `last`: the
samples from the first such one on, and the last sample popped. -/
lemma popOlder_eq {last : ℚ} {b : ValueBuffer} (h : ∃ s ∈ b, ¬ s.1 < last) (r : Option Sample) :
    popOlder last b r =
      .ok (b.dropWhile (Older last), ((b.takeWhile (Older last)).getLast?).or r) := by
  induction b generalizing r with
  | nil => simp at h
  | cons s rest ih =>
    by_cases hs : s.1 < last
    · have hrest : ∃ s' ∈ rest, ¬ s'.1 < last := by
        obtain ⟨s', hs', hlt⟩ := h
        exact ⟨s', (List.mem_cons.1 hs').resolve_left (by rintro rfl; exact hlt hs), hlt⟩
      cases htw : (rest.takeWhile (Older last)).getLast? <;>
        simp [popOlder, hs, ih hrest, htw, List.takeWhile_cons, List.dropWhile_cons,
          List.getLast?_cons]
    · simp [popOlder, hs]

lemma trim_eq {last : ℚ} {b : ValueBuffer} (h : ∃ s ∈ b, ¬ s.1 < last) :
    trim last b = .ok ((b.takeWhile (Older last)).getLast?.toList ++ b.dropWhile (Older last)) := by
  simp [trim, popOlder_eq h]

/-- The trimmed buffer is a suffix of the buffer: the last sample popped is the one right before
the first sample kept. -/
lemma trimmed_suffix (last : ℚ) (b : ValueBuffer) :
    (b.takeWhile (Older last)).getLast?.toList ++ b.dropWhile (Older last) <:+ b := by
  conv_rhs => rw [← List.takeWhile_append_dropWhile (Older last) b]
  rcases List.eq_nil_or_concat (b.takeWhile (Older last)) with h | ⟨l, a, h⟩
  · simp [h]
  · rw [h, List.concat_eq_append, List.getLast?_concat, List.append_assoc]
    exact List.suffix_append _ _

/-- With a window that is not negative the trimming loop stops at the sample just pushed, so a
push always completes. -/
lemma exists_pushSample_eq_ok {mSize : ℤ} {mDelay : ℚ} (hw : 0 ≤ (mSize : ℚ) * mDelay)
    (start : ℚ) (b : ValueBuffer) (now v : ℚ) :
    ∃ b', pushSample mSize mDelay start b now v = .ok b' := by
  unfold pushSample
  split_ifs
  · exact ⟨_, rfl⟩
  · exact ⟨_, trim_eq ⟨(now, v), by simp, by simp; linarith⟩⟩

/-! ## The window invariant -/

/-- What the buffer `b` keeps of the history `h` of pushes, the latest at time `now`, for the
window `w`: a suffix of `h`, which is the whole of `h` or starts before `now - w`. -/
structure KeepsWindow (w now : ℚ) (h b : List Sample) : Prop where
  suffix : b <:+ h
  whole_or_anchored : b = h ∨ ∃ s ∈ b.head?, s.1 < now - w

lemma KeepsWindow.nil (w now : ℚ) : KeepsWindow w now [] [] :=
  ⟨List.suffix_refl _, .inl rfl⟩

lemma suffix_push {b h : List Sample} (hs : b <:+ h) (x : Sample) : b ++ [x] <:+ h ++ [x] := by
  obtain ⟨p, rfl⟩ := hs
  exact ⟨p, by simp⟩

/-- An untrimmed push keeps the invariant. -/
lemma KeepsWindow.append {w now now' : ℚ} {h b : List Sample} (hk : KeepsWindow w now h b)
    (hle : now ≤ now') (v : ℚ) :
    KeepsWindow w now' (h ++ [(now', v)]) (b ++ [(now', v)]) := by
  refine ⟨suffix_push hk.suffix _, ?_⟩
  rcases hk.whole_or_anchored with rfl | ⟨s, hs, hlt⟩
  · exact .inl rfl
  · refine .inr ⟨s, ?_, by linarith⟩
    rw [List.head?_append, Option.mem_def.1 hs]
    rfl

/-- **Every push keeps the invariant**, for a window `w = mSize * mDelay` that is not negative and
pushes at non-decreasing times: the trimming loop pops exactly the samples before the window, and
the one it pushes back starts the buffer before the window. -/
lemma KeepsWindow.push {mSize : ℤ} {mDelay start now now' v : ℚ} {h b b' : List Sample}
    (hw : 0 ≤ (mSize : ℚ) * mDelay) (hk : KeepsWindow (mSize * mDelay) now h b) (hle : now ≤ now')
    (hpush : pushSample mSize mDelay start b now' v = .ok b') :
    KeepsWindow (mSize * mDelay) now' (h ++ [(now', v)]) b' := by
  unfold pushSample at hpush
  split_ifs at hpush with hfull
  · cases hpush; exact hk.append hle v
  have hnew : ∃ s ∈ b ++ [(now', v)], ¬ s.1 < now' - mSize * mDelay :=
    ⟨(now', v), by simp, by simp; linarith⟩
  rw [trim_eq hnew] at hpush
  cases hpush
  have hsuf := (trimmed_suffix (now' - mSize * mDelay) (b ++ [(now', v)])).trans
    (suffix_push hk.suffix _)
  refine ⟨hsuf, ?_⟩
  rcases hlast : ((b ++ [(now', v)]).takeWhile (Older (now' - mSize * mDelay))).getLast? with
    _ | a
  · -- nothing popped: the buffer did not start before the new window, so it was the history
    rw [List.getLast?_eq_none_iff] at hlast
    rcases (hk.append hle v).whole_or_anchored with heq | ⟨s, hs, hlt⟩
    · left
      have hkeep := List.takeWhile_append_dropWhile (Older (now' - mSize * mDelay)) (b ++ [(now', v)])
      rw [hlast, List.nil_append] at hkeep
      rw [Option.toList_none, List.nil_append, hkeep, heq]
    · exfalso
      obtain ⟨c, rest, hc⟩ := List.exists_cons_of_ne_nil (by simp : b ++ [(now', v)] ≠ [])
      rw [hc, List.head?_cons, Option.mem_def, Option.some_inj] at hs
      subst hs
      have hold : Older (now' - mSize * mDelay) c = true := by simpa [Older] using hlt
      simp [hc, List.takeWhile_cons, hold] at hlast
  · -- the last sample popped now starts the buffer, before the window
    right
    refine ⟨a, by simp, ?_⟩
    have ha := List.mem_takeWhile_imp (List.mem_of_getLast?_eq_some hlast)
    simpa [Older] using ha

/-- **A whole run of pushes at non-decreasing times completes and keeps the invariant.** -/
lemma KeepsWindow.pushSamples {mSize : ℤ} {mDelay : ℚ} (start : ℚ) (hw : 0 ≤ (mSize : ℚ) * mDelay) :
    ∀ (l : List Sample) {now : ℚ} {h b : List Sample}, KeepsWindow (mSize * mDelay) now h b →
      (now :: l.map Prod.fst).Chain' (· ≤ ·) →
      ∃ b', pushSamples mSize mDelay start b l = .ok b' ∧
        KeepsWindow (mSize * mDelay) ((now :: l.map Prod.fst).getLast (List.cons_ne_nil _ _)) (h ++ l)
          b'
  | [], _, _, _, hk, _ => ⟨_, rfl, by simpa using hk⟩
  | s :: rest, now, h, b, hk, hchain => by
    obtain ⟨hle, hrest⟩ := List.chain'_cons.1 hchain
    obtain ⟨b₁, hb₁⟩ := exists_pushSample_eq_ok hw start b s.1 s.2
    obtain ⟨b', hb', hk'⟩ := KeepsWindow.pushSamples start hw rest (hk.push hw hle hb₁) hrest
    refine ⟨b', by simp [ValueBuffer.pushSamples, hb₁, hb'], ?_⟩
    simpa [List.getLast_cons] using hk'

/-- The buffer ends with the latest push. -/
lemma KeepsWindow.getLast? {w now : ℚ} {h b : List Sample} (hk : KeepsWindow w now h b)
    (hh : h ≠ []) : b.getLast? = h.getLast? := by
  rcases hk.whole_or_anchored with rfl | ⟨s, hs, -⟩
  · rfl
  · have hb : b ≠ [] := by rintro rfl; simp at hs
    rw [List.getLast?_eq_getLast b hb, List.getLast?_eq_getLast h hh, hk.suffix.getLast hb]

/-! ## Sample-and-hold lookups -/

/-- Sample-and-hold: the most recently pushed sample at or before `t`. -/
def lookup (b : List Sample) (t : ℚ) : Option Sample :=
  (b.filter fun s => decide (s.1 ≤ t)).getLast?

/-- A lookup on a suffix reads the same sample as on the whole list, as soon as the suffix holds
some sample at or before the target. -/
lemma lookup_suffix {b h : List Sample} {t : ℚ} (hs : b <:+ h) (hb : ∃ s ∈ b, s.1 ≤ t) :
    lookup b t = lookup h t := by
  obtain ⟨p, rfl⟩ := hs
  obtain ⟨s, hsb, hst⟩ := hb
  have hne : b.filter (fun s => decide (s.1 ≤ t)) ≠ [] :=
    List.ne_nil_of_mem (List.mem_filter.2 ⟨hsb, by simpa using hst⟩)
  obtain ⟨x, hx⟩ := Option.isSome_iff_exists.1 (List.getLast?_isSome.2 hne)
  simp [lookup, List.getLast?_append, hx]

/-- **Inside the window the buffer loses nothing**: a lookup at any target `t` no earlier than
`now - w` reads the same sample on the buffer as on the whole history. -/
lemma lookup_eq_of_keepsWindow {w now t : ℚ} {h b : List Sample} (hk : KeepsWindow w now h b)
    (ht : now - w ≤ t) : lookup b t = lookup h t := by
  rcases hk.whole_or_anchored with rfl | ⟨s, hs, hlt⟩
  · rfl
  · exact lookup_suffix hk.suffix ⟨s, List.mem_of_mem_head? hs, by linarith⟩

/-- What a buffer `b` filled by the pushes `h`, the latest at `now`, shows for the window `w`:
it is in time order, it ends with the latest push, and inside the window every sample-and-hold
lookup reads on it what it reads on the whole history. -/
structure KeepsHistory (w now : ℚ) (h b : List Sample) : Prop where
  sorted : b.Sorted fun x y => x.1 ≤ y.1
  latest : b.getLast? = h.getLast?
  lookup_eq : ∀ t, now - w ≤ t → lookup b t = lookup h t

lemma KeepsWindow.keepsHistory {w now : ℚ} {h b : List Sample} (hk : KeepsWindow w now h b)
    (hh : h ≠ []) (hsorted : (h.map Prod.fst).Chain' (· ≤ ·)) : KeepsHistory w now h b where
  sorted := by
    haveI : IsTrans Sample fun x y => x.1 ≤ y.1 := ⟨fun _ _ _ => le_trans⟩
    rw [List.chain'_map, List.chain'_iff_pairwise] at hsorted
    exact hsorted.sublist hk.suffix.sublist
  latest := hk.getLast? hh
  lookup_eq _ ht := lookup_eq_of_keepsWindow hk ht

/-- **Pushes at non-decreasing times into an empty buffer** complete, and the buffer keeps the
history inside the window. -/
lemma keepsHistory_pushSamples {mSize : ℤ} {mDelay : ℚ} (start : ℚ) (hw : 0 ≤ (mSize : ℚ) * mDelay)
    (s : Sample) (l : List Sample) (hmono : (s.1 :: l.map Prod.fst).Chain' (· ≤ ·)) :
    ∃ b, pushSamples mSize mDelay start [] (s :: l) = .ok b ∧
      KeepsHistory (mSize * mDelay) ((s.1 :: l.map Prod.fst).getLast (List.cons_ne_nil _ _))
        (s :: l) b := by
  obtain ⟨b, hb, hk⟩ := KeepsWindow.pushSamples start hw (s :: l) (KeepsWindow.nil _ s.1)
    (List.Chain'.cons (le_refl _) hmono)
  refine ⟨b, hb, ?_⟩
  simpa [List.getLast_cons] using hk.keepsHistory (List.cons_ne_nil _ _) hmono

end ValueBuffer

end Vle
