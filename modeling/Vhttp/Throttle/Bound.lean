import Vhttp.Lib.TokenBucket
import Vhttp.Throttle.Basic

/-!
# How fast the throttle forwards

The window is a token bucket, whose cap is one second's worth of data. The source caps each refill
and not the window, so that the window stays below the cap only if it is not refilled while there is
something left in it, or not up to the cap.

* `forwarded_le`: what is forwarded in an interval, in the runs in which the window is refilled so.
* `forwarded_after_idle`: a response whose chunks are small collects more than a second's worth.
-/

namespace Vhttp.Throttle

open TokenBucket (Bucket spentIn)

/-- The throttle as a bucket. -/
def State.bucket (s : State) : Bucket := ⟨s.windowAt, s.bytesLeft, s.forwarded⟩

/-- The clock does not go back, and the window is used up or what was earned since the last refill
fits. -/
def Fits (s : State) (now : ℕ) : Prop :=
  s.windowAt ≤ now ∧
    (s.bytesLeft ≤ 0 ∨
      s.bytesLeft + (s.bytesPerSec * (now - s.windowAt) / 1000 : ℕ) ≤ s.bytesPerSec)

/-- A call at which the window is refilled as a bucket is, with a chunk that a window can hold. -/
def Timely (s : State) : Event → Prop
  | .send now inbufs _ => Fits s now ∧ inbufs.sum ≤ 2 ^ 63
  | .timer now => Fits s now
  | .stop => True

instance (s : State) (now : ℕ) : Decidable (Fits s now) := by
  unfold Fits
  infer_instance

instance (s : State) (e : Event) : Decidable (Timely s e) := by
  cases e <;> unfold Timely <;> infer_instance

/-! ## Windows as machine integers -/

lemma bmod_le {x : ℤ} (h : -2 ^ 63 ≤ x) : x.bmod (2 ^ 64) ≤ x := by
  rw [Int.bmod_def]
  split <;> omega

lemma bmod_of_range {x : ℤ} (h : -2 ^ 63 ≤ x) (h' : x < 2 ^ 63) : x.bmod (2 ^ 64) = x := by
  rw [Int.bmod_def]
  split <;> omega

lemma bmod_range (x : ℤ) : -2 ^ 63 ≤ x.bmod (2 ^ 64) ∧ x.bmod (2 ^ 64) < 2 ^ 63 := by
  rw [Int.bmod_def]
  split <;> omega

/-- What holds of the state between two calls. -/
structure Sound (R : ℕ) (s : State) : Prop where
  rate : s.bytesPerSec = R
  range : -2 ^ 63 ≤ s.bytesLeft ∧ s.bytesLeft < 2 ^ 63
  chunk : s.bufs.sum ≤ 2 ^ 63

lemma Sound.refill {R : ℕ} {s : State} (h : Sound R s) (now : ℕ) : Sound R (refill s now) := by
  refine ⟨(refill_bytesPerSec s now).trans h.rate, ?_, ?_⟩
  · unfold Throttle.refill
    split
    · exact bmod_range _
    · exact h.range
  · rw [refill_bufs]
    exact h.chunk

lemma Sound.setTimer {R : ℕ} {s : State} (h : Sound R s) (timer : Option ℕ) :
    Sound R (s.setTimer timer) := ⟨h.rate, h.range, h.chunk⟩

lemma Sound.setChunk {R : ℕ} {s : State} (h : Sound R s) {bufs : List ℕ}
    (hb : bufs.sum ≤ 2 ^ 63) (state : SendState) : Sound R (s.setChunk bufs state) :=
  ⟨h.rate, h.range, hb⟩

lemma Sound.forward {R : ℕ} {s : State} (h : Sound R s) (now : ℕ) :
    Sound R (forward s now) := ⟨h.rate, bmod_range _, h.chunk⟩

/-! ## Steps of the bucket -/

section Steps

variable {R : ℕ} {s s' : State} {now : ℕ}

variable (h : Sound R s)
include h

/-- The refill is one the bucket can make. -/
lemma Sound.refill_step (ht : Fits s now) :
    TokenBucket.Step R 1000 R s.bucket (Throttle.refill s now).bucket := by
  obtain ⟨hn, ht⟩ := ht
  rw [h.rate] at ht
  have hf : (Throttle.refill s now).forwarded = s.forwarded := by
    unfold State.forwarded
    rw [refill_sent]
  have hb : (Throttle.refill s now).bucket =
      { s.bucket with now := now, credit := (Throttle.refill s now).bytesLeft } := by
    unfold State.bucket
    rw [hf, refill_windowAt hn]
  rw [hb]
  have hr := h.range
  by_cases hl : s.windowAt < now
  · -- what is earned is rounded down and may be cut
    have ha : R * (now - s.windowAt) % 2 ^ 64 / 1000 ≤ R * (now - s.windowAt) / 1000 := by
      apply Nat.div_le_div_right
      exact Nat.mod_le _ _
    have he : 1000 * (R * (now - s.windowAt) / 1000) ≤ R * (now - s.windowAt) :=
      Nat.mul_div_le _ _
    have hlf : (Throttle.refill s now).bytesLeft ≤
        s.bytesLeft + (min (R * (now - s.windowAt) % 2 ^ 64 / 1000) R : ℕ) := by
      unfold Throttle.refill
      rw [if_pos hl, h.rate]
      apply bmod_le
      omega
    generalize R * (now - s.windowAt) % 2 ^ 64 / 1000 = addition at ha hlf
    apply TokenBucket.Step.wait now _ hn
    · change 1000 * (Throttle.refill s now).bytesLeft ≤
        1000 * s.bytesLeft + (R : ℤ) * ((now - s.windowAt : ℕ) : ℤ)
      have hc : (R : ℤ) * ((now - s.windowAt : ℕ) : ℤ) = (R * (now - s.windowAt) : ℕ) := by
        push_cast
        rfl
      rw [hc]
      omega
    · omega
  · have hs : Throttle.refill s now = s := if_neg hl
    rw [hs]
    apply TokenBucket.Step.wait now _ hn
    · change (1000 : ℤ) * s.bytesLeft ≤ 1000 * s.bytesLeft + R * ((now - s.windowAt : ℕ) : ℤ)
      have hpos : (0 : ℤ) ≤ R * ((now - s.windowAt : ℕ) : ℤ) := by positivity
      omega
    · rcases ht with ht | ht <;> omega

/-- What is forwarded is spent. -/
lemma Sound.forward_step (hl : 0 ≤ s.bytesLeft) (hn : s.windowAt = now) :
    TokenBucket.Step R 1000 R s.bucket (Throttle.forward s now).bucket := by
  have hr := h.range
  have hc := h.chunk
  have hs : (Throttle.forward s now).bytesLeft = s.bytesLeft - s.bufs.sum := by
    apply bmod_of_range <;> omega
  have hb : (Throttle.forward s now).bucket =
      { s.bucket with
        credit := s.bucket.credit - s.bufs.sum
        spent := s.bucket.spent ++ [(s.bucket.now, s.bufs.sum)] } := by
    unfold State.bucket
    rw [hs]
    unfold Throttle.forward State.forwarded
    rw [List.map_append, ← hn]
    rfl
  rw [hb]
  exact TokenBucket.Step.spend _ hl

/-- `real_send` makes steps of the bucket. -/
lemma Sound.realSend (hf : Fits s now) (hs : Throttle.realSend s now = some s') :
    Sound R s' ∧ Relation.ReflTransGen (TokenBucket.Step R 1000 R) s.bucket s'.bucket := by
  have hr := Relation.ReflTransGen.single (h.refill_step hf)
  rcases realSend_cases hs with ⟨hl, rfl⟩ | ⟨-, delay, -, -, rfl⟩
  · refine ⟨(h.refill now).forward now, hr.tail ?_⟩
    exact (h.refill now).forward_step hl (refill_windowAt hf.1)
  · exact ⟨(h.refill now).setTimer _, hr⟩

/-- A call makes steps of the bucket. -/
lemma Sound.step {e : Event} (ho : Timely s e) (hstep : Throttle.step s e = some s') :
    Sound R s' ∧ Relation.ReflTransGen (TokenBucket.Step R 1000 R) s.bucket s'.bucket := by
  cases e with
  | send now inbufs state =>
    obtain ⟨-, hs⟩ := Option.ite_none_left_eq_some.1 hstep
    exact (h.setChunk ho.2 state).realSend ho.1 hs
  | timer now => exact (h.setTimer none).realSend ho hstep
  | stop =>
    obtain rfl := Option.some.inj hstep
    exact ⟨h.setTimer none, .refl⟩

end Steps

/-- Runs of the throttle are runs of a bucket. -/
lemma sound_of_reach {R start : ℕ} {s : State} (h : Reach Timely (instantiate start R) s) :
    Sound R s ∧ Relation.ReflTransGen (TokenBucket.Step R 1000 R) (instantiate start R).bucket
      s.bucket := by
  induction h with
  | refl =>
    have hr : -2 ^ 63 ≤ (0 : ℤ) ∧ (0 : ℤ) < 2 ^ 63 := by decide
    exact ⟨⟨rfl, hr, Nat.zero_le _⟩, .refl⟩
  | step _ _ ho hstep ih =>
    obtain ⟨hs, ht⟩ := ih.1.step ho hstep
    exact ⟨hs, ih.2.trans ht⟩

/-- The window is at most one second's worth of data, and in an interval of `t` milliseconds no more
is forwarded than the rate allows, one second's worth and one chunk. -/
theorem forwarded_le {R start : ℕ} {s : State} (h : Reach Timely (instantiate start R) s)
    (a t : ℕ) : s.bytesLeft ≤ R ∧ ∃ chunk, (chunk = 0 ∨ ∃ time, (time, chunk) ∈ s.forwarded) ∧
      spentIn s.forwarded a (a + t) ≤ R * t / 1000 + R + chunk := by
  obtain ⟨-, hs⟩ := sound_of_reach h
  have hR : (0 : ℤ) ≤ R := Int.natCast_nonneg R
  refine ⟨TokenBucket.credit_le hs hR, ?_⟩
  obtain ⟨chunk, hc, hl⟩ := TokenBucket.spentIn_le hR hR rfl hs a t
  refine ⟨chunk, hc, ?_⟩
  change (1000 * spentIn s.forwarded a (a + t) : ℤ) ≤ R * t + 1000 * (R + chunk) at hl
  have ha : ((R : ℤ) * t) = (R * t : ℕ) := by push_cast; rfl
  rw [ha] at hl
  omega

/-- A chunk of 600 bytes, and one of 500 bytes that has to wait. -/
theorem forwarded_le_waiting : ∃ s, Reach Timely (instantiate 0 1000) s ∧
    s.forwarded = [(0, 600), (600, 500)] ∧ s.bytesLeft ≤ 1000 ∧
      ∃ chunk, (chunk = 0 ∨ ∃ time, (time, chunk) ∈ s.forwarded) ∧
        spentIn s.forwarded 0 (0 + 600) ≤ 1000 * 600 / 1000 + 1000 + chunk := by
  obtain ⟨s, hs, he⟩ : ∃ s, run Timely (instantiate 0 1000)
      [.send 0 [600] .inProgress, .send 100 [200, 300] .final, .timer 600] = some s ∧
      s.forwarded = [(0, 600), (600, 500)] := exists_of_any rfl
  have hr : Reach Timely (instantiate 0 1000) s := Reach.refl.run hs
  exact ⟨s, hr, he, forwarded_le hr 0 600⟩

/-- Three chunks of one byte leave almost three seconds' worth in the window, which is then sent at
once. -/
theorem forwarded_after_idle : ∃ s s', Reach (fun _ _ => True) (instantiate 0 1000) s ∧
    Reach (fun _ _ => True) s s' ∧ s.bytesLeft = 2997 ∧
      ∀ p ∈ s'.forwarded, 1000 * 0 / 1000 + 1000 + p.2 < spentIn s'.forwarded 3000 (3000 + 0) := by
  have hr : (run (fun _ _ => True) (instantiate 0 1000) [.send 1000 [1] .inProgress,
      .send 2000 [1] .inProgress, .send 3000 [1] .inProgress]).map (fun s => (s.bytesLeft,
        ((run (fun _ _ => True) s (.replicate 3 (.send 3000 [1000] .inProgress))).map
          State.forwarded))) =
      some (2997, some [(1000, 1), (2000, 1), (3000, 1), (3000, 1000), (3000, 1000),
        (3000, 1000)]) := rfl
  obtain ⟨s, hs, he⟩ := Option.map_eq_some_iff.1 hr
  obtain ⟨hl, hr'⟩ := Prod.mk.inj he
  obtain ⟨s', hs', he'⟩ := Option.map_eq_some_iff.1 hr'
  refine ⟨s, s', Reach.refl.run hs, Reach.refl.run hs', hl, ?_⟩
  rw [he']
  decide

end Vhttp.Throttle
