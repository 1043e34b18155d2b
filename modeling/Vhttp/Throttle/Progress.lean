import Vhttp.Throttle.Bound

/-!
# The throttle's timer

The timer is set for the moment at which the window has been refilled. This needs a rate that is
not zero and a deficit that one refill can cover; the first is not checked, and the second depends
on the chunks.

* `progress`: when the chunk is forwarded as the timer fires, and how far the throttle is then
  ahead of its rate.
* `progress_fails`: a rate of zero, a chunk of more than a second's worth, and fractions of a byte
  that are lost.
-/

namespace Vhttp.Throttle

open List Prod

/-- The chunk that `real_send` cannot forward is forwarded when the timer fires. -/
def Prompt (s : State) : Prop :=
  ∃ t s₁ s₂, realSend s s.windowAt = some s₁ ∧ s₁.timer = some t ∧ s.windowAt < t ∧
    onTimer s₁ t = some s₂ ∧ s₂.sent = s.sent ++ [(t, s.bufs, s.streamState)]

/-- A deficit that a refill covers, and that does not overflow. -/
def Covered (deficit : ℤ) (bytesPerSec : ℕ) : Prop :=
  deficit ≤ bytesPerSec ∧ deficit * 1000 + bytesPerSec ≤ 2 ^ 64

/-! ## The delay -/

/-- `calc_delay` for a deficit. -/
def delayOf (deficit bytesPerSec : ℕ) : ℕ :=
  (deficit * 1000 + bytesPerSec - 1) % 2 ^ 64 / bytesPerSec

lemma calcDelay_neg {deficit R : ℕ} (hR : 0 < R) :
    calcDelay (-deficit) R = some (delayOf deficit R) := by
  unfold calcDelay delayOf
  rw [if_neg hR.ne', neg_neg]
  have hc : ((deficit : ℤ) * 1000 + R - 1) = ((deficit * 1000 + R - 1 : ℕ) : ℤ) := by omega
  rw [hc]
  congr 2

lemma mul_delayOf_le (deficit R : ℕ) :
    R * delayOf deficit R ≤ (deficit * 1000 + R - 1) % 2 ^ 64 := Nat.mul_div_le _ _

/-- A deficit that is covered is earned when the delay is over, and not a moment before. -/
lemma delayOf_covered {deficit R : ℕ} (hR : 0 < R) (h : Covered deficit R) :
    deficit * 1000 ≤ R * delayOf deficit R ∧ R * delayOf deficit R < deficit * 1000 + R := by
  obtain ⟨-, hf⟩ := h
  unfold delayOf
  rw [Nat.mod_eq_of_lt (by omega)]
  have hm := Nat.mod_lt (deficit * 1000 + R - 1) hR
  have hd := Nat.div_add_mod (deficit * 1000 + R - 1) R
  generalize R * ((deficit * 1000 + R - 1) / R) = earned at hd ⊢
  omega

lemma delayOf_pos {deficit R : ℕ} (hd : 0 < deficit) (hR : 0 < R)
    (h : Covered deficit R) : 0 < delayOf deficit R := by
  obtain ⟨he, -⟩ := delayOf_covered hR h
  by_contra hz
  rw [Nat.eq_zero_of_not_pos hz, Nat.mul_zero] at he
  omega

/-- The refill at the end of the delay covers the deficit. -/
lemma covered_iff {deficit R : ℕ} (hd : 0 < deficit) (hR : 0 < R) (hs : R < 2 ^ 64) :
    0 < delayOf deficit R ∧ deficit ≤ min (R * delayOf deficit R % 2 ^ 64 / 1000) R ↔
      Covered deficit R := by
  constructor
  · rintro ⟨-, hle⟩
    have hu := mul_delayOf_le deficit R
    have hm : R * delayOf deficit R % 2 ^ 64 ≤ R * delayOf deficit R := Nat.mod_le _ _
    generalize R * delayOf deficit R % 2 ^ 64 = earned at hle hm
    refine ⟨by omega, ?_⟩
    -- an overflow takes more off than the rate adds
    by_contra ho
    omega
  · intro h
    have hpos := delayOf_pos hd hR h
    obtain ⟨he, hl⟩ := delayOf_covered hR h
    obtain ⟨hc, hf⟩ := h
    have ht : R * delayOf deficit R < 2 ^ 64 := by omega
    rw [Nat.mod_eq_of_lt ht]
    exact ⟨hpos, by omega⟩

/-- The delay is at most a second, so that a refill is not cut. -/
lemma delayOf_refill {deficit R : ℕ} (hR : 0 < R) (h : Covered deficit R) :
    min (R * delayOf deficit R % 2 ^ 64 / 1000) R = R * delayOf deficit R / 1000 := by
  obtain ⟨-, hle⟩ := delayOf_covered hR h
  obtain ⟨hc, hf⟩ := h
  have hl : R * delayOf deficit R < 2 ^ 64 := by omega
  rw [Nat.mod_eq_of_lt hl]
  apply min_eq_left
  have hd : delayOf deficit R < 1001 := by
    apply lt_of_mul_lt_mul_left (a := R) _ (Nat.zero_le R)
    have he : deficit ≤ R := Int.ofNat_le.1 hc
    linarith
  have hm : R * delayOf deficit R ≤ R * 1000 := Nat.mul_le_mul_left R (by omega)
  omega

/-! ## The firing -/

section Firing

variable {s : State} {deficit R : ℕ}

/-- `real_send` when there is a deficit. -/
lemma realSend_deficit (hl : s.bytesLeft = -deficit) (hd : 0 < deficit)
    (hr : s.bytesPerSec = R) (hR : 0 < R) : realSend s s.windowAt = if 0 < delayOf deficit R then
      some (s.setTimer (some (s.windowAt + delayOf deficit R))) else none := by
  have hn : s.bytesLeft < 0 := by omega
  unfold realSend
  rw [refill_self le_rfl]
  rw [if_pos hn, hl, hr, calcDelay_neg hR]

/-- The window when the timer fires. -/
lemma refill_deficit (hl : s.bytesLeft = -deficit) (hs : deficit ≤ 2 ^ 63)
    (hr : s.bytesPerSec = R) {delay : ℕ} (hd : 0 < delay) :
    (refill s (s.windowAt + delay)).bytesLeft =
      -deficit + (min (R * delay % 2 ^ 64 / 1000) R : ℕ) := by
  unfold refill
  rw [if_pos (by omega), hl, hr, Nat.add_sub_cancel_left]
  apply bmod_of_range
  · omega
  · omega

/-- The timer forwards the chunk if the window is not negative. -/
lemma onTimer_forward {t : ℕ} (h : 0 ≤ (refill s t).bytesLeft) :
    onTimer s t = some (forward ((refill s t).setTimer none) t) := by
  unfold onTimer realSend
  rw [refill_setTimer]
  exact if_neg (not_lt.2 h)

lemma forward_sent (s : State) (t : ℕ) :
    (forward ((refill s t).setTimer none) t).sent = s.sent ++ [(t, s.bufs, s.streamState)] := by
  change (refill s t).sent ++ [(t, (refill s t).bufs, (refill s t).streamState)] = _
  rw [refill_sent, refill_bufs, refill_streamState]

/-- If the window is negative, the chunk is not forwarded. -/
lemma onTimer_sent {s2 : State} {t : ℕ} (h : onTimer s t = some s2)
    (hs : s2.sent = s.sent ++ [(t, s.bufs, s.streamState)]) : 0 ≤ (refill s t).bytesLeft := by
  rcases realSend_cases h with ⟨hpos, -⟩ | ⟨-, delay, -, -, rfl⟩
  · rw [refill_setTimer] at hpos
    exact hpos
  · change (refill (s.setTimer none) t).sent = _ at hs
    rw [refill_sent] at hs
    have hlen := congrArg length hs
    rw [length_append] at hlen
    exact absurd hlen (Nat.ne_of_lt (Nat.lt_succ_self _))

/-- When the chunk is forwarded as the timer fires. -/
lemma prompt_iff (hlf : s.bytesLeft = -deficit) (he : 0 < deficit)
    (hsz : deficit ≤ 2 ^ 63) (hr : s.bytesPerSec = R) (hR : R < 2 ^ 64) :
    Prompt s ↔ 0 < R ∧ Covered deficit R := by
  rcases Nat.eq_zero_or_pos R with hz | hpos
  · -- the division by zero
    refine iff_of_false ?_ fun h => h.1.ne' hz
    rintro ⟨t, s1, s2, hsd, -⟩
    have hn : s.bytesLeft < 0 := by omega
    unfold realSend at hsd
    rw [refill_self le_rfl] at hsd
    rw [if_pos hn, hr, hz] at hsd
    cases hsd
  · rw [and_iff_right hpos, ← covered_iff he hpos hR]
    have hsd := realSend_deficit hlf he hr hpos
    constructor
    · rintro ⟨t, s1, s2, hs', ht, hl, hi, hs⟩
      rw [hsd] at hs'
      obtain ⟨hd, ⟨⟩⟩ := Option.ite_none_right_eq_some.1 hs'
      obtain rfl := Option.some.inj ht
      rw [onTimer_setTimer] at hi
      have hf := onTimer_sent hi hs
      rw [refill_deficit hlf hsz hr hd] at hf
      exact ⟨hd, by omega⟩
    · rintro ⟨hd, hc⟩
      rw [if_pos hd] at hsd
      have hf : 0 ≤ (refill s (s.windowAt + delayOf deficit R)).bytesLeft := by
        rw [refill_deficit hlf hsz hr hd]
        omega
      refine ⟨_, _, _, hsd, rfl, by omega, ?_, forward_sent s _⟩
      rw [onTimer_setTimer]
      exact onTimer_forward hf

end Firing

/-! ## A response that is always ready -/

/-- The next chunk comes as soon as one has been forwarded, is one that a refill covers, and the
timer is called when it is due and nothing is lost to rounding. -/
def OnTime (s : State) : Event → Prop
  | .send now inbufs _ =>
    s.timer = none ∧ now = s.windowAt ∧ Covered inbufs.sum s.bytesPerSec
  | .timer now => s.timer = some now ∧ 1000 ∣ s.bytesPerSec * (now - s.windowAt)
  | .stop => False

instance (deficit : ℤ) (bytesPerSec : ℕ) : Decidable (Covered deficit bytesPerSec) := by
  unfold Covered
  infer_instance

instance (s : State) (e : Event) : Decidable (OnTime s e) := by
  rcases e with ⟨⟩ <;> unfold OnTime <;> infer_instance

/-- How much was forwarded. -/
def State.total (s : State) : ℕ := (s.forwarded.map snd).sum

/-- What was forwarded and what is left is what was earned; a deficit can be covered, and the timer
is set for that. -/
structure Busy (R start : ℕ) (s : State) : Prop where
  rate : s.bytesPerSec = R
  range : s.bytesLeft < 2 ^ 63
  deficit : Covered (-s.bytesLeft) R
  begun : start ≤ s.windowAt
  balance : 1000 * (s.total + s.bytesLeft) = (R * (s.windowAt - start) : ℕ)
  timer : ∀ t, s.timer = some t → ∃ deficit : ℕ, 0 < deficit ∧ s.bytesLeft = -deficit ∧ 0 < R ∧
    t = s.windowAt + delayOf deficit R
  chunk : s.timer.isSome → Covered s.bufs.sum R

section Busy

variable {R start : ℕ} {s s' : State}

lemma total_forward (s : State) (now : ℕ) : (forward s now).total = s.total + s.bufs.sum := by
  unfold forward State.total State.forwarded
  rw [map_append, map_append, sum_append]
  rfl

variable (h : Busy R start s)
include h

/-- A chunk is forwarded from a window that is not negative. -/
lemma Busy.forward (hl : 0 ≤ s.bytesLeft) (hi : s.timer = none)
    (hc : Covered s.bufs.sum R) (now : ℕ) : Busy R start (Throttle.forward s now) := by
  have hr := h.range
  obtain ⟨ha, hf⟩ := hc
  have hs : (Throttle.forward s now).bytesLeft = s.bytesLeft - s.bufs.sum := by
    apply bmod_of_range <;> omega
  refine ⟨h.rate, ?_, ?_, h.begun, ?_, ?_, ?_⟩
  · rw [hs]
    omega
  · rw [hs]
    constructor <;> omega
  · have hb := h.balance
    rw [hs, total_forward]
    change _ = ((R * (s.windowAt - start) : ℕ) : ℤ)
    push_cast at hb ⊢
    linarith
  · intro t ht
    rw [show (Throttle.forward s now).timer = s.timer from rfl, hi] at ht
    cases ht
  · intro ht
    rw [show (Throttle.forward s now).timer = s.timer from rfl, hi] at ht
    cases ht

lemma Busy.setChunk (hi : s.timer = none) (bufs : List ℕ)
    (state : SendState) : Busy R start (s.setChunk bufs state) := by
  refine ⟨h.rate, h.range, h.deficit, h.begun, h.balance, h.timer, fun ht => ?_⟩
  rw [show (s.setChunk bufs state).timer = s.timer from rfl, hi] at ht
  cases ht

/-- The deficit as a number. -/
lemma Busy.exists_deficit (hl : s.bytesLeft < 0) :
    ∃ deficit : ℕ, s.bytesLeft = -deficit ∧ 0 < deficit ∧ 0 < R ∧ Covered deficit R := by
  obtain ⟨deficit, hd⟩ := Int.eq_ofNat_of_zero_le (neg_nonneg.2 hl.le)
  have hc := h.deficit
  rw [hd] at hc
  have ha := hc.1
  exact ⟨deficit, by omega, by omega, by omega, hc⟩

/-- `on_send` works, and leaves a state of this kind. -/
lemma Busy.send {now : ℕ} {inbufs : List ℕ} {state : SendState}
    (hk : OnTime s (.send now inbufs state)) :
    ∃ s', Throttle.step s (.send now inbufs state) = some s' ∧ Busy R start s' := by
  obtain ⟨ht, rfl, hc⟩ := hk
  rw [h.rate] at hc
  have hs := h.setChunk ht inbufs state
  have hsd : Throttle.step s (.send s.windowAt inbufs state) =
      realSend (s.setChunk inbufs state) s.windowAt :=
    if_neg (by rw [ht]; exact Bool.false_ne_true)
  rw [hsd]
  rcases lt_or_ge s.bytesLeft 0 with hn | hpos
  · obtain ⟨deficit, hf, hd, hR, ho⟩ := h.exists_deficit hn
    have hl := delayOf_pos hd hR ho
    have hr := realSend_deficit (s := s.setChunk inbufs state) hf hd h.rate hR
    rw [if_pos hl] at hr
    refine ⟨_, hr, hs.rate, hs.range, hs.deficit, hs.begun, hs.balance, ?_, ?_⟩
    · rintro t ⟨⟩
      exact ⟨deficit, hd, hf, hR, rfl⟩
    · exact fun _ => hc
  · have he : refill (s.setChunk inbufs state) s.windowAt = s.setChunk inbufs state :=
      refill_self le_rfl
    have hp' : 0 ≤ (refill (s.setChunk inbufs state) s.windowAt).bytesLeft := by
      rw [he]
      exact hpos
    have hr := realSend_forward hp'
    rw [he] at hr
    exact ⟨_, hr, hs.forward hpos ht hc _⟩

/-- The window at the time the timer is set for. -/
lemma Busy.refilled {t : ℕ} (ht : s.timer = some t) :
    s.windowAt < t ∧ 0 ≤ (refill s t).bytesLeft ∧ (refill s t).bytesLeft < 2 ^ 63 ∧
      (refill s t).bytesLeft = s.bytesLeft + (R * (t - s.windowAt) / 1000 : ℕ) := by
  obtain ⟨deficit, hd, hl, hR, rfl⟩ := h.timer t ht
  have hc : Covered deficit R := by
    have hc := h.deficit
    rw [hl, neg_neg] at hc
    exact hc
  obtain ⟨ha, hle⟩ := delayOf_covered hR hc
  have he := delayOf_pos hd hR hc
  have hs := hc.2
  have hw := refill_deficit hl (by omega) h.rate he
  rw [delayOf_refill hR hc] at hw
  rw [hw, Nat.add_sub_cancel_left, hl]
  exact ⟨by omega, by omega, by omega, rfl⟩

/-- `on_timer` forwards the chunk, and leaves a state of this kind. -/
lemma Busy.fire {now : ℕ} (hk : OnTime s (.timer now)) :
    ∃ s', Throttle.step s (.timer now) = some s' ∧ Busy R start s' := by
  obtain ⟨ht, hd⟩ := hk
  obtain ⟨hl, hpos, hr, hw⟩ := h.refilled ht
  have hb := h.begun
  refine ⟨_, onTimer_forward hpos, ?_⟩
  have he : Busy R start ((refill s now).setTimer none) := by
    refine ⟨(refill_bytesPerSec s now).trans h.rate, hr, ?_, ?_, ?_, nofun, nofun⟩
    · have hz := h.deficit.2
      obtain ⟨deficit, -, hf, hR, -⟩ := h.timer now ht
      constructor
      · change -(refill s now).bytesLeft ≤ R
        omega
      · change -(refill s now).bytesLeft * 1000 + R ≤ 2 ^ 64
        omega
    · change start ≤ (refill s now).windowAt
      rw [refill_windowAt hl.le]
      omega
    · -- nothing is lost, so that what was earned is what is added
      change 1000 * (((refill s now).total : ℤ) + (refill s now).bytesLeft) =
        (R * ((refill s now).windowAt - start) : ℕ)
      have ho : (refill s now).total = s.total := by
        unfold State.total State.forwarded
        rw [refill_sent]
      have hs : R * (now - start) = R * (now - s.windowAt) + R * (s.windowAt - start) := by
        rw [← Nat.mul_add]
        congr 1
        omega
      have ha := h.balance
      rw [h.rate] at hd
      rw [ho, hw, refill_windowAt hl.le, hs]
      omega
  apply he.forward hpos rfl
  have hc := h.chunk (by rw [ht]; rfl)
  rw [← refill_bufs s now] at hc
  exact hc

end Busy

/-- A response that is always ready never fails, and keeps its account. -/
lemma busy_of_reach {R start : ℕ} {s : State} (h : Reach OnTime (instantiate start R) s)
    (hR : R < 2 ^ 64) : Busy R start s := by
  induction h with
  | refl =>
    have hb : (1000 * (0 + 0) : ℤ) = (R * (start - start) : ℕ) := by
      rw [Nat.sub_self]
      rfl
    have hr : (0 : ℤ) < 2 ^ 63 := by decide
    refine ⟨rfl, hr, ?_, le_rfl, hb, nofun, nofun⟩
    constructor
    · exact Int.natCast_nonneg R
    · change -(0 : ℤ) * 1000 + R ≤ 2 ^ 64
      omega
  | @step s s' e _ _ ho hstep ih =>
    have hn : ∃ s', Throttle.step s e = some s' ∧ Busy R start s' := by
      cases e with
      | send now inbufs state => exact ih.send ho
      | timer now => exact ih.fire ho
      | stop => cases ho
    obtain ⟨s'', hs', hu⟩ := hn
    obtain rfl := Option.some.inj (hstep.symm.trans hs')
    exact hu

/-- A chunk that has to wait is forwarded when the timer fires just if the rate is not zero and the
deficit is at most one second's worth and does not overflow. A response that is always ready, whose
chunks are so and of which nothing is lost to rounding, does not fail; while a chunk waits, the
throttle is ahead of its rate. -/
theorem progress {status : ℕ} {method : Bytes} {headers : List Hpack.Header} {after : Bytes}
    {preferredChunkSize start : ℕ} {setup : Setup}
    (h : onSetupOstream status method headers after preferredChunkSize start = some (some setup)) :
    (∀ s : State, s.bytesPerSec = setup.state.bytesPerSec → -2 ^ 63 ≤ s.bytesLeft →
      s.bytesLeft < 0 → (Prompt s ↔ 0 < s.bytesPerSec ∧ Covered (-s.bytesLeft) s.bytesPerSec)) ∧
    ∀ s, Reach OnTime setup.state s → (∀ e, OnTime s e → ∃ s', step s e = some s') ∧
      ∀ t, s.timer = some t →
        (∃ s', onTimer s t = some s' ∧ s'.sent = s.sent ++ [(t, s.bufs, s.streamState)]) ∧
        ∀ t' < t, setup.state.bytesPerSec * (t' - start) < 1000 * s.total := by
  obtain ⟨R, hR, he⟩ := onSetupOstream_state h
  rw [he]
  change (∀ s : State, s.bytesPerSec = R → _) ∧ ∀ s, _ → _ ∧ ∀ t, _ → _ ∧ ∀ t' < t, R * _ < _
  have hz : R < 2 ^ 64 := by omega
  refine ⟨fun s ha hr hn => ?_, fun s hs => ?_⟩
  · obtain ⟨deficit, hd⟩ := Int.eq_ofNat_of_zero_le (neg_nonneg.2 hn.le)
    have hf : s.bytesLeft = -deficit := by omega
    rw [hd, ha]
    exact prompt_iff hf (by omega) (by omega) ha hz
  · have hu := busy_of_reach hs hz
    refine ⟨fun e ho => ?_, fun t ht => ⟨?_, fun t' ht' => ?_⟩⟩
    · cases e with
      | send now inbufs state => exact (hu.send ho).imp fun _ h => h.1
      | timer now => exact (hu.fire ho).imp fun _ h => h.1
      | stop => cases ho
    · obtain ⟨-, hpos, -⟩ := hu.refilled ht
      exact ⟨_, onTimer_forward hpos, forward_sent s t⟩
    · obtain ⟨deficit, hd, hf, hpos, rfl⟩ := hu.timer t ht
      have hc := hu.deficit
      rw [hf, neg_neg] at hc
      have hde := delayOf_pos hd hpos hc
      obtain ⟨-, hle⟩ := delayOf_covered hpos hc
      have hb := hu.balance
      have hg := hu.begun
      rw [hf] at hb
      -- the last moment of the delay
      have hl : R * (t' - start + 1) ≤ R * (s.windowAt - start + delayOf deficit R) :=
        Nat.mul_le_mul_left R (by omega)
      rw [Nat.mul_add, Nat.mul_add, Nat.mul_one] at hl
      omega

/-- A response with a rate. -/
def traffic (value : String) : Option (Option Setup) :=
  onSetupOstream 200 (ascii "GET") [⟨.token .xTraffic, ascii value⟩] [0] 65536 0

/-- A rate of 1000 bytes per second, and a chunk that waits for 600 bytes to be earned. -/
theorem progress_thousand : ∃ setup s, traffic "1000" = some (some setup) ∧
    Reach OnTime setup.state s ∧ s.timer = some 600 ∧
      (∃ s', onTimer s 600 = some s' ∧ s'.sent = s.sent ++ [(600, s.bufs, s.streamState)]) ∧
      ∀ t' < 600, setup.state.bytesPerSec * (t' - 0) < 1000 * s.total := by
  obtain ⟨setup, he⟩ : ∃ setup, traffic "1000" = some (some setup) :=
    ⟨⟨instantiate 0 1000, [], 4096⟩, by rfl⟩
  have hr : ((traffic "1000").bind id).map (fun setup => (run OnTime setup.state
      [.send 0 [600] .inProgress, .send 0 [500] .final]).map State.timer) =
        some (some (some 600)) := by
    rfl
  rw [he] at hr
  obtain ⟨s, hs, ht⟩ := Option.map_eq_some_iff.1 (Option.some.inj hr)
  have hc : Reach OnTime setup.state s := Reach.refl.run hs
  exact ⟨setup, s, he, hc, ht, ((progress he).2 s hc).2 600 ht⟩

/-- A rate of zero is accepted, and the second chunk divides by it; a chunk of five seconds' worth
leaves a deficit that the timer does not find covered; and of 1500 bytes per second only 1000 are
sent if the chunks have one byte each. -/
theorem progress_fails :
    (∃ setup s, traffic "0" = some (some setup) ∧ Reach (fun _ _ => True) setup.state s ∧
      s.timer = none ∧ step s (.send 0 [1] .final) = none) ∧
    (∃ s, Reach (fun _ _ => True) (instantiate 0 1000) s ∧ s.timer = some 5000 ∧
      ∃ s', onTimer s 5000 = some s' ∧ s'.sent = s.sent) ∧
    ∃ s, Reach (fun _ _ => True) (instantiate 0 1500) s ∧ s.timer = some 4 ∧
      1000 * s.total < 1500 * 3 := by
  refine ⟨?_, ?_, ?_⟩
  · have ht : traffic "0" = some (some ⟨instantiate 0 0, [], 4096⟩) := rfl
    have hr : (run (fun _ _ => True) (instantiate 0 0) [.send 0 [1] .inProgress]).map
        (fun s => (s.timer, step s (.send 0 [1] .final))) = some (none, none) := by
      rfl
    obtain ⟨s, hs, hq⟩ := Option.map_eq_some_iff.1 hr
    exact ⟨_, s, ht, Reach.refl.run hs, mk.inj hq⟩
  · have hr : (run (fun _ _ => True) (instantiate 0 1000)
        [.send 0 [5000] .inProgress, .send 0 [1] .final]).map
        (fun s => (s.timer, (onTimer s 5000).map fun s' => decide (s'.sent = s.sent))) =
          some (some 5000, some true) := by
      rfl
    obtain ⟨s, hs, hq⟩ := Option.map_eq_some_iff.1 hr
    obtain ⟨hi, hf⟩ := mk.inj hq
    obtain ⟨s', hs', he⟩ := Option.map_eq_some_iff.1 hf
    exact ⟨s, Reach.refl.run hs, hi, s', hs', of_decide_eq_true he⟩
  · obtain ⟨s, hs, hre⟩ : ∃ s, run (fun _ _ => True) (instantiate 0 1500) [.send 0 [1] .inProgress,
        .send 0 [1] .inProgress, .timer 1, .send 1 [1] .inProgress, .timer 2,
        .send 2 [1] .inProgress, .timer 3, .send 3 [1] .inProgress] = some s ∧ s.timer = some 4 ∧
        1000 * s.total < 1500 * 3 := exists_of_any rfl
    exact ⟨s, Reach.refl.run hs, hre⟩

end Vhttp.Throttle
