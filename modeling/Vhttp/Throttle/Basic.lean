import Vhttp.Hpack.Response
import Vhttp.Strtosize

/-!
# The response throttle

`lib/handler/throttle_resp.c`: a filter that forwards the body of a response at the rate its
`x-traffic` field has. A chunk is forwarded when the window is not negative and is then taken off
it; otherwise a timer is set for the moment at which the window is expected to be refilled.

Times are in milliseconds. Arithmetic on `uint64_t` and `size_t` is modulo `2 ^ 64`, and the window
is a `ssize_t`.
-/

namespace Vhttp.Throttle

open Option

/-- `vhttp_send_state_t`. -/
inductive SendState where
  | inProgress | final | error
  deriving DecidableEq

/-- `throttle_resp_t`. Of a buffer only the length is used. `timer` is the time the timer is set
for; `sent` is what was given to the next output stream, with the time. -/
structure State where
  windowAt : ℕ
  bytesLeft : ℤ
  bytesPerSec : ℕ
  bufs : List ℕ
  streamState : SendState
  timer : Option ℕ
  sent : List (ℕ × List ℕ × SendState)

variable (s : State) (now : ℕ)

/-- The timer is set or unlinked. -/
def State.setTimer (timer : Option ℕ) : State := { s with timer }

/-- The chunk is saved. -/
def State.setChunk (bufs : List ℕ) (streamState : SendState) : State :=
  { s with bufs, streamState }

/-- `calc_delay`; `none` is the division by zero. -/
def calcDelay (bytesLeft : ℤ) (bytesPerSec : ℕ) : Option ℕ :=
  if bytesPerSec = 0 then none
  else some (((-bytesLeft * 1000 + bytesPerSec - 1) % 2 ^ 64).toNat / bytesPerSec)

/-- The window is brought up to date; a refill is at most one second's worth of data. -/
def refill : State :=
  if s.windowAt < now then
    let addition := s.bytesPerSec * (now - s.windowAt) % 2 ^ 64 / 1000
    { s with
      bytesLeft := (s.bytesLeft + min addition s.bytesPerSec).bmod (2 ^ 64)
      windowAt := now }
  else s

/-- The pending chunk goes to the next output stream. -/
def forward : State :=
  { s with
    bytesLeft := (s.bytesLeft - s.bufs.sum).bmod (2 ^ 64)
    sent := s.sent ++ [(now, s.bufs, s.streamState)] }

/-- `real_send`; `none` is a division by zero or a failed assertion. -/
def realSend : Option State :=
  let s := refill s now
  if s.bytesLeft < 0 then
    match calcDelay s.bytesLeft s.bytesPerSec with
    | some delay => if 0 < delay then some (s.setTimer (some (now + delay))) else none
    | none => none
  else some (forward s now)

/-- `on_timer`; the timer is unlinked before it is called. -/
def onTimer : Option State := realSend (s.setTimer none) now

lemma onTimer_setTimer (timer : Option ℕ) (now : ℕ) :
    onTimer (s.setTimer timer) now = onTimer s now := rfl

/-- `on_send`, which asserts that the timer is not linked. -/
def onSend (inbufs : List ℕ) (state : SendState) : Option State :=
  if s.timer.isSome then none
  else realSend (s.setChunk inbufs state) now

/-- `on_stop`. -/
def onStop : State := s.setTimer none

/-- The filter as it is instantiated. -/
def instantiate (bytesPerSec : ℕ) : State where
  windowAt := now
  bytesLeft := 0
  bytesPerSec := bytesPerSec
  bufs := []
  streamState := .inProgress
  timer := none
  sent := []

/-- The fields of the response and the preferred chunk size, as the filter leaves them. -/
structure Setup where
  state : State
  headers : List Hpack.Header
  preferredChunkSize : ℕ

/-- `on_setup_ostream`: the inner `none` is a response that is left alone, the outer one a read
beyond the memory. `after` is the memory behind the value of the field. -/
def onSetupOstream (status : ℕ) (method : Bytes) (headers : List Hpack.Header) (after : Bytes)
    (preferredChunkSize now : ℕ) : Option (Option Setup) :=
  if status ≠ 200 then some none
  else if method = ascii "HEAD" then some none
  else
    match headers.findIdx? (fun h => h.name = .token .xTraffic) with
    | none => some none
    | some xtIndex =>
      let value := (headers.getD xtIndex ⟨.token .xTraffic, []⟩).value
      match strtosizefwd (value ++ after) value.length with
      | none => none
      | some none => some none
      | some (some (bytesPerSec, _)) =>
        some (some {
          state := instantiate now bytesPerSec
          headers := headers.eraseIdx xtIndex
          preferredChunkSize := min preferredChunkSize (max (bytesPerSec / 10) 4096) })

variable {now : ℕ} {s s' : State}

/-- A rate that is accepted is below `SIZE_MAX`, and the filter starts with an empty window. -/
lemma onSetupOstream_state {status : ℕ} {method : Bytes} {headers : List Hpack.Header}
    {after : Bytes} {preferredChunkSize : ℕ} {setup : Setup}
    (h : onSetupOstream status method headers after preferredChunkSize now = some (some setup)) :
    ∃ bytesPerSec < 2 ^ 64 - 1, setup.state = instantiate now bytesPerSec := by
  unfold onSetupOstream at h
  split_ifs at h with hs hm
  · cases h
  · cases h
  · split at h
    · cases h
    · dsimp only at h
      split at h
      · cases h
      · cases h
      · rename_i bytesPerSec n hr
        obtain rfl := some.inj (some.inj h)
        exact ⟨bytesPerSec, strtosizefwd_lt hr, rfl⟩

/-! ## Runs -/

/-- What is called, and when. -/
inductive Event where
  | send (now : ℕ) (inbufs : List ℕ) (state : SendState)
  | timer (now : ℕ)
  | stop

/-- The timer is called once it is due. -/
def possible (s : State) : Event → Bool
  | .timer now => s.timer.any (· ≤ now)
  | _ => true

/-- One call. -/
def step (s : State) : Event → Option State
  | .send now inbufs state => onSend s now inbufs state
  | .timer now => onTimer s now
  | .stop => some (onStop s)

/-- The states of the runs from `s₀` in which every call meets the condition. -/
inductive Reach (ok : State → Event → Prop) (s₀ : State) : State → Prop
  | refl : Reach ok s₀ s₀
  | step {s s' : State} {e : Event} (h : Reach ok s₀ s) (hpossible : possible s e) (hok : ok s e)
    (hstep : step s e = some s') : Reach ok s₀ s'

/-- The calls in their order, as long as they meet the condition. -/
def run (ok : State → Event → Prop) [∀ s e, Decidable (ok s e)] (s : State) :
    List Event → Option State
  | [] => some s
  | e :: es => if possible s e ∧ ok s e then (step s e).bind (run ok · es) else none

lemma Reach.run {ok : State → Event → Prop} [∀ s e, Decidable (ok s e)] {s0 : State}
    {es : List Event} (h : Reach ok s0 s) (hr : run ok s es = some s') : Reach ok s0 s' := by
  induction es generalizing s with
  | nil =>
    cases hr
    exact h
  | cons e es ih =>
    obtain ⟨⟨hp, ho⟩, hr⟩ := ite_none_right_eq_some.1 hr
    obtain ⟨s1, hstep, hr⟩ := bind_eq_some_iff.1 hr
    exact ih (.step h hp ho hstep) hr

/-- The time and the size of what was forwarded. -/
def State.forwarded (s : State) : List (ℕ × ℕ) := s.sent.map fun p => (p.1, p.2.1.sum)

/-! ## The window -/

lemma refill_bytesPerSec (s : State) (now : ℕ) : (refill s now).bytesPerSec = s.bytesPerSec := by
  unfold refill
  split <;> rfl

lemma refill_sent (s : State) (now : ℕ) : (refill s now).sent = s.sent := by
  unfold refill
  split <;> rfl

lemma refill_bufs (s : State) (now : ℕ) : (refill s now).bufs = s.bufs := by
  unfold refill
  split <;> rfl

lemma refill_streamState (s : State) (now : ℕ) : (refill s now).streamState = s.streamState := by
  unfold refill
  split <;> rfl

lemma refill_setTimer (s : State) (timer : Option ℕ) (now : ℕ) :
    refill (s.setTimer timer) now = (refill s now).setTimer timer := by
  unfold refill State.setTimer
  split <;> rfl

lemma refill_windowAt (h : s.windowAt ≤ now) : (refill s now).windowAt = now := by
  unfold refill
  split
  · rfl
  · omega

/-- At the time of the last refill nothing is added. -/
lemma refill_self (h : now ≤ s.windowAt) : refill s now = s :=
  if_neg (not_lt.2 h)

lemma realSend_forward (h : 0 ≤ (refill s now).bytesLeft) :
    realSend s now = some (forward (refill s now) now) := if_neg (not_lt.2 h)

/-- What `real_send` does: it forwards the chunk or it sets the timer. -/
lemma realSend_cases (h : realSend s now = some s') :
    0 ≤ (refill s now).bytesLeft ∧ s' = forward (refill s now) now ∨
      (refill s now).bytesLeft < 0 ∧ ∃ delay,
        calcDelay (refill s now).bytesLeft (refill s now).bytesPerSec = some delay ∧ 0 < delay ∧
          s' = (refill s now).setTimer (some (now + delay)) := by
  unfold realSend at h
  dsimp only at h
  split_ifs at h with hn
  · refine .inr ⟨hn, ?_⟩
    cases hd : calcDelay (refill s now).bytesLeft (refill s now).bytesPerSec with
    | none =>
      rw [hd] at h
      cases h
    | some delay =>
      rw [hd] at h
      obtain ⟨hpos, ⟨⟩⟩ := ite_none_right_eq_some.1 h
      exact ⟨delay, rfl, hpos, rfl⟩
  · exact .inl ⟨not_lt.1 hn, (some.inj h).symm⟩

end Vhttp.Throttle
