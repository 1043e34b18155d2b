import Vhttp.Http3Server.Basic

/-!
# The body that a peer announces

What has been received of a request body, and what the DATA frames that begin in the rest of the
input announce. Reading the input moves octets from the second to the first.
-/

namespace Vhttp.Http3Server

open List
open Http3 (Frame readFrame)

variable {env : Env} {m : ℕ}

/-! ## The DATA frames ahead -/

/-- The lengths of the first so many frames, if they are DATA frames. -/
def dataAhead (env : Env) : ℕ → Bytes → ℕ
  | 0, _ => 0
  | fuel + 1, src =>
    match readFrame false env.maxFramePayloadSize src with
    | .frame f rest =>
      if f.type = .data then f.length + dataAhead env fuel (rest.drop f.length)
      else dataAhead env fuel rest
    | _ => 0

/-- The lengths of all DATA frames that begin in the input. -/
def ahead (env : Env) (src : Bytes) : ℕ := dataAhead env src.length src

/-- The octets of the body that have been received or announced by DATA frames. -/
def announced (env : Env) (s : Stream) (src : Bytes) : ℕ :=
  s.reqBodyBytesReceived +
    if s.handleInput = .expectDataPayload then
      s.bytesLeftInDataFrame + ahead env (src.drop s.bytesLeftInDataFrame)
    else ahead env src

variable {f : Frame} {rest src : Bytes} {s s' : Stream}

/-- As many turns as octets are enough. -/
lemma dataAhead_eq_ahead {fuel : ℕ} (h : src.length ≤ fuel) :
    dataAhead env fuel src = ahead env src := by
  unfold ahead
  induction fuel using Nat.strongRecOn generalizing src with
  | ind fuel ih =>
    cases hr : readFrame false env.maxFramePayloadSize src with
    | frame f rest =>
      have hl := Http3.length_rest_lt hr
      have hd : (rest.drop f.length).length ≤ rest.length := by
        rw [length_drop]
        omega
      obtain ⟨fuel, rfl⟩ := Nat.exists_eq_succ_of_ne_zero (by omega : fuel ≠ 0)
      obtain ⟨len, hlen⟩ := Nat.exists_eq_succ_of_ne_zero (by omega : src.length ≠ 0)
      have hs (xs : Bytes) (hx : xs.length ≤ rest.length) :
          dataAhead env fuel xs = dataAhead env len xs := by
        by_cases he : len = fuel
        · rw [he]
        · rw [ih fuel (Nat.lt_succ_self fuel) (by omega), ih len (by omega) (by omega)]
      rw [hlen]
      unfold dataAhead
      rw [hr]
      dsimp only
      rw [hs _ hd, hs rest le_rfl]
    | incomplete | tooLarge type | unexpected =>
      cases fuel <;> cases hlen : src.length <;> simp [dataAhead, hr]

/-- The first frame. -/
lemma ahead_frame (h : readFrame false env.maxFramePayloadSize src = .frame f rest) :
    ahead env src = if f.type = .data then f.length + ahead env (rest.drop f.length)
      else ahead env rest := by
  have hl := Http3.length_rest_lt h
  have hd : (rest.drop f.length).length ≤ rest.length := by
    rw [length_drop]
    omega
  obtain ⟨len, hlen⟩ := Nat.exists_eq_succ_of_ne_zero (by omega : src.length ≠ 0)
  conv_lhs => unfold ahead
  rw [hlen]
  unfold dataAhead
  rw [h]
  dsimp only
  rw [dataAhead_eq_ahead (by omega), dataAhead_eq_ahead (by omega)]

/-- The payload of a DATA frame does not change what is announced. -/
lemma announced_appendBody (src : Bytes) (hi : s.handleInput = .expectDataPayload) :
    announced env (s.appendBody (src.take s.bytesLeftInDataFrame))
      (src.drop s.bytesLeftInDataFrame) = announced env s src := by
  unfold announced Stream.appendBody
  dsimp only
  rw [length_take, hi, if_pos rfl]
  by_cases hlen : s.bytesLeftInDataFrame ≤ src.length
  · rw [Nat.min_eq_left hlen, Nat.sub_self, if_pos rfl, if_neg HandleInput.noConfusion]
    omega
  · have hd : src.drop s.bytesLeftInDataFrame = [] := drop_eq_nil_of_le (by omega)
    have hl : s.bytesLeftInDataFrame - src.length ≠ 0 := by omega
    rw [Nat.min_eq_right (by omega), if_neg hl, if_pos rfl, hd, drop_nil]
    omega

/-- A DATA frame has been announced before it begins. -/
lemma announced_startData (hi : s.handleInput = .expectData)
    (h : readFrame false env.maxFramePayloadSize src = .frame f rest) (ht : f.type = .data) :
    announced env (s.startData f.length) rest = announced env s src := by
  unfold announced Stream.startData
  rw [ahead_frame h, if_pos ht, hi]
  by_cases hlen : f.length = 0
  · rw [if_pos hlen, hi, hlen, drop_zero]
    simp
  · rw [if_neg hlen]
    simp

/-- Another frame announces nothing. -/
lemma announced_frame
    (hi : s.handleInput ≠ .expectDataPayload) (hi' : s'.handleInput ≠ .expectDataPayload)
    (hr : s'.reqBodyBytesReceived = s.reqBodyBytesReceived)
    (h : readFrame false env.maxFramePayloadSize src = .frame f rest) (ht : f.type ≠ .data) :
    announced env s' rest = announced env s src := by
  unfold announced
  rw [ahead_frame h, if_neg ht, if_neg hi, if_neg hi', hr]

/-! ## Bounds -/

/-- The part of a stream that is about the input. -/
def Stream.input (s : Stream) : HandleInput × ℕ × ℕ × Bytes :=
  (s.handleInput, s.bytesLeftInDataFrame, s.reqBodyBytesReceived, s.buf)

lemma input_eq_iff : s'.input = s.input ↔ s'.handleInput = s.handleInput ∧
    s'.bytesLeftInDataFrame = s.bytesLeftInDataFrame ∧
      s'.reqBodyBytesReceived = s.reqBodyBytesReceived ∧ s'.buf = s.buf := by
  unfold Stream.input
  simp only [Prod.mk.injEq]

/-- The body is within a bound, and it stays so unless the stream is closed. -/
def Within (env : Env) (m : ℕ) (s : Stream) (src : Bytes) : Prop :=
  s.reqBodyBytesReceived ≤ m ∧ (s.state = .closeWait ∨ announced env s src ≤ m)

lemma received_le_announced (s : Stream) (src : Bytes) :
    s.reqBodyBytesReceived ≤ announced env s src := Nat.le_add_right _ _

lemma within_of_announced (h : announced env s src ≤ m) :
    Within env m s src := ⟨(received_le_announced s src).trans h, .inr h⟩

lemma announced_eq_of_input (h : s'.input = s.input) (src : Bytes) :
    announced env s' src = announced env s src := by
  obtain ⟨hi, hl, hr, -⟩ := input_eq_iff.1 h
  unfold announced
  rw [hi, hl, hr]

/-- The body of the request is within a bound, or the connection is being closed. -/
def Bounded (env : Env) (m : ℕ) (v : View) : Prop :=
  v.shared.closing = true ∨ Within env m v.stream v.stream.buf

end Vhttp.Http3Server
