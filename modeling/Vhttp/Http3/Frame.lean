import Vhttp.Bytes

/-!
# HTTP/3 frames

`vhttp_http3_read_frame` of `lib/http3/common.c`: a frame is a type, a length and a payload. The
payload of a DATA frame is not read with the frame.

* `readFrame_rest`: a frame is not empty, and reading it leaves the rest of the input.
-/

namespace Vhttp.Http3

open List

/-- `ptls_decode_quicint`: a variable-length integer and what follows it. -/
def decodev : Bytes → Option (ℕ × Bytes)
  | [] => none
  | b :: src =>
    if b ≤ 0x3f then some (b.toNat, src)
    else
      let bytesLeft := 2 ^ (b.toNat / 64) - 1
      if src.length < bytesLeft then none
      else some ((src.take bytesLeft).foldl (fun v c => v * 256 + c.toNat) (b.toNat % 64),
        src.drop bytesLeft)

/-- The frame types; the source ignores those that it does not know. -/
inductive FrameType where
  | data | headers | cancelPush | settings | pushPromise | goaway | maxPushId
  | priorityUpdateRequest | priorityUpdatePush
  | unknown (id : ℕ)
  deriving DecidableEq

/-- The frame type of a number. -/
def FrameType.ofNat (id : ℕ) : FrameType :=
  if id = 0 then .data
  else if id = 1 then .headers
  else if id = 3 then .cancelPush
  else if id = 4 then .settings
  else if id = 5 then .pushPromise
  else if id = 7 then .goaway
  else if id = 13 then .maxPushId
  else if id = 0xF0700 then .priorityUpdateRequest
  else if id = 0xF0701 then .priorityUpdatePush
  else .unknown id

/-- Whether a frame of this type may be received on a request stream. -/
def FrameType.onRequest (isClient : Bool) : FrameType → Bool
  | .data | .headers | .unknown _ => true
  | .pushPromise => isClient
  | _ => false

/-- `vhttp_http3_read_frame_t`; a DATA frame has no payload. -/
structure Frame where
  type : FrameType
  length : ℕ
  payload : Bytes

/-- What `vhttp_http3_read_frame` returns: a frame and the rest of the input,
`vhttp_HTTP3_ERROR_INCOMPLETE`, or another error. -/
inductive ReadResult where
  | frame (f : Frame) (rest : Bytes)
  | incomplete
  | tooLarge (type : FrameType)
  | unexpected

/-- `vhttp_http3_read_frame` on a request stream. -/
def readFrame (isClient : Bool) (maxFramePayloadSize : ℕ) (src : Bytes) : ReadResult :=
  match decodev src with
  | none => .incomplete
  | some (id, src) =>
    match decodev src with
    | none => .incomplete
    | some (length, src) =>
      let type := FrameType.ofNat id
      if type = .data then .frame ⟨type, length, []⟩ src
      else if maxFramePayloadSize < length then .tooLarge type
      else if src.length < length then .incomplete
      else if type.onRequest isClient then .frame ⟨type, length, src.take length⟩ (src.drop length)
      else .unexpected

variable {f : Frame} {isClient : Bool} {max : ℕ} {rest src : Bytes}

lemma decodev_rest {v : ℕ} (h : decodev src = some (v, rest)) :
    ∃ n, 0 < n ∧ n ≤ src.length ∧ rest = src.drop n := by
  cases src with
  | nil => cases h
  | cons b src =>
    unfold decodev at h
    dsimp only at h
    by_cases hb : b ≤ 0x3f
    · rw [if_pos hb] at h
      cases h
      exact ⟨1, Nat.one_pos, Nat.succ_le_of_lt (Nat.succ_pos _), rfl⟩
    · rw [if_neg hb] at h
      obtain ⟨hlen, h⟩ := Option.ite_none_left_eq_some.1 h
      cases h
      exact ⟨2 ^ (b.toNat / 64) - 1 + 1, Nat.succ_pos _,
        Nat.succ_le_succ (Nat.not_lt.1 hlen), by rw [drop_succ_cons]⟩

/-- A frame takes something off the input and leaves the rest of it. -/
theorem readFrame_rest (h : readFrame isClient max src = .frame f rest) :
    ∃ n, 0 < n ∧ n ≤ src.length ∧ rest = src.drop n := by
  unfold readFrame at h
  cases ht : decodev src with
  | none =>
    rw [ht] at h
    cases h
  | some type =>
    obtain ⟨id, src1⟩ := type
    obtain ⟨n, hn, hnl, rfl⟩ := decodev_rest ht
    rw [ht] at h
    dsimp only at h
    cases hl : decodev (src.drop n) with
    | none =>
      rw [hl] at h
      cases h
    | some length =>
      obtain ⟨len, src2⟩ := length
      obtain ⟨m, hm, he, rfl⟩ := decodev_rest hl
      rw [hl] at h
      rw [length_drop] at he
      dsimp only at h
      repeat' split at h
      all_goals cases h
      · exact ⟨n + m, by omega, by omega, drop_drop⟩
      · rename_i hlen _
        rw [Nat.not_lt, length_drop, length_drop] at hlen
        exact ⟨n + m + len, by omega, by omega, by
          rw [drop_drop, drop_drop, Nat.add_assoc]⟩

/-- The rest is shorter than the input. -/
lemma length_rest_lt
    (h : readFrame isClient max src = .frame f rest) : rest.length < src.length := by
  obtain ⟨n, hpos, hl, rfl⟩ := readFrame_rest h
  rw [length_drop]
  omega

end Vhttp.Http3
