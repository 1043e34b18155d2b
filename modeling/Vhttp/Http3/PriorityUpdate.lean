import Vhttp.Http3.Frame

/-!
# PRIORITY_UPDATE frames

`vhttp_http3_encode_priority_update_frame` and `vhttp_http3_decode_priority_update_frame` of
`lib/http3/frame.c`. The encoder writes the whole frame, but the pointer it returns is not moved
behind the value.

* `priorityUpdate_iff`: the frames that are written and read back as they should be.
* `priorityUpdate_urgency`: a frame with a value, where the pointer is not at its end.
-/

namespace Vhttp.Http3

open List Nat

/-! ## Variable-length integers -/

/-- `quicly_encodev_capacity`. -/
def encodevCapacity (v : ℕ) : ℕ :=
  if v ≤ 63 then 1 else if v ≤ 16383 then 2 else if v ≤ 1073741823 then 4 else 8

/-- The lowest `n` octets of a number, the highest first. -/
def octets (n w : ℕ) : Bytes := (range n).reverse.map fun i => UInt8.ofNat (w / 256 ^ i)

/-- `quicly_encodev`; the two highest bits tell how many octets there are. -/
def encodev (v : ℕ) : Bytes :=
  let n := encodevCapacity v
  octets n (v + n.log2 * (64 * 256 ^ (n - 1)))

@[simp] lemma length_octets (n w : ℕ) : (octets n w).length = n := by simp [octets]

lemma octets_succ (n w : ℕ) : octets (n + 1) w = UInt8.ofNat (w / 256 ^ n) :: octets n w := by
  simp [octets, range_succ]

lemma foldl_octets (n w a : ℕ) :
    (octets n w).foldl (fun v c => v * 256 + c.toNat) a = a * 256 ^ n + w % 256 ^ n := by
  induction n generalizing a with
  | zero => simp [octets, mod_one]
  | succ n ih =>
    rw [octets_succ, foldl_cons, ih, UInt8.toNat_ofNat', mod_pow_succ (b := 256)]
    ring

lemma encodevCapacity_le (v : ℕ) : encodevCapacity v ≤ 8 := by
  unfold encodevCapacity
  split_ifs <;> omega

/-- An integer of `2 ^ k` octets is read back, whatever follows it. -/
lemma decodev_octets {k m v : ℕ} (hm : 2 ^ k = m + 1) (hk : 1 ≤ k) (hk' : k < 4)
    (hv : v < 64 * 256 ^ m) (rest : Bytes) :
    decodev (octets (m + 1) (v + k * (64 * 256 ^ m)) ++ rest) = some (v, rest) := by
  have hpos : 0 < 256 ^ m := Nat.pow_pos (by decide)
  have hq : v / 256 ^ m < 64 := (div_lt_iff_lt_mul hpos).2 hv
  have hh : v + k * (64 * 256 ^ m) = v + 64 * k * 256 ^ m := by ring
  have hf : (UInt8.ofNat ((v + k * (64 * 256 ^ m)) / 256 ^ m)).toNat = v / 256 ^ m + 64 * k := by
    rw [UInt8.toNat_ofNat', hh, add_mul_div_right _ _ hpos]
    exact mod_eq_of_lt (show _ < 256 by omega)
  have hlf : 2 ^ ((v / 256 ^ m + 64 * k) / 64) - 1 = m := by
    rw [add_mul_div_left _ _ (by decide), div_eq_of_lt hq, zero_add, hm]
    rfl
  rw [octets_succ, cons_append, decodev, if_neg]
  · rw [hf, hlf]
    rw [if_neg (by simp), take_left' (length_octets ..), drop_left' (length_octets ..),
      foldl_octets, hh, add_mul_mod_self_right, add_mul_mod_self_left,
      mod_eq_of_lt hq, div_add_mod']
  · rw [UInt8.le_iff_toNat_le, hf]
    intro hl
    have hl : 64 * k ≤ 63 := (le_add_left _ _).trans hl
    omega

lemma decodev_encodev {v : ℕ} (hv : v < 2 ^ 62) (rest : Bytes) :
    decodev (encodev v ++ rest) = some (v, rest) := by
  unfold encodev encodevCapacity
  split_ifs with h1 h2 h4
  · have hv : (UInt8.ofNat v).toNat = v := UInt8.toNat_ofNat_of_lt' (show v < 256 by omega)
    have hl : log2 1 = 0 := by decide
    simp [octets, decodev, UInt8.le_iff_toNat_le, hl, hv, h1, -UInt8.toNat_ofNat']
  · exact decodev_octets (k := 1) (m := 1) rfl (by omega) (by omega) (by omega) rest
  · exact decodev_octets (k := 2) (m := 3) rfl (by omega) (by omega) (by omega) rest
  · exact decodev_octets (k := 3) (m := 7) rfl (by omega) (by omega) (by omega) rest

/-! ## Frames -/

/-- `vhttp_http3_priority_update_frame_t`. -/
structure PriorityUpdate where
  elementIsPush : Bool
  element : ℕ
  value : Bytes

namespace PriorityUpdate

/-- `vhttp_HTTP3_FRAME_TYPE_PRIORITY_UPDATE_PUSH` and
`vhttp_HTTP3_FRAME_TYPE_PRIORITY_UPDATE_REQUEST`. -/
def frameType (elementIsPush : Bool) : ℕ := if elementIsPush then 0xF0701 else 0xF0700

/-- `vhttp_http3_priority_update_frame_capacity`. -/
def capacity (frame : PriorityUpdate) : ℕ := 4 + 8 + 8 + frame.value.length

/-- `vhttp_http3_encode_priority_update_frame`: the octets that are written, and how far the
pointer that is returned is from the first of them. -/
def encode (frame : PriorityUpdate) : Bytes × ℕ :=
  let head := encodev (frameType frame.elementIsPush) ++
    encodev (encodevCapacity frame.element + frame.value.length) ++ encodev frame.element
  (head ++ frame.value, head.length)

/-- The stream ids that an element may have: `quicly_stream_is_client_initiated` and
`quicly_stream_is_unidirectional`. -/
def isElement (isPush : Bool) (element : ℕ) : Bool :=
  if isPush then element % 2 = 1 ∧ element / 2 % 2 = 1 else element % 2 = 0 ∧ element / 2 % 2 = 0

/-- `vhttp_http3_decode_priority_update_frame`; `none` for `vhttp_HTTP3_ERROR_FRAME`. -/
def decode (isPush : Bool) (payload : Bytes) : Option PriorityUpdate :=
  if payload = [] then none
  else do
    let (element, rest) ← decodev payload
    if isElement isPush element then some ⟨isPush, element, rest⟩ else none

/-- What is written is a complete frame within the capacity, which ends where the pointer points,
and its payload is read back as the frame. -/
def RoundTrip (frame : PriorityUpdate) : Prop :=
  let (written, returned) := frame.encode
  returned = written.length ∧ written.length ≤ frame.capacity ∧
    ∃ afterType payload,
      decodev written = some (frameType frame.elementIsPush, afterType) ∧
      decodev afterType = some (payload.length, payload) ∧
      decode frame.elementIsPush payload = some frame

/-- All but the pointer is right, as long as the length of the payload can be encoded. -/
lemma encode_complete {frame : PriorityUpdate} (he : frame.element < 2 ^ 62)
    (hk : isElement frame.elementIsPush frame.element)
    (hlen : encodevCapacity frame.element + frame.value.length < 2 ^ 62) :
    frame.encode.1.length ≤ frame.capacity ∧ ∃ afterType payload,
      decodev frame.encode.1 = some (frameType frame.elementIsPush, afterType) ∧
      decodev afterType = some (payload.length, payload) ∧
      decode frame.elementIsPush payload = some frame := by
  have ht : frameType frame.elementIsPush < 2 ^ 62 ∧
      encodevCapacity (frameType frame.elementIsPush) = 4 := by
    cases frame.elementIsPush <;> decide
  have hp : (encodev frame.element ++ frame.value).length =
      encodevCapacity frame.element + frame.value.length := by simp [encodev]
  refine ⟨?_, encodev (encodevCapacity frame.element + frame.value.length) ++
    (encodev frame.element ++ frame.value), encodev frame.element ++ frame.value, ?_, ?_, ?_⟩
  · have h1 := encodevCapacity_le frame.element
    have h2 := encodevCapacity_le (encodevCapacity frame.element + frame.value.length)
    simp only [encode, capacity, encodev, length_append, length_octets, ht.2]
    omega
  · simp only [encode, append_assoc]
    exact decodev_encodev ht.1 _
  · rw [hp]
    exact decodev_encodev hlen _
  · have hne : encodev frame.element ++ frame.value ≠ [] := by
      rw [← length_pos_iff, hp]
      unfold encodevCapacity
      split_ifs <;> omega
    rw [decode, if_neg hne, decodev_encodev he]
    exact if_pos hk

end PriorityUpdate

/-- A frame is written and read back as it should be if and only if its value is empty. -/
theorem priorityUpdate_iff {frame : PriorityUpdate} (helement : frame.element < 2 ^ 62)
    (hkind : PriorityUpdate.isElement frame.elementIsPush frame.element) :
    frame.RoundTrip ↔ frame.value = [] := by
  constructor
  · rintro ⟨hr, -⟩
    have hlen : frame.encode.2 = frame.encode.2 + frame.value.length :=
      hr.trans length_append
    exact eq_nil_of_length_eq_zero (left_eq_add.1 hlen)
  · intro hn
    refine ⟨?_, PriorityUpdate.encode_complete helement hkind ?_⟩
    · simp only [hn, append_nil]
    · have := encodevCapacity_le frame.element
      rw [hn, length_nil]
      omega

/-- An empty priority. -/
theorem priorityUpdate_iff_empty : PriorityUpdate.RoundTrip ⟨false, 4, []⟩ :=
  (@priorityUpdate_iff ⟨false, 4, []⟩ (by decide) (by decide)).2 rfl

/-- The frame of nine octets is complete, and the pointer is at its sixth. -/
theorem priorityUpdate_urgency : (PriorityUpdate.encode ⟨false, 4, ascii "u=1"⟩).1.length = 9 ∧
      (PriorityUpdate.encode ⟨false, 4, ascii "u=1"⟩).2 = 6 ∧
      ¬PriorityUpdate.RoundTrip ⟨false, 4, ascii "u=1"⟩ := by
  refine ⟨by decide, by decide, fun h => ?_⟩
  exact absurd h.1 (by decide)

end Vhttp.Http3
