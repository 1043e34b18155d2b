import Vhttp.Http2.Frame

/-!
# HPACK integers

`vhttp_hpack_decode_int` of `lib/http2/hpack.c`, which QPACK uses too, and the encoder. The first
octet has its upper bits in use; an integer that does not fit the lower `prefixBits` ones goes on in
groups of seven bits, the lowest first.

* `decodeInt_encodeInt`: the decoder reads back what was encoded, waits for more of any beginning of
  it, and never returns anything but the number that the octets stand for.
-/

namespace Vhttp.Hpack

open Nat

open Http2 (ErrorCode)

/-- `INT64_MAX`. -/
def int64Max : ℕ := 2 ^ 63 - 1

/-- `value + ((uint64_t)(octet & 127) << shift)`, in 64 bits. -/
def addGroup (value : ℕ) (octet : UInt8) (shift : ℕ) : ℕ :=
  (value + (octet &&& 127).toNat <<< shift) % 2 ^ 64

/-- The loop over the continuation octets; `n` of those that cannot cause an overflow are
left, and the one after them is the last. -/
def decodeIntRest : ℕ → ℕ → ℕ → Bytes → Except ErrorCode (ℕ × Bytes)
  | _, _, _, [] => .error .incomplete
  | 0, shift, value, octet :: src =>
    if octet &&& 128 ≠ 0 then .error .compression
    else if int64Max < addGroup value octet shift then .error .compression
    else .ok (addGroup value octet shift, src)
  | n + 1, shift, value, octet :: src =>
    if octet &&& 128 = 0 then .ok (addGroup value octet shift, src)
    else decodeIntRest n (shift + 7) (addGroup value octet shift) src

/-- `vhttp_hpack_decode_int`: the value and what is left of the input. -/
def decodeInt (src : Bytes) (prefixBits : ℕ) : Except ErrorCode (ℕ × Bytes) :=
  match src with
  | [] => .error .incomplete
  | octet :: src =>
    let prefixMax := 2 ^ prefixBits - 1
    let value := octet.toNat &&& prefixMax
    if value ≠ prefixMax then .ok (value, src)
    else decodeIntRest 8 0 prefixMax src

/-- The loop of `vhttp_hpack_encode_int`, and the octet behind it. -/
def encodeIntRest (value : ℕ) : Bytes :=
  if value < 128 then [.ofNat value] else .ofNat (128 ||| value) :: encodeIntRest (value / 128)

/-- `vhttp_hpack_encode_int`; `first` is what the first octet has been set to. -/
def encodeInt (first : UInt8) (value prefixBits : ℕ) : Bytes :=
  if value < 2 ^ prefixBits - 1 then [first ||| .ofNat value]
  else (first ||| .ofNat (2 ^ prefixBits - 1)) :: encodeIntRest (value - (2 ^ prefixBits - 1))

/-- The number that groups of seven bits stand for. -/
def groups : Bytes → ℕ
  | [] => 0
  | octet :: octets => octet.toNat % 128 + 128 * groups octets

/-- The number that an encoded integer stands for. -/
def denotes (prefixBits : ℕ) : Bytes → ℕ
  | [] => 0
  | octet :: octets => octet.toNat % 2 ^ prefixBits + groups octets

/-- A decoder reads a value back from its encoding, and waits for more of any beginning of it. -/
def ReadsBack (f : Bytes → Except ErrorCode (ℕ × Bytes)) (encoded : Bytes) (value : ℕ) : Prop :=
  (∀ rest, f (encoded ++ rest) = .ok (value, rest)) ∧
    ∀ xs, xs <+: encoded → xs ≠ encoded → f xs = .error .incomplete

variable {acc n p shift v : ℕ} {octet : UInt8} {encoded rest src : Bytes}
  {f g : Bytes → Except ErrorCode (ℕ × Bytes)}

lemma readsBack_nil (v : ℕ) : ReadsBack (fun src => .ok (v, src)) [] v :=
  ⟨fun _ => rfl, by simp⟩

lemma ReadsBack.cons (h : ReadsBack g encoded v) (hn : f [] = .error .incomplete)
    (hc : ∀ src, f (octet :: src) = g src) : ReadsBack f (octet :: encoded) v := by
  refine ⟨fun rest => (hc _).trans (h.1 rest), fun xs hp hne => ?_⟩
  cases xs with
  | nil => exact hn
  | cons x xs =>
    obtain ⟨rfl, hx⟩ := List.cons_prefix_cons.1 hp
    exact (hc xs).trans (h.2 xs hx fun h => hne (by rw [h]))

lemma and_128_eq_zero (octet : UInt8) : octet &&& 128 = 0 ↔ octet.toNat < 128 := by
  have h : ∀ x : Fin 256, UInt8.ofNat x &&& 128 = 0 ↔ x.val < 128 := by decide +kernel
  simpa using h ⟨octet.toNat, octet.toNat_lt⟩

lemma toNat_or_128 (v : ℕ) : (UInt8.ofNat (128 ||| v)).toNat = 128 + v % 128 := by
  have h : ∀ x : Fin 256, 128 ||| x.val = 128 + x.val % 128 := by decide +kernel
  have hv : 128 ||| v % 2 ^ 8 = _ := h ⟨v % 2 ^ 8, mod_lt _ (by decide)⟩
  rw [UInt8.toNat_ofNat', or_mod_two_pow, mod_eq_of_lt (by decide), hv]
  exact congrArg (128 + ·) (mod_mod_of_dvd v (by decide))

section Sums

variable (hs : shift + 7 * n = 56) (ha : acc < 2 ^ shift + 255)
include hs ha

/-- A group is added without wrap-around. -/
lemma addGroup_eq (octet : UInt8) :
    addGroup acc octet shift = acc + octet.toNat % 128 * 2 ^ shift ∧
      acc + octet.toNat % 128 * 2 ^ shift < 2 ^ (shift + 7) + 255 := by
  have hm : 2 ^ shift ≤ 2 ^ 56 := Nat.pow_le_pow_right (by decide) (by omega)
  have hg : octet.toNat % 128 * 2 ^ shift ≤ 127 * 2 ^ shift := mul_le_mul_right _ (by omega)
  have h7 : (octet &&& 127).toNat = octet.toNat % 128 := by
    rw [UInt8.toNat_and]
    exact and_two_pow_sub_one_eq_mod _ 7
  rw [addGroup, h7, shiftLeft_eq, pow_add]
  omega

lemma decodeIntRest_readsBack (hv : acc + v * 2 ^ shift < 2 ^ 63) :
    ReadsBack (decodeIntRest n shift acc) (encodeIntRest v) (acc + v * 2 ^ shift) := by
  fun_induction encodeIntRest v generalizing n shift acc with
  | case1 v h =>
    have hn : (UInt8.ofNat v).toNat = v := UInt8.toNat_ofNat_of_lt' (h.trans (by decide))
    have hg := (addGroup_eq hs ha (.ofNat v)).1
    rw [hn, mod_eq_of_lt h] at hg
    have hc := (and_128_eq_zero (.ofNat v)).2 (hn.trans_lt h)
    cases n with
    | zero =>
      refine (readsBack_nil _).cons rfl fun src => ?_
      simpa [decodeIntRest, hc, hg, int64Max] using le_pred_of_lt hv
    | succ n => exact (readsBack_nil _).cons rfl fun src => by simp [decodeIntRest, hc, hg]
  | case2 v h ih =>
    have hn := toNat_or_128 v
    obtain ⟨hg, hb⟩ := addGroup_eq hs ha (.ofNat (128 ||| v))
    have he : acc + v % 128 * 2 ^ shift + v / 128 * 2 ^ (shift + 7) = acc + v * 2 ^ shift := by
      rw [pow_add]
      nth_rewrite 3 [← div_add_mod v 128]
      ring
    rw [hn, add_mod_left, mod_mod] at hg hb
    cases n with
    | zero =>
      obtain rfl : shift = 56 := hs
      omega
    | succ n =>
      have hr := ih (n := n) (by omega) hb (he ▸ hv)
      rw [he] at hr
      refine hr.cons rfl fun src => ?_
      rw [decodeIntRest, hg, if_neg]
      rw [and_128_eq_zero]
      omega

/-- Whatever is accepted is the sum of the groups. -/
lemma decodeIntRest_ok (h : decodeIntRest n shift acc src = .ok (v, rest)) :
    ∃ used, src = used ++ rest ∧ v = acc + groups used * 2 ^ shift ∧ v < 2 ^ 63 := by
  induction n generalizing shift acc src with
  | zero =>
    cases src with
    | nil => cases h
    | cons octet src =>
      rw [decodeIntRest, (addGroup_eq hs ha octet).1] at h
      split_ifs at h with _ hi
      cases h
      exact ⟨[octet], rfl, by simp [groups], lt_succ_of_le (not_lt.1 hi)⟩
  | succ n ih =>
    cases src with
    | nil => cases h
    | cons octet src =>
      obtain ⟨hg, hb⟩ := addGroup_eq hs ha octet
      rw [decodeIntRest, hg] at h
      split_ifs at h
      · cases h
        have : 2 ^ (shift + 7) ≤ 2 ^ 56 := Nat.pow_le_pow_right (by decide) (by omega)
        exact ⟨[octet], rfl, by simp [groups], by omega⟩
      · obtain ⟨used, rfl, hu, hv⟩ := ih (by omega) hb h
        refine ⟨octet :: used, rfl, ?_, hv⟩
        rw [hu, groups, pow_add]
        ring

end Sums

/-- **The coding of integers.**  What is encoded is read back, and whatever is accepted is the
number that the octets stand for. -/
theorem decodeInt_encodeInt (hp : p ≤ 8) :
    (∀ (first : UInt8) (value : ℕ), first.toNat % 2 ^ p = 0 → value < 2 ^ 63 →
      ReadsBack (decodeInt · p) (encodeInt first value p) value) ∧
    ∀ src value rest, decodeInt src p = .ok (value, rest) →
      ∃ used, src = used ++ rest ∧ value = denotes p used ∧ value < 2 ^ 63 := by
  have hm : 2 ^ p ≤ 2 ^ 8 := Nat.pow_le_pow_right (by decide) hp
  refine ⟨fun first value hf hv => ?_, fun src value rest h => ?_⟩
  · have ho {v src} (h : v < 2 ^ p) : decodeInt ((first ||| .ofNat v) :: src) p =
        if v ≠ 2 ^ p - 1 then .ok (v, src) else decodeIntRest 8 0 (2 ^ p - 1) src := by
      have hn : (first ||| UInt8.ofNat v).toNat &&& (2 ^ p - 1) = v := by
        rw [UInt8.toNat_or, UInt8.toNat_ofNat_of_lt' (h.trans_le hm),
          and_two_pow_sub_one_eq_mod, or_mod_two_pow, hf, zero_or, mod_eq_of_lt h]
      rw [decodeInt, hn]
    unfold encodeInt
    split
    · next hl =>
      exact (readsBack_nil _).cons rfl fun src => by rw [ho (by omega), if_pos hl.ne]
    · next hl =>
      have hr := decodeIntRest_readsBack (show 0 + 7 * 8 = 56 from rfl)
        (show 2 ^ p - 1 < 2 ^ 0 + 255 by omega)
        (show 2 ^ p - 1 + (value - (2 ^ p - 1)) * 2 ^ 0 < 2 ^ 63 by omega)
      rw [pow_zero, mul_one, Nat.add_sub_cancel' (not_lt.1 hl)] at hr
      exact hr.cons rfl fun src => by rw [ho (by omega), if_neg (not_not.2 rfl)]
  · cases src with
    | nil => cases h
    | cons octet src =>
      simp only [decodeInt, and_two_pow_sub_one_eq_mod] at h
      split_ifs at h with hq
      · cases h
        exact ⟨[octet], rfl, by simp [denotes, groups], by omega⟩
      · obtain ⟨used, rfl, hu, hv⟩ := decodeIntRest_ok (by rfl) (by omega) h
        refine ⟨octet :: used, rfl, ?_, hv⟩
        rw [hu, denotes, not_not.1 hq, pow_zero, mul_one]

/-- A number of three octets. -/
theorem decodeInt_encodeInt_five : ReadsBack (decodeInt · 5) (encodeInt 0xe0 1337 5) 1337 :=
  (decodeInt_encodeInt (by decide)).1 0xe0 1337 (by decide) (by decide)

end Vhttp.Hpack
