import Vhttp.Hpack.Integer

/-!
# The required insert count of QPACK

`parse_decode_context` of `lib/http3/qpack.c`. A header block starts with the number of inserts it
needs, modulo twice the number of entries that the table can have. That the encoded value is not
larger than this modulus is not checked.

* `insertCount_iff`: the encoded values that are handled as they should be.
* `insertCount_overrun`: one that makes a stream wait for inserts that can never be sent.
-/

namespace Vhttp.Qpack

open Hpack Nat

/-- What `parse_decode_context` sees of `vhttp_qpack_decoder_t`; `tableInserts` is
`qpack_table_total_inserts`, and `blocked` the ids and required counts of the streams in
`blocked_streams`. -/
structure Decoder where
  headerTableSize : UInt32
  totalInserts : ℕ
  tableInserts : ℤ
  maxBlocked : ℕ
  blocked : List (ℤ × ℤ)

/-- `max_entries`, as `vhttp_qpack_create_decoder` sets it. -/
def maxEntries (headerTableSize : UInt32) : ℕ := headerTableSize.toNat / 32

/-- `PTLS_QUICINT_MAX`. -/
def quicintMax : ℕ := 2 ^ 62 - 1

/-- The reconstruction of `req_insert_count`. The sums are taken in 64 bits; those of 2⁶³ and more
are negative as an `int64_t`. -/
def reqInsertCount (maxEntries totalInserts encoded : ℕ) : Option ℕ :=
  if encoded = 0 then some 0
  else if maxEntries = 0 then none
  else
    let fullRange := 2 * maxEntries % 2 ^ 32
    let maxValue := (totalInserts + maxEntries) % 2 ^ 64
    let rounded := maxValue / fullRange * fullRange
    let count := (rounded + encoded - 1) % 2 ^ 64
    if maxValue < count ∧ (2 ^ 63 ≤ count ∨ count ≤ fullRange) then none
    else
      let count := if maxValue < count then count - fullRange else count
      if count = 0 then none
      else if quicintMax < count ∧ count < 2 ^ 63 then none
      else some count

/-- What `parse_decode_context` returns. -/
inductive Context where
  | ready (reqInsertCount baseIndex : ℤ) (rest : Bytes)
  /-- `vhttp_HTTP3_ERROR_INCOMPLETE`: the stream waits for inserts -/
  | blocked (reqInsertCount : ℤ)
  | failed
  deriving DecidableEq

/-- `parse_decode_context`, but for the change of `blocked_streams` by `decoder_link_blocked`. -/
def parseDecodeContext (d : Decoder) (src : Bytes) : Context :=
  match decodeInt src 8 with
  | .error _ => .failed
  | .ok (encoded, src) =>
    match reqInsertCount (maxEntries d.headerTableSize) d.totalInserts encoded, src with
    | some count, octet :: _ =>
      match decodeInt src 7 with
      | .error _ => .failed
      | .ok (deltaBase, rest) =>
        let count := (count : ℤ).bmod (2 ^ 64)
        let baseIndex := if octet &&& 0x80 = 0 then count + deltaBase else count - deltaBase - 1
        if quicintMax < deltaBase ∨ baseIndex < 0 then .failed
        else if count < d.tableInserts then .ready count baseIndex rest
        else if d.maxBlocked ≤ d.blocked.length + 1 then .failed
        else .blocked count
    | _, _ => .failed

/-- The count that an encoded value stands for, after `T` inserts. -/
def Encodes (M T E R : ℕ) : Prop :=
  E ≤ 2 * M ∧ max 1 (T + 1 - M) ≤ R ∧ R ≤ T + M ∧ E = R % (2 * M) + 1

variable {M T E R : ℕ}

/-- Without wrap-around: the last number with the encoded remainder up to `T + M`. -/
lemma reqInsertCount_eq (hM : 0 < M) (hM' : M < 2 ^ 27) (hT : T < 2 ^ 62) (hE : 0 < E)
    (hE' : E < 2 ^ 63) : reqInsertCount M T E = let count := (T + M) / (2 * M) * (2 * M) + E - 1
      if T + M < count ∧ (2 ^ 63 ≤ count ∨ count ≤ 2 * M) then none
      else
        let count := if T + M < count then count - 2 * M else count
        if count = 0 then none else if quicintMax < count then none else some count := by
  have hd : (T + M) / (2 * M) * (2 * M) ≤ T + M := div_mul_le_self _ _
  unfold reqInsertCount
  rw [if_neg hE.ne', if_neg hM.ne', mod_eq_of_lt (show 2 * M < 2 ^ 32 by omega),
    mod_eq_of_lt (show T + M < 2 ^ 64 by omega)]
  dsimp only
  generalize (T + M) / (2 * M) * (2 * M) = rounded at hd ⊢
  rw [mod_eq_of_lt (show rounded + E - 1 < 2 ^ 64 by omega)]
  split
  · rfl
  · next ho =>
    have hl : (if T + M < rounded + E - 1 then rounded + E - 1 - 2 * M else rounded + E - 1)
        < 2 ^ 63 := by
      split <;> omega
    simp only [hl, and_true]

/-- Multiples of the modulus are at least the modulus apart. -/
lemma mul_add_le {N q r : ℕ} (h : q < r) : N * q + N ≤ N * r := by
  rw [← mul_succ]
  exact mul_le_mul_left N h

/-- The count is the number with the encoded remainder among the `2 * M` up to `T + M`. -/
lemma encodes_iff (hM : 0 < M) (hE : 0 < E) (hle : E ≤ 2 * M) : Encodes M T E R ↔ R ≠ 0 ∧
      if T + M < (T + M) / (2 * M) * (2 * M) + E - 1 then
        R + 2 * M = (T + M) / (2 * M) * (2 * M) + E - 1
      else R = (T + M) / (2 * M) * (2 * M) + E - 1 := by
  have hpos : 0 < 2 * M := by omega
  have ha := div_add_mod (T + M) (2 * M)
  have hl' := mod_lt (T + M) hpos
  have hR := div_add_mod R (2 * M)
  rw [mul_comm ((T + M) / (2 * M))]
  generalize (T + M) / (2 * M) = q at ha ⊢
  generalize he : (T + M) % (2 * M) = rem at ha hl'
  unfold Encodes
  constructor
  · rintro ⟨-, hl, hh, rfl⟩
    refine ⟨by omega, ?_⟩
    have hm := mod_lt R hpos
    generalize R % (2 * M) = m at hR hm ⊢
    generalize hr : R / (2 * M) = r at hR
    rcases lt_trichotomy r q with ht | rfl | hg
    · obtain rfl : r + 1 = q := by
        by_contra hne
        have h1 := mul_add_le (N := 2 * M) (show r + 1 < q by omega)
        rw [mul_succ] at h1
        omega
      rw [mul_succ] at ha ⊢
      rw [if_pos] <;> omega
    · rw [if_neg] <;> omega
    · have h1 := mul_add_le (N := 2 * M) hg
      omega
  · rintro ⟨hne, hc⟩
    have hm : (2 * M * q + (E - 1)) % (2 * M) = E - 1 := by
      rw [mul_add_mod, mod_eq_of_lt (by omega)]
    split at hc
    · refine ⟨hle, by omega, by omega, ?_⟩
      rw [← Nat.add_mod_right, hc, Nat.add_sub_assoc hE, hm]
      omega
    · refine ⟨hle, by omega, by omega, ?_⟩
      rw [hc, Nat.add_sub_assoc hE, hm]
      omega

/-- The encoded value is not too large and its count is not beyond what the streams of QUIC can
carry, or it is too large but refused: it is twice the number of entries and one more, before that
many inserts, or it stands for a number that QUIC cannot carry. -/
def Sane (M T E : ℕ) : Prop :=
  if E ≤ 2 * M then ∀ R, Encodes M T E R → R ≤ quicintMax
  else T < M ∧ E = 2 * M + 1 ∨ quicintMax + 2 * M < (T + M) / (2 * M) * (2 * M) + E - 1

/-- `parse_decode_context` reconstructs exactly the counts that the encoding stands for, if and
only if the encoded value is sane. -/
theorem insertCount_iff {headerTableSize : UInt32} (hM : M = maxEntries headerTableSize)
    (hpos : 0 < M) (hT : T < 2 ^ 62) (hE : 0 < E) (hE' : E < 2 ^ 63) :
    (∀ R, reqInsertCount M T E = some R ↔ Encodes M T E R) ↔ Sane M T E := by
  have hM' : M < 2 ^ 27 := by
    have := headerTableSize.toNat_lt
    unfold maxEntries at hM
    omega
  have hd : (T + M) / (2 * M) * (2 * M) ≤ T + M := div_mul_le_self _ _
  unfold Sane
  split_ifs with hl
  · have hc : ∀ R, reqInsertCount M T E = some R ↔ Encodes M T E R ∧ R ≤ quicintMax := by
      intro R
      rw [reqInsertCount_eq hpos hM' hT hE hE', encodes_iff hpos hE hl]
      generalize (T + M) / (2 * M) * (2 * M) = rounded at hd ⊢
      dsimp only
      split_ifs <;> simp only [Option.some.injEq, false_iff] <;> omega
    simp only [hc, and_iff_left_iff_imp]
  · have hn : ∀ R, ¬Encodes M T E R := fun R h => hl h.1
    have hf : (T + M) / (2 * M) * (2 * M) = 0 ∧ T < M ∨
        2 * M ≤ (T + M) / (2 * M) * (2 * M) ∧ M ≤ T := by
      rcases lt_or_ge T M with ht | hg
      · exact .inl ⟨by rw [div_eq_of_lt (by omega), zero_mul], ht⟩
      · refine .inr ⟨Nat.le_mul_of_pos_left _ (Nat.div_pos (by omega) (by omega)), hg⟩
    have ha := lt_div_mul_add (show 0 < 2 * M by omega) (a := T + M)
    simp only [hn, iff_false, ← Option.eq_none_iff_forall_ne_some]
    rw [reqInsertCount_eq hpos hM' hT hE hE']
    generalize (T + M) / (2 * M) * (2 * M) = rounded at hd hf ha ⊢
    dsimp only [quicintMax]
    split_ifs <;> simp only [true_iff, false_iff] <;> omega

/-- The first insert, before it has come. -/
theorem insertCount_iff_first : reqInsertCount 4 0 2 = some 1 ∧ Encodes 4 0 2 1 := by
  have hs : Sane 4 0 2 := by
    rintro R ⟨-, -, hR, -⟩
    exact hR.trans (by decide)
  have h := (insertCount_iff (show 4 = maxEntries 128 from rfl) (by decide) (by decide)
    (by decide) (by decide)).2 hs 1
  exact ⟨h.2 (by unfold Encodes; decide), by unfold Encodes; decide⟩

/-- After ten inserts into a table of two entries, a stream is made to wait for 108. -/
theorem insertCount_overrun : ¬Encodes 2 10 101 108 ∧
    parseDecodeContext ⟨64, 10, 11, 100, []⟩ [101, 0] = .blocked 108 := by
  exact ⟨fun h => absurd h.1 (by decide), by decide +kernel⟩

end Vhttp.Qpack
