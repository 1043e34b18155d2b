import Vhttp.Bytes
import Vhttp.Lib.Decoder

/-!
# Chunked coding

`phr_decode_chunked` of `deps/picohttpparser`. The function works on a buffer in place; here it
takes the octets one by one (`Decoder.step`), and the data goes to a list.

* `feed_similar`: the octets left in the chunk do not matter before the first digit of a chunk
  size, if they are lost when it is read.
-/

namespace Vhttp.Http1

open Incremental (Step feed)

/-- Where the decoder is. -/
inductive ChunkState where
  | size
  | ext
  | data
  | crlf
  | trailersLineHead
  | trailersLineMiddle
  deriving DecidableEq

/-- `struct phr_chunked_decoder`. -/
structure Decoder where
  bytesLeftInChunk : ℕ
  consumeTrailer : Bool
  hexCount : ℕ
  state : ChunkState
  totalRead : ℕ
  totalOverhead : ℕ

/-- A decoder that is filled with zeros. -/
def Decoder.zero : Decoder := ⟨0, false, 0, .size, 0, 0⟩

/-- `decode_hex`. -/
def decodeHex (ch : UInt8) : Option ℕ :=
  if 48 ≤ ch.toNat ∧ ch.toNat ≤ 57 then some (ch.toNat - 48)
  else if 65 ≤ ch.toNat ∧ ch.toNat ≤ 70 then some (ch.toNat - 65 + 0xa)
  else if 97 ≤ ch.toNat ∧ ch.toNat ≤ 102 then some (ch.toNat - 97 + 0xa)
  else none

namespace Decoder

/-- An octet of the chunk extension; the line feed ends it. -/
def stepExt (d : Decoder) (ch : UInt8) : Step Decoder UInt8 :=
  if ch = 10 then
    if d.bytesLeftInChunk = 0 then
      if d.consumeTrailer then .next { d with state := .trailersLineHead } [] else .done d
    else .next { d with state := .data } []
  else .next d []

/-- An octet after the data of a chunk. -/
def stepCrlf (d : Decoder) (ch : UInt8) : Step Decoder UInt8 :=
  if ch = 13 then .next d []
  else if ch = 10 then .next { d with state := .size } []
  else .fail d

/-- An octet. -/
def step (d : Decoder) (ch : UInt8) : Step Decoder UInt8 :=
  match d.state with
  | .size =>
    match decodeHex ch with
    | none =>
      if d.hexCount = 0 then .fail d
      else if ch = 32 ∨ ch = 9 ∨ ch = 59 ∨ ch = 10 ∨ ch = 13 then
        stepExt { d with hexCount := 0, state := .ext } ch
      else .fail d
    | some v =>
      if d.hexCount = 16 then .fail d
      else .next { d with
        bytesLeftInChunk := (d.bytesLeftInChunk * 16 + v) % 2 ^ 64
        hexCount := d.hexCount + 1 } []
  | .ext => stepExt d ch
  | .data =>
    if d.bytesLeftInChunk = 0 then stepCrlf { d with state := .crlf } ch
    else .next { d with
      bytesLeftInChunk := d.bytesLeftInChunk - 1
      state := if d.bytesLeftInChunk = 1 then .crlf else .data } [ch]
  | .crlf => stepCrlf d ch
  | .trailersLineHead =>
    if ch = 13 then .next d []
    else if ch = 10 then .done d
    else .next { d with state := .trailersLineMiddle } []
  | .trailersLineMiddle =>
    if ch = 10 then .next { d with state := .trailersLineHead } [] else .next d []

end Decoder

/-- The return value of `phr_decode_chunked`: -1, -2, or the number of octets after the end. -/
inductive ChunkResult where
  | error
  | incomplete
  | complete (left : ℕ)
  deriving DecidableEq

/-- `phr_decode_chunked`: the decoder, the data and the return value. Too many octets that are not
data are an error. -/
def decodeChunked (d : Decoder) (buf : Bytes) : Decoder × Bytes × ChunkResult :=
  let (d, data, result) := feed Decoder.step { d with totalRead := d.totalRead + buf.length } buf
  match result with
  | .fail => (d, data, .error)
  | .done rest => (d, data, .complete rest.length)
  | .more =>
    let d := { d with totalOverhead := d.totalOverhead + (buf.length - data.length) }
    if 100 * 1024 ≤ d.totalOverhead ∧ d.totalRead - d.totalOverhead < d.totalRead / 4 then
      (d, data, .error)
    else (d, data, .incomplete)

/-- `phr_decode_chunked_is_in_data`. -/
def Decoder.isInData (d : Decoder) : Bool := d.state == .data

/-! ## Decoders that decode alike -/

/-- Two decoders that differ in the octets left in a chunk whose size has not begun. -/
structure Decoder.Similar (d e : Decoder) : Prop where
  consumeTrailer : d.consumeTrailer = e.consumeTrailer
  hexCount : d.hexCount = e.hexCount
  state : d.state = e.state
  bytesLeft : d.bytesLeftInChunk = e.bytesLeftInChunk ∨ d.state = .size ∧ d.hexCount = 0 ∧
    d.bytesLeftInChunk * 16 % 2 ^ 64 = e.bytesLeftInChunk * 16 % 2 ^ 64

namespace Decoder

variable {d e : Decoder}

/-- The decoders decode alike, and have counted the same. -/
structure Alike (d e : Decoder) : Prop extends d.Similar e where
  totalRead : d.totalRead = e.totalRead
  totalOverhead : d.totalOverhead = e.totalOverhead

/-- Once a chunk size has begun, the decoders are the same but for what they have counted. -/
lemma Similar.eq_of_ne (h : d.Similar e) (hs : d.state ≠ .size ∨ d.hexCount ≠ 0) :
    d.bytesLeftInChunk = e.bytesLeftInChunk := by
  rcases h.bytesLeft with h | ⟨hz, hh, -⟩
  · exact h
  · rcases hs with hs | hs
    · exact absurd hz hs
    · exact absurd hh hs

end Decoder

section Related

open Decoder

variable {R : Decoder → Decoder → Prop} {d e : Decoder}

/-- `R` compares what `Similar` does, and what has been counted. -/
def Lifts (R : Decoder → Decoder → Prop) (d e : Decoder) : Prop :=
  ∀ d' e', d'.totalRead = d.totalRead → d'.totalOverhead = d.totalOverhead →
    e'.totalRead = e.totalRead → e'.totalOverhead = e.totalOverhead → d'.Similar e' → R d' e'

variable (hR : Lifts R d e) (h : d.Similar e)
include hR h

lemma stepExt_related (hs : d.state ≠ .size) (ch : UInt8) :
    (stepExt d ch).Related R (stepExt e ch) := by
  have hl := h.eq_of_ne (.inl hs)
  unfold stepExt
  split
  · rw [← hl, ← h.consumeTrailer]
    split
    · split
      · refine .next ?_ _
        exact hR _ _ rfl rfl rfl rfl ⟨rfl, h.hexCount, rfl, .inl rfl⟩
      · refine .done ?_
        exact hR _ _ rfl rfl rfl rfl h
    · refine .next ?_ _
      exact hR _ _ rfl rfl rfl rfl ⟨rfl, h.hexCount, rfl, .inl rfl⟩
  · refine .next ?_ _
    exact hR _ _ rfl rfl rfl rfl h

lemma stepCrlf_related (hs : d.state ≠ .size) (ch : UInt8) :
    (stepCrlf d ch).Related R (stepCrlf e ch) := by
  have hl := h.eq_of_ne (.inl hs)
  unfold stepCrlf
  split
  · refine .next ?_ _
    exact hR _ _ rfl rfl rfl rfl h
  · split
    · refine .next ?_ _
      exact hR _ _ rfl rfl rfl rfl ⟨h.consumeTrailer, h.hexCount, rfl, .inl hl⟩
    · refine .fail ?_
      exact hR _ _ rfl rfl rfl rfl h

lemma step_related (ch : UInt8) : (step d ch).Related R (step e ch) := by
  have hs := h.state
  unfold step
  cases hd : d.state with
  | size =>
    rw [← hs, hd]
    cases hh : decodeHex ch with
    | none =>
      dsimp only
      rw [← h.hexCount]
      split
      · refine .fail ?_
        exact hR _ _ rfl rfl rfl rfl h
      · next hc =>
        have hl := h.eq_of_ne (.inr hc)
        split
        · apply stepExt_related
          · exact fun d' e' h1 h2 h3 h4 => hR d' e' h1 h2 h3 h4
          · exact ⟨h.consumeTrailer, rfl, rfl, .inl hl⟩
          · exact nofun
        · refine .fail ?_
          exact hR _ _ rfl rfl rfl rfl h
    | some v =>
      dsimp only
      rw [← h.hexCount]
      split
      · refine .fail ?_
        exact hR _ _ rfl rfl rfl rfl h
      · refine .next ?_ _
        refine hR _ _ rfl rfl rfl rfl ⟨h.consumeTrailer, rfl, rfl, .inl ?_⟩
        -- the octets that were left are lost, or the same
        rcases h.bytesLeft with hl | ⟨-, -, hl⟩
        · dsimp only
          rw [hl]
        · dsimp only
          rw [Nat.add_mod, hl, ← Nat.add_mod]
  | ext =>
    rw [← hs, hd]
    exact stepExt_related hR h (by rw [hd]; decide) ch
  | data =>
    have hl := h.eq_of_ne (.inl (by rw [hd]; decide))
    rw [← hs, hd]
    dsimp only
    rw [← hl]
    split
    · apply stepCrlf_related
      · exact fun d' e' h1 h2 h3 h4 => hR d' e' h1 h2 h3 h4
      · exact ⟨h.consumeTrailer, h.hexCount, rfl, .inl rfl⟩
      · exact nofun
    · refine .next ?_ _
      exact hR _ _ rfl rfl rfl rfl ⟨h.consumeTrailer, h.hexCount, rfl, .inl rfl⟩
  | crlf =>
    rw [← hs, hd]
    exact stepCrlf_related hR h (by rw [hd]; decide) ch
  | trailersLineHead =>
    have hl := h.eq_of_ne (.inl (by rw [hd]; decide))
    rw [← hs, hd]
    dsimp only
    split
    · refine .next ?_ _
      exact hR _ _ rfl rfl rfl rfl h
    · split
      · refine .done ?_
        exact hR _ _ rfl rfl rfl rfl h
      · refine .next ?_ _
        exact hR _ _ rfl rfl rfl rfl ⟨h.consumeTrailer, h.hexCount, rfl, .inl hl⟩
  | trailersLineMiddle =>
    have hl := h.eq_of_ne (.inl (by rw [hd]; decide))
    rw [← hs, hd]
    dsimp only
    split
    · refine .next ?_ _
      exact hR _ _ rfl rfl rfl rfl ⟨h.consumeTrailer, h.hexCount, rfl, .inl hl⟩
    · refine .next ?_ _
      exact hR _ _ rfl rfl rfl rfl h

end Related

/-- Similar decoders decode alike. -/
theorem feed_similar {d e : Decoder} (h : d.Similar e) (buf : Bytes) :
    (feed Decoder.step d buf).1.Similar (feed Decoder.step e buf).1 ∧
      (feed Decoder.step d buf).2 = (feed Decoder.step e buf).2 :=
  Incremental.feed_related (fun _ _ ch h => step_related (fun _ _ _ _ _ _ h => h) h ch) h buf

/-- Decoders that have also counted the same give the same data and return values. -/
lemma decodeChunked_alike {d e : Decoder} (h : d.Alike e) (buf : Bytes) :
    (decodeChunked d buf).1.Alike (decodeChunked e buf).1 ∧
      (decodeChunked d buf).2 = (decodeChunked e buf).2 := by
  have hs : Decoder.Alike { d with totalRead := d.totalRead + buf.length }
      { e with totalRead := e.totalRead + buf.length } :=
    ⟨⟨h.consumeTrailer, h.hexCount, h.state, h.bytesLeft⟩,
      congrArg (· + buf.length) h.totalRead, h.totalOverhead⟩
  have hstep : ∀ (d e : Decoder) ch, d.Alike e → (d.step ch).Related Decoder.Alike (e.step ch) := by
    intro d e ch h
    refine step_related ?_ h.toSimilar ch
    intro d' e' h1 h2 h3 h4 hi
    exact ⟨hi, by rw [h1, h3, h.totalRead], by rw [h2, h4, h.totalOverhead]⟩
  obtain ⟨ha, he⟩ := Incremental.feed_related hstep hs buf
  unfold decodeChunked
  generalize feed Decoder.step { d with totalRead := d.totalRead + buf.length } buf = x at ha he
  generalize feed Decoder.step { e with totalRead := e.totalRead + buf.length } buf = y at ha he
  obtain ⟨d', data, result⟩ := x
  obtain ⟨e', data', result'⟩ := y
  cases he
  cases result with
  | fail | done rest => exact ⟨ha, rfl⟩
  | more =>
    have ho : Decoder.Alike
        { d' with totalOverhead := d'.totalOverhead + (buf.length - data.length) }
        { e' with totalOverhead := e'.totalOverhead + (buf.length - data.length) } :=
      ⟨⟨ha.consumeTrailer, ha.hexCount, ha.state, ha.bytesLeft⟩, ha.totalRead,
        congrArg (· + (buf.length - data.length)) ha.totalOverhead⟩
    dsimp only
    rw [← ha.totalRead, ← ha.totalOverhead] at ho ⊢
    split
    · exact ⟨ho, rfl⟩
    · exact ⟨ho, rfl⟩

/-! ## Pieces of a body -/

variable {d d' : Decoder} {buf data : Bytes}

/-- The counters do not matter for what is decoded. -/
lemma feed_totalRead (d : Decoder) (n : ℕ) (buf : Bytes) :
    (feed Decoder.step d buf).1.Similar (feed Decoder.step { d with totalRead := n } buf).1 ∧
      (feed Decoder.step d buf).2 = (feed Decoder.step { d with totalRead := n } buf).2 := by
  have hs : d.Similar { d with totalRead := n } := ⟨rfl, rfl, rfl, .inl rfl⟩
  exact feed_similar hs buf

/-- After a piece that is not the last one, the decoder goes on with the rest. -/
lemma feed_of_incomplete (h : decodeChunked d buf = (d', data, .incomplete)) (rest : Bytes) :
    (feed Decoder.step d (buf ++ rest)).2 =
      (data ++ (feed Decoder.step d' rest).2.1, (feed Decoder.step d' rest).2.2) := by
  obtain ⟨hs, he⟩ := feed_totalRead d (d.totalRead + buf.length) buf
  unfold decodeChunked at h
  generalize feed Decoder.step { d with totalRead := d.totalRead + buf.length } buf = x
    at h hs he
  obtain ⟨d1, out, result⟩ := x
  cases result with
  | fail | done left => cases h
  | more =>
    dsimp only at h
    split at h
    · cases h
    · cases h
      rw [Incremental.feed_append (by rw [he]), he]
      have hn : (feed Decoder.step d buf).1.Similar
          { d1 with totalOverhead := d1.totalOverhead + (buf.length - data.length) } :=
        ⟨hs.consumeTrailer, hs.hexCount, hs.state, hs.bytesLeft⟩
      rw [(feed_similar hn rest).2]

/-- The last piece of a body. -/
lemma feed_of_complete {left : ℕ} (h : decodeChunked d buf = (d', data, .complete left)) :
    ∃ rest : Bytes, rest.length = left ∧ (feed Decoder.step d buf).2 = (data, .done rest) := by
  obtain ⟨-, he⟩ := feed_totalRead d (d.totalRead + buf.length) buf
  unfold decodeChunked at h
  generalize feed Decoder.step { d with totalRead := d.totalRead + buf.length } buf = x at h he
  obtain ⟨d1, out, result⟩ := x
  cases result with
  | fail => cases h
  | done rest =>
    cases h
    exact ⟨rest, rfl, he⟩
  | more =>
    dsimp only at h
    split at h
    · cases h
    · cases h

end Vhttp.Http1
