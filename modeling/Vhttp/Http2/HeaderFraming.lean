import Vhttp.Http2.Frame

/-!
# Header blocks in frames

The model of `fixup_frame_headers` of `lib/http2/hpack.c`. A header block has been appended to
the output behind room for one frame header; the function writes that header, and makes room for
those of the CONTINUATION frames where the block is longer than a frame may be.

* `fixupFrameHeaders_frames`: what is read back are the frames of the block.
* `fixupFrameHeaders_fatal`: the length of a frame has 24 bits.
-/

namespace Vhttp.Http2

open List

/-- `vhttp_http2_encode24u`. -/
def encode24u (n : ℕ) : Bytes := [.ofNat (n / 65536), .ofNat (n / 256), .ofNat n]

/-- `vhttp_http2_encode32u`. -/
def encode32u (n : ℕ) : Bytes :=
  [.ofNat (n / 16777216), .ofNat (n / 65536), .ofNat (n / 256), .ofNat n]

/-- `vhttp_http2_encode_frame_header`; `none` is `vhttp_fatal`. -/
def encodeFrameHeader (length : ℕ) (type flags : UInt8) (streamId : ℕ) : Option Bytes :=
  if length > 0xffffff then none
  else some (encode24u length ++ [type, flags] ++ encode32u streamId)

/-- The loop of `fixup_frame_headers`: `memmove` makes room at `off` for the next frame header.
Each turn but the last leaves less behind `off`. -/
def addContinuations (streamId maxFrameSize : ℕ) : ℕ → Bytes → ℕ → Option Bytes
  | 0, _, _ => none
  | fuel + 1, buf, off =>
    let left := buf.length - off
    if left ≤ maxFrameSize then do
      let header ← encodeFrameHeader left typeContinuation flagEndHeaders streamId
      some (buf.take off ++ header ++ buf.drop off)
    else do
      let header ← encodeFrameHeader maxFrameSize typeContinuation 0 streamId
      addContinuations streamId maxFrameSize fuel (buf.take off ++ header ++ buf.drop off)
        (off + frameHeaderSize + maxFrameSize)

/-- `fixup_frame_headers`; the room for the first frame header begins at `startAt`. -/
def fixupFrameHeaders (buf : Bytes) (startAt : ℕ) (type : UInt8) (streamId maxFrameSize : ℕ)
    (flags : UInt8) : Option Bytes :=
  let write (header : Bytes) := buf.take startAt ++ header ++ buf.drop (startAt + frameHeaderSize)
  let payloadSize := buf.length - startAt - frameHeaderSize
  if payloadSize ≤ maxFrameSize then
    (encodeFrameHeader payloadSize type (flagEndHeaders ||| flags) streamId).map write
  else do
    let header ← encodeFrameHeader maxFrameSize type flags streamId
    addContinuations streamId maxFrameSize buf.length (write header)
      (startAt + frameHeaderSize + maxFrameSize)

/-! ## Reading frames back -/

/-- Octets are read as frames by `vhttp_http2_decode_frame`, up to the end. -/
inductive ReadsFrames (maxFrameSize : ℕ) : Bytes → List Frame → Prop
  | nil : ReadsFrames maxFrameSize [] []
  | cons {src : Bytes} {frame : Frame} {frames : List Frame}
      (h : decodeFrame src maxFrameSize = .ok frame)
      (hrest : ReadsFrames maxFrameSize (src.drop (frameHeaderSize + frame.payload.length)) frames) :
      ReadsFrames maxFrameSize src (frame :: frames)

variable {block left payload room : Bytes} {flags type : UInt8} {frames : List Frame} {id max : ℕ}

/-- A frame is read back as it was written. -/
lemma encodeFrameHeader_reads (type flags : UInt8) (id : ℕ) (h : payload.length ≤ max)
    (hm : max ≤ 0xffffff) : ∃ hd, encodeFrameHeader payload.length type flags id = some hd ∧
      hd.length = frameHeaderSize ∧ ∀ rest frames, ReadsFrames max rest frames →
        ReadsFrames max (hd ++ payload ++ rest)
          (⟨type, flags, id % 2 ^ 31, payload⟩ :: frames) := by
  have hlen : decodeUnsigned (encode24u payload.length) = payload.length := by
    simp [decodeUnsigned, encode24u]
    omega
  have hi : decodeUnsigned (encode32u id) % 2 ^ 31 = id % 2 ^ 31 := by
    simp [decodeUnsigned, encode32u]
    omega
  refine ⟨_, if_neg (by omega), rfl, fun rest frames hr => .cons ?_ ?_⟩
  · unfold encode24u at hlen
    unfold encode32u at hi
    simp only [decodeFrame, encode24u, encode32u, frameHeaderSize, length_append, length_cons,
      length_nil]
    rw [if_neg (by omega)]
    simp only [cons_append, nil_append, take_succ_cons, take_zero, hlen, hi, drop_succ_cons,
      drop_zero, getD_cons_succ, getD_cons_zero]
    rw [if_neg (not_lt.2 h), if_neg (by omega), take_left]
  · rw [← drop_drop]
    simpa [encode24u, encode32u, frameHeaderSize] using hr

/-- The frames carry a header block: END_HEADERS is set on the last one, `flags` are set on the
first. -/
structure Carries (type flags : UInt8) (id max : ℕ) (block : Bytes) (frames : List Frame) :
    Prop where
  payloads : (frames.map Frame.payload).flatten = block
  each : ∀ i f, frames[i]? = some f → f.type = (if i = 0 then type else typeContinuation) ∧
    f.flags = ((if i = 0 then flags else 0) |||
      if i + 1 = frames.length then flagEndHeaders else 0) ∧
    f.streamId = id % 2 ^ 31 ∧ f.payload.length ≤ max
  nonempty : ∀ f ∈ frames.tail, f.payload ≠ []

lemma Carries.single (h : block.length ≤ max) :
    Carries type flags id max block [⟨type, flags ||| flagEndHeaders, id % 2 ^ 31, block⟩] := by
  refine ⟨by simp, fun i f hf => ?_, by simp⟩
  rw [getElem?_singleton] at hf
  split at hf
  · cases hf
    simp_all
  · cases hf

/-- A frame before CONTINUATION frames. -/
lemma Carries.cons (h : Carries typeContinuation 0 id max left frames) (type flags : UInt8)
    (hne : frames ≠ []) (hu : ∀ f ∈ frames, f.payload ≠ []) (hlen : payload.length ≤ max) :
    Carries type flags id max (payload ++ left)
      (⟨type, flags, id % 2 ^ 31, payload⟩ :: frames) := by
  refine ⟨by simp [h.payloads], fun i f hf => ?_, hu⟩
  cases i with
  | zero =>
    cases hf
    simp [hne, hlen]
  | succ i => simpa using h.each i f hf

/-- A block that does not fit in a frame: the first frame, and those that the loop of
`fixup_frame_headers` adds. -/
lemma addContinuations_frames (hpos : 0 < max) (hm : max ≤ 0xffffff) (hg : max < block.length)
    (fuel : ℕ) (hf : block.length ≤ max + fuel) (type flags : UInt8) (id : ℕ) (earlier : Bytes) :
    ∃ hd bytes frames, encodeFrameHeader max type flags id = some hd ∧
      addContinuations id max fuel (earlier ++ hd ++ block)
        (earlier.length + frameHeaderSize + max) = some (earlier ++ bytes) ∧
      ReadsFrames max bytes frames ∧ Carries type flags id max block frames ∧
      ∀ f ∈ frames, f.payload ≠ [] := by
  induction fuel generalizing earlier block type flags with
  | zero => omega
  | succ fuel ih =>
    have hlen : (block.take max).length = max := by
      rw [length_take]
      omega
    obtain ⟨hd, hh, hn, hr⟩ := encodeFrameHeader_reads type flags id hlen.le hm
    rw [hlen] at hh
    obtain ⟨left, hlf⟩ : ∃ left, block.drop max = left := ⟨_, rfl⟩
    have hne : left ≠ [] := by simpa [← hlf] using hg
    obtain ⟨bytes, frames, hu, hr', hc, hfu⟩ : ∃ bytes frames,
        addContinuations id max (fuel + 1) (earlier ++ hd ++ block.take max ++ left)
          (earlier ++ hd ++ block.take max).length =
            some (earlier ++ hd ++ block.take max ++ bytes) ∧ ReadsFrames max bytes frames ∧
        Carries typeContinuation 0 id max left frames ∧ ∀ f ∈ frames, f.payload ≠ [] := by
      generalize earlier ++ hd ++ block.take max = done
      rw [addContinuations]
      simp only [length_append, Nat.add_sub_cancel_left, take_left, drop_left]
      split
      · next he =>
        obtain ⟨hd, hh, -, hr⟩ :=
          encodeFrameHeader_reads typeContinuation flagEndHeaders id he hm
        refine ⟨hd ++ left ++ [], _, ?_, hr [] [] .nil, .single he, by simpa using hne⟩
        rw [hh]
        simp
      · next hmo =>
        have hl : left.length ≤ max + fuel := by
          rw [← hlf, length_drop]
          omega
        obtain ⟨hd, bytes, frames, hh, hu, hre⟩ :=
          ih (not_le.1 hmo) hl typeContinuation 0 done
        exact ⟨bytes, frames, by rw [hh]; exact hu, hre⟩
    have hs : frames ≠ [] := by
      rintro rfl
      exact hne hc.payloads.symm
    have ht : block.take max ≠ [] := ne_nil_of_length_pos (hpos.trans_eq hlen.symm)
    have ho := hc.cons type flags hs hfu hlen.le
    rw [← hlf, take_append_drop] at ho
    refine ⟨hd, hd ++ block.take max ++ bytes, _, hh, ?_, hr bytes frames hr', ho,
      forall_mem_cons.2 ⟨ht, hfu⟩⟩
    simpa [← hlf, hn, hlen, Nat.add_assoc] using hu

/-- **Header framing.**  Whatever is in the buffer before, and however long the block is, what is
written behind it is read back as the frames of the block. -/
theorem fixupFrameHeaders_frames (hrm : room.length = frameHeaderSize) (hi : 16384 ≤ max)
    (hm : max ≤ 0xffffff) (earlier block : Bytes) (type flags : UInt8) (id : ℕ) :
    ∃ bytes frames, fixupFrameHeaders (earlier ++ room ++ block) earlier.length type id max flags =
        some (earlier ++ bytes) ∧
      ReadsFrames max bytes frames ∧ Carries type flags id max block frames := by
  have hs : (earlier ++ room ++ block).length - earlier.length - frameHeaderSize = block.length := by
    simp only [length_append, hrm]
    omega
  have hw : ∀ hd, (earlier ++ room ++ block).take earlier.length ++ hd ++
      (earlier ++ room ++ block).drop (earlier.length + frameHeaderSize) =
        earlier ++ hd ++ block := by
    intro hd
    rw [← hrm, ← length_append, drop_left, append_assoc earlier, take_left]
  unfold fixupFrameHeaders
  simp only [hs, hw]
  split
  · next hl =>
    obtain ⟨hd, hh, -, hr⟩ :=
      encodeFrameHeader_reads type (flags ||| flagEndHeaders) id hl hm
    refine ⟨hd ++ block ++ [], _, ?_, hr [] [] .nil, .single hl⟩
    rw [UInt8.or_comm, hh]
    simp
  · next hg =>
    obtain ⟨hd, bytes, frames, hh, hu, hr, hc, -⟩ := addContinuations_frames
      (by omega) hm (not_le.1 hg) (earlier ++ room ++ block).length (by simp; omega) type flags
      id earlier
    exact ⟨bytes, frames, by rw [hh]; exact hu, hr, hc⟩

/-- A block that needs three frames. -/
theorem fixupFrameHeaders_frames_three : ∃ bytes frames,
    fixupFrameHeaders (ascii "old" ++ replicate 9 0 ++ replicate 40000 0x82) 3 typeHeaders 1 16384
        flagEndStream = some (ascii "old" ++ bytes) ∧ ReadsFrames 16384 bytes frames ∧
      Carries typeHeaders flagEndStream 1 16384 (replicate 40000 0x82) frames :=
  fixupFrameHeaders_frames rfl (by decide) (by decide) (ascii "old") (replicate 40000 0x82)
    typeHeaders flagEndStream 1

/-- A frame of more octets than 24 bits can tell is not written. -/
theorem fixupFrameHeaders_fatal : fixupFrameHeaders (replicate 9 0 ++ replicate (2 ^ 24) 0) 0
    typeHeaders 1 (2 ^ 24) 0 = none := by
  have hs : (replicate 9 0 ++ replicate (2 ^ 24) 0 : Bytes).length - 0 - frameHeaderSize =
      2 ^ 24 := by
    rw [length_append, length_replicate, length_replicate]
    rfl
  unfold fixupFrameHeaders
  rw [hs]
  rfl

end Vhttp.Http2
