import Vhttp.Http1Client.Events

/-!
# What a response head says about the body

`on_head` finds the framing of the body in a loop over the fields, which writes the content-length
into the chunked decoder.

* `agrees_recognize`: what the loop finds, and what it leaves in the decoder.
* `recognize_isOk`: the heads that it accepts.
-/

namespace Vhttp.Http1Client

open Http1 (Decoder)

/-- `transfer-encoding: chunked`. -/
def Field.isChunked (f : Field) : Bool :=
  f.headerName = .token .transferEncoding ∧ f.value = ascii "chunked"

/-- The content-length after a field. -/
def Field.contentLength (f : Field) (before : Option ℕ) : Option ℕ :=
  if f.headerName = .token .contentLength then strtosize f.value else before

/-- The response has a chunked body. -/
def Head.isChunked (h : Head) : Bool := h.fields.foldl (fun b f => b || f.isChunked) false

/-- The last content-length. -/
def Head.contentLength (h : Head) : Option ℕ := h.fields.foldl (fun n f => f.contentLength n) none

/-- An informational response. -/
def Head.isInformational (h : Head) : Bool := h.status < 200 ∧ h.status ≠ 101

/-- What the loop has found: whether a field was `chunked`, and the last content-length. The length
is in the decoder. -/
structure Agrees (r : Recognized) (isChunked : Bool) (contentLength : Option ℕ) : Prop where
  reader : r.reader = if isChunked then .onBodyChunked
    else if contentLength.isSome then .onBodyContentLength else .onBodyUntilClose
  decoder : r.decoder = { Decoder.zero with
    bytesLeftInChunk := contentLength.getD 0
    consumeTrailer := isChunked }

variable {r r' : Recognized} {f : Field} {isChunked : Bool} {contentLength : Option ℕ}

lemma Agrees.field (h : Agrees r isChunked contentLength) (hf : r.field f = .ok r') :
    Agrees r' (isChunked || f.isChunked) (f.contentLength contentLength) := by
  unfold Recognized.field at hf
  unfold Field.contentLength
  have hn (hc : ¬(f.headerName = .token .transferEncoding ∧ f.value = ascii "chunked")) :
      (isChunked || f.isChunked) = isChunked := by
    rw [Field.isChunked, decide_eq_false hc, Bool.or_false]
  by_cases ho : f.headerName = .token .connection
  · rw [if_pos ho] at hf
    cases hf
    rw [hn (by simp [ho]), if_neg (by simp [ho])]
    exact ⟨h.reader, h.decoder⟩
  rw [if_neg ho] at hf
  by_cases he : f.headerName = .token .transferEncoding
  · rw [if_pos he] at hf
    rw [if_neg (by rw [he]; decide)]
    by_cases hc : f.value = ascii "chunked"
    · rw [if_pos hc] at hf
      cases hf
      rw [Field.isChunked, decide_eq_true ⟨he, hc⟩, Bool.or_true]
      exact ⟨rfl, by rw [h.decoder]⟩
    · rw [if_neg hc] at hf
      rw [hn fun h => hc h.2]
      split at hf
      · cases hf
        exact h
      · cases hf
  rw [if_neg he] at hf
  rw [hn fun h => he h.1]
  by_cases hlen : f.headerName = .token .contentLength
  · rw [if_pos hlen] at hf ⊢
    cases hn : strtosize f.value with
    | none =>
      rw [hn] at hf
      cases hf
    | some n =>
      rw [hn] at hf
      cases hf
      refine ⟨?_, by rw [h.decoder]; rfl⟩
      rw [h.reader]
      cases isChunked with
      | true => rfl
      | false =>
        cases contentLength <;> rfl
  · rw [if_neg hlen] at hf ⊢
    cases hf
    exact h

lemma agrees_foldlM {fields : List Field} (h : Agrees r isChunked contentLength)
    (hf : fields.foldlM Recognized.field r = .ok r') :
    Agrees r' (fields.foldl (fun b f => b || f.isChunked) isChunked)
      (fields.foldl (fun n f => f.contentLength n) contentLength) := by
  induction fields generalizing r isChunked contentLength with
  | nil =>
    cases hf
    exact h
  | cons f fields ih =>
    rw [List.foldlM_cons] at hf
    cases hl : r.field f with
    | error e =>
      rw [hl] at hf
      cases hf
    | ok r1 =>
      rw [hl] at hf
      exact ih (h.field hl) hf

/-- The loop over the fields, with a decoder that is filled with zeros before. -/
theorem agrees_recognize {h : Head} (ho : recognize h .zero = .ok r) :
    Agrees r h.isChunked h.contentLength := by
  unfold recognize at ho
  exact agrees_foldlM ⟨rfl, rfl⟩ ho

/-- The loop goes on after the field. -/
def Field.isReadable (f : Field) : Bool :=
  if f.headerName = .token .transferEncoding then
    f.value = ascii "chunked" ∨ f.value = ascii "identity"
  else if f.headerName = .token .contentLength then (strtosize f.value).isSome
  else true

lemma field_isOk (r : Recognized) (f : Field) :
    (∃ r', r.field f = .ok r') ↔ f.isReadable = true := by
  unfold Recognized.field Field.isReadable
  by_cases ho : f.headerName = .token .connection
  · rw [if_pos ho, ho]
    exact ⟨fun _ => rfl, fun _ => ⟨_, rfl⟩⟩
  rw [if_neg ho]
  by_cases he : f.headerName = .token .transferEncoding
  · rw [if_pos he, if_pos he, decide_eq_true_eq]
    by_cases hc : f.value = ascii "chunked"
    · rw [if_pos hc]
      exact ⟨fun _ => .inl hc, fun _ => ⟨_, rfl⟩⟩
    · rw [if_neg hc]
      split
      · next hi => exact ⟨fun _ => .inr hi, fun _ => ⟨_, rfl⟩⟩
      · next hi =>
        constructor
        · rintro ⟨r', ⟨⟩⟩
        · rintro (h | h)
          · exact absurd h hc
          · exact absurd h hi
  rw [if_neg he, if_neg he]
  by_cases hlen : f.headerName = .token .contentLength
  · rw [if_pos hlen, if_pos hlen]
    cases strtosize f.value with
    | none => exact ⟨nofun, nofun⟩
    | some n => exact ⟨fun _ => rfl, fun _ => ⟨_, rfl⟩⟩
  · rw [if_neg hlen, if_neg hlen]
    exact ⟨fun _ => rfl, fun _ => ⟨_, rfl⟩⟩

lemma foldlM_isOk (fields : List Field) (r : Recognized) :
    (∃ r', fields.foldlM Recognized.field r = .ok r') ↔ fields.all Field.isReadable = true := by
  induction fields generalizing r with
  | nil => exact ⟨fun _ => rfl, fun _ => ⟨r, rfl⟩⟩
  | cons f fields ih =>
    rw [List.foldlM_cons, List.all_cons, Bool.and_eq_true, ← field_isOk r f]
    cases hf : r.field f with
    | error e =>
      constructor
      · rintro ⟨r', ⟨⟩⟩
      · rintro ⟨⟨r', ⟨⟩⟩, -⟩
    | ok r1 =>
      constructor
      · intro h
        exact ⟨⟨r1, rfl⟩, (ih r1).1 h⟩
      · rintro ⟨-, h⟩
        exact (ih r1).2 h

/-- The head can be read if its transfer-encodings are known and its content-lengths are numbers. -/
theorem recognize_isOk (h : Head) :
    (∃ r, recognize h .zero = .ok r) ↔ h.fields.all Field.isReadable = true := by
  unfold recognize
  exact foldlM_isOk h.fields _

end Vhttp.Http1Client
