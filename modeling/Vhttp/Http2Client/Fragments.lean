import Vhttp.Http2Client.HeaderBlock

/-!
# Header blocks of the client in several frames

A header block comes in one HEADERS frame, or in a HEADERS frame and CONTINUATION frames. The
client reads END_STREAM from the last of the frames, looks the stream up with the id of each, and
does not take CONTINUATION frames for a stream whose response is closed.

* `fragments_iff`: when the frames of a block give the same callbacks and stream states as one
  frame, and when a CONTINUATION frame with another stream id is a connection error.
-/

namespace Vhttp.Http2Client

open List Option Bool Conn
open Http2 (Frame flagEndHeaders flagEndStream typeHeaders typeContinuation HeadersPayload
  decodeHeadersPayload)
open Hpack (parseResponse)

variable {c : Conn} {id : ℕ} {s : Stream} {block unparsed : Bytes} {frame : Frame} {env : Env}
  {isEndStream : Bool}

/-! ## The frames one by one -/

/-- The connection while it waits for CONTINUATION frames of a block. -/
def Conn.collecting (c : Conn) (id : ℕ) (unparsed : Bytes) : Conn :=
  { unlinkTimeout c id with readFrame := .continuationOfHeaders, headersUnparsed := unparsed }

lemma unlinkTimeout_frame (c : Conn) (id : ℕ) :
    (unlinkTimeout c id).readFrame = c.readFrame ∧ (unlinkTimeout c id).state = c.state ∧
      (unlinkTimeout c id).headerTable = c.headerTable ∧ (unlinkTimeout c id).log = c.log := by
  unfold unlinkTimeout
  cases c.streams id <;> exact ⟨rfl, rfl, rfl, rfl⟩

variable {payload : HeadersPayload} {isEndHeaders : Bool}

/-- A refused HEADERS frame closes the connection, whatever its block is. -/
lemma handleHeaders_refused (h : headersRefused c id payload.priority.dependency isEndStream) :
    ∃ c1 e, ∀ headers isEndHeaders, handleHeaders c id ⟨payload.priority, headers⟩ isEndStream
      isEndHeaders env = (c1, some e) := by
  unfold handleHeaders
  dsimp only
  rw [unlinkTimeout_any]
  by_cases ho : id % 2 = 0
  · exact ⟨_, _, fun _ _ => if_pos ho⟩
  by_cases hs : id = payload.priority.dependency
  · exact ⟨_, _, fun _ _ => by rw [if_neg ho, if_pos hs]⟩
  by_cases hi : (c.streams id).isNone ∧ c.maxOpenStreamId < id
  · exact ⟨_, _, fun _ _ => by rw [if_neg ho, if_neg hs, if_pos hi]⟩
  have ht : (c.streams id).any (·.res == .body) ∧ !isEndStream := by
    rcases h with h | h | h | h
    · exact absurd h ho
    · exact absurd h hs
    · exact absurd h hi
    · exact h
  exact ⟨_, _, fun _ _ => by rw [if_neg ho, if_neg hs, if_neg hi, if_pos ht]⟩

lemma handleHeaders_accepted (h : ¬ headersRefused c id payload.priority.dependency isEndStream) :
    handleHeaders c id payload isEndStream isEndHeaders env =
      if isEndHeaders then onHeaderBlock (unlinkTimeout c id) id payload.headers isEndStream env
      else (c.collecting id payload.headers, none) := by
  unfold headersRefused at h
  push Not at h
  obtain ⟨ho, hs, hi, ht⟩ := h
  unfold handleHeaders
  dsimp only
  rw [unlinkTimeout_any, if_neg ho, if_neg hs, if_neg (by simpa using hi),
    if_neg (by simpa using ht)]
  cases isEndHeaders <;> rfl

lemma onFrame_headers (hrd : c.readFrame = .default) (ht : frame.type = typeHeaders)
    (hd : decodeHeadersPayload frame = .ok payload) :
    onFrame c frame env = settle (handleHeaders c frame.streamId payload
      (frame.has flagEndStream) (frame.has flagEndHeaders) env) := by
  rw [onFrame, readFrame, hrd]
  rw [expectDefault, ht]
  rw [handleHeadersFrame, hd]
  rfl

variable (ht : frame.type = typeContinuation)
include ht

lemma onFrame_collecting : onFrame (c.collecting id unparsed) frame env =
    settle (if c.resClosed frame.streamId then (c.collecting id unparsed,
        some ⟨.protocol, "unexpected stream id in CONTINUATION frame"⟩)
      else if frame.has flagEndHeaders then
        onHeaderBlock { c.collecting id unparsed with readFrame := .default, headersUnparsed := [] }
          frame.streamId (unparsed ++ frame.payload) (frame.has flagEndStream) env
      else (c.collecting id (unparsed ++ frame.payload), none)) := by
  have ha : ((c.collecting id unparsed).streams frame.streamId).any (·.res == .closed) =
    c.resClosed frame.streamId := unlinkTimeout_any c id frame.streamId .closed
  show settle (expectContinuationOfHeaders (c.collecting id unparsed) frame env) = _
  unfold expectContinuationOfHeaders
  rw [if_neg (not_not_intro ht), ha]
  rfl

/-- A CONTINUATION frame is refused if the response of its stream is closed. -/
lemma onFrame_continuation_closed
    (hc : c.resClosed frame.streamId = true) : (onFrame (c.collecting id unparsed) frame env) =
      (c.collecting id unparsed).connectionError
        ⟨.protocol, "unexpected stream id in CONTINUATION frame"⟩ := by
  rw [onFrame_collecting ht, hc]
  rfl

/-- A CONTINUATION frame that does not end the block is kept. -/
lemma onFrame_continuation_kept
    (ho : c.resClosed frame.streamId = false) (hm : frame.has flagEndHeaders = false) :
    onFrame (c.collecting id unparsed) frame env = c.collecting id (unparsed ++ frame.payload) := by
  rw [onFrame_collecting ht, ho, hm]
  rfl

/-- The last frame of the block gives it to its stream. -/
lemma onFrame_continuation_last (hrd : c.readFrame = .default)
    (ho : c.resClosed frame.streamId = false) (hl : frame.has flagEndHeaders = true) :
    onFrame (c.collecting id unparsed) frame env =
      settle (onHeaderBlock ((unlinkTimeout c id).withUnparsed []) frame.streamId
        (unparsed ++ frame.payload) (frame.has flagEndStream) env) := by
  have hd : { c.collecting id unparsed with readFrame := .default, headersUnparsed := [] } =
      (unlinkTimeout c id).withUnparsed [] := by
    unfold collecting withUnparsed
    rw [← (unlinkTimeout_frame c id).1.trans hrd]
  rw [onFrame_collecting ht, ho, hl, hd]
  rfl

omit ht

/-! ## Several frames -/

/-- The frames of a block, up to an error. -/
def onFrames (c : Conn) (frames : List Frame) (env : Env) : Conn :=
  frames.foldl (fun c frame => if c.isReading then onFrame c frame env else c) c

lemma onFrames_of_not_reading (h : c.isReading = false) (frames : List Frame) :
    onFrames c frames env = c := by
  induction frames with
  | nil => rfl
  | cons frame frames ih =>
    rw [onFrames, foldl_cons, h]
    exact ih

lemma onFrames_cons (h : c.isReading = true) (frames : List Frame) :
    onFrames c (frame :: frames) env = onFrames (onFrame c frame env) frames env := by
  rw [onFrames, foldl_cons, if_pos h]
  rfl

/-- An incomplete HEADERS frame and CONTINUATION frames of its stream, none of which ends the
block. -/
structure Begins (first : Frame) (payload : HeadersPayload) (rest : List Frame) : Prop where
  type : first.type = typeHeaders
  decode : decodeHeadersPayload first = .ok payload
  more : first.has flagEndHeaders = false
  rest : ∀ k ∈ rest, k.type = typeContinuation ∧ k.streamId = first.streamId ∧
    k.has flagEndHeaders = false

/-- What has been collected of the block. -/
def collected (payload : HeadersPayload) (rest : List Frame) : Bytes :=
  payload.headers ++ (rest.map Frame.payload).flatten

/-- The block of one HEADERS frame in several frames; END_STREAM is that of the HEADERS frame. -/
structure SameBlock (whole : Frame) (payload : HeadersPayload) (first : Frame)
    (firstPayload : HeadersPayload) (rest : List Frame) (last : Frame) : Prop where
  whole_type : whole.type = typeHeaders
  whole_decode : decodeHeadersPayload whole = .ok payload
  whole_end : whole.has flagEndHeaders = true
  begins : Begins first firstPayload rest
  first_id : first.streamId = whole.streamId
  first_endStream : first.has flagEndStream = whole.has flagEndStream
  first_priority : firstPayload.priority = payload.priority
  last_type : last.type = typeContinuation
  last_id : last.streamId = whole.streamId
  last_end : last.has flagEndHeaders = true
  block : payload.headers = collected firstPayload rest ++ last.payload

variable {first last whole : Frame} {firstPayload : HeadersPayload} {rest : List Frame}

lemma SameBlock.refused_iff (h : SameBlock whole payload first firstPayload rest last) :
    headersRefused c first.streamId firstPayload.priority.dependency (first.has flagEndStream) ↔
      headersRefused c whole.streamId payload.priority.dependency (whole.has flagEndStream) := by
  rw [h.first_id, h.first_priority, h.first_endStream]

/-- The whole block is accepted. -/
lemma SameBlock.onFrame_whole (h : SameBlock whole payload first firstPayload rest last)
    (hrd : c.readFrame = .default) (ha : ¬ headersRefused c whole.streamId
      payload.priority.dependency (whole.has flagEndStream)) (env : Env) :
    onFrame c whole env = settle (onHeaderBlock (unlinkTimeout c whole.streamId) whole.streamId
      payload.headers (whole.has flagEndStream) env) := by
  rw [onFrame_headers hrd h.whole_type h.whole_decode, handleHeaders_accepted ha, h.whole_end]
  rfl

lemma isReading_collecting : (c.collecting id unparsed).isReading = c.isReading := by
  have hs : (c.collecting id unparsed).state = c.state := (unlinkTimeout_frame c id).2.1
  unfold isReading
  rw [hs]

/-- CONTINUATION frames of an open stream are collected. -/
lemma onFrames_rest (hr : c.isReading = true) (ho : c.resClosed id = false)
    (he : ∀ k ∈ rest, k.type = typeContinuation ∧ k.streamId = id ∧
      k.has flagEndHeaders = false) (frames : List Frame) :
    onFrames (c.collecting id unparsed) (rest ++ frames) env =
      onFrames (c.collecting id (unparsed ++ (rest.map Frame.payload).flatten)) frames env := by
  induction rest generalizing unparsed with
  | nil => rw [map_nil, flatten_nil, append_nil, nil_append]
  | cons k rest ih =>
    obtain ⟨ht, hi, hm⟩ := he k mem_cons_self
    rw [cons_append, onFrames_cons (isReading_collecting.trans hr),
      onFrame_continuation_kept ht (hi.symm ▸ ho) hm,
      ih fun k hk => he k (mem_cons_of_mem _ hk), map_cons, flatten_cons,
      append_assoc]

variable (hrd : c.readFrame = .default) (hr : c.isReading = true)
include hrd hr

/-- The first frame of an accepted block. -/
lemma onFrames_first (h : Begins first payload rest) (ha : ¬ headersRefused c first.streamId
      payload.priority.dependency (first.has flagEndStream)) (frames : List Frame) :
    onFrames c (first :: frames) env =
      onFrames (c.collecting first.streamId payload.headers) frames env := by
  rw [onFrames_cons hr, onFrame_headers hrd h.type h.decode, handleHeaders_accepted ha, h.more]
  rfl

/-- A refused HEADERS frame closes the connection; the others are not read. -/
lemma onFrames_refused (h : Begins first payload rest) (hd : headersRefused c first.streamId
      payload.priority.dependency (first.has flagEndStream)) (frames : List Frame) :
    onFrames c (first :: frames) env = onFrame c first env ∧ (onFrame c first env).failed := by
  obtain ⟨c1, e, he⟩ := handleHeaders_refused hd
  have hm : onFrame c first env = c1.connectionError e := by
    rw [onFrame_headers hrd h.type h.decode]
    exact congrArg settle (he payload.headers _)
  have hf : (onFrame c first env).failed := hm ▸ connectionError_failed c1 e
  refine ⟨?_, hf⟩
  rw [onFrames_cons hr, onFrames_of_not_reading (not_reading_of_failed hf)]

omit hrd hr

/-- CONTINUATION frames for a closed response are a connection error. -/
lemma onFrames_closed (hr : c.isReading = true) (ht : frame.type = typeContinuation)
    (hc : c.resClosed frame.streamId = true) (frames : List Frame) :
    onFrames (c.collecting id unparsed) (frame :: frames) env =
      (c.collecting id unparsed).connectionError
        ⟨.protocol, "unexpected stream id in CONTINUATION frame"⟩ := by
  rw [onFrames_cons (isReading_collecting.trans hr), onFrame_continuation_closed ht hc,
    onFrames_of_not_reading (not_reading_of_failed (connectionError_failed _ _))]

/-! ## When the frames of a block count as one -/

/-- The block is refused either way, or the stream makes no difference: END_STREAM is the same or
does not count, and the response is not closed unless the block cannot be read. -/
def EndsAlike (c : Conn) (whole last : Frame) (payload : HeadersPayload) : Prop :=
  headersRefused c whole.streamId payload.priority.dependency (whole.has flagEndStream) ∨
    ∀ s, c.streams whole.streamId = some s →
      match s.res with
      | .head => last.has flagEndStream = whole.has flagEndStream ∨
          deliversHead c s payload.headers = false
      | .body => True
      | .closed => unreadable c whole.streamId payload.headers = true

/-- A CONTINUATION frame of another stream ends the connection: the response of one of the two
streams is closed, or the frame completes a block that cannot be read. -/
def OtherRefused (c : Conn) (first : Frame) (payload : HeadersPayload) (rest : List Frame)
    (last : Frame) : Prop :=
  headersRefused c first.streamId payload.priority.dependency (first.has flagEndStream) ∨
    rest ≠ [] ∧ c.resClosed first.streamId = true ∨ c.resClosed last.streamId = true ∨
    last.has flagEndHeaders = true ∧
      unreadable c last.streamId (collected payload rest ++ last.payload) = true

lemma unreadable_unlinkTimeout (j : ℕ) :
    unreadable (unlinkTimeout c id) j block = unreadable c j block := by
  unfold unreadable
  rw [unlinkTimeout_any, (unlinkTimeout_frame c id).2.2.1]

lemma isReading_unlinkTimeout : (unlinkTimeout c id).isReading = c.isReading := by
  unfold isReading
  rw [(unlinkTimeout_frame c id).2.1]

lemma unlinkTimeout_streams_self (hs : c.streams id = some s) :
    (unlinkTimeout c id).streams id = some { s with timeout := false } := by
  unfold unlinkTimeout
  rw [hs]
  exact Function.update_self _ _ _

/-- The frames of an accepted block for a stream whose response is not closed. -/
lemma onFrames_sameBlock (hrd : c.readFrame = .default) (hr : c.isReading = true)
    (h : SameBlock whole payload first firstPayload rest last)
    (ha : ¬ headersRefused c whole.streamId payload.priority.dependency
      (whole.has flagEndStream)) (ho : c.resClosed whole.streamId = false) :
    SameOutcome (onFrames c (first :: (rest ++ [last])) env)
      (settle (onHeaderBlock (unlinkTimeout c whole.streamId) whole.streamId payload.headers
        (last.has flagEndStream) env)) := by
  rw [onFrames_first hrd hr h.begins (mt h.refused_iff.1 ha), h.first_id,
    onFrames_rest hr ho fun k hk => h.first_id ▸ h.begins.rest k hk,
    onFrames_cons (isReading_collecting.trans hr),
    onFrame_continuation_last h.last_type hrd (h.last_id.symm ▸ ho) h.last_end,
    onHeaderBlock_withUnparsed, h.last_id, h.block]
  exact settle_withUnparsed _

variable (h : ∀ s, c.streams id = some s → s.res ≠ .body → deliversHead c s block = false)
include h

/-- END_STREAM does not count for a block that is not a final response. -/
lemma onHeaderBlock_endStream
    (b b' : Bool) : onHeaderBlock c id block b env = onHeaderBlock c id block b' env := by
  unfold onHeaderBlock
  cases hs : c.streams id with
  | none => exact onHead_endStream (fun s hs' => nomatch hs.symm.trans hs') b b'
  | some s =>
    dsimp only
    split_ifs with hb
    · rfl
    · refine onHead_endStream (fun s' hs' => ?_) b b'
      obtain rfl := some.inj (hs.symm.trans hs')
      exact h s hs hb

lemma deliversHead_unlinkTimeout : ∀ s, (unlinkTimeout c id).streams id = some s → s.res ≠ .body →
      deliversHead (unlinkTimeout c id) s block = false := by
  intro s hs hb
  unfold deliversHead at h ⊢
  rw [(unlinkTimeout_frame c id).2.2.1]
  cases hs' : c.streams id with
  | none =>
    unfold unlinkTimeout at hs
    rw [hs'] at hs
    exact nomatch hs'.symm.trans hs
  | some s' =>
    obtain rfl := some.inj ((unlinkTimeout_streams_self hs').symm.trans hs)
    exact h s' hs' hb

omit h

/-- A final response in a stream that waits for it: END_STREAM reaches the application. -/
lemma onHeaderBlock_log (hs : c.streams id = some s) (hh : s.res = .head)
    (h : deliversHead c s block = true) {b b' : Bool} (hne : b ≠ b') :
    (settle (onHeaderBlock c id block b env)).log id ≠
      (settle (onHeaderBlock c id block b' env)).log id := by
  have hn : s.res ≠ .body := by
    rw [hh]
    exact nofun
  obtain ⟨status, headers, hl⟩ : ∃ status headers, ∀ b, (onHead c id block b env).2 = none ∧
    (onHead c id block b env).1.log id = c.log id ++
      [.onHead (if b then some .isEos else none) status headers] := onHead_log hs h
  have hb : ∀ b, onHeaderBlock c id block b env = onHead c id block b env := by
    intro b
    unfold onHeaderBlock
    rw [hs]
    exact if_neg hn
  have he : ∀ b, (settle (onHeaderBlock c id block b env)).log id = c.log id ++
      [.onHead (if b then some .isEos else none) status headers] := by
    intro b
    rw [hb, settle_of_none (hl b).1]
    exact (hl b).2
  rw [he, he]
  intro hq
  have hc := singleton_inj.1 (append_cancel_left hq)
  cases b <;> cases b'
  · exact hne rfl
  · cases hc
  · cases hc
  · exact hne rfl

include hrd hr

/-- A closed response: the frames are a connection error, one frame is one only if it cannot be
read. -/
lemma sameOutcome_closed (h : SameBlock whole payload first firstPayload rest last)
    (hc : ¬ headersRefused c whole.streamId payload.priority.dependency
      (whole.has flagEndStream)) (hs : c.streams whole.streamId = some s) (hrs : s.res = .closed) :
    SameOutcome (onFrames c (first :: (rest ++ [last])) env) (onFrame c whole env) ↔
      unreadable c whole.streamId payload.headers = true := by
  have hcl : c.resClosed whole.streamId = true := by
    unfold resClosed
    rw [hs, any_some, hrs]
    rfl
  have hf : onFrames c (first :: (rest ++ [last])) env =
      (c.collecting whole.streamId firstPayload.headers).connectionError
        ⟨.protocol, "unexpected stream id in CONTINUATION frame"⟩ := by
    rw [onFrames_first hrd hr h.begins (mt h.refused_iff.1 hc), h.first_id]
    cases hre : rest with
    | nil => exact onFrames_closed hr h.last_type (h.last_id.symm ▸ hcl) []
    | cons k rest' =>
      obtain ⟨hy, hi, -⟩ := h.begins.rest k (hre ▸ mem_cons_self)
      exact onFrames_closed hr hy ((hi.trans h.first_id).symm ▸ hcl) _
  have hw := h.onFrame_whole hrd hc env
  have ha : (onFrame c whole env).failed ↔ unreadable c whole.streamId payload.headers = true := by
    rw [hw, onHeaderBlock_failed (isReading_unlinkTimeout.trans hr), unreadable_unlinkTimeout]
  constructor
  · intro hm
    rw [← ha]
    have hst := hm.2.2
    rw [hf] at hst
    unfold failed
    rw [← hst]
    exact connectionError_failed _ _
  · intro hu
    obtain ⟨e, he, ho⟩ : ∃ e, onFrame c whole env =
        (unlinkTimeout c whole.streamId).connectionError e ∧
          (e.code = .protocol ∨ e.code = .compression) := by
      have hb : s.res ≠ .body := by
        rw [hrs]
        exact nofun
      unfold unreadable at hu
      rw [hs, any_some, beq_false_of_ne hb] at hu
      rw [hw]
      unfold onHeaderBlock
      rw [unlinkTimeout_streams_self hs]
      dsimp only
      rw [if_neg hb]
      unfold onHead
      rw [(unlinkTimeout_frame c whole.streamId).2.2.1]
      cases hp : parseResponse c.headerTable false payload.headers with
      | error e => exact ⟨e, rfl, Hpack.parseResponse_reported _ _ _ e hp⟩
      | ok p =>
        rw [hp] at hu
        cases hu
    rw [hf, he]
    obtain ⟨ht, hl, hst⟩ := connectionError_outcome
      (c := c.collecting whole.streamId firstPayload.headers)
      (e := ⟨.protocol, "unexpected stream id in CONTINUATION frame"⟩) (.inl rfl)
    obtain ⟨hs', hl', ht'⟩ := connectionError_outcome (c := unlinkTimeout c whole.streamId) ho
    exact ⟨ht.trans hs'.symm, hl.trans hl'.symm, hst.trans ht'.symm⟩

/-- Several frames count as one exactly if END_STREAM is told alike. -/
lemma sameOutcome_iff (h : SameBlock whole payload first firstPayload rest last) :
    SameOutcome (onFrames c (first :: (rest ++ [last])) env) (onFrame c whole env) ↔
      EndsAlike c whole last payload := by
  by_cases ha : headersRefused c whole.streamId payload.priority.dependency
    (whole.has flagEndStream)
  · refine iff_of_true ?_ (.inl ha)
    have hm : onFrame c first env = onFrame c whole env := by
      obtain ⟨c1, e, hq⟩ : ∃ c1 e, ∀ headers isEndHeaders, handleHeaders c whole.streamId
          ⟨payload.priority, headers⟩ (whole.has flagEndStream) isEndHeaders env = (c1, some e) :=
        handleHeaders_refused ha
      rw [onFrame_headers hrd h.begins.type h.begins.decode, h.first_id, h.first_endStream,
        onFrame_headers hrd h.whole_type h.whole_decode, hq payload.headers]
      rw [← h.first_priority] at hq
      rw [hq firstPayload.headers]
    rw [(onFrames_refused hrd hr h.begins (h.refused_iff.2 ha) _).1, hm]
    exact ⟨rfl, rfl, rfl⟩
  unfold EndsAlike
  rw [or_iff_right ha]
  have hw := h.onFrame_whole hrd ha env
  -- the two differ in the END_STREAM flag that the block is given with
  have hf : c.resClosed whole.streamId = false →
      SameOutcome (onFrames c (first :: (rest ++ [last])) env) (settle (onHeaderBlock
        (unlinkTimeout c whole.streamId) whole.streamId payload.headers
        (last.has flagEndStream) env)) := onFrames_sameBlock hrd hr h ha
  have he1 : c.resClosed whole.streamId = false →
      (∀ s, c.streams whole.streamId = some s → s.res ≠ .body →
        deliversHead c s payload.headers = false) →
      SameOutcome (onFrames c (first :: (rest ++ [last])) env) (onFrame c whole env) := by
    intro ho hd
    rw [hw, onHeaderBlock_endStream (deliversHead_unlinkTimeout hd) _ (last.has flagEndStream)]
    exact hf ho
  cases hs : c.streams whole.streamId with
  | none =>
    have ho : c.resClosed whole.streamId = false := by rw [resClosed, hs]; rfl
    exact iff_of_true (he1 ho fun s hs' => by cases hs.symm.trans hs') fun _ => no_stream
  | some s =>
    have hc : c.resClosed whole.streamId = (s.res == .closed) := by rw [resClosed, hs]; rfl
    have hse : ∀ {P : Stream → Prop}, (∀ t, some s = some t → P t) ↔ P s :=
      ⟨fun h => h s rfl, fun h t ht => some.inj ht ▸ h⟩
    rw [hse]
    cases he : s.res with
    | head =>
      rw [he] at hc
      by_cases hg : last.has flagEndStream = whole.has flagEndStream
      · refine iff_of_true ?_ (.inl hg)
        rw [hw, ← hg]
        exact hf hc
      rw [or_iff_right hg]
      constructor
      · intro hsm
        by_contra hd
        rw [not_eq_false] at hd
        have hd' : deliversHead (unlinkTimeout c whole.streamId) { s with timeout := false }
            payload.headers = true := by
          unfold deliversHead at hd ⊢
          rwa [(unlinkTimeout_frame c whole.streamId).2.2.1]
        have hl : (settle (onHeaderBlock (unlinkTimeout c whole.streamId) whole.streamId
            payload.headers (last.has flagEndStream) env)).log whole.streamId =
            (onFrame c whole env).log whole.streamId := by
          rw [← (hf hc).2.1, hsm.2.1]
        rw [hw] at hl
        exact onHeaderBlock_log (unlinkTimeout_streams_self hs) he hd' hg hl
      · intro hd
        refine he1 hc fun t ht _ => ?_
        obtain rfl := some.inj (hs.symm.trans ht)
        exact hd
    | body =>
      rw [he] at hc
      refine iff_of_true (he1 hc fun t ht hb => ?_) trivial
      obtain rfl := some.inj (hs.symm.trans ht)
      exact absurd he hb
    | closed => exact sameOutcome_closed hrd hr h ha hs he

/-- A CONTINUATION frame of another stream is a connection error only for another reason. -/
lemma otherRefused_iff (h : Begins first payload rest) (ht : last.type = typeContinuation) :
    (onFrames c (first :: (rest ++ [last])) env).failed ↔
      OtherRefused c first payload rest last := by
  by_cases hf : headersRefused c first.streamId payload.priority.dependency
    (first.has flagEndStream)
  · obtain ⟨hq, ha⟩ : onFrames c (first :: (rest ++ [last])) env = onFrame c first env ∧
      (onFrame c first env).failed := onFrames_refused hrd hr h hf _
    exact iff_of_true (hq.symm ▸ ha) (.inl hf)
  rw [OtherRefused, or_iff_right hf, onFrames_first hrd hr h hf]
  by_cases hcl : rest ≠ [] ∧ c.resClosed first.streamId = true
  · refine iff_of_true ?_ (.inl hcl)
    cases hre : rest with
    | nil => exact absurd hre hcl.1
    | cons k rest' =>
      obtain ⟨hk, hi, -⟩ := h.rest k (hre ▸ mem_cons_self)
      rw [cons_append, onFrames_closed hr hk (hi.symm ▸ hcl.2)]
      exact connectionError_failed _ _
  rw [or_iff_right hcl]
  have hre : onFrames (c.collecting first.streamId payload.headers) (rest ++ [last]) env =
      onFrames (c.collecting first.streamId (collected payload rest)) [last] env := by
    by_cases hn : rest = []
    · rw [hn, collected, map_nil, flatten_nil, append_nil, nil_append]
    · have hp : c.resClosed first.streamId = false := by
        rw [← not_eq_true]
        exact fun hc => hcl ⟨hn, hc⟩
      exact onFrames_rest hr hp h.rest [last]
  rw [hre]
  by_cases hl : c.resClosed last.streamId = true
  · refine iff_of_true ?_ (.inl hl)
    rw [onFrames_closed hr ht hl]
    exact connectionError_failed _ _
  rw [or_iff_right hl]
  rw [not_eq_true] at hl
  rw [onFrames_cons (isReading_collecting.trans hr)]
  show (onFrame _ last env).failed ↔ _
  by_cases he : last.has flagEndHeaders = true
  · rw [onFrame_continuation_last ht hrd hl he, onHeaderBlock_withUnparsed, failed,
      (settle_withUnparsed _).2.2]
    refine Iff.trans (onHeaderBlock_failed (isReading_unlinkTimeout.trans hr)) ?_
    rw [unreadable_unlinkTimeout, and_iff_right he]
  · refine iff_of_false ?_ fun hc => he hc.1
    rw [not_eq_true] at he
    rw [onFrame_continuation_kept ht hl he]
    intro ha
    have ho := not_reading_of_failed ha
    rw [isReading_collecting, hr] at ho
    cases ho

omit hrd hr

/-- A header block in several frames is handled as in one frame exactly if END_STREAM of the last
frame does not make a difference and the response is not closed; and a CONTINUATION frame with
another stream id is a connection error only if one of the two responses is closed or the block
cannot be read. -/
theorem fragments_iff (c : Conn) (env : Env) (hrd : c.readFrame = .default)
    (hr : c.isReading = true) :
    (∀ (whole first last : Frame) (payload firstPayload : HeadersPayload) (rest : List Frame),
      SameBlock whole payload first firstPayload rest last →
      (SameOutcome (onFrames c (first :: (rest ++ [last])) env) (onFrame c whole env) ↔
        EndsAlike c whole last payload)) ∧
    ∀ (first last : Frame) (payload : HeadersPayload) (rest : List Frame),
      Begins first payload rest → last.type = typeContinuation → last.streamId ≠ first.streamId →
      ((onFrames c (first :: (rest ++ [last])) env).failed ↔
        OtherRefused c first payload rest last) := by
  constructor
  · intro whole first last payload firstPayload rest h
    exact sameOutcome_iff hrd hr h
  · intro first last payload rest h ht _
    exact otherRefused_iff hrd hr h ht

/-! ## A response in two frames -/

/-- A connection with two requests that have been sent. -/
def twoRequests : Conn :=
  onRead (onConnect (onConnect (Conn.new 65536 true) plainRequest) plainRequest)
    [0, 0, 0, 4, 0, 0, 0, 0, 0] (fun _ => acceptAll) fun _ => 0

lemma reach_twoRequests : Reach (fun _ _ => True) twoRequests := by
  have hu : run (new 65536 true) [.connect plainRequest, .connect plainRequest,
      .read [0, 0, 0, 4, 0, 0, 0, 0, 0] (fun _ => acceptAll) fun _ => 0] = some twoRequests := rfl
  exact (Reach.new 65536 true (by decide)).run (fun _ _ => trivial) hu

/-- `:status: 200` in a HEADERS frame with END_STREAM, and the same in two frames. -/
lemma twoRequests_sameBlock : SameBlock ⟨1, 5, 1, [0x88]⟩ ⟨Http2.defaultPriority, [0x88]⟩
    ⟨1, 1, 1, []⟩ ⟨Http2.defaultPriority, []⟩ [] ⟨9, 4, 1, [0x88]⟩ where
  whole_type := rfl
  whole_decode := rfl
  whole_end := rfl
  begins := ⟨rfl, rfl, rfl, nofun⟩
  first_id := rfl
  first_endStream := rfl
  first_priority := rfl
  last_type := rfl
  last_id := rfl
  last_end := rfl
  block := rfl

/-- The response that ends with its HEADERS frame is not told as such when it comes in two frames,
and the second of them may name the other stream, which then gets the response. -/
theorem fragments_lose_endStream : ∃ c, Reach (fun _ _ => True) c ∧ ∃ env,
    (SameBlock ⟨1, 5, 1, [0x88]⟩ ⟨Http2.defaultPriority, [0x88]⟩ ⟨1, 1, 1, []⟩
        ⟨Http2.defaultPriority, []⟩ [] ⟨9, 4, 1, [0x88]⟩ ∧
      (onFrame c ⟨1, 5, 1, [0x88]⟩ env).log 1 = [.onHead (some .isEos) 200 []] ∧
      (onFrames c [⟨1, 1, 1, []⟩, ⟨9, 4, 1, [0x88]⟩] env).log 1 = [.onHead none 200 []]) ∧
    ¬ (onFrames c [⟨1, 1, 1, []⟩, ⟨9, 4, 3, [0x88]⟩] env).failed ∧
      (onFrames c [⟨1, 1, 1, []⟩, ⟨9, 4, 3, [0x88]⟩] env).log 3 = [.onHead none 200 []] := by
  refine ⟨twoRequests, reach_twoRequests, acceptAll, ⟨twoRequests_sameBlock, ?_, ?_⟩, ?_, ?_⟩
  · rfl
  · rfl
  · rw [failed]
    decide
  · rfl

/-- With END_STREAM on both frames the two are the same. -/
theorem fragments_iff_response : SameOutcome
    (onFrames twoRequests ([⟨1, 1, 1, []⟩] ++ ([] ++ [⟨9, 5, 1, [0x88]⟩])) acceptAll)
    (onFrame twoRequests ⟨1, 5, 1, [0x88]⟩ acceptAll) := by
  refine ((fragments_iff twoRequests _ rfl rfl).1 ⟨1, 5, 1, [0x88]⟩ ⟨1, 1, 1, []⟩
    ⟨9, 5, 1, [0x88]⟩ ⟨Http2.defaultPriority, [0x88]⟩ ⟨Http2.defaultPriority, []⟩ []
    { twoRequests_sameBlock with last_type := rfl, last_id := rfl, last_end := rfl,
                                 block := rfl }).2 (.inr fun s hs => ?_)
  have he : s.res = .head := by
    have ht : (twoRequests.streams 1).all (·.res == .head) = true := rfl
    rw [hs] at ht
    exact eq_of_beq ht
  rw [he]
  exact .inl rfl

end Vhttp.Http2Client
