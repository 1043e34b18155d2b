import Vhttp.Http2.Requests

/-!
# Header blocks in several frames

A header block comes in one HEADERS frame, or in a HEADERS frame and CONTINUATION frames. The
two are handled by different code.

* `fragmented_iff`: both give the same outcome, unless the block is that of trailers and the
  response has been started.
* `oversized_iff`: after a block in several frames the connection is back in the default mode
  exactly if the block was not too large.
-/

namespace Vhttp.Http2

open List Option Bool Prod Conn Http2.Stream

variable {srv : Server} {C : Conn → Frame → Prop} {conn conn' : Conn} {frame : Frame} {id : ℕ}
  {stream : Stream}

/-! ## What does not depend on the frames before -/

/-- The connection with other input and other frames received. -/
def Conn.withTrace (conn : Conn) (input : Bytes) (received : List Frame) : Conn :=
  { conn with input := input, received := received }

/-- The connection without its input and the frames received. -/
def Conn.outcome (conn : Conn) : Conn := conn.withTrace [] []

/-- The outcome of a handler. -/
def outcomeOf (r : Conn × Ret) : Conn := r.1.outcome.finish 0 r.2

section WithTrace

variable (input : Bytes) (received : List Frame)

lemma setStream_withTrace : (conn.withTrace input received).setStream id stream =
    (conn.setStream id stream).withTrace input received := rfl

lemma closeStream_withTrace : (conn.withTrace input received).closeStream id =
    (conn.closeStream id).withTrace input received := rfl

lemma resetStream_withTrace : (conn.withTrace input received).resetStream id stream =
    (conn.resetStream id stream).withTrace input received := by
  unfold resetStream
  cases stream.state <;> cases stream.linked <;> rfl

lemma executeOrEnqueueRequest_withTrace :
    (conn.withTrace input received).executeOrEnqueueRequest id stream =
      ((conn.executeOrEnqueueRequest id stream).1.withTrace input received,
        (conn.executeOrEnqueueRequest id stream).2) := by
  unfold executeOrEnqueueRequest
  rw [resetStream_withTrace, setStream_withTrace]
  by_cases hs : ¬(stream.state = .recvHeaders ∨ stream.state = .reqPending)
  · rw [if_pos hs, if_pos hs]
  · rw [if_neg hs, if_neg hs]
    have hd : (conn.withTrace input received).disregards id = conn.disregards id := rfl
    rw [hd]
    cases conn.disregards id <;> rfl

lemma handleIncomingRequest_withTrace (src : Bytes) :
    handleIncomingRequest srv (conn.withTrace input received) id stream src =
      ((handleIncomingRequest srv conn id stream src).1.withTrace input received,
        (handleIncomingRequest srv conn id stream src).2) := by
  unfold handleIncomingRequest
  by_cases ht : stream.state ≠ .recvHeaders
  · rw [if_pos ht, if_pos ht]
  rw [if_neg ht, if_neg ht]
  extract_lets block p conn1 stream1 invalid p' conn2 stream2 invalid2
  have hc : conn1 = conn2.withTrace input received := rfl
  have hp : p = p' := rfl
  have hs : stream1 = stream2 := rfl
  have hi : invalid = invalid2 := rfl
  have hr : p'.refused srv (conn2.withTrace input received) = p'.refused srv conn2 := rfl
  rw [hc, hp, hs, hi, hr]
  simp only [resetStream_withTrace, setStream_withTrace, executeOrEnqueueRequest_withTrace]
  cases p'.ret with
  | some e | none =>
    dsimp only
    split_ifs <;> rfl

variable (hw : srv.writeOk received id = srv.writeOk conn.received id)
include hw

lemma writeStreamingBody_withTrace :
    writeStreamingBody srv (conn.withTrace input received) id stream =
      (writeStreamingBody srv conn id stream).withTrace input received := by
  unfold writeStreamingBody
  have hw' : srv.writeOk (conn.withTrace input received).received id =
    srv.writeOk conn.received id := hw
  extract_lets stream1
  rw [hw', resetStream_withTrace, setStream_withTrace, closeStream_withTrace]
  split_ifs <;> rfl

/-- The frames before count only for what the application answers. -/
lemma handleRequestBodyChunk_withTrace (length : ℕ) :
    handleRequestBodyChunk srv (conn.withTrace input received) id stream length true =
      ((handleRequestBodyChunk srv conn id stream length true).1.withTrace input received,
        (handleRequestBodyChunk srv conn id stream length true).2) := by
  have hd : (conn.withTrace input received).disregards id = conn.disregards id := rfl
  unfold handleRequestBodyChunk
  simp only [resetStream_withTrace, setStream_withTrace, executeOrEnqueueRequest_withTrace,
    writeStreamingBody_withTrace input received hw, hd, Bool.not_true, Bool.and_false,
    Bool.false_and, false_eq_true, if_false]
  split_ifs <;> rfl

lemma handleTrailingHeaders_withTrace (src : Bytes) :
    handleTrailingHeaders srv (conn.withTrace input received) id stream src =
      ((handleTrailingHeaders srv conn id stream src).1.withTrace input received,
        (handleTrailingHeaders srv conn id stream src).2) := by
  unfold handleTrailingHeaders
  extract_lets block p conn1 p' conn2
  have hc : conn1 = conn2.withTrace input received := rfl
  have hp : p = p' := rfl
  have hw2 : srv.writeOk received id = srv.writeOk conn2.received id := hw
  rw [hc, hp, handleRequestBodyChunk_withTrace input received hw2]
  cases p'.ret with
  | some e | none => rfl

omit hw

lemma withStream_withTrace : (conn.withTrace input received).withStream id =
    (conn.withStream id).withTrace input received := by
  have hg : (conn.withTrace input received).getStream id = conn.getStream id := rfl
  unfold withStream
  rw [hg]
  split
  · rfl
  · rfl

lemma prepareForRequest_withTrace : (conn.withTrace input received).prepareForRequest id stream =
      (conn.prepareForRequest id stream).map fun p => (p.1.withTrace input received, p.2) := by
  have hs : (conn.withTrace input received).state = conn.state := rfl
  unfold prepareForRequest
  rw [hs]
  split_ifs <;> rfl

lemma record_eq_withTrace : conn.record frame =
    conn.withTrace conn.input (conn.received ++ [frame]) := rfl

lemma outcome_withTrace : (conn.withTrace input received).outcome = conn.outcome := rfl

lemma outcome_finish (length : ℕ) (r : Ret) :
    (conn.finish length r).outcome = outcomeOf (conn, r) := by
  cases r <;> rfl

end WithTrace

/-! ## The frames of a block -/

/-- The CONTINUATION frames of a header block; only the last one ends it. -/
inductive Continues (id : ℕ) : List Frame → Prop
  | last {c : Frame} (ht : c.type = typeContinuation) (hid : c.streamId = id)
      (he : c.has flagEndHeaders = true) : Continues id [c]
  | more {c : Frame} {cs : List Frame} (ht : c.type = typeContinuation) (hid : c.streamId = id)
      (he : c.has flagEndHeaders = false) (h : Continues id cs) : Continues id (c :: cs)

/-- The bytes of CONTINUATION frames. -/
def fragments (conts : List Frame) : Bytes := (conts.map Frame.payload).flatten

instance (conn : Conn) : Decidable conn.live := inferInstanceAs (Decidable (_ ∧ _))

/-- Frames are handled until the connection is closed. -/
def Conn.onFrames (srv : Server) : Conn → List Frame → Conn
  | conn, [] => conn
  | conn, frame :: frames => if conn.live then (conn.onFrame srv frame).onFrames srv frames else conn

lemma onFrames_of_not_live (hl : ¬ conn.live) (frames : List Frame) :
    conn.onFrames srv frames = conn := by
  cases frames with
  | nil => rfl
  | cons frame frames => rw [onFrames, if_neg hl]

/-- The end of `expect_continuation_of_headers`. -/
def handleBlock (srv : Server) (conn : Conn) (id : ℕ) (stream : Stream) (src : Bytes) : Conn × Ret :=
  if stream.state = .recvHeaders then handleIncomingRequest srv conn id stream src
  else handleTrailingHeaders srv conn id stream src

lemma onFrame_headers (hm : conn.readExpect ≠ .continuationOfHeaders)
    (ht : frame.type = typeHeaders) : conn.onFrame srv frame =
      (handleHeadersFrame srv (conn.record frame) frame).1.finish
        (frameHeaderSize + frame.payload.length)
        (handleHeadersFrame srv (conn.record frame) frame).2 := by
  rw [onFrame_default hm, expectDefault_headers srv _ ht]

section Continuation

variable {u : Bytes}

/-- A CONTINUATION frame of a stream that receives, as long as the block is not too large. -/
lemma expectContinuationOfHeaders_fits (ht : frame.type = typeContinuation)
    (hg : conn.getStream frame.streamId = some stream) (hr : stream.receiving = true)
    (hu : conn.headersUnparsed = some u) (hs : u.length + frame.payload.length ≤ maxReqlen) :
    expectContinuationOfHeaders srv conn frame =
      if frame.has flagEndHeaders then
        handleBlock srv conn.endBlock frame.streamId stream (u ++ frame.payload)
      else ({ conn with headersUnparsed := some (u ++ frame.payload) }, .ok) := by
  unfold expectContinuationOfHeaders
  rw [if_neg (not_not.2 ht)]
  simp only [hg, hr, hu, getD_some, Bool.not_true, false_eq_true, if_false, if_pos hs]
  rfl

/-- **The rest of a block** that is not too large. -/
lemma onFrames_continues (srv : Server) (conn : Conn) {conts : List Frame}
    (hc : Continues id conts) (hl : conn.live)
    (hm : conn.readExpect = .continuationOfHeaders) (hg : conn.getStream id = some stream)
    (hv : stream.receiving = true) (hu : conn.headersUnparsed = some u)
    (hs : u.length + (fragments conts).length ≤ maxReqlen) :
    ∃ input length r, conn.onFrames srv conts = r.1.finish length r.2 ∧
      r = handleBlock srv (conn.endBlock.withTrace input (conn.received ++ conts)) id stream
        (u ++ fragments conts) := by
  induction hc generalizing conn u with
  | @last c ht hi he =>
    subst hi
    have hs' : u.length + c.payload.length ≤ maxReqlen := by simpa [fragments] using hs
    have hg' : (conn.record c).getStream c.streamId = some stream := hg
    refine ⟨conn.input, frameHeaderSize + c.payload.length, _, ?_, rfl⟩
    rw [onFrames, if_pos hl, onFrames, onFrame_continuation hm,
      expectContinuationOfHeaders_fits ht hg' hv hu hs', if_pos he]
    simp only [fragments, map_singleton, flatten_singleton]
    rfl
  | @more c cs ht hi he _ ih =>
    subst hi
    have hlen : (fragments (c :: cs)).length = c.payload.length + (fragments cs).length := by
      simp [fragments]
    have hg' : (conn.record c).getStream c.streamId = some stream := hg
    have hfr : conn.onFrame srv c =
        ({ conn with headersUnparsed := some (u ++ c.payload) }.record c).finish
          (frameHeaderSize + c.payload.length) .ok := by
      rw [onFrame_continuation hm, expectContinuationOfHeaders_fits ht hg' hv hu (by omega), he]
      rfl
    rw [onFrames, if_pos hl, hfr]
    obtain ⟨input, length, r, hn, hr⟩ := ih
      (({ conn with headersUnparsed := some (u ++ c.payload) }.record c).finish
        (frameHeaderSize + c.payload.length) .ok) hl hm hg rfl
      (by rw [length_append]; omega)
    refine ⟨input, length, r, hn, ?_⟩
    have hb : u ++ c.payload ++ fragments cs = u ++ fragments (c :: cs) := by
      simp [fragments]
    have hd : conn.received ++ [c] ++ cs = conn.received ++ c :: cs := by simp
    rw [hr, hb, ← hd]
    rfl

end Continuation

/-! ## No fragment is kept in the default mode -/

/-- There is a fragment only while a block is pending. -/
def Unparsed (conn : Conn) : Prop :=
  conn.readExpect ≠ .continuationOfHeaders → conn.headersUnparsed = none

variable (h : Unparsed conn)
include h

lemma Unparsed.congr (hm : conn'.readExpect = conn.readExpect)
    (hu : conn'.headersUnparsed = conn.headersUnparsed) : Unparsed conn' := by
  intro hm'
  rw [hu]
  exact h (hm ▸ hm')

lemma finish_unparsed (length : ℕ) (r : Ret) : Unparsed (conn.finish length r) := by
  cases r with
  | ok | error e | abort => exact h

lemma onFrame_unparsed : Unparsed (conn.onFrame srv frame) := by
  have h1 : Unparsed (conn.record frame) := h
  by_cases hm : conn.readExpect = .continuationOfHeaders
  · have hm1 : (conn.record frame).readExpect = .continuationOfHeaders := hm
    rw [onFrame_continuation hm]
    refine finish_unparsed ?_ _ _
    cases expectContinuationOfHeaders_done srv (conn.record frame) frame with
    | error hn =>
      rw [hn]
      exact h1
    | decoded _ _ _ _ hc => exact fun _ => hc.headersUnparsed
    | pending _ _ _ _ hn | refused _ _ _ hn =>
      rw [hn]
      exact fun hm' => absurd hm1 hm'
  · rw [onFrame_default hm]
    refine finish_unparsed ?_ _ _
    by_cases ht : frame.type = typeHeaders
    · rw [expectDefault_headers srv _ ht]
      obtain ⟨opened, ho, hd⟩ := handleHeadersFrame_done srv (conn.record frame) frame
      have h2 : Unparsed opened := h1.congr ho.quiet.readExpect ho.quiet.headersUnparsed
      cases hd with
      | calm hc | decoded _ _ hc => exact h2.congr hc.readExpect hc.headersUnparsed
      | pending _ _ he =>
        rw [he]
        exact fun hne => absurd rfl hne
    · have hc := expectDefault_calm srv (conn.record frame) ht
      exact h1.congr hc.readExpect hc.headersUnparsed

lemma parseInput_unparsed (hp : conn.parseInput srv = some conn') : Unparsed conn' := by
  obtain ⟨-, ⟨e, rfl⟩ | ⟨hm, rfl⟩ | ⟨frame, -, rfl⟩⟩ := parseInput_cases hp
  · exact finish_unparsed h _ _
  · exact fun _ => h (by rw [hm]; decide)
  · exact onFrame_unparsed h

omit h

lemma Run.unparsed (h : Run srv C conn) : Unparsed conn := by
  induction h with
  | init | upgrade settings => exact fun _ => rfl
  | read _ bytes ih => exact ih
  | parse _ _ hp ih => exact parseInput_unparsed ih hp
  | between _ hb ih => exact ih.congr hb.readExpect hb.headersUnparsed

/-! ## One frame or several -/

/-- A header block in one frame, and the same block in several. -/
structure Fragmented (whole head : Frame) (conts : List Frame) (payload : HeadersPayload) :
    Prop where
  wholeType : whole.type = typeHeaders
  headType : head.type = typeHeaders
  streamId : head.streamId = whole.streamId
  endStream : head.has flagEndStream = whole.has flagEndStream
  wholeEnds : whole.has flagEndHeaders = true
  headOpen : head.has flagEndHeaders = false
  headDecoded : decodeHeadersPayload head = .ok payload
  wholeDecoded : decodeHeadersPayload whole =
    .ok { payload with headers := payload.headers ++ fragments conts }
  continues : Continues whole.streamId conts
  size : payload.headers.length + (fragments conts).length ≤ maxReqlen

/-- The frame carries trailers for the stream. -/
structure TrailersOf (conn : Conn) (frame : Frame) (stream : Stream) : Prop where
  registered : conn.getStream frame.streamId = some stream
  isOpen : stream.reqBodyState.isOpen = true
  notTunnel : stream.isTunnelReq = false
  endStream : frame.has flagEndStream = true

/-- Trailers come before the response has been started. -/
def InTime (conn : Conn) (frame : Frame) : Prop :=
  isPush frame.streamId = false → frame.streamId ≤ conn.pullMaxOpen →
    ∀ stream, TrailersOf conn frame stream → stream.state = .recvBody

lemma handleTrailersFrame_of_trailers {payload : HeadersPayload}
    (h : TrailersOf conn frame stream) : handleTrailersFrame srv conn frame payload =
      if frame.has flagEndHeaders then
        handleTrailingHeaders srv conn frame.streamId stream payload.headers
      else prepareForContinuation conn payload.headers := by
  unfold handleTrailersFrame
  simp only [h.registered, h.isOpen, h.notTunnel, h.endStream, Bool.not_true, false_eq_true,
    if_false]
  cases frame.has flagEndHeaders <;> rfl

/-- Why a HEADERS frame is not taken for trailers, by its stream and END_STREAM alone. -/
def trailersError (stream : Option Stream) (isEndStream : Bool) : Option Err :=
  match stream with
  | none => some ⟨.streamClosed, "closed stream id in HEADERS frame"⟩
  | some stream =>
    if !stream.reqBodyState.isOpen then some ⟨.protocol, "invalid stream id in HEADERS frame"⟩
    else if stream.isTunnelReq then some ⟨.protocol, "trailer cannot be used in a CONNECT request"⟩
    else if !isEndStream then
      some ⟨.protocol, "trailing HEADERS frame MUST have END_STREAM flag set"⟩
    else none

lemma handleTrailersFrame_error {e : Err}
    (h : trailersError (conn.getStream frame.streamId) (frame.has flagEndStream) = some e)
    (payload : HeadersPayload) : handleTrailersFrame srv conn frame payload = (conn, .error e) := by
  unfold trailersError at h
  unfold handleTrailersFrame
  cases hg : conn.getStream frame.streamId with
  | none =>
    rw [hg] at h
    cases h
    rfl
  | some stream =>
    rw [hg] at h
    dsimp only at h ⊢
    split_ifs at h ⊢ <;> cases h <;> rfl

lemma exists_trailersOf
    (h : trailersError (conn.getStream frame.streamId) (frame.has flagEndStream) = none) :
    ∃ stream, TrailersOf conn frame stream := by
  unfold trailersError at h
  cases hg : conn.getStream frame.streamId with
  | none =>
    rw [hg] at h
    cases h
  | some stream =>
    rw [hg] at h
    dsimp only at h
    split_ifs at h with ho ht he
    exact ⟨stream, hg, by simpa using ho, by simpa using ht, by simpa using he⟩

lemma TrailersOf.no_error (h : TrailersOf conn frame stream) :
    trailersError (conn.getStream frame.streamId) (frame.has flagEndStream) = none := by
  simp [trailersError, h.registered, h.isOpen, h.notTunnel, h.endStream]

lemma ne_of_default (hm : conn.readExpect = .default) :
    conn.readExpect ≠ .continuationOfHeaders := by
  rw [hm]
  decide

section OneOrSeveral

variable {whole head : Frame} {conts : List Frame} {payload : HeadersPayload}

/-- A HEADERS frame that is an error closes the connection. -/
lemma onFrame_error {e : Err} (hm : conn.readExpect ≠ .continuationOfHeaders)
    (ht : frame.type = typeHeaders)
    (he : handleHeadersFrame srv (conn.record frame) frame = (conn.record frame, .error e)) :
    (conn.onFrame srv frame).outcome = outcomeOf (conn, .error e) ∧
      ¬ (conn.onFrame srv frame).live := by
  rw [onFrame_headers hm ht, he]
  exact ⟨rfl, fun hl => hl.1 rfl⟩

variable (hf : Fragmented whole head conts payload)
include hf

/-- The same error with one frame and with several. -/
lemma Fragmented.same_error {e : Err}
    (hl : conn.live) (hm : conn.readExpect ≠ .continuationOfHeaders)
    (hh : handleHeadersFrame srv (conn.record whole) whole = (conn.record whole, .error e))
    (hd : handleHeadersFrame srv (conn.record head) head = (conn.record head, .error e)) :
    (conn.onFrame srv whole).outcome = (conn.onFrames srv (head :: conts)).outcome := by
  obtain ⟨ho, -⟩ := onFrame_error hm hf.wholeType hh
  obtain ⟨ho', he⟩ := onFrame_error hm hf.headType hd
  rw [onFrames, if_pos hl, onFrames_of_not_live he, ho, ho']

/-- The connection after the first frame of several. -/
def Conn.afterHead (conn conn' : Conn) (head : Frame) (payload : HeadersPayload) : Conn :=
  (prepareForContinuation (conn'.withTrace conn.input (conn.received ++ [head]))
    payload.headers).1.finish (frameHeaderSize + head.payload.length) .ok

/-- A block that is pending on a stream that receives gives the outcome of the whole block. -/
lemma Fragmented.same_block (hl : conn.live)
    (hm : conn.readExpect = .default) (hu : Unparsed conn)
    (hp : handleHeadersFrame srv (conn.record head) head =
      prepareForContinuation (conn'.withTrace conn.input (conn.received ++ [head])) payload.headers)
    (hs : conn'.state = conn.state) (hd : conn'.readExpect = conn.readExpect)
    (hn : conn'.headersUnparsed = conn.headersUnparsed)
    (hg : conn'.getStream whole.streamId = some stream) (hv : stream.receiving = true) :
    ∃ input, (conn.onFrames srv (head :: conts)).outcome = outcomeOf (handleBlock srv
      (conn'.withTrace input (conn.received ++ head :: conts)) whole.streamId stream
      (payload.headers ++ fragments conts)) := by
  have hne := ne_of_default hm
  rw [onFrames, if_pos hl, onFrame_headers hne hf.headType, hp]
  obtain ⟨input, length, r, hru, hr⟩ := onFrames_continues srv
    (conn.afterHead conn' head payload) hf.continues (by unfold live at *; exact hs ▸ hl) rfl hg hv
    rfl hf.size
  refine ⟨input, ?_⟩
  have hb : (conn.afterHead conn' head payload).endBlock.withTrace input
      (conn.received ++ [head] ++ conts) = conn'.withTrace input (conn.received ++ head :: conts) := by
    have h1 : conn'.readExpect = .default := hd.trans hm
    have h2 : conn'.headersUnparsed = none := hn.trans (hu hne)
    rw [append_assoc, singleton_append]
    unfold afterHead prepareForContinuation finish endBlock withTrace
    rw [← h1, ← h2]
  have hr' : r = handleBlock srv (conn'.withTrace input (conn.received ++ head :: conts))
      whole.streamId stream (payload.headers ++ fragments conts) := by
    rw [hr, ← hb]
    rfl
  rw [← hr']
  exact (congrArg outcome hru).trans (outcome_finish length r.2)

/-- The header block of a request. -/
lemma Fragmented.same_request (hl : conn.live)
    (hm : conn.readExpect = .default) (hu : Unparsed conn)
    (hp : Prepares conn whole { payload with headers := payload.headers ++ fragments conts } stream) :
    (conn.onFrame srv whole).outcome = (conn.onFrames srv (head :: conts)).outcome := by
  have hne := ne_of_default hm
  have hwh : Prepares (conn.record whole) whole
      { payload with headers := payload.headers ++ fragments conts } stream := by
    refine ⟨hp.decoded, hp.pull, hp.late, hp.dependency, ?_⟩
    rw [record_eq_withTrace, withStream_withTrace]
    exact hp.registered
  have hd : Prepares (conn.record head) head payload stream := by
    refine ⟨hf.headDecoded, ?_, ?_, ?_, ?_⟩
    · rw [hf.streamId]
      exact hp.pull
    · rw [hf.streamId]
      exact hp.late
    · rw [hf.streamId]
      exact hp.dependency
    · rw [hf.streamId, record_eq_withTrace, withStream_withTrace]
      exact hp.registered
  have hpr : ∀ f, ((conn.record f).withStream whole.streamId).prepareForRequest whole.streamId
      stream = ((conn.withStream whole.streamId).prepareForRequest whole.streamId stream).map
        fun p => (p.1.withTrace conn.input (conn.received ++ [f]), p.2) := by
    intro f
    rw [record_eq_withTrace, withStream_withTrace, prepareForRequest_withTrace]
  rw [onFrame_headers hne hf.wholeType, handleHeadersFrame_request hwh, outcome_finish, hpr]
  have hh : handleHeadersFrame srv (conn.record head) head = _ :=
    handleHeadersFrame_request hd
  rw [hf.streamId, hpr] at hh
  cases hcase : (conn.withStream whole.streamId).prepareForRequest whole.streamId stream with
  | none =>
    rw [hcase] at hh
    have he : ¬ (conn.onFrame srv head).live := by
      rw [onFrame_headers hne hf.headType, hh]
      exact fun hl => hl.2 rfl
    rw [onFrames, if_pos hl, onFrames_of_not_live he, onFrame_headers hne hf.headType,
      hh, outcome_finish]
    simp only [map_none]
    have ho : ∀ f, ((conn.record f).withStream whole.streamId).outcome =
        (conn.withStream whole.streamId).outcome := by
      intro f
      rw [record_eq_withTrace, withStream_withTrace, outcome_withTrace]
    rw [outcomeOf, outcomeOf, ho, ho]
  | some p =>
    obtain ⟨conn2, stream2⟩ := p
    obtain ⟨hq, hs, -, hs2⟩ := prepareForRequest_spec hcase
    have hq' := withStream_calm.toQuiet.trans hq
    rw [hcase] at hh
    simp only [map_some, hf.headOpen, hf.endStream, false_eq_true, if_false,
      setStream_withTrace] at hh
    simp only [map_some, hf.wholeEnds, if_true, setStream_withTrace]
    have hg : ∀ stream3, (conn2.setStream whole.streamId stream3).getStream whole.streamId =
        some stream3 := by
      intro stream3
      rw [getStream_setStream, if_pos rfl]
    have hv : ∀ hasReqBody, receiving { stream2 with hasReqBody := hasReqBody } = true := by
      intro hasReqBody
      simp [receiving, hs2]
    obtain ⟨input, hr⟩ := hf.same_block hl hm hu hh (hs.trans withStream_calm.state) hq'.readExpect
      hq'.headersUnparsed (hg _) (hv _)
    rw [hr]
    have hb : ∀ hasReqBody conn3 src, handleBlock srv conn3 whole.streamId
        { stream2 with hasReqBody := hasReqBody } src = handleIncomingRequest srv conn3 whole.streamId
        { stream2 with hasReqBody := hasReqBody } src := by
      intro hasReqBody conn3 src
      unfold handleBlock
      exact if_pos hs2
    rw [hb, handleIncomingRequest_withTrace, handleIncomingRequest_withTrace]
    rfl

variable (hp : isPush whole.streamId = false) (hi : whole.streamId ≤ conn.pullMaxOpen)
  (ht : TrailersOf conn whole stream)
include hp hi ht

/-- The first of several frames with trailers: the block is pending. -/
lemma Fragmented.head_trailers : handleHeadersFrame srv (conn.record head) head =
      prepareForContinuation (conn.withTrace conn.input (conn.received ++ [head]))
        payload.headers := by
  have hh : TrailersOf (conn.record head) head stream := by
    refine ⟨?_, ht.isOpen, ht.notTunnel, ?_⟩
    · rw [hf.streamId]
      exact ht.registered
    · rw [hf.endStream]
      exact ht.endStream
  rw [handleHeadersFrame_trailers hf.headDecoded (by rw [hf.streamId]; exact hp)
    (by rw [hf.streamId]; exact hi), handleTrailersFrame_of_trailers hh, hf.headOpen]
  rfl

lemma Fragmented.whole_trailers (hm : conn.readExpect ≠ .continuationOfHeaders) :
    (conn.onFrame srv whole).outcome = outcomeOf (handleTrailingHeaders srv (conn.record whole)
      whole.streamId stream (payload.headers ++ fragments conts)) := by
  have hh : TrailersOf (conn.record whole) whole stream :=
    ⟨ht.registered, ht.isOpen, ht.notTunnel, ht.endStream⟩
  have hi' : whole.streamId ≤ (conn.record whole).pullMaxOpen := hi
  rw [onFrame_headers hm hf.wholeType, outcome_finish,
    handleHeadersFrame_trailers hf.wholeDecoded hp hi', handleTrailersFrame_of_trailers hh,
    hf.wholeEnds]
  rfl

/-- Trailers for a stream that is still waiting for its body. -/
lemma Fragmented.same_trailers (hl : conn.live)
    (hm : conn.readExpect = .default) (hu : Unparsed conn)
    (hw : srv.writeOk (conn.received ++ [whole]) whole.streamId =
      srv.writeOk (conn.received ++ head :: conts) whole.streamId)
    (hs : stream.state = .recvBody) :
    (conn.onFrame srv whole).outcome = (conn.onFrames srv (head :: conts)).outcome := by
  have hne := ne_of_default hm
  obtain ⟨input, hr⟩ := hf.same_block hl hm hu (hf.head_trailers hp hi ht) rfl rfl rfl
    ht.registered (by simp [receiving, hs])
  have hb : ∀ conn3 src, handleBlock srv conn3 whole.streamId stream src =
      handleTrailingHeaders srv conn3 whole.streamId stream src := by
    intro conn3 src
    unfold handleBlock
    exact if_neg (by rw [hs]; decide)
  have ha : conn.withTrace input (conn.received ++ head :: conts) =
    (conn.record whole).withTrace input (conn.received ++ head :: conts) := rfl
  rw [hf.whole_trailers hp hi ht hne, hr, hb, ha, handleTrailingHeaders_withTrace _ _ hw.symm]
  rfl

omit hf hp hi ht

lemma decoded_finish (length : ℕ) (r : Ret) : (conn.finish length r).decoded = conn.decoded := by
  cases r <;> rfl

/-- The first CONTINUATION frame is refused if the stream does not receive. -/
lemma decoded_onFrames_refused (srv : Server) (conn : Conn) (hc : Continues id conts)
    (hm : conn.readExpect = .continuationOfHeaders) (hg : conn.getStream id = some stream)
    (hv : stream.receiving = false) : (conn.onFrames srv conts).decoded = conn.decoded := by
  obtain ⟨c, cs, rfl, ht, hi⟩ : ∃ c cs, conts = c :: cs ∧ c.type = typeContinuation ∧
      c.streamId = id := by
    cases hc with
    | last ht hi he | more ht hi he _ => exact ⟨_, _, rfl, ht, hi⟩
  have hr : expectContinuationOfHeaders srv (conn.record c) c = (conn.record c,
      .error ⟨.protocol, "unexpected stream id in CONTINUATION frame"⟩) := by
    have hg' : (conn.record c).getStream c.streamId = some stream := by
      rw [hi]
      exact hg
    unfold expectContinuationOfHeaders
    rw [if_neg (not_not.2 ht)]
    simp only [hg', hv, Bool.not_false, if_true]
  by_cases hl : conn.live
  · have hd : ¬ (conn.onFrame srv c).live := by
      rw [onFrame_continuation hm, hr]
      exact fun hl => hl.1 rfl
    rw [onFrames, if_pos hl, onFrames_of_not_live hd, onFrame_continuation hm, hr]
    rfl
  · rw [onFrames_of_not_live hl]

/-- Trailers for a stream on which the response has been started. -/
lemma Fragmented.trailers_differ (hf : Fragmented whole head conts payload) (hl : conn.live)
    (hm : conn.readExpect ≠ .continuationOfHeaders)
    (hp : isPush whole.streamId = false) (hid : whole.streamId ≤ conn.pullMaxOpen)
    (ht : TrailersOf conn whole stream) (hv : stream.receiving = false) :
    (conn.onFrame srv whole).outcome ≠ (conn.onFrames srv (head :: conts)).outcome := by
  intro he
  have hd := congrArg decoded he
  rw [hf.whole_trailers hp hid ht hm, outcomeOf, decoded_finish] at hd
  rw [onFrames, if_pos hl, onFrame_headers hm hf.headType, hf.head_trailers hp hid ht] at hd
  have hr : (conn.record whole).getStream whole.streamId = some stream := ht.registered
  have hlf : (handleTrailingHeaders srv (conn.record whole) whole.streamId stream
      (payload.headers ++ fragments conts)).1.decoded = conn.decoded ++ [_] :=
    (handleTrailingHeaders_calm hr _).decoded
  have hi := decoded_onFrames_refused srv (conn.afterHead conn head payload) hf.continues rfl ht.registered hv
  have hc := hlf.symm.trans (hd.trans hi)
  exact absurd (congrArg List.length hc) (by simp [afterHead,
    prepareForContinuation, finish, withTrace])

end OneOrSeveral

/-- **One frame or several.**  In every state in which a HEADERS frame is handled, a header
block that is not too large has the same outcome in one HEADERS frame as in a HEADERS frame and
CONTINUATION frames, exactly if it is not one of trailers for a stream on which the response has
been started. The application is assumed to answer the same in both cases. -/
theorem fragmented_iff {whole head : Frame} {conts : List Frame} {payload : HeadersPayload}
    (h : Run srv C conn) (hl : conn.live) (hm : conn.readExpect = .default)
    (hf : Fragmented whole head conts payload)
    (hw : srv.writeOk (conn.received ++ [whole]) whole.streamId =
      srv.writeOk (conn.received ++ head :: conts) whole.streamId) :
    (conn.onFrame srv whole).outcome = (conn.onFrames srv (head :: conts)).outcome ↔
      InTime conn whole := by
  have hne := ne_of_default hm
  have hu := h.unparsed
  cases hpu : isPush whole.streamId with
  | true =>
    refine iff_of_true (hf.same_error hl hne (handleHeadersFrame_push hf.wholeDecoded hpu)
      (handleHeadersFrame_push hf.headDecoded (by rw [hf.streamId]; exact hpu))) ?_
    intro hp
    rw [hpu] at hp
    cases hp
  | false =>
    by_cases hi : whole.streamId ≤ conn.pullMaxOpen
    · cases he : trailersError (conn.getStream whole.streamId) (whole.has flagEndStream) with
      | none =>
        obtain ⟨stream, ht⟩ := exists_trailersOf he
        have hfr := Stream.Bodyless.not_fresh (h.streamsOk.fresh _ _ ht.registered) ht.isOpen
        constructor
        · intro hq hp hi' stream' ht'
          obtain rfl := some.inj (ht.registered.symm.trans ht'.registered)
          by_contra hst
          refine hf.trailers_differ hl hne hpu hi ht ?_ hq
          unfold isFresh at hfr
          unfold receiving
          cases hs : stream.state <;> simp_all
        · intro hn
          exact hf.same_trailers hpu hi ht hl hm hu hw (hn hpu hi stream ht)
      | some e =>
        refine iff_of_true ?_ fun _ _ stream ht => nomatch ht.no_error.symm.trans he
        have hi' : ∀ f, whole.streamId ≤ (conn.record f).pullMaxOpen := fun _ => hi
        refine hf.same_error (e := e) hl hne ?_ ?_
        · rw [handleHeadersFrame_trailers hf.wholeDecoded hpu (hi' whole)]
          refine handleTrailersFrame_error ?_ _
          exact he
        · rw [handleHeadersFrame_trailers hf.headDecoded (by rw [hf.streamId]; exact hpu)
            (by rw [hf.streamId]; exact hi' head)]
          refine handleTrailersFrame_error ?_ _
          rw [hf.streamId, hf.endStream]
          exact he
    · refine iff_of_true ?_ fun _ hi' => absurd hi' hi
      by_cases hd : whole.streamId = payload.priority.dependency
      · exact hf.same_error hl hne (handleHeadersFrame_dependency hf.wholeDecoded hpu hi hd)
          (handleHeadersFrame_dependency hf.headDecoded (by rw [hf.streamId]; exact hpu)
            (by rw [hf.streamId]; exact hi) (by rw [hf.streamId]; exact hd))
      · obtain ⟨stream, hr⟩ : ∃ stream,
          (conn.withStream whole.streamId).getStream whole.streamId = some stream :=
            getStream_withStream
        exact hf.same_request hl hm hu ⟨hf.wholeDecoded, hpu, not_le.1 hi, hd, hr⟩

/-- A request in one frame, and in two. -/
lemma fragmented_request : Fragmented ⟨1, 5, 1, [0x82, 0x84]⟩ ⟨1, 1, 1, [0x82]⟩
    [⟨9, 4, 1, [0x84]⟩] ⟨defaultPriority, [0x82]⟩ where
  wholeType := rfl
  headType := rfl
  streamId := rfl
  endStream := by decide
  wholeEnds := by decide
  headOpen := by decide
  headDecoded := rfl
  wholeDecoded := rfl
  continues := .last rfl rfl (by decide)
  size := by decide

/-- A request in one frame or in two. -/
theorem fragmented_iff_request : ∃ conn, Run plainServer (fun _ _ => True) conn ∧
    (conn.onFrame plainServer ⟨1, 5, 1, [0x82, 0x84]⟩).outcome =
      (conn.onFrames plainServer [⟨1, 1, 1, [0x82]⟩, ⟨9, 4, 1, [0x84]⟩]).outcome := by
  obtain ⟨c1, h1, hl, hm, ha⟩ : ∃ c, { init with input := connectionPreface }.parseInput
      plainServer = some c ∧ (c.state ≠ .isClosing ∧ c.state ≠ .aborted) ∧
      c.readExpect = .default ∧ c.pullMaxOpen = 0 := exists_of_any rfl
  have hr : Run plainServer (fun _ _ => True) c1 :=
    .parse (.read .init connectionPreface) (fun _ _ => trivial) h1
  refine ⟨c1, hr, (fragmented_iff hr hl hm fragmented_request rfl).2 fun _ hi => ?_⟩
  rw [ha] at hi
  cases hi

/-- A server that streams requests. -/
def streamingServer : Server := { plainServer with canStream := fun _ _ => true }

/-- A request with a body, and the start of the body. -/
def streamedRequest : Bytes :=
  connectionPreface ++ requestWithBody ++ [0, 0, 1, 0, 0, 0, 0, 0, 1, 0x61]

/-- The streamed request once the handler has sent the header of the response. -/
def respondingStream : Stream :=
  { Stream.new 65535 with
    state := .sendBody, reqBodyState := .open, hasReqBody := true, streamed := true
    bytesReceived := 1, proceedReq := true, processCalled := true, writeReq := true }

lemma between_respond {old : Stream} (hg : conn.getStream 1 = some old) (ho : old.state ≠ .idle) :
    Between conn (conn.setStream 1 respondingStream) where
  streams id stream' hg' hr := by
    obtain ⟨-, rfl⟩ | hg' := setStream_cases hg'
    · cases hr
    · exact ⟨stream', hg', rfl⟩
  live hl := hl
  pullMaxOpen := rfl
  readExpect := rfl
  headersUnparsed := rfl
  received := rfl
  decoded := rfl
  requests id stream' hg' _ hi := by
    obtain ⟨rfl, -⟩ | hg' := setStream_cases hg'
    · exact ⟨old, hg, ho⟩
    · exact ⟨stream', hg', hi⟩
  fresh id stream' hg' hfr := by
    obtain ⟨-, rfl⟩ | hg' := setStream_cases hg'
    · cases hfr
    · exact hg'
  goaway h := h

/-- Trailers in one frame are accepted while the response is being sent; in two frames they
are a connection error. -/
theorem trailers_in_two_frames : ∃ conn, Run streamingServer (fun _ _ => True) conn ∧
    conn.live ∧ conn.readExpect = .default ∧
    (conn.onFrame streamingServer ⟨1, 5, 1, [0x82, 0x84]⟩).error = none ∧
    (conn.onFrames streamingServer [⟨1, 1, 1, [0x82]⟩, ⟨9, 4, 1, [0x84]⟩]).error =
      some ⟨.protocol, "unexpected stream id in CONTINUATION frame"⟩ := by
  obtain ⟨c, hc, hg, hr⟩ : ∃ c,
      { init with input := streamedRequest }.parseInputs streamingServer 3 = some c ∧
      (c.getStream 1).map Stream.state = some .recvBody ∧
      let c' := c.setStream 1 respondingStream
      c'.live ∧ c'.readExpect = .default ∧
      (c'.onFrame streamingServer ⟨1, 5, 1, [0x82, 0x84]⟩).error = none ∧
      (c'.onFrames streamingServer [⟨1, 1, 1, [0x82]⟩, ⟨9, 4, 1, [0x84]⟩]).error =
        some ⟨.protocol, "unexpected stream id in CONTINUATION frame"⟩ := exists_of_any rfl
  obtain ⟨old, ho, hv⟩ := map_eq_some_iff.1 hg
  exact ⟨_, .between ((Run.read .init streamedRequest).parses hc)
    (between_respond ho (by rw [hv]; decide)), hr⟩

/-! ## Blocks that are too large -/

section Oversized

variable {conts : List Frame} {u : Bytes}

/-- A CONTINUATION frame that makes the block too large. -/
lemma expectContinuationOfHeaders_oversized (ht : frame.type = typeContinuation)
    (hg : conn.getStream frame.streamId = some stream) (hr : stream.receiving = true)
    (hu : conn.headersUnparsed = some u) (hs : maxReqlen < u.length + frame.payload.length) :
    expectContinuationOfHeaders srv conn frame = (conn.closeStream frame.streamId, .ok) := by
  unfold expectContinuationOfHeaders
  rw [if_neg (not_not.2 ht)]
  simp only [hg, hr, hu, getD_some, Bool.not_true, false_eq_true, if_false,
    if_neg (not_le.2 hs), resetStream_of_receiving hr]

/-- CONTINUATION frames of a stream that is closed do not end the mode. -/
lemma readExpect_onFrames_closed (hm : conn.readExpect = .continuationOfHeaders)
    (hg : conn.getStream id = none) (hc : ∀ c ∈ conts, c.streamId = id) :
    (conn.onFrames srv conts).readExpect = .continuationOfHeaders := by
  cases conts with
  | nil => exact hm
  | cons c cs =>
    rw [onFrames]
    split
    · have hg' : (conn.record c).getStream c.streamId = none := by
        rw [hc c mem_cons_self]
        exact hg
      obtain ⟨e, he⟩ : ∃ e, expectContinuationOfHeaders srv (conn.record c) c =
          (conn.record c, .error e) := by
        unfold expectContinuationOfHeaders
        rw [hg']
        split
        · exact ⟨_, rfl⟩
        · exact ⟨_, rfl⟩
      have hd : ¬ (conn.onFrame srv c).live := by
        rw [onFrame_continuation hm, he]
        exact fun hl => hl.1 rfl
      rw [onFrames_of_not_live hd, onFrame_continuation hm, he]
      exact hm
    · exact hm

lemma Continues.streamId (hc : Continues id conts) : ∀ c ∈ conts, c.streamId = id := by
  induction hc with
  | last ht hi he =>
    intro c hmem
    rw [mem_singleton.1 hmem]
    exact hi
  | more ht hi he _ ih =>
    intro c hmem
    rcases mem_cons.1 hmem with rfl | hmem
    · exact hi
    · exact ih c hmem

/-- **The rest of a block** that is too large leaves the connection waiting for more of it. -/
lemma readExpect_onFrames_oversized (hc : Continues id conts)
    (hl : conn.live) (hm : conn.readExpect = .continuationOfHeaders)
    (hg : conn.getStream id = some stream) (hr : stream.receiving = true)
    (hu : conn.headersUnparsed = some u) (hs : maxReqlen < u.length + (fragments conts).length) :
    (conn.onFrames srv conts).readExpect = .continuationOfHeaders := by
  induction hc generalizing conn u with
  | @last c ht hi he =>
    subst hi
    have hg' : (conn.record c).getStream c.streamId = some stream := hg
    have hs' : maxReqlen < u.length + c.payload.length := by simpa [fragments] using hs
    rw [onFrames, if_pos hl, onFrames, onFrame_continuation hm,
      expectContinuationOfHeaders_oversized ht hg' hr hu hs']
    exact hm
  | @more c cs ht hi he hcs ih =>
    subst hi
    have hg' : (conn.record c).getStream c.streamId = some stream := hg
    have hlen : (fragments (c :: cs)).length = c.payload.length + (fragments cs).length := by
      simp [fragments]
    rw [onFrames, if_pos hl]
    by_cases hft : u.length + c.payload.length ≤ maxReqlen
    · rw [onFrame_continuation hm, expectContinuationOfHeaders_fits ht hg' hr hu hft, he]
      refine ih (u := u ++ c.payload) hl hm hg rfl ?_
      rw [length_append]
      omega
    · rw [onFrame_continuation hm,
        expectContinuationOfHeaders_oversized ht hg' hr hu (not_le.1 hft)]
      exact readExpect_onFrames_closed hm getStream_closeStream hcs.streamId

/-- Any frame but a CONTINUATION frame closes a connection that waits for one. -/
lemma not_live_of_waiting (hm : conn.readExpect = .continuationOfHeaders)
    (ht : frame.type ≠ typeContinuation) : ¬ (conn.onFrames srv [frame]).live := by
  by_cases hl : conn.live
  · rw [onFrames, if_pos hl, onFrames, onFrame_continuation hm]
    have he : expectContinuationOfHeaders srv (conn.record frame) frame =
        (conn.record frame, .error ⟨.protocol, "expected CONTINUATION frame"⟩) := by
      unfold expectContinuationOfHeaders
      rw [if_pos ht]
    rw [he]
    exact fun hl => hl.1 rfl
  · rw [onFrames_of_not_live hl]
    exact hl

lemma handleBlock_input (hg : conn.getStream id = some stream) (src : Bytes) :
    (handleBlock srv conn id stream src).1.readExpect = conn.readExpect ∧
      (handleBlock srv conn id stream src).1.headersUnparsed = conn.headersUnparsed := by
  unfold handleBlock
  split
  · next hs =>
    have hc : Calm _ (handleIncomingRequest srv conn id stream src).1 :=
      handleIncomingRequest_calm hg hs src
    exact ⟨hc.readExpect, hc.headersUnparsed⟩
  · have hc : Calm _ (handleTrailingHeaders srv conn id stream src).1 :=
      handleTrailingHeaders_calm hg src
    exact ⟨hc.readExpect, hc.headersUnparsed⟩

lemma readExpect_finish (length : ℕ) (r : Ret) :
    (conn.finish length r).readExpect = conn.readExpect ∧
      (conn.finish length r).headersUnparsed = conn.headersUnparsed := by
  cases r <;> exact ⟨rfl, rfl⟩

end Oversized

/-- **The end of a header block.**  When a HEADERS frame has left the connection waiting for the
rest of a block, for a stream that receives it, and the rest has come, then the connection is
back in the default mode without a fragment exactly if the block was not too large. If it was
too large, any frame on another stream but a CONTINUATION frame closes the connection. -/
theorem oversized_iff {head : Frame} {conts : List Frame} {u : Bytes} (hl : conn.live)
    (hhead : (conn.onFrame srv head).live)
    (hwait : (conn.onFrame srv head).readExpect = .continuationOfHeaders)
    (hu : (conn.onFrame srv head).headersUnparsed = some u)
    (hget : (conn.onFrame srv head).getStream head.streamId = some stream)
    (hrecv : stream.receiving = true) (hc : Continues head.streamId conts) :
    ((conn.onFrames srv (head :: conts)).readExpect = .default ∧
      (conn.onFrames srv (head :: conts)).headersUnparsed = none ↔
        u.length + (fragments conts).length ≤ maxReqlen) ∧
    (maxReqlen < u.length + (fragments conts).length → ∀ frame, frame.type ≠ typeContinuation →
      ¬ ((conn.onFrames srv (head :: conts)).onFrames srv [frame]).live) := by
  rw [onFrames, if_pos hl]
  have ho : maxReqlen < u.length + (fragments conts).length →
      ((conn.onFrame srv head).onFrames srv conts).readExpect = .continuationOfHeaders :=
    readExpect_onFrames_oversized hc hhead hwait hget hrecv hu
  refine ⟨⟨fun ⟨hm, _⟩ => ?_, fun hs => ?_⟩, fun hs frame ht => ?_⟩
  · by_contra hs
    rw [ho (not_le.1 hs)] at hm
    cases hm
  · obtain ⟨input, length, r, hn, hr⟩ :=
      onFrames_continues srv (conn.onFrame srv head) hc hhead hwait hget hrecv hu hs
    have hg' : ((conn.onFrame srv head).endBlock.withTrace input
        ((conn.onFrame srv head).received ++ conts)).getStream head.streamId = some stream := hget
    rw [hn, (readExpect_finish length r.2).1, (readExpect_finish length r.2).2, hr,
      (handleBlock_input hg' _).1, (handleBlock_input hg' _).2]
    exact ⟨rfl, rfl⟩
  · exact not_live_of_waiting (ho hs) ht

/-- A new connection that has got the start of a header block. -/
lemma exists_waiting : ∃ conn stream u, Run plainServer (fun _ _ => True) conn ∧ conn.live ∧
    conn.readExpect = .default ∧ (conn.onFrame plainServer ⟨1, 1, 1, [0x82]⟩).live ∧
    (conn.onFrame plainServer ⟨1, 1, 1, [0x82]⟩).readExpect = .continuationOfHeaders ∧
    (conn.onFrame plainServer ⟨1, 1, 1, [0x82]⟩).headersUnparsed = some u ∧ u.length = 1 ∧
    (conn.onFrame plainServer ⟨1, 1, 1, [0x82]⟩).getStream 1 = some stream ∧
    stream.receiving = true := by
  obtain ⟨c1, h1, hl, hd, hl', hm, hu, hg⟩ : ∃ c,
      { init with input := connectionPreface }.parseInput plainServer = some c ∧
      (c.state ≠ .isClosing ∧ c.state ≠ .aborted) ∧ c.readExpect = .default ∧
      let c' := c.onFrame plainServer ⟨1, 1, 1, [0x82]⟩
      (c'.state ≠ .isClosing ∧ c'.state ≠ .aborted) ∧ c'.readExpect = .continuationOfHeaders ∧
      c'.headersUnparsed.map List.length = some 1 ∧
      (c'.getStream 1).map receiving = some true := exists_of_any rfl
  obtain ⟨stream, hg, hr⟩ := Option.map_eq_some_iff.1 hg
  obtain ⟨u, hu, hlen⟩ := Option.map_eq_some_iff.1 hu
  exact ⟨c1, stream, u, .parse (.read .init connectionPreface) (fun _ _ => trivial) h1,
    hl, hd, hl', hm, hu, hlen, hg, hr⟩

/-- A block that fits is read to its end. -/
theorem oversized_iff_request : ∃ conn, Run plainServer (fun _ _ => True) conn ∧
    (conn.onFrames plainServer [⟨1, 1, 1, [0x82]⟩, ⟨9, 4, 1, [0x84]⟩]).readExpect = .default := by
  obtain ⟨conn, stream, u, hr, hl, -, hh, ht, hu, hlen, hg, hv⟩ := exists_waiting
  have hi := oversized_iff hl hh ht hu hg hv
    (.last rfl rfl (by decide) : Continues 1 [⟨9, 4, 1, [0x84]⟩])
  have hs : u.length + (fragments [⟨9, 4, 1, [0x84]⟩]).length ≤ maxReqlen := by
    rw [hlen]
    decide
  exact ⟨conn, hr, (hi.1.2 hs).1⟩

/-- CONTINUATION frames of the largest size, 26 of them. -/
def largeConts : List Frame :=
  replicate 25 ⟨9, 0, 1, replicate 16384 0⟩ ++ [⟨9, 4, 1, replicate 16384 0⟩]

lemma continues_replicate {c last : Frame} (ht : c.type = typeContinuation)
    (he : c.has flagEndHeaders = false) (hl : Continues c.streamId [last]) (n : ℕ) :
    Continues c.streamId (replicate n c ++ [last]) := by
  induction n with
  | zero => exact hl
  | succ n ih => exact .more ht rfl he ih

/-- A block of 26 CONTINUATION frames of 16384 bytes is refused, and the connection keeps on
waiting for the rest of it. -/
theorem oversized_keeps_waiting : ∃ conn, Run plainServer (fun _ _ => True) conn ∧ conn.live ∧
    conn.readExpect = .default ∧
    (conn.onFrames plainServer (⟨1, 1, 1, [0x82]⟩ :: largeConts)).readExpect =
      .continuationOfHeaders := by
  obtain ⟨conn, stream, u, hr, hl, hd, hh, ht, hu, hlen, hg, hv⟩ := exists_waiting
  have hc : Continues 1 largeConts := by
    refine continues_replicate (c := ⟨9, 0, 1, replicate 16384 0⟩) rfl rfl ?_ 25
    exact .last rfl rfl rfl
  have hs : maxReqlen < u.length + (fragments largeConts).length := by
    have hlg : (fragments largeConts).length = 26 * 16384 := by
      simp only [fragments, largeConts, map_append, map_replicate, map_singleton,
        flatten_append, length_append, length_flatten, sum_replicate,
        length_replicate, flatten_singleton, smul_eq_mul]
    rw [hlg, maxReqlen]
    omega
  refine ⟨conn, hr, hl, hd, ?_⟩
  rw [onFrames, if_pos hl]
  exact readExpect_onFrames_oversized hc hh ht hg hv hu hs

end Vhttp.Http2
