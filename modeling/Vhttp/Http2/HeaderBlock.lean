import Vhttp.Http2.Connection

/-!
# Header blocks and the streams they belong to

A header block arrives in a HEADERS frame and the CONTINUATION frames that directly follow it.
The connection keeps the bytes of a block that is not complete, but not the stream it belongs
to: `expect_continuation_of_headers` takes the stream of the CONTINUATION frame.

* `IsBlock`: the bytes are those of one HEADERS frame of the stream and of the CONTINUATION
  frames of the stream that directly follow.
* `onFrame_good`: what one frame does, by the mode and the kind of the frame.
* `decoded_isBlock`: as long as no CONTINUATION frame names another stream that is receiving,
  whatever is decoded is such a block, and a CONTINUATION frame of another stream is a
  connection error.
* `decodes_block_of_another_stream`: otherwise it is not.
-/

namespace Vhttp.Http2

open List Option Prod

variable {srv : Server} {conn conn' : Conn} {frame : Frame} {frames : List Frame} {id : ℕ}
  {bytes : Bytes}

/-! ## The frames of a header block -/

/-- The block consists of the fragment of a HEADERS frame of the stream and of the payloads of
the CONTINUATION frames of the stream that directly follow it, up to the first that ends the
block. -/
def IsBlock (frames : List Frame) (b : Block) : Prop :=
  ∃ before head conts after payload, frames = before ++ head :: (conts ++ after) ∧
    head.type = typeHeaders ∧ head.streamId = b.streamId ∧
    decodeHeadersPayload head = .ok payload ∧
    (∀ c ∈ conts, c.type = typeContinuation ∧ c.streamId = b.streamId) ∧
    (head :: conts).map (·.has flagEndHeaders) = replicate conts.length false ++ [true] ∧
    b.bytes = payload.headers ++ (conts.map Frame.payload).flatten

/-- The frames end with a header block of the stream that is not complete. -/
def Pending (frames : List Frame) (id : ℕ) (bytes : Bytes) : Prop :=
  ∃ before head conts payload, frames = before ++ head :: conts ∧
    head.type = typeHeaders ∧ head.streamId = id ∧ decodeHeadersPayload head = .ok payload ∧
    (∀ c ∈ conts, c.type = typeContinuation ∧ c.streamId = id) ∧
    (head :: conts).map (·.has flagEndHeaders) = replicate (conts.length + 1) false ∧
    bytes = payload.headers ++ (conts.map Frame.payload).flatten

/-- The stream of the last HEADERS frame. -/
def lastHeadersId (frames : List Frame) : Option ℕ :=
  (frames.reverse.find? fun f => f.type == typeHeaders).map Frame.streamId

variable {b : Block} {conn'' : Conn} {payload : HeadersPayload} {stream stream' : Stream}

lemma IsBlock.append (h : IsBlock frames b) (frame : Frame) : IsBlock (frames ++ [frame]) b := by
  obtain ⟨before, head, conts, after, payload, rfl, hr⟩ := h
  exact ⟨before, head, conts, after ++ [frame], payload, by simp, hr⟩

lemma lastHeadersId_headers (h : frame.type = typeHeaders) :
    lastHeadersId (frames ++ [frame]) = some frame.streamId := by
  simp [lastHeadersId, h]

lemma lastHeadersId_other (h : frame.type ≠ typeHeaders) :
    lastHeadersId (frames ++ [frame]) = lastHeadersId frames := by
  simp [lastHeadersId, h]

lemma isBlock_headers (ht : frame.type = typeHeaders)
    (hp : decodeHeadersPayload frame = .ok payload) (he : frame.has flagEndHeaders = true)
    (trailers : Bool) : IsBlock (frames ++ [frame]) ⟨frame.streamId, trailers, payload.headers⟩ :=
  ⟨frames, frame, [], [], payload, by simp, ht, rfl, hp, by simp, by simp [he], by simp⟩

lemma pending_headers (ht : frame.type = typeHeaders)
    (hp : decodeHeadersPayload frame = .ok payload) (he : frame.has flagEndHeaders = false) :
    Pending (frames ++ [frame]) frame.streamId payload.headers :=
  ⟨frames, frame, [], payload, by simp, ht, rfl, hp, by simp, by simp [he], by simp⟩

variable (h : Pending frames id bytes) (ht : frame.type = typeContinuation)
  (hid : frame.streamId = id)
include h ht hid

lemma Pending.continuation (he : frame.has flagEndHeaders = false) :
    Pending (frames ++ [frame]) id (bytes ++ frame.payload) := by
  obtain ⟨before, head, conts, payload, rfl, hh, hi, hp, hc, hf, rfl⟩ := h
  refine ⟨before, head, conts ++ [frame], payload, by simp, hh, hi, hp, ?_, ?_, by simp⟩
  · exact forall_mem_append.2 ⟨hc, by simp [ht, hid]⟩
  · rw [← cons_append, map_append, hf, map_singleton, he, length_append,
      length_singleton, replicate_succ' (n := conts.length + 1)]

lemma Pending.isBlock (he : frame.has flagEndHeaders = true) (trailers : Bool) :
    IsBlock (frames ++ [frame]) ⟨id, trailers, bytes ++ frame.payload⟩ := by
  obtain ⟨before, head, conts, payload, rfl, hh, hi, hp, hc, hf, rfl⟩ := h
  refine ⟨before, head, conts ++ [frame], [], payload, by simp, hh, hi, hp, ?_, ?_, by simp⟩
  · exact forall_mem_append.2 ⟨hc, by simp [ht, hid]⟩
  · rw [← cons_append, map_append, hf, map_singleton, he, length_append, length_singleton]

omit h ht hid

/-! ## Looking up streams -/

lemma getStream_setStream (id' : ℕ) : (conn.setStream id stream).getStream id' =
      if id' = id then some stream else conn.getStream id' := by
  unfold Conn.getStream Conn.setStream
  by_cases h : id' = id
  · rw [if_pos h, h, lookup_cons_self]
  · have hne : (id' == id) = false := by simpa using h
    rw [if_neg h, lookup_cons, hne]
    simp only
    induction conn.streams with
    | nil => rfl
    | cons p ps ih =>
      by_cases hp : p.1 = id
      · have hn' : (id' == p.1) = false := by simpa [hp] using h
        rw [filter_cons_of_neg (by simpa using hp), ih, lookup_cons, hn']
      · rw [filter_cons_of_pos (by simpa using hp), lookup_cons, lookup_cons, ih]

lemma setStream_cases {id' : ℕ} (h : (conn.setStream id stream).getStream id' = some stream') :
    id' = id ∧ stream' = stream ∨ conn.getStream id' = some stream' := by
  rw [getStream_setStream] at h
  split at h
  · next he => exact .inl ⟨he, (some.inj h).symm⟩
  · exact .inr h

lemma getStream_closeStream : (conn.closeStream id).getStream id = none := by
  unfold Conn.getStream Conn.closeStream
  rw [lookup_eq_none_iff]
  intro p hp
  have hne : p.1 ≠ id := of_decide_eq_true (mem_filter.1 hp).2
  simpa using fun h : id = p.1 => hne h.symm

lemma getStream_closeStream_eq (id' : ℕ) :
    (conn.closeStream id).getStream id' = if id' = id then none else conn.getStream id' := by
  by_cases h : id' = id
  · rw [if_pos h, h]
    exact getStream_closeStream
  · have hs : (conn.setStream id (.new 0)).getStream id' = _ := getStream_setStream id'
    rw [if_neg h] at hs ⊢
    have hne : (id' == id) = false := by simpa using h
    rw [← hs]
    unfold Conn.getStream Conn.setStream Conn.closeStream
    rw [lookup_cons, hne]

/-! ## What the handlers leave alone -/

/-- The stream has not got its header block. -/
def Stream.isFresh (stream : Stream) : Bool :=
  stream.state == .idle || stream.state == .recvHeaders

/-- There is no body before the header block. -/
def Stream.Bodyless (stream : Stream) : Prop :=
  stream.isFresh = true → stream.reqBodyState = .none

/-- A stream goes on, without starting to serve a request. -/
def Ages (stream stream' : Stream) : Prop :=
  stream.Bodyless → stream'.Bodyless ∧ (stream'.state ≠ .idle → stream.state ≠ .idle)

/-- The input side stays as it is. -/
structure Quiet (conn conn' : Conn) : Prop where
  readExpect : conn'.readExpect = conn.readExpect
  headersUnparsed : conn'.headersUnparsed = conn.headersUnparsed
  received : conn'.received = conn.received
  decoded : conn'.decoded = conn.decoded

/-- Besides, no stream starts to serve a request. -/
structure Calm (conn conn' : Conn) : Prop extends Quiet conn conn' where
  streams : ∀ id stream', conn'.getStream id = some stream' →
    (∃ stream, conn.getStream id = some stream ∧ Ages stream stream') ∨
      stream'.state = .idle ∧ stream'.reqBodyState = .none
  pullMaxOpen : conn'.pullMaxOpen = conn.pullMaxOpen
  state : conn'.state = conn.state

lemma state_ne_idle (h : stream.isFresh = false) : stream.state ≠ .idle := by
  intro he
  simp [Stream.isFresh, he] at h

lemma Ages.congr (hs : stream'.state = stream.state)
    (hb : stream'.reqBodyState = stream.reqBodyState) : Ages stream stream' := by
  intro h
  unfold Stream.Bodyless Stream.isFresh at h ⊢
  rw [hs, hb]
  exact ⟨h, id⟩

/-- The stream has got its header block. -/
lemma Ages.of_not_fresh (hi : stream.state ≠ .idle) (hf : stream'.isFresh = false) :
    Ages stream stream' := by
  refine fun _ => ⟨fun h => ?_, fun _ => hi⟩
  rw [hf] at h
  cases h

/-- A stream that waits for a body has got its header block. -/
lemma Stream.Bodyless.not_fresh (h : stream.Bodyless)
    (ho : stream.reqBodyState.isOpen = true) : stream.isFresh = false := by
  by_contra hf
  rw [h (by simpa using hf)] at ho
  cases ho

lemma Ages.of_open (ho : stream.reqBodyState.isOpen = true)
    (hf : stream.isFresh = false → stream'.isFresh = false) : Ages stream stream' := by
  intro h
  have hr := h.not_fresh ho
  exact Ages.of_not_fresh (state_ne_idle hr) (hf hr) h

lemma Quiet.refl : Quiet conn conn := ⟨rfl, rfl, rfl, rfl⟩

lemma Quiet.trans (h : Quiet conn conn') (h' : Quiet conn' conn'') : Quiet conn conn'' :=
  ⟨h'.readExpect.trans h.readExpect, h'.headersUnparsed.trans h.headersUnparsed,
    h'.received.trans h.received, h'.decoded.trans h.decoded⟩

/-- The streams and what is compared with them are the same. -/
lemma Calm.of_eq (hq : Quiet conn conn') (hs : conn'.streams = conn.streams)
    (hp : conn'.pullMaxOpen = conn.pullMaxOpen) (hst : conn'.state = conn.state) :
    Calm conn conn' := by
  refine ⟨hq, fun id stream' h => .inl ⟨stream', ?_, .congr rfl rfl⟩, hp, hst⟩
  unfold Conn.getStream at h ⊢
  rw [← hs]
  exact h

lemma Calm.refl : Calm conn conn := .of_eq .refl rfl rfl rfl

lemma closeStream_calm : Calm conn (conn.closeStream id) := by
  refine ⟨⟨rfl, rfl, rfl, rfl⟩, fun id' stream' h => .inl ⟨stream', ?_, .congr rfl rfl⟩, rfl, rfl⟩
  rw [getStream_closeStream_eq] at h
  split at h
  · cases h
  · exact h

lemma setStream_calm (hge : conn.getStream id = some stream) (hg : Ages stream stream') :
    Calm conn (conn.setStream id stream') := by
  refine ⟨⟨rfl, rfl, rfl, rfl⟩, fun id' stream'' h => .inl ?_, rfl, rfl⟩
  obtain ⟨rfl, rfl⟩ | h := setStream_cases h
  · exact ⟨stream, hge, hg⟩
  · exact ⟨stream'', h, .congr rfl rfl⟩

lemma openStream_calm : Calm conn (conn.openStream id) := by
  refine ⟨⟨rfl, rfl, rfl, rfl⟩, fun id' stream' h => ?_, rfl, rfl⟩
  obtain ⟨-, rfl⟩ | h := setStream_cases h
  · exact .inr ⟨rfl, rfl⟩
  · exact .inl ⟨stream', h, .congr rfl rfl⟩

variable (hge : conn.getStream id = some stream)
include hge

lemma resetStream_calm (hg : Ages stream stream') : Calm conn (conn.resetStream id stream') := by
  unfold Conn.resetStream
  split
  · exact closeStream_calm
  · exact closeStream_calm
  · exact closeStream_calm
  · exact closeStream_calm
  all_goals
    next hs =>
    split
    · have hi : stream'.state ≠ .idle := by
        rw [hs]
        decide
      exact setStream_calm hge fun h => Ages.of_not_fresh ((hg h).2 hi) rfl h
    · exact closeStream_calm

lemma executeOrEnqueueRequest_calm
    (hg : Ages stream stream') : Calm conn (conn.executeOrEnqueueRequest id stream').1 := by
  unfold Conn.executeOrEnqueueRequest
  split
  · exact .refl
  next hs =>
  split
  · exact resetStream_calm hge hg
  · refine setStream_calm hge fun h => Ages.of_not_fresh ((hg h).2 fun he => ?_) rfl h
    rw [he] at hs
    exact hs (by decide)

lemma writeStreamingBody_calm
    (hg : ∀ stream'', stream''.state = stream'.state → Ages stream stream'') :
    Calm conn (writeStreamingBody srv conn id stream') := by
  unfold writeStreamingBody
  extract_lets written
  have hs : written.state = stream'.state := by
    unfold written
    split
    · rfl
    · rfl
  split
  · exact resetStream_calm hge (hg _ hs)
  · split
    · exact closeStream_calm
    · exact setStream_calm hge (hg _ hs)

omit hge

lemma endBody_state (stream : Stream) : stream.endBody.state =
      if stream.state.beforeReqPending then
        if stream.processCalled then .sendHeaders else .reqPending else stream.state := by
  unfold Stream.endBody
  dsimp only
  split_ifs <;> rfl

lemma endBody_isFresh (h : stream.isFresh = false) : stream.endBody.isFresh = false := by
  unfold Stream.isFresh at *
  rw [endBody_state]
  split
  · split
    · rfl
    · rfl
  · exact h

lemma handleRequestBodyChunk_calm (hge : conn.getStream id = some stream) (length : ℕ)
    (isEndStream : Bool) :
    Calm conn (handleRequestBodyChunk srv conn id stream length isEndStream).1 := by
  unfold handleRequestBodyChunk
  split
  · exact .refl
  next ho =>
  extract_lets _ stream1 _ stream2 stream3
  have ho' : stream.reqBodyState.isOpen = true := by simpa using ho
  have hg : ∀ stream', stream'.state = stream2.state → Ages stream stream' := by
    refine fun stream' hs => .of_open ho' fun hf => ?_
    unfold Stream.isFresh
    rw [hs]
    unfold stream2
    split
    · exact endBody_isFresh hf
    · exact hf
  split
  · exact resetStream_calm hge (.of_open ho' fun h => h)
  split
  · exact resetStream_calm hge (.of_open ho' fun h => h)
  split
  · split
    · split
      · exact setStream_calm hge (hg _ rfl)
      · exact writeStreamingBody_calm hge hg
    · exact setStream_calm hge (hg _ rfl)
  · split
    · exact setStream_calm hge (hg _ rfl)
    · split
      · exact executeOrEnqueueRequest_calm hge (hg _ rfl)
      · exact setStream_calm hge (hg _ rfl)

lemma handleDataFrame_calm : Calm conn (handleDataFrame srv conn frame).1 := by
  unfold handleDataFrame
  split
  · exact .refl
  split
  · split
    · exact .refl
    · exact .refl
  next hge =>
  split
  · exact resetStream_calm hge (.congr rfl rfl)
  · split
    · exact handleRequestBodyChunk_calm hge _ _
    · exact .refl

lemma handlePriorityFrame_calm : Calm conn (handlePriorityFrame srv conn frame).1 := by
  unfold handlePriorityFrame
  split
  · exact .refl
  · repeat' split
    all_goals first | exact .refl | exact openStream_calm

lemma handleRstStreamFrame_calm : Calm conn (handleRstStreamFrame conn frame).1 := by
  unfold handleRstStreamFrame
  split
  · exact .refl
  split
  · exact .refl
  split
  · exact .refl
  next hge => exact resetStream_calm hge (.congr rfl rfl)

lemma lookup_map (f : Stream → Stream) (streams : List (ℕ × Stream)) (id : ℕ) :
    (streams.map fun p => (p.1, f p.2)).lookup id = (streams.lookup id).map f := by
  induction streams with
  | nil => rfl
  | cons p ps ih =>
    obtain ⟨k, stream⟩ := p
    cases hid : id == k with
    | true => simp only [map_cons, lookup_cons, hid, map_some]
    | false => simp only [map_cons, lookup_cons, hid, ih]

lemma handleSettingsFrame_calm : Calm conn (handleSettingsFrame conn frame).1 := by
  unfold handleSettingsFrame
  split
  · exact .refl
  split
  · split
    · exact .refl
    · exact .refl
  split
  · exact .refl
  extract_lets delta update
  refine ⟨⟨rfl, rfl, rfl, rfl⟩, fun id stream' hge => .inl ?_, rfl, rfl⟩
  unfold Conn.getStream at hge
  simp only at hge
  rw [lookup_map, map_eq_some_iff] at hge
  obtain ⟨stream, hge, rfl⟩ := hge
  exact ⟨stream, hge, .congr rfl rfl⟩

lemma handlePingFrame_calm : Calm conn (handlePingFrame conn frame).1 := by
  unfold handlePingFrame
  split
  · exact .refl
  · exact .refl

lemma handleGoawayFrame_calm : Calm conn (handleGoawayFrame conn frame).1 := by
  unfold handleGoawayFrame
  split
  · exact .refl
  · exact .of_eq ⟨rfl, rfl, rfl, rfl⟩ rfl rfl rfl

lemma updateStreamWindow_calm (increment : ℕ) :
    Calm conn (updateStreamWindow conn id increment) := by
  unfold updateStreamWindow
  split
  · exact .refl
  next hge =>
  split
  · exact resetStream_calm hge (.congr rfl rfl)
  · exact setStream_calm hge (.congr rfl rfl)

lemma handleWindowUpdateFrame_calm : Calm conn (handleWindowUpdateFrame conn frame).1 := by
  unfold handleWindowUpdateFrame
  split
  · split
    · exact .refl
    next hge => exact resetStream_calm hge (.congr rfl rfl)
  · exact .refl
  · split
    · split
      · exact .refl
      · exact .of_eq ⟨rfl, rfl, rfl, rfl⟩ rfl rfl rfl
    · split
      · exact .refl
      · exact updateStreamWindow_calm _

/-- Only a HEADERS frame changes the input side or starts a request in the default mode. -/
lemma expectDefault_calm (srv : Server) (conn : Conn) (ht : frame.type ≠ typeHeaders) :
    Calm conn (expectDefault srv conn frame).1 := by
  unfold expectDefault
  rw [if_neg ht]
  split
  · exact handleDataFrame_calm
  split
  · exact handlePriorityFrame_calm
  split
  · exact handleRstStreamFrame_calm
  split
  · exact handleSettingsFrame_calm
  split
  · exact .refl
  split
  · exact handlePingFrame_calm
  split
  · exact handleGoawayFrame_calm
  split
  · exact handleWindowUpdateFrame_calm
  split
  · exact .refl
  · exact .refl

lemma expectDefault_headers (srv : Server) (conn : Conn) (ht : frame.type = typeHeaders) :
    expectDefault srv conn frame = handleHeadersFrame srv conn frame := by
  unfold expectDefault
  rw [if_neg (by rw [ht]; decide), if_pos ht]

/-! ## Decoding -/

/-- The block is given to the HPACK decoder. -/
def Conn.decode (conn : Conn) (b : Block) : Conn := { conn with decoded := conn.decoded ++ [b] }

include hge

lemma handleTrailingHeaders_calm (src : Bytes) :
    Calm (conn.decode ⟨id, true, src⟩) (handleTrailingHeaders srv conn id stream src).1 := by
  unfold handleTrailingHeaders
  extract_lets block p conn1
  have hg1 : conn1.getStream id = some stream := hge
  split
  · exact .refl
  · exact handleRequestBodyChunk_calm hg1 _ _

/-- The stream is in the state that `handle_incoming_request` asserts. -/
lemma handleIncomingRequest_calm (hs : stream.state = .recvHeaders) (src : Bytes) :
    Calm (conn.decode ⟨id, false, src⟩) (handleIncomingRequest srv conn id stream src).1 := by
  have hi : stream.state ≠ .idle := by
    rw [hs]
    decide
  unfold handleIncomingRequest
  rw [if_neg (not_not.2 hs)]
  extract_lets block p conn1 stream1 invalid
  have hg1 : conn1.getStream id = some stream := hge
  split
  · split
    · exact .refl
    · split
      · exact resetStream_calm hg1 (.congr rfl rfl)
      · exact setStream_calm hg1 (.of_not_fresh hi rfl)
  · split
    · exact resetStream_calm hg1 (.congr rfl rfl)
    split
    · split
      · exact setStream_calm hg1 (.of_not_fresh hi rfl)
      · exact setStream_calm hg1 (.of_not_fresh hi rfl)
    split
    · exact setStream_calm hg1 (.of_not_fresh hi rfl)
    split
    · exact executeOrEnqueueRequest_calm hg1 (.congr rfl rfl)
    · exact setStream_calm hg1 (.of_not_fresh hi rfl)

omit hge

/-! ## HEADERS frames -/

/-- The connection with the stream registered. -/
def Conn.withStream (conn : Conn) (id : ℕ) : Conn :=
  if (conn.getStream id).isSome then conn else conn.openStream id

lemma withStream_calm : Calm conn (conn.withStream id) := by
  unfold Conn.withStream
  split
  · exact .refl
  · exact openStream_calm

/-- `handle_headers_frame` prepares the stream for a request. -/
structure Prepares (conn : Conn) (frame : Frame) (payload : HeadersPayload) (stream : Stream) :
    Prop where
  decoded : decodeHeadersPayload frame = .ok payload
  pull : isPush frame.streamId = false
  late : conn.pullMaxOpen < frame.streamId
  dependency : frame.streamId ≠ payload.priority.dependency
  registered : (conn.withStream frame.streamId).getStream frame.streamId = some stream

/-- What a HEADERS frame is taken for. -/
inductive HeadersKind (srv : Server) (conn : Conn) (frame : Frame) : Prop
  | error (e : Err) (h : handleHeadersFrame srv conn frame = (conn, .error e))
  | trailers {payload : HeadersPayload} (hp : decodeHeadersPayload frame = .ok payload)
      (hid : frame.streamId ≤ conn.pullMaxOpen)
      (h : handleHeadersFrame srv conn frame = handleTrailersFrame srv conn frame payload)
  | request {payload : HeadersPayload} {stream : Stream} (hp : Prepares conn frame payload stream)

lemma getStream_withStream : ∃ stream, (conn.withStream id).getStream id = some stream := by
  unfold Conn.withStream
  split
  · next h => exact isSome_iff_exists.1 h
  · unfold Conn.openStream
    rw [getStream_setStream, if_pos rfl]
    exact ⟨_, rfl⟩

variable (hp : decodeHeadersPayload frame = .ok payload)
include hp

lemma handleHeadersFrame_push
    (hu : isPush frame.streamId = true) : handleHeadersFrame srv conn frame =
      (conn, .error ⟨.protocol, "invalid stream id in HEADERS frame"⟩) := by
  unfold handleHeadersFrame
  simp only [hp, hu, if_true]

lemma handleHeadersFrame_trailers
    (hu : isPush frame.streamId = false) (hid : frame.streamId ≤ conn.pullMaxOpen) :
    handleHeadersFrame srv conn frame = handleTrailersFrame srv conn frame payload := by
  unfold handleHeadersFrame
  simp only [hp, hu, hid, Bool.false_eq_true, if_true, if_false]

lemma handleHeadersFrame_dependency
    (hu : isPush frame.streamId = false) (hid : ¬ frame.streamId ≤ conn.pullMaxOpen)
    (hd : frame.streamId = payload.priority.dependency) : handleHeadersFrame srv conn frame =
      (conn, .error ⟨.protocol, "stream cannot depend on itself"⟩) := by
  unfold handleHeadersFrame
  simp only [hp, hu, hid, hd.symm, Bool.false_eq_true, if_true, if_false]

omit hp

lemma headersKind (srv : Server) (conn : Conn) (frame : Frame) : HeadersKind srv conn frame := by
  cases hp : decodeHeadersPayload frame with
  | error e =>
    refine .error e ?_
    unfold handleHeadersFrame
    rw [hp]
  | ok payload =>
    cases hu : isPush frame.streamId with
    | true => exact .error _ (handleHeadersFrame_push hp hu)
    | false =>
      by_cases hid : frame.streamId ≤ conn.pullMaxOpen
      · exact .trailers hp hid (handleHeadersFrame_trailers hp hu hid)
      · by_cases hd : frame.streamId = payload.priority.dependency
        · exact .error _ (handleHeadersFrame_dependency hp hu hid hd)
        · obtain ⟨stream, hr⟩ : ∃ stream,
            (conn.withStream frame.streamId).getStream frame.streamId = some stream :=
              getStream_withStream
          exact .request ⟨hp, hu, not_le.1 hid, hd, hr⟩

/-- The rest of `handle_headers_frame`, for a request. -/
lemma handleHeadersFrame_request (h : Prepares conn frame payload stream) :
    handleHeadersFrame srv conn frame =
      match (conn.withStream frame.streamId).prepareForRequest frame.streamId stream with
      | none => (conn.withStream frame.streamId, .abort)
      | some (conn, stream) =>
        let stream := { stream with hasReqBody := !frame.has flagEndStream }
        let conn := conn.setStream frame.streamId stream
        if frame.has flagEndHeaders then
          handleIncomingRequest srv conn frame.streamId stream payload.headers
        else prepareForContinuation conn payload.headers := by
  have hl : ¬ frame.streamId ≤ conn.pullMaxOpen := not_le.2 h.late
  have he := h.registered
  cases hr : (conn.withStream frame.streamId).prepareForRequest frame.streamId stream
  all_goals
    unfold Conn.withStream at he hr ⊢
    unfold handleHeadersFrame
    simp only [h.decoded, h.pull, hl, h.dependency, Bool.false_eq_true, if_false, he, hr, bind_some]

/-- The connection before the header block is looked at. -/
inductive Opened (conn : Conn) (frame : Frame) : Conn → Prop
  | same : Opened conn frame conn
  | registered : Opened conn frame (conn.withStream frame.streamId)
  | prepared {payload : HeadersPayload} {stream stream' : Stream} {conn' : Conn}
      (hp : Prepares conn frame payload stream)
      (h : (conn.withStream frame.streamId).prepareForRequest frame.streamId stream =
        some (conn', stream')) :
      Opened conn frame (conn'.setStream frame.streamId
        { stream' with hasReqBody := !frame.has flagEndStream })

/-- What becomes of the header block of a HEADERS frame. -/
inductive HeadersDone (conn : Conn) (frame : Frame) (conn' : Conn) : Prop
  | calm (h : Calm conn conn')
  /-- the block is complete -/
  | decoded {payload : HeadersPayload} {trailers : Bool}
      (hp : decodeHeadersPayload frame = .ok payload) (he : frame.has flagEndHeaders = true)
      (h : Calm (conn.decode ⟨frame.streamId, trailers, payload.headers⟩) conn')
  /-- the block goes on -/
  | pending {payload : HeadersPayload} (hp : decodeHeadersPayload frame = .ok payload)
      (he : frame.has flagEndHeaders = false)
      (h : conn' = (prepareForContinuation conn payload.headers).1)

lemma handleTrailersFrame_done (hp : decodeHeadersPayload frame = .ok payload) :
    HeadersDone conn frame (handleTrailersFrame srv conn frame payload).1 := by
  unfold handleTrailersFrame
  split
  · exact .calm .refl
  next hge =>
  split
  · exact .calm .refl
  split
  · exact .calm .refl
  split
  · exact .calm .refl
  split
  · next he => exact .pending hp (by simpa using he) rfl
  · next he => exact .decoded hp (by simpa using he) (handleTrailingHeaders_calm hge _)

lemma prepareForRequest_spec (h : conn.prepareForRequest id stream = some (conn', stream')) :
    Quiet conn conn' ∧ conn'.state = conn.state ∧ stream.state = .idle ∧
      stream'.state = .recvHeaders := by
  unfold Conn.prepareForRequest at h
  split at h
  · next hi =>
    obtain ⟨rfl, rfl⟩ := mk.inj (some.inj h)
    split
    · exact ⟨⟨rfl, rfl, rfl, rfl⟩, rfl, hi, rfl⟩
    · split
      · exact ⟨⟨rfl, rfl, rfl, rfl⟩, rfl, hi, rfl⟩
      · exact ⟨.refl, rfl, hi, rfl⟩
  · cases h

lemma Opened.quiet (h : Opened conn frame conn') : Quiet conn conn' := by
  cases h with
  | same => exact .refl
  | registered => exact withStream_calm.toQuiet
  | prepared hp h =>
    exact (withStream_calm.toQuiet.trans (prepareForRequest_spec h).1).trans ⟨rfl, rfl, rfl, rfl⟩

lemma handleHeadersFrame_done (srv : Server) (conn : Conn) (frame : Frame) :
    ∃ opened, Opened conn frame opened ∧
      HeadersDone opened frame (handleHeadersFrame srv conn frame).1 := by
  rcases headersKind srv conn frame with ⟨e, he⟩ | ⟨hp, -, he⟩ | hp
  · rw [he]
    exact ⟨conn, .same, .calm .refl⟩
  · rw [he]
    exact ⟨conn, .same, handleTrailersFrame_done hp⟩
  · rw [handleHeadersFrame_request hp]
    split
    · exact ⟨_, .registered, .calm .refl⟩
    next conn2 stream2 hr =>
    extract_lets stream3 conn3
    refine ⟨conn3, .prepared hp hr, ?_⟩
    have hge : conn3.getStream frame.streamId = some stream3 := by
      unfold conn3
      rw [getStream_setStream, if_pos rfl]
    split
    · next he =>
      exact .decoded hp.decoded he
        (handleIncomingRequest_calm hge (prepareForRequest_spec hr).2.2.2 _)
    · next he => exact .pending hp.decoded (by simpa using he) rfl

lemma resetStream_of_receiving (h : stream.receiving = true) :
    conn.resetStream id stream = conn.closeStream id := by
  unfold Stream.receiving at h
  unfold Conn.resetStream
  cases hs : stream.state <;> simp_all

/-- The header block is complete. -/
def Conn.endBlock (conn : Conn) : Conn := { conn with readExpect := .default, headersUnparsed := none }

/-- What a frame does to the input side while a header block is pending. -/
inductive ContinuationDone (conn : Conn) (frame : Frame) (r : Conn × Ret) : Prop
  | error (h : r.1 = conn) (e : Err) (he : r.2 = .error e)
  /-- the block is complete -/
  | decoded {stream : Stream} {trailers : Bool} (hget : conn.getStream frame.streamId = some stream)
      (hrecv : stream.receiving = true) (ht : frame.type = typeContinuation)
      (he : frame.has flagEndHeaders = true)
      (h : Calm (conn.endBlock.decode
        ⟨frame.streamId, trailers, conn.headersUnparsed.getD [] ++ frame.payload⟩) r.1)
  /-- the block goes on -/
  | pending {stream : Stream} (hget : conn.getStream frame.streamId = some stream)
      (hrecv : stream.receiving = true) (ht : frame.type = typeContinuation)
      (he : frame.has flagEndHeaders = false)
      (h : r.1 = { conn with
        headersUnparsed := some (conn.headersUnparsed.getD [] ++ frame.payload) })
  /-- the block is too large -/
  | refused {stream : Stream} (hget : conn.getStream frame.streamId = some stream)
      (hrecv : stream.receiving = true) (ht : frame.type = typeContinuation)
      (h : r.1 = conn.closeStream frame.streamId)

lemma expectContinuationOfHeaders_done (srv : Server) (conn : Conn) (frame : Frame) :
    ContinuationDone conn frame (expectContinuationOfHeaders srv conn frame) := by
  unfold expectContinuationOfHeaders
  split
  · exact .error rfl _ rfl
  next ht =>
  rw [not_not] at ht
  split
  · exact .error rfl _ rfl
  next stream hge =>
  split
  · exact .error rfl _ rfl
  next hr =>
  rw [Bool.not_eq_true', Bool.not_eq_false] at hr
  extract_lets unparsed unparsed' conn1
  have hg1 : conn1.getStream frame.streamId = some stream := hge
  split
  · split
    · next he =>
      split
      · next hs =>
        exact .decoded hge hr ht he (handleIncomingRequest_calm hg1 hs _)
      · exact .decoded hge hr ht he (handleTrailingHeaders_calm hg1 _)
    · next he => exact .pending hge hr ht (by simpa using he) rfl
  · exact .refused hge hr ht (resetStream_of_receiving hr)

/-! ## One frame -/

/-- The frame is recorded before it is handled. -/
def Conn.record (conn : Conn) (frame : Frame) : Conn :=
  { conn with received := conn.received ++ [frame] }

lemma onFrame_continuation (hm : conn.readExpect = .continuationOfHeaders) :
    conn.onFrame srv frame = (expectContinuationOfHeaders srv (conn.record frame) frame).1.finish
        (frameHeaderSize + frame.payload.length)
        (expectContinuationOfHeaders srv (conn.record frame) frame).2 := by
  unfold Conn.onFrame
  extract_lets conn1
  have hm1 : conn1.readExpect = .continuationOfHeaders := hm
  simp only [if_pos hm1]
  rfl

lemma onFrame_default (hm : conn.readExpect ≠ .continuationOfHeaders) : conn.onFrame srv frame =
      (expectDefault srv (conn.record frame) frame).1.finish
        (frameHeaderSize + frame.payload.length) (expectDefault srv (conn.record frame) frame).2 := by
  unfold Conn.onFrame
  extract_lets conn1
  have hm1 : conn1.readExpect ≠ .continuationOfHeaders := hm
  simp only [if_neg hm1]
  rfl

/-- **One turn of the loop**: an error, the preface or a frame. -/
lemma parseInput_cases (hp : conn.parseInput srv = some conn') :
    conn.live ∧ ((∃ e, conn' = conn.finish 0 (.error e)) ∨ (conn.readExpect = .preface ∧
        conn' = { conn with
          readExpect := .default, input := conn.input.drop connectionPreface.length }) ∨
      ∃ frame, decodeFrame conn.input hostMaxFrameSize = .ok frame ∧
        conn' = conn.onFrame srv frame) := by
  unfold Conn.parseInput at hp
  split at hp
  · cases hp
  next hl =>
  refine ⟨⟨fun h => hl (.inl h), fun h => hl (.inr (.inl h))⟩, ?_⟩
  split at hp
  · next hm =>
    split at hp
    · cases hp
    split at hp
    · exact .inl ⟨_, (some.inj hp).symm⟩
    · exact .inr (.inl ⟨hm, (some.inj hp).symm⟩)
  · split at hp
    · cases hp
    · exact .inl ⟨_, (some.inj hp).symm⟩
    · next frame hf => exact .inr (.inr ⟨frame, hf, (some.inj hp).symm⟩)

/-- The stream of the frame, while a header block is pending, is that of the block, or a
stream that does not receive. -/
def SameStream (conn : Conn) (frame : Frame) : Prop :=
  conn.readExpect = .continuationOfHeaders → frame.type = typeContinuation →
    lastHeadersId conn.received = some frame.streamId ∨
      ∀ stream, conn.getStream frame.streamId = some stream → stream.receiving = false

/-- All that was decoded are header blocks. -/
def BlocksOk (conn : Conn) : Prop := ∀ b ∈ conn.decoded, IsBlock conn.received b

/-- The bytes that are kept are those of the pending block, as long as its stream is there to
receive it. -/
def PendingOk (conn : Conn) : Prop :=
  conn.readExpect = .continuationOfHeaders →
    ∃ id, lastHeadersId conn.received = some id ∧
      ∀ stream, conn.getStream id = some stream → stream.receiving = true →
        ∃ bytes, Pending conn.received id bytes ∧ conn.headersUnparsed = some bytes

/-- What holds in every state. -/
structure Good (conn : Conn) : Prop where
  blocks : BlocksOk conn
  pending : conn.live → PendingOk conn

/-- The frame is recorded before it is handled. -/
lemma BlocksOk.record (h : BlocksOk conn) (frame : Frame) : BlocksOk (conn.record frame) :=
  fun b hb => (h b hb).append frame

lemma BlocksOk.of_quiet (h : BlocksOk conn) (hq : Quiet conn conn') : BlocksOk conn' := by
  intro b hb
  rw [hq.decoded] at hb
  rw [hq.received]
  exact h b hb

lemma BlocksOk.decode (h : BlocksOk conn) (hb : IsBlock conn.received b) :
    BlocksOk (conn.decode b) :=
  forall_mem_append.2 ⟨h, fun _ hb' => (mem_singleton.1 hb').symm ▸ hb⟩

/-- A frame in the default mode. -/
lemma expectDefault_good (srv : Server) (hm : conn.readExpect ≠ .continuationOfHeaders)
    (hb : BlocksOk conn) (hr : conn.received = frames ++ [frame]) :
    BlocksOk (expectDefault srv conn frame).1 ∧ PendingOk (expectDefault srv conn frame).1 := by
  by_cases ht : frame.type = typeHeaders
  · rw [expectDefault_headers srv conn ht]
    obtain ⟨opened, ho, hd⟩ := handleHeadersFrame_done srv conn frame
    have hq := ho.quiet
    have hm' : opened.readExpect ≠ .continuationOfHeaders := hq.readExpect ▸ hm
    have hb' := hb.of_quiet hq
    have hr' := hq.received.trans hr
    cases hd with
    | calm h => exact ⟨hb'.of_quiet h.toQuiet, fun hc => absurd (h.readExpect ▸ hc) hm'⟩
    | decoded hp he h =>
      refine ⟨(hb'.decode ?_).of_quiet h.toQuiet, fun hc => absurd (h.readExpect ▸ hc) hm'⟩
      rw [hr']
      exact isBlock_headers ht hp he _
    | pending hp he h =>
      rw [h]
      refine ⟨hb', fun _ => ⟨frame.streamId, ?_, fun _ _ _ => ⟨_, ?_, rfl⟩⟩⟩
      · exact (congrArg lastHeadersId hr').trans (lastHeadersId_headers ht)
      · show Pending opened.received _ _
        rw [hr']
        exact pending_headers ht hp he
  · have hq := (expectDefault_calm srv conn ht).toQuiet
    exact ⟨hb.of_quiet hq, fun hc => absurd (hq.readExpect ▸ hc) hm⟩

/-- A frame while a header block is pending. -/
lemma expectContinuationOfHeaders_good (srv : Server)
    (hm : conn.readExpect = .continuationOfHeaders) (hb : BlocksOk conn) (hp : PendingOk conn)
    (hs : SameStream conn frame) :
    BlocksOk (expectContinuationOfHeaders srv (conn.record frame) frame).1 ∧
      ((expectContinuationOfHeaders srv (conn.record frame) frame).2 = .ok →
        PendingOk (expectContinuationOfHeaders srv (conn.record frame) frame).1) := by
  have hb' := hb.record frame
  obtain ⟨id, hl, hpe⟩ := hp hm
  -- a frame that is taken belongs to the pending block
  have hi : ∀ stream, conn.getStream frame.streamId = some stream → stream.receiving = true →
      frame.type = typeContinuation →
        lastHeadersId (conn.record frame).received = some frame.streamId ∧
        Pending conn.received frame.streamId (conn.headersUnparsed.getD []) := by
    intro stream hge hr ht
    have hid : id = frame.streamId := by
      rcases hs hm ht with h | h
      · exact some.inj (hl.symm.trans h)
      · rw [h stream hge] at hr
        cases hr
    subst hid
    obtain ⟨bytes, hn, hu⟩ := hpe stream hge hr
    rw [hu, getD_some]
    exact ⟨(lastHeadersId_other (by rw [ht]; decide)).trans hl, hn⟩
  rcases expectContinuationOfHeaders_done srv (conn.record frame) frame with
    ⟨hcn, e, he⟩ | ⟨hge, hr, ht, hen, hd⟩ | ⟨hge, hr, ht, hen, hcn⟩ | ⟨hge, hr, ht, hcn⟩
  · rw [hcn, he]
    exact ⟨hb', nofun⟩
  · obtain ⟨-, hn⟩ := hi _ hge hr ht
    have hb1 : BlocksOk (conn.record frame).endBlock := hb'
    refine ⟨(hb1.decode (hn.isBlock ht rfl hen _)).of_quiet hd.toQuiet, fun _ hc => ?_⟩
    rw [hd.readExpect] at hc
    cases hc
  · obtain ⟨hl', hn⟩ := hi _ hge hr ht
    rw [hcn]
    exact ⟨hb', fun _ _ => ⟨frame.streamId, hl', fun _ _ _ =>
      ⟨_, hn.continuation ht rfl hen, rfl⟩⟩⟩
  · obtain ⟨hl', -⟩ := hi _ hge hr ht
    rw [hcn]
    refine ⟨hb'.of_quiet closeStream_calm.toQuiet, fun _ _ => ⟨frame.streamId, hl',
      fun stream ho => ?_⟩⟩
    rw [getStream_closeStream] at ho
    cases ho

lemma finish_good {r : Ret} {length : ℕ} (hb : BlocksOk conn) (hp : r = .ok → PendingOk conn) :
    Good (conn.finish length r) := by
  cases r with
  | ok => exact ⟨hb, fun _ => hp rfl⟩
  | error e => exact ⟨hb, fun hl => absurd rfl hl.1⟩
  | abort => exact ⟨hb, fun hl => absurd rfl hl.2⟩

/-- **One frame** keeps the invariant, if it does not name another stream that receives. -/
theorem onFrame_good (hg : Good conn) (hl : conn.live) (hs : SameStream conn frame) :
    Good (conn.onFrame srv frame) := by
  by_cases hm : conn.readExpect = .continuationOfHeaders
  · obtain ⟨hb, hp⟩ := expectContinuationOfHeaders_good srv hm hg.blocks (hg.pending hl) hs
    rw [onFrame_continuation hm]
    exact finish_good hb hp
  · have hm1 : (conn.record frame).readExpect ≠ .continuationOfHeaders := hm
    obtain ⟨hb, hp⟩ := expectDefault_good srv hm1 (hg.blocks.record frame) rfl
    rw [onFrame_default hm]
    exact finish_good hb fun _ => hp

lemma parseInput_good (hg : Good conn)
    (hc : ∀ frame, decodeFrame conn.input hostMaxFrameSize = .ok frame → SameStream conn frame)
    (hp : conn.parseInput srv = some conn') : Good conn' := by
  obtain ⟨hl, ⟨e, rfl⟩ | ⟨-, rfl⟩ | ⟨frame, hf, rfl⟩⟩ := parseInput_cases hp
  · exact finish_good hg.blocks nofun
  · exact ⟨hg.blocks, fun _ => nofun⟩
  · exact onFrame_good hg hl (hc frame hf)

lemma background_good (hg : Good conn) (hb : Background conn conn') : Good conn' := by
  refine ⟨fun b hmem => ?_, fun hl hm => ?_⟩
  · rw [hb.decoded] at hmem
    rw [hb.received]
    exact hg.blocks b hmem
  · obtain ⟨id, ha, he⟩ := hg.pending (hb.live hl) (hb.readExpect ▸ hm)
    rw [hb.received, hb.headersUnparsed]
    refine ⟨id, ha, fun stream' hge hr => ?_⟩
    obtain ⟨stream, hg0, hs⟩ := hb.streams id stream' hge hr
    refine he stream hg0 ?_
    unfold Stream.receiving at hr ⊢
    rw [hs]
    exact hr

lemma Reach.good (h : Reach srv SameStream conn) : Good conn := by
  induction h with
  | init | upgrade settings =>
    exact ⟨fun b hb => absurd hb not_mem_nil, fun _ hm => by cases hm⟩
  | read h bytes ih => exact ⟨ih.blocks, ih.pending⟩
  | parse h hc hp ih => exact parseInput_good ih hc hp
  | background h hb ih => exact background_good ih hb

lemma length_of_decodeFrame {src : Bytes} {n : ℕ} (h : decodeFrame src n = .ok frame) :
    src ≠ [] := by
  rintro rfl
  simp [decodeFrame, frameHeaderSize] at h

lemma parseInput_of_decodeFrame (hl : conn.live) (hm : conn.readExpect ≠ .preface)
    (hf : decodeFrame conn.input hostMaxFrameSize = .ok frame) :
    conn.parseInput srv = some (conn.onFrame srv frame) := by
  unfold Conn.parseInput
  rw [if_neg (by rintro (h | h | h); exacts [hl.1 h, hl.2 h, length_of_decodeFrame hf h]),
    if_neg hm]
  simp only [hf]

/-- A CONTINUATION frame that does not belong to the pending block is refused. -/
lemma onFrame_refuses (hs : SameStream conn frame) (ht : frame.type = typeContinuation)
    (ho : ¬(conn.readExpect = .continuationOfHeaders ∧
      lastHeadersId conn.received = some frame.streamId)) :
    ∃ e, (conn.onFrame srv frame).error = some e ∧ e.code = .protocol ∧
      (conn.onFrame srv frame).state = .isClosing := by
  by_cases hm : conn.readExpect = .continuationOfHeaders
  · have hq := (hs hm ht).resolve_left fun h => ho ⟨hm, h⟩
    have he : (expectContinuationOfHeaders srv (conn.record frame) frame).2
        = .error ⟨.protocol, "unexpected stream id in CONTINUATION frame"⟩ := by
      unfold expectContinuationOfHeaders
      rw [if_neg (not_not.2 ht)]
      split
      · rfl
      · next stream hge =>
        rw [hq stream hge]
        rfl
    rw [onFrame_continuation hm, he]
    exact ⟨_, rfl, rfl, rfl⟩
  · have he : expectDefault srv (conn.record frame) frame =
        handleInvalidContinuationFrame (conn.record frame) := by
      unfold expectDefault
      rw [ht]
      rfl
    rw [onFrame_default hm, he]
    exact ⟨_, rfl, rfl, rfl⟩

/-- **Header blocks are bound to their stream**, as long as no CONTINUATION frame names
another stream that receives: whatever is decoded for a stream is the fragment of one HEADERS
frame of the stream and the payloads of the CONTINUATION frames that directly follow, and any
other CONTINUATION frame is a connection error. -/
theorem decoded_isBlock (h : Reach srv SameStream conn) :
    (∀ b ∈ conn.decoded, IsBlock conn.received b) ∧
    ∀ frame, conn.live → conn.readExpect ≠ .preface →
      decodeFrame conn.input hostMaxFrameSize = .ok frame → SameStream conn frame →
      frame.type = typeContinuation → ¬(conn.readExpect = .continuationOfHeaders ∧
        lastHeadersId conn.received = some frame.streamId) →
      ∃ conn' e, conn.parseInput srv = some conn' ∧ conn'.error = some e ∧ e.code = .protocol ∧
        conn'.state = .isClosing := by
  refine ⟨h.good.blocks, fun frame hl hm hf hs ht ho => ?_⟩
  obtain ⟨e, he, hco, hc⟩ := onFrame_refuses hs ht ho
  exact ⟨_, e, parseInput_of_decodeFrame hl hm hf, he, hco, hc⟩

/-- So many turns of the loop. -/
def Conn.parseInputs (srv : Server) : ℕ → Conn → Option Conn
  | 0, conn => some conn
  | n + 1, conn => (conn.parseInput srv).bind (Conn.parseInputs srv n)

lemma Reach.parses {n : ℕ} (h : Reach srv (fun _ _ => True) conn)
    (hp : conn.parseInputs srv n = some conn') : Reach srv (fun _ _ => True) conn' := by
  induction n generalizing conn with
  | zero => exact some.inj hp ▸ h
  | succ n ih =>
    obtain ⟨c, hc, hp⟩ := bind_eq_some_iff.1 hp
    exact ih (.parse h (fun _ _ => trivial) hc) hp

/-- A server for which every header block is a plain request. -/
def plainServer : Server where
  parse _ _ := ⟨none, .other, true, true, true, false, false, false, none, none⟩
  canStream _ _ := false
  writeOk _ _ := true
  maxStreams := 100
  maxStreamsForPriority := 16
  maxRequestEntitySize := 1000

/-- A request in a HEADERS and a CONTINUATION frame. -/
def splitRequest : Bytes :=
  connectionPreface ++ [0, 0, 1, 1, 1, 0, 0, 0, 1, 0x82] ++ [0, 0, 1, 9, 4, 0, 0, 0, 1, 0x84]

/-- A request on stream `1` that leaves the stream open, the start of a request on stream `3`,
and a CONTINUATION frame on stream `1`. -/
def crossedRequests : Bytes :=
  connectionPreface ++ [0, 0, 1, 1, 4, 0, 0, 0, 1, 0x82] ++ [0, 0, 1, 1, 1, 0, 0, 0, 3, 0x84]
    ++ [0, 0, 1, 9, 4, 0, 0, 0, 1, 0x86]

/-- A block that came in two frames. -/
theorem decoded_isBlock_splitRequest : ∃ conn, Reach plainServer SameStream conn ∧
    conn.decoded = [⟨1, false, [0x82, 0x84]⟩] ∧ ∀ b ∈ conn.decoded, IsBlock conn.received b := by
  have hr : (do
      let c1 ← { Conn.init with input := splitRequest }.parseInput plainServer
      let c2 ← c1.parseInput plainServer
      let c3 ← c2.parseInput plainServer
      pure (c1.readExpect, lastHeadersId c2.received,
        (decodeFrame c2.input hostMaxFrameSize).map Frame.streamId, c3.decoded))
      = some (.default, some 1, .ok 1, [⟨1, false, [0x82, 0x84]⟩]) := rfl
  obtain ⟨c1, h1, hr⟩ := bind_eq_some_iff.1 hr
  obtain ⟨c2, h2, hr⟩ := bind_eq_some_iff.1 hr
  obtain ⟨c3, h3, hr⟩ := bind_eq_some_iff.1 hr
  simp only [Option.pure_def, some.injEq, mk.injEq] at hr
  obtain ⟨hm1, hl, hid, hd⟩ := hr
  have hr1 : Reach plainServer SameStream c1 :=
    .parse (.read .init splitRequest) (fun _ _ hm => by cases hm) h1
  have hr2 : Reach plainServer SameStream c2 :=
    .parse hr1 (fun _ _ hm => by rw [hm1] at hm; cases hm) h2
  have hr3 : Reach plainServer SameStream c3 := by
    refine .parse hr2 (fun frame hf _ _ => .inl ?_) h3
    rw [hf] at hid
    rw [hl, ← Except.ok.inj hid]
  exact ⟨c3, hr3, hd, (decoded_isBlock hr3).1⟩

/-- The header block of stream `3` is decoded as the trailers of stream `1`. -/
theorem decodes_block_of_another_stream : ∃ conn, Reach plainServer (fun _ _ => True) conn ∧
    ∃ b ∈ conn.decoded, b = ⟨1, true, [0x84, 0x86]⟩ ∧ ¬ IsBlock conn.received b := by
  obtain ⟨c, hc, he, hd⟩ : ∃ c,
      { Conn.init with input := crossedRequests }.parseInputs plainServer 4 = some c ∧
      c.received = [⟨1, 4, 1, [0x82]⟩, ⟨1, 1, 3, [0x84]⟩, ⟨9, 4, 1, [0x86]⟩] ∧
      ⟨1, true, [0x84, 0x86]⟩ ∈ c.decoded := exists_of_any rfl
  refine ⟨c, (Reach.read .init crossedRequests).parses hc, _, hd, rfl, ?_⟩
  rw [he]
  rintro ⟨before, head, conts, after, payload, hf, ht, hid, hp, -, -, hb⟩
  have hmem : head ∈ ([⟨1, 4, 1, [0x82]⟩, ⟨1, 1, 3, [0x84]⟩, ⟨9, 4, 1, [0x86]⟩] : List Frame) := by
    rw [hf]
    simp
  -- the only HEADERS frame of the stream is the first one
  have hh : head = ⟨1, 4, 1, [0x82]⟩ := by
    rcases mem_cons.1 hmem with h | hmem
    · exact h
    rcases mem_cons.1 hmem with rfl | hmem
    · cases hid
    · rw [mem_singleton.1 hmem] at ht
      cases ht
  subst hh
  have ha : payload = ⟨defaultPriority, [0x82]⟩ := (Except.ok.inj hp).symm
  rw [ha] at hb
  cases hb

end Vhttp.Http2
