import Vhttp.Http2.Frame

/-!
# The input side of an HTTP/2 connection: model

`lib/http2/connection.c`, `lib/http2/stream.c` and `include/vhttp/http2_internal.h`: the two
modes in which frames are read, the handlers of the frames and what they do to the streams.

What the handlers leave to the rest of the server are the parameters of `Server`: the result
of `vhttp_hpack_parse_request`, which depends on the header blocks that were decoded before,
and what the application says. What the server does to the streams between two frames
(running requests, sending responses, pushing, timeouts) is the relation `Background`.

`received` and `decoded` are not part of the connection: they record the frames that were
handled and the header blocks that were given to the HPACK decoder.
-/

namespace Vhttp.Http2

/-- `vhttp_http2_stream_state_t`. -/
inductive StreamState where
  | idle
  | recvHeaders
  | recvBody
  | reqPending
  | sendHeaders
  | sendBody
  | sendBodyIsFinal
  | endStream
  deriving DecidableEq

/-- `state < vhttp_HTTP2_STREAM_STATE_REQ_PENDING`. -/
def StreamState.beforeReqPending : StreamState → Bool
  | .idle | .recvHeaders | .recvBody => true
  | _ => false

/-- `enum en_vhttp_req_body_state_t`. -/
inductive ReqBodyState where
  | none
  | openBeforeFirstFrame
  | «open»
  | closeQueued
  | closeDelivered
  deriving DecidableEq

/-- A request body may arrive. -/
def ReqBodyState.isOpen : ReqBodyState → Bool
  | .openBeforeFirstFrame | .open => true
  | _ => false

/-- `vhttp_http2_stream_t`, as far as the input side uses it. -/
structure Stream where
  state : StreamState
  reqBodyState : ReqBodyState
  /-- `req_body.buf != NULL` -/
  hasReqBody : Bool
  streamed : Bool
  isTunnelReq : Bool
  /-- `none` for `SIZE_MAX` -/
  contentLength : Option ℕ
  bytesReceived : ℕ
  /-- `req.proceed_req != NULL` -/
  proceedReq : Bool
  processCalled : Bool
  /-- `req.write_req.cb != NULL` -/
  writeReq : Bool
  /-- `req.entity.base != NULL` -/
  hasEntity : Bool
  outputWindow : ℤ
  /-- `_link` is linked -/
  linked : Bool

/-- The stream waits for the rest of a header block, or for a body or trailers. -/
def Stream.receiving (stream : Stream) : Bool :=
  stream.state == .recvHeaders || stream.state == .recvBody

/-- `vhttp_http2_conn_state_t`, and what is left when an assertion fails. -/
inductive ConnState where
  | «open»
  | halfClosed
  | isClosing
  | aborted
  deriving DecidableEq

/-- `_read_expect`. -/
inductive ReadExpect where
  | preface
  | default
  | continuationOfHeaders
  deriving DecidableEq

/-- A header block that was given to the HPACK decoder. -/
structure Block where
  streamId : ℕ
  trailers : Bool
  bytes : Bytes
  deriving DecidableEq

/-- `vhttp_http2_conn_t`, as far as the input side uses it. -/
structure Conn where
  streams : List (ℕ × Stream)
  pullMaxOpen : ℕ
  pushMaxOpen : ℕ
  state : ConnState
  readExpect : ReadExpect
  headersUnparsed : Option Bytes
  peerSettings : Settings
  writeWindow : ℤ
  input : Bytes
  /-- the error that the connection was closed with -/
  error : Option Err
  received : List Frame
  decoded : List Block

/-- The method of a request, as `handle_incoming_request` tells them apart. -/
inductive Method where
  | connect
  | connectUdp
  | other
  deriving DecidableEq

/-- What `vhttp_hpack_parse_request` returns: `ret`, the pseudo headers that exist and what is
looked at of the others. -/
structure Parsed where
  ret : Option Err
  method : Method
  methodExists : Bool
  schemeExists : Bool
  pathExists : Bool
  authorityExists : Bool
  protocolExists : Bool
  /-- the path is `/` -/
  pathIsRoot : Bool
  contentLength : Option ℕ
  /-- `expect`, and whether it is `100-continue` -/
  expect : Option Bool

/-- The rest of the server. -/
structure Server where
  /-- `vhttp_hpack_parse_request`; the header table is what the blocks decoded before made it -/
  parse : List Block → Block → Parsed
  /-- `vhttp_req_can_stream_request` -/
  canStream : List Frame → ℕ → Bool
  /-- `write_req.cb` returns zero -/
  writeOk : List Frame → ℕ → Bool
  maxStreams : ℕ
  maxStreamsForPriority : ℕ
  maxRequestEntitySize : ℕ

/-- What a handler returns. -/
inductive Ret where
  | ok
  | error (e : Err)
  /-- a failed `assert` or `vhttp_fatal` -/
  | abort

/-- `vhttp_MAX_REQLEN`. -/
def maxReqlen : ℕ := 8192 + 4096 * 100

/-- `vhttp_http2_stream_is_push`. -/
def isPush (streamId : ℕ) : Bool := streamId % 2 == 0

/-! ## Streams -/

variable (srv : Server) (conn : Conn) (streamId : ℕ) (stream : Stream) (frame : Frame)

/-- `vhttp_http2_conn_get_stream`. -/
def Conn.getStream : Option Stream := conn.streams.lookup streamId

/-- The connection with the stream in its new state, or registered. -/
def Conn.setStream : Conn :=
  { conn with streams := (streamId, stream) :: conn.streams.filter fun p => p.1 ≠ streamId }

/-- `vhttp_http2_stream_close`, as far as `conn->streams` is concerned. -/
def Conn.closeStream : Conn :=
  { conn with streams := conn.streams.filter fun p => p.1 ≠ streamId }

/-- The stream that `vhttp_http2_stream_open` sets up. -/
def Stream.new (initialWindowSize : ℕ) : Stream where
  state := .idle
  reqBodyState := .none
  hasReqBody := false
  streamed := false
  isTunnelReq := false
  contentLength := none
  bytesReceived := 0
  proceedReq := false
  processCalled := false
  writeReq := false
  hasEntity := false
  outputWindow := initialWindowSize
  linked := false

/-- `vhttp_http2_stream_open`. -/
def Conn.openStream : Conn :=
  conn.setStream streamId (.new conn.peerSettings.initialWindowSize)

/-- `vhttp_http2_stream_reset`. -/
def Conn.resetStream : Conn :=
  match stream.state with
  | .idle | .recvHeaders | .recvBody | .reqPending => conn.closeStream streamId
  | .sendHeaders | .sendBody | .sendBodyIsFinal | .endStream =>
    -- a stream that is linked will be closed in the callback
    if stream.linked then conn.setStream streamId { stream with state := .endStream }
    else conn.closeStream streamId

/-- `num_streams.priority.open`: the streams that are registered and idle. -/
def Conn.numPriority : ℕ :=
  (conn.streams.filter fun p => p.2.state == .idle).length

/-- `num_streams.pull.open`. -/
def Conn.numPull : ℕ :=
  (conn.streams.filter fun p => !isPush p.1 && p.2.state != .idle && p.2.state != .endStream).length

/-- `is_idle_stream_id`. -/
def Conn.isIdleStreamId : Bool :=
  decide ((if isPush streamId then conn.pushMaxOpen else conn.pullMaxOpen) < streamId)

/-- `vhttp_http2_stream_prepare_for_request`: the stream in its new state, `none` if the
assertion of `vhttp_http2_stream_set_state` fails. -/
def Conn.prepareForRequest : Option (Conn × Stream) :=
  if stream.state = .idle then
    let conn :=
      if isPush streamId then { conn with pushMaxOpen := max conn.pushMaxOpen streamId }
      else if conn.state = .open then { conn with pullMaxOpen := max conn.pullMaxOpen streamId }
      else conn
    some (conn,
      { stream with state := .recvHeaders, outputWindow := conn.peerSettings.initialWindowSize })
  else none

/-- `reset_stream_if_disregarded`. -/
def Conn.disregards : Bool :=
  !isPush streamId && decide (streamId > conn.pullMaxOpen)

/-- `execute_or_enqueue_request`, up to the point where the request is pending. -/
def Conn.executeOrEnqueueRequest : Conn × Ret :=
  if ¬(stream.state = .recvHeaders ∨ stream.state = .reqPending) then (conn, .abort)
  else if conn.disregards streamId then (conn.resetStream streamId stream, .ok)
  else (conn.setStream streamId { stream with state := .reqPending, linked := true }, .ok)

/-! ## Request bodies -/

/-- `write_streaming_body`. -/
def writeStreamingBody : Conn :=
  let stream :=
    if stream.reqBodyState = .closeQueued then
      { stream with reqBodyState := .closeDelivered, proceedReq := false, hasEntity := true }
    else { stream with hasEntity := true }
  if !srv.writeOk conn.received streamId then conn.resetStream streamId stream
  else if stream.reqBodyState = .closeDelivered ∧ stream.state = .endStream then
    conn.closeStream streamId
  else conn.setStream streamId stream

/-- The checks of `handle_request_body_chunk`: the body is too large, or does not have the
length it should have. -/
def badLength (isEndStream : Bool) : Bool :=
  decide (stream.bytesReceived > srv.maxRequestEntitySize) ||
    match stream.contentLength with
    | none => false
    | some cl =>
      if isEndStream then decide (stream.bytesReceived ≠ cl) else decide (stream.bytesReceived > cl)

/-- What `handle_request_body_chunk` does to the state of the stream at the end of the body. -/
def Stream.endBody : Stream :=
  let stream :=
    if stream.state.beforeReqPending then
      { stream with state := if stream.processCalled then .sendHeaders else .reqPending }
    else stream
  if stream.writeReq then { stream with reqBodyState := .closeQueued }
  else { stream with reqBodyState := .closeDelivered, proceedReq := false }

/-- `handle_request_body_chunk`. -/
def handleRequestBodyChunk (length : ℕ) (isEndStream : Bool) : Conn × Ret :=
  if !stream.reqBodyState.isOpen then (conn, .abort)
  else
    let isFirst := stream.reqBodyState == .openBeforeFirstFrame
    let stream := { stream with reqBodyState := .open, bytesReceived := stream.bytesReceived + length }
    if badLength srv stream isEndStream then (conn.resetStream streamId stream, .ok)
    else if conn.disregards streamId then (conn.resetStream streamId stream, .ok)
    else
      let reqQueued := stream.proceedReq
      let stream := if isEndStream then stream.endBody else stream
      if stream.streamed then
        if stream.writeReq then
          if stream.hasEntity then (conn.setStream streamId stream, .ok)
          else (writeStreamingBody srv conn streamId stream, .ok)
        else (conn.setStream streamId { stream with hasEntity := true }, .ok)
      else
        let stream := { stream with hasEntity := true }
        if isFirst && !isEndStream && srv.canStream conn.received streamId then
          (conn.setStream streamId { stream with proceedReq := true, linked := true }, .ok)
        else if isEndStream && !reqQueued then
          conn.executeOrEnqueueRequest streamId stream
        else (conn.setStream streamId stream, .ok)

/-! ## Header blocks -/

/-- The pseudo headers that must exist exist, and there are no others than those that may. -/
def Parsed.pseudoHeadersOk (p : Parsed) : Bool :=
  match p.method with
  | .connect =>
    p.methodExists && p.authorityExists &&
      if p.protocolExists then p.schemeExists && p.pathExists
      else !p.schemeExists && !p.pathExists
  | .connectUdp =>
    p.methodExists && p.schemeExists && p.authorityExists && p.pathExists && !p.protocolExists
  | .other => p.methodExists && p.schemeExists && p.pathExists && !p.protocolExists

/-- `SendRSTStream`: the request is refused with a stream error. -/
def Parsed.refused (p : Parsed) (srv : Server) (conn : Conn) : Bool :=
  (p.method == .connectUdp && !(!p.protocolExists && p.pathIsRoot)) || !p.pseudoHeadersOk ||
    decide (conn.numPull > srv.maxStreams)

/-- `handle_incoming_request`. -/
def handleIncomingRequest (src : Bytes) : Conn × Ret :=
  if stream.state ≠ .recvHeaders then (conn, .abort)
  else
    let block : Block := ⟨streamId, false, src⟩
    let p := srv.parse conn.decoded block
    let conn := { conn with decoded := conn.decoded ++ [block] }
    let stream := { stream with contentLength := p.contentLength }
    let invalid := { stream with state := .sendHeaders }
    match p.ret with
    | some e =>
      -- all errors except invalid-header-char are connection errors
      if e.code ≠ .invalidHeaderChar then (conn, .error e)
      else if p.refused srv conn then (conn.resetStream streamId stream, .ok)
      else (conn.setStream streamId invalid, .ok)
    | none =>
      if p.refused srv conn then (conn.resetStream streamId stream, .ok)
      else if p.method ≠ .other then
        if stream.contentLength.isSome || !stream.hasReqBody then (conn.setStream streamId invalid, .ok)
        else (conn.setStream streamId { stream with
          isTunnelReq := true, hasEntity := true, proceedReq := true, state := .recvBody,
          reqBodyState := .open, streamed := true }, .ok)
      else if p.expect = some false then (conn.setStream streamId invalid, .ok)
      else if !stream.hasReqBody then conn.executeOrEnqueueRequest streamId stream
      else (conn.setStream streamId
        { stream with state := .recvBody, reqBodyState := .openBeforeFirstFrame }, .ok)

/-- `handle_trailing_headers`. -/
def handleTrailingHeaders (src : Bytes) : Conn × Ret :=
  let block : Block := ⟨streamId, true, src⟩
  let p := srv.parse conn.decoded block
  let conn := { conn with decoded := conn.decoded ++ [block] }
  match p.ret with
  | some e => (conn, .error e)
  | none => handleRequestBodyChunk srv conn streamId stream 0 true

/-- `expect_continuation_of_headers`, after the frame has been read. -/
def expectContinuationOfHeaders : Conn × Ret :=
  if frame.type ≠ typeContinuation then
    (conn, .error ⟨.protocol, "expected CONTINUATION frame"⟩)
  else match conn.getStream frame.streamId with
    | none => (conn, .error ⟨.protocol, "unexpected stream id in CONTINUATION frame"⟩)
    | some stream =>
      if !stream.receiving then
        (conn, .error ⟨.protocol, "unexpected stream id in CONTINUATION frame"⟩)
      else
        let unparsed := conn.headersUnparsed.getD []
        if unparsed.length + frame.payload.length ≤ maxReqlen then
          let unparsed := unparsed ++ frame.payload
          if frame.has flagEndHeaders then
            let conn := { conn with readExpect := .default, headersUnparsed := none }
            if stream.state = .recvHeaders then
              handleIncomingRequest srv conn frame.streamId stream unparsed
            else handleTrailingHeaders srv conn frame.streamId stream unparsed
          else ({ conn with headersUnparsed := some unparsed }, .ok)
        else
          -- request is too large
          (conn.resetStream frame.streamId stream, .ok)

/-- The label `PREPARE_FOR_CONTINUATION`. -/
def prepareForContinuation (headers : Bytes) : Conn × Ret :=
  ({ conn with readExpect := .continuationOfHeaders, headersUnparsed := some headers }, .ok)

/-- The part of `handle_headers_frame` that handles trailers. -/
def handleTrailersFrame (payload : HeadersPayload) : Conn × Ret :=
  match conn.getStream frame.streamId with
  | none => (conn, .error ⟨.streamClosed, "closed stream id in HEADERS frame"⟩)
  | some stream =>
    if !stream.reqBodyState.isOpen then
      (conn, .error ⟨.protocol, "invalid stream id in HEADERS frame"⟩)
    else if stream.isTunnelReq then
      (conn, .error ⟨.protocol, "trailer cannot be used in a CONNECT request"⟩)
    else if !frame.has flagEndStream then
      (conn, .error ⟨.protocol, "trailing HEADERS frame MUST have END_STREAM flag set"⟩)
    else if !frame.has flagEndHeaders then prepareForContinuation conn payload.headers
    else handleTrailingHeaders srv conn frame.streamId stream payload.headers

/-- `handle_headers_frame`. -/
def handleHeadersFrame : Conn × Ret :=
  match decodeHeadersPayload frame with
  | .error e => (conn, .error e)
  | .ok payload =>
    if isPush frame.streamId then (conn, .error ⟨.protocol, "invalid stream id in HEADERS frame"⟩)
    else if frame.streamId ≤ conn.pullMaxOpen then handleTrailersFrame srv conn frame payload
    else if frame.streamId = payload.priority.dependency then
      (conn, .error ⟨.protocol, "stream cannot depend on itself"⟩)
    else
      -- a stream that a PRIORITY frame has opened is registered already
      let conn := if (conn.getStream frame.streamId).isSome then conn else conn.openStream frame.streamId
      match (conn.getStream frame.streamId).bind (conn.prepareForRequest frame.streamId) with
      | none => (conn, .abort)
      | some (conn, stream) =>
        let stream := { stream with hasReqBody := !frame.has flagEndStream }
        let conn := conn.setStream frame.streamId stream
        if frame.has flagEndHeaders then
          handleIncomingRequest srv conn frame.streamId stream payload.headers
        else prepareForContinuation conn payload.headers

/-! ## The other frames -/

/-- `handle_data_frame`, without the input windows. -/
def handleDataFrame : Conn × Ret :=
  match decodeDataPayload frame with
  | .error e => (conn, .error e)
  | .ok data =>
    match conn.getStream frame.streamId with
    | none =>
      if frame.streamId ≤ conn.pullMaxOpen then (conn, .ok)
      else (conn, .error ⟨.protocol, "invalid DATA frame"⟩)
    | some stream =>
      if !stream.reqBodyState.isOpen then (conn.resetStream frame.streamId stream, .ok)
      else if data.length ≠ 0 ∨ frame.has flagEndStream then
        handleRequestBodyChunk srv conn frame.streamId stream data.length (frame.has flagEndStream)
      else (conn, .ok)

/-- `handle_priority_frame`, without the scheduler. -/
def handlePriorityFrame : Conn × Ret :=
  match decodePriorityPayload frame with
  | .error e => (conn, .error e)
  | .ok payload =>
    if frame.streamId = payload.dependency then
      (conn, .error ⟨.protocol, "stream cannot depend on itself"⟩)
    else if (conn.getStream frame.streamId).isSome then (conn, .ok)
    else if isPush frame.streamId || decide (frame.streamId ≤ conn.pullMaxOpen) then (conn, .ok)
    else if conn.numPriority ≥ srv.maxStreamsForPriority then
      (conn, .error ⟨.enhanceYourCalm, "too many streams in idle/closed state"⟩)
    else (conn.openStream frame.streamId, .ok)

/-- `handle_rst_stream_frame`. -/
def handleRstStreamFrame : Conn × Ret :=
  match decodeRstStreamPayload frame with
  | .error e => (conn, .error e)
  | .ok _ =>
    if conn.isIdleStreamId frame.streamId then
      (conn, .error ⟨.protocol, "unexpected stream id in RST_STREAM frame"⟩)
    else match conn.getStream frame.streamId with
      | none => (conn, .ok)
      | some stream => (conn.resetStream frame.streamId stream, .ok)

/-- `vhttp_http2_window_update`; `none` if the window would overflow. -/
def windowUpdate (window delta : ℤ) : Option ℤ :=
  if window + delta > 2 ^ 31 - 1 then none else some (window + delta)

/-- `handle_settings_frame`. -/
def handleSettingsFrame : Conn × Ret :=
  if frame.streamId ≠ 0 then (conn, .error ⟨.protocol, "invalid stream id in SETTINGS frame"⟩)
  else if frame.has flagAck then
    if frame.payload.length ≠ 0 then (conn, .error ⟨.frameSize, "invalid SETTINGS frame (+ACK)"⟩)
    else (conn, .ok)
  else match updatePeerSettings conn.peerSettings frame.payload with
    | .error e => (conn, .error e)
    | .ok settings =>
      let delta : ℤ := settings.initialWindowSize - conn.peerSettings.initialWindowSize
      -- a window that would overflow stays as it is
      let update (stream : Stream) : Stream :=
        { stream with outputWindow := (windowUpdate stream.outputWindow delta).getD stream.outputWindow }
      ({ conn with
        peerSettings := settings
        streams := conn.streams.map fun p => (p.1, update p.2) }, .ok)

/-- `handle_push_promise_frame`. -/
def handlePushPromiseFrame : Conn × Ret :=
  (conn, .error ⟨.protocol, "received PUSH_PROMISE frame"⟩)

/-- `handle_ping_frame`, without the answer. -/
def handlePingFrame : Conn × Ret :=
  match decodePingPayload frame with
  | .error e => (conn, .error e)
  | .ok _ => (conn, .ok)

/-- `handle_goaway_frame`. -/
def handleGoawayFrame : Conn × Ret :=
  match decodeGoawayPayload frame with
  | .error e => (conn, .error e)
  | .ok _ => ({ conn with pushMaxOpen := 0x7ffffffe }, .ok)

/-- The end of `handle_window_update_frame`, for a stream. -/
def updateStreamWindow (increment : ℕ) : Conn :=
  match conn.getStream streamId with
  | none => conn
  | some stream =>
    match windowUpdate stream.outputWindow increment with
    | none => conn.resetStream streamId stream
    | some window => conn.setStream streamId { stream with outputWindow := window }

/-- `handle_window_update_frame`. -/
def handleWindowUpdateFrame : Conn × Ret :=
  match decodeWindowUpdatePayload frame with
  | .error (_, true) =>
    match conn.getStream frame.streamId with
    | none => (conn, .ok)
    | some stream => (conn.resetStream frame.streamId stream, .ok)
  | .error (e, false) => (conn, .error e)
  | .ok increment =>
    if frame.streamId = 0 then
      match windowUpdate conn.writeWindow increment with
      | none => (conn, .error ⟨.flowControl, "flow control window overflow"⟩)
      | some window => ({ conn with writeWindow := window }, .ok)
    else if conn.isIdleStreamId frame.streamId then
      (conn, .error ⟨.protocol, "invalid stream id in WINDOW_UPDATE frame"⟩)
    else (updateStreamWindow conn frame.streamId increment, .ok)

/-- `handle_invalid_continuation_frame`. -/
def handleInvalidContinuationFrame : Conn × Ret :=
  (conn, .error ⟨.protocol, "received invalid CONTINUATION frame"⟩)

/-- `expect_default`, after the frame has been read: `FRAME_HANDLERS`. -/
def expectDefault : Conn × Ret :=
  if frame.type = typeData then handleDataFrame srv conn frame
  else if frame.type = typeHeaders then handleHeadersFrame srv conn frame
  else if frame.type = typePriority then handlePriorityFrame srv conn frame
  else if frame.type = typeRstStream then handleRstStreamFrame conn frame
  else if frame.type = typeSettings then handleSettingsFrame conn frame
  else if frame.type = typePushPromise then handlePushPromiseFrame conn
  else if frame.type = typePing then handlePingFrame conn frame
  else if frame.type = typeGoaway then handleGoawayFrame conn frame
  else if frame.type = typeWindowUpdate then handleWindowUpdateFrame conn frame
  else if frame.type = typeContinuation then handleInvalidContinuationFrame conn
  else (conn, .ok)

/-! ## The input loop -/

/-- `CONNECTION_PREFACE`. -/
def connectionPreface : Bytes := ascii "PRI * HTTP/2.0\r\n\r\nSM\r\n\r\n"

/-- What `parse_input` does with the value that `_read_expect` returns. -/
def Conn.finish (length : ℕ) : Ret → Conn
  | .ok => { conn with input := conn.input.drop length }
  | .error e => { conn with state := .isClosing, error := some e }
  | .abort => { conn with state := .aborted }

/-- One frame: `expect_default` or `expect_continuation_of_headers`. -/
def Conn.onFrame : Conn :=
  let conn := { conn with received := conn.received ++ [frame] }
  let (conn, ret) :=
    if conn.readExpect = .continuationOfHeaders then expectContinuationOfHeaders srv conn frame
    else expectDefault srv conn frame
  conn.finish (frameHeaderSize + frame.payload.length) ret

/-- One turn of the loop of `parse_input`; `none` if there is nothing to do. -/
def Conn.parseInput : Option Conn :=
  if conn.state = .isClosing ∨ conn.state = .aborted ∨ conn.input = [] then none
  else if conn.readExpect = .preface then
    if conn.input.length < connectionPreface.length then none
    else if conn.input.take connectionPreface.length ≠ connectionPreface then
      some (conn.finish 0 (.error ⟨.protocolCloseImmediately, none⟩))
    else some { conn with readExpect := .default, input := conn.input.drop connectionPreface.length }
  else match decodeFrame conn.input hostMaxFrameSize with
    | .error .incomplete => none
    | .error code => some (conn.finish 0 (.error ⟨code, none⟩))
    | .ok frame => some (conn.onFrame srv frame)

/-- A new connection (`create_conn`). -/
def Conn.init : Conn where
  streams := []
  pullMaxOpen := 0
  pushMaxOpen := 0
  state := .open
  readExpect := .preface
  headersUnparsed := none
  peerSettings := .default
  writeWindow := Settings.default.initialWindowSize
  input := []
  error := none
  received := []
  decoded := []

/-- A connection that was upgraded from HTTP/1 (`vhttp_http2_handle_upgrade`, and
`on_upgrade_complete`): stream `1` is the request that asked for it. -/
def Conn.upgraded (settings : Settings) : Conn :=
  { Conn.init with peerSettings := settings, pullMaxOpen := 1 }.setStream 1
    { Stream.new settings.initialWindowSize with state := .reqPending, linked := true }

/-- Frames are still handled. -/
def Conn.live : Prop := conn.state ≠ .isClosing ∧ conn.state ≠ .aborted

/-- What the server does between two frames: the streams change, but none of them starts to
receive, and header blocks are left as they are. -/
structure Background (conn conn' : Conn) : Prop where
  streams : ∀ id stream', conn'.getStream id = some stream' → stream'.receiving →
    ∃ stream, conn.getStream id = some stream ∧ stream.state = stream'.state
  live : conn'.live → conn.live
  pullMaxOpen : conn'.pullMaxOpen = conn.pullMaxOpen
  readExpect : conn'.readExpect = conn.readExpect
  headersUnparsed : conn'.headersUnparsed = conn.headersUnparsed
  received : conn'.received = conn.received
  decoded : conn'.decoded = conn.decoded

/-- The states of a connection, as long as the frames that are handled meet the condition
`C`. -/
inductive Reach (srv : Server) (C : Conn → Frame → Prop) : Conn → Prop
  | init : Reach srv C .init
  | upgrade (settings : Settings) : Reach srv C (.upgraded settings)
  /-- `on_read`: more input -/
  | read {conn : Conn} (h : Reach srv C conn) (bytes : Bytes) :
      Reach srv C { conn with input := conn.input ++ bytes }
  | parse {conn conn' : Conn} (h : Reach srv C conn)
      (hc : ∀ frame, decodeFrame conn.input hostMaxFrameSize = .ok frame → C conn frame)
      (hp : conn.parseInput srv = some conn') : Reach srv C conn'
  | background {conn conn' : Conn} (h : Reach srv C conn) (hb : Background conn conn') :
      Reach srv C conn'

end Vhttp.Http2
