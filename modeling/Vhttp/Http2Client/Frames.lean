import Vhttp.Http2Client.Basic

/-!
# The HTTP/2 client: frames

The handlers of `lib/common/http2client.c`, and the modes in which frames are read. A handler
returns an error that closes the connection, or `none`.
-/

namespace Vhttp.Http2Client

open Http2 (Err Frame flagAck flagEndHeaders flagEndStream windowUpdate typeSettings
  typeContinuation updatePeerSettings)
open Hpack (Parsed parseResponse)

/-- The return value of a handler: 0, or an error. -/
abbrev Ret := Option Err

variable (c : Conn) (id : ℕ) (s : Stream) (frame : Frame) (block : Bytes) (isEndStream : Bool)
  (env : Env)

/-- The call of `on_head` for a final response, and what follows. -/
def deliverHead : Conn :=
  let c := c.call id (.onHead (if isEndStream then some .isEos else none) s.status s.headers)
  if isEndStream then c.closeResponse id s
  else if !env.onHeadOk then c.resetStream id .cancel
  else c.setStream id { s with res := .body }

/-- `on_head` for a final response. -/
def onFinalHead : Conn :=
  let s := { s with
    messageBodyForbidden := s.messageBodyForbidden || s.status == 204 || s.status == 304 }
  match extractContentLength s.headers with
  | .error _ => c.failStream id s .protocolViolation .protocol
  | .ok contentLength =>
    deliverHead c id { s with remainingContentLength := contentLength } isEndStream env

/-- An informational response. -/
def onInformational : Conn :=
  if s.status = 101 then c.failStream id s .protocolViolation .protocol
  else if !s.informationalCb then c.setStream id s
  else
    let c := c.call id (.informational s.status s.headers)
    if env.informationalOk then c.setStream id s else c.resetStream id .internal

/-- `on_head` after `vhttp_hpack_parse_response`. The headers of the stream are appended to. -/
def onHeadParsed (p : Parsed) (isEndStream : Bool) (env : Env) : Conn :=
  match c.streams id with
  | none => if p.errDesc.isSome then c.abort else c
  | some s =>
    let s := { s with status := p.status, headers := s.headers ++ p.fields }
    if p.errDesc.isSome then c.failStream id s .protocolViolation .protocol
    else if 100 ≤ s.status ∧ s.status ≤ 199 then onInformational c id s env
    else onFinalHead c id s isEndStream env

/-- `on_head`. -/
def onHead : Conn × Ret :=
  match parseResponse c.headerTable false block with
  | .error e => (c, some e)
  | .ok p => (onHeadParsed (c.setTable p.table) id p isEndStream env, none)

/-- `on_trailers` after `vhttp_hpack_parse_response`; `s` is the stream. -/
def onTrailersParsed (p : Parsed) (env : Env) : Conn :=
  let s := { s with trailers := s.trailers ++ p.fields }
  if p.errDesc.isSome then c.failStream id s .protocolViolation .protocol
  else
    let c := c.call id (.onBody (some .isEos) s.trailers)
    if env.onBodyOk then c.closeResponse id s else c.resetStream id .internal

/-- `on_trailers`; `s` is the stream. -/
def onTrailers : Conn × Ret :=
  match parseResponse c.headerTable true block with
  | .error e => (c, some e)
  | .ok p => (onTrailersParsed (c.setTable p.table) id s p env, none)

/-- A whole header block of a stream. -/
def onHeaderBlock : Conn × Ret :=
  match c.streams id with
  | some s =>
    if s.res = .body then onTrailers c id s block env else onHead c id block isEndStream env
  | none => onHead c id block isEndStream env

/-- `expect_continuation_of_headers`, after the frame is decoded. -/
def expectContinuationOfHeaders : Conn × Ret :=
  if frame.type ≠ typeContinuation then (c, some ⟨.protocol, "expected CONTINUATION frame"⟩)
  else if (c.streams frame.streamId).any (·.res == .closed) then
    (c, some ⟨.protocol, "unexpected stream id in CONTINUATION frame"⟩)
  else
    let unparsed := c.headersUnparsed ++ frame.payload
    if frame.has flagEndHeaders then
      onHeaderBlock { c with readFrame := .default, headersUnparsed := [] } frame.streamId unparsed
        (frame.has flagEndStream) env
    else ({ c with headersUnparsed := unparsed }, none)

/-- The checks of `handle_data_frame` that end the stream `s`, with the error that it is told. -/
def dataError (payload : Bytes) : Option (Error × ResetCode) :=
  if s.res ≠ .body then some (.protocolViolation, .protocol)
  else if s.messageBodyForbidden ∧ payload.length ≠ 0 then some (.protocolViolation, .protocol)
  else if s.remainingContentLength.any (· < payload.length) then some (.protocolViolation, .protocol)
  else if c.maxBufferSize < s.body.length + payload.length then some (.flowControl, .flowControl)
  else none

/-- The part of `handle_data_frame` that gives the data to the application. -/
def acceptData (payload : Bytes) (isFinal : Bool) (env : Env) : Conn :=
  let c := (c.consumeWindow payload.length).call id
    (.onBody (if isFinal then some .isEos else none) [])
  let s := s.receive payload env.consumed
  if !env.onBodyOk then c.resetStream id .internal
  else if isFinal then c.closeResponse id s
  else ((c.setStream id s).updateConnWindow).updateWindow id s

/-- `handle_data_frame`, after the payload is decoded. -/
def handleData (payload : Bytes) (isFinal : Bool) (env : Env) : Conn × Ret :=
  match c.streams id with
  | none =>
    if id ≤ c.maxOpenStreamId then ((c.consumeWindow payload.length).updateConnWindow, none)
    else (c, some ⟨.protocol, "invalid DATA frame"⟩)
  | some s =>
    match dataError c s payload with
    | some (err, code) => (c.failStream id s err code, none)
    | none => (acceptData c id s payload isFinal env, none)

/-- `handle_data_frame`. -/
def handleDataFrame : Conn × Ret :=
  let c := c.count frame.payload.length
  match Http2.decodeDataPayload frame with
  | .error e => (c, some e)
  | .ok payload => handleData c frame.streamId payload (frame.has flagEndStream) env

/-- The timer of a stream is unlinked. -/
def unlinkTimeout : Conn :=
  match c.streams id with
  | some s => c.setStream id { s with timeout := false }
  | none => c

/-- `handle_headers_frame`, after the payload is decoded. -/
def handleHeaders (payload : Http2.HeadersPayload)
    (isEndStream isEndHeaders : Bool) (env : Env) : Conn × Ret :=
  if id % 2 = 0 then (c, some ⟨.protocol, "invalid stream id in HEADERS frame"⟩)
  else if id = payload.priority.dependency then
    (c, some ⟨.protocol, "stream cannot depend on itself"⟩)
  else if (c.streams id).isNone ∧ c.maxOpenStreamId < id then
    (c, some ⟨.protocol, "invalid stream id in HEADERS frame"⟩)
  else
    let c := unlinkTimeout c id
    if (c.streams id).any (·.res == .body) ∧ !isEndStream then
      (c, some ⟨.protocol, "trailing HEADERS frame MUST have END_STREAM flag set"⟩)
    else if !isEndHeaders then
      ({ c with readFrame := .continuationOfHeaders, headersUnparsed := payload.headers }, none)
    else onHeaderBlock c id payload.headers isEndStream env

/-- `handle_headers_frame`. -/
def handleHeadersFrame : Conn × Ret :=
  match Http2.decodeHeadersPayload frame with
  | .error e => (c, some e)
  | .ok payload =>
    handleHeaders c frame.streamId payload (frame.has flagEndStream) (frame.has flagEndHeaders) env

/-- `handle_priority_frame`. -/
def handlePriorityFrame : Conn × Ret :=
  match Http2.decodePriorityPayload frame with
  | .error e => (c, some e)
  | .ok payload =>
    if frame.streamId = payload.dependency then
      (c, some ⟨.protocol, "stream cannot depend on itself"⟩)
    else (c, none)

/-- The code of `REFUSED_STREAM` in a RST_STREAM frame. -/
def refusedStreamCode : ℕ := 7

/-- `handle_rst_stream_frame`. -/
def handleRstStreamFrame : Conn × Ret :=
  match Http2.decodeRstStreamPayload frame with
  | .error e => (c, some e)
  | .ok errorCode =>
    if c.maxOpenStreamId < frame.streamId then
      (c, some ⟨.protocol, "unexpected stream id in RST_STREAM frame"⟩)
    else
      match c.streams frame.streamId with
      | none => (c, none)
      | some s =>
        let err := if errorCode = refusedStreamCode then Error.refusedStream else .io
        ((c.callCallbackWithError frame.streamId s err).closeStream frame.streamId, none)

/-- `conn_get_buffer_window`, with the room in the write buffer. -/
def bufferWindow (room : ℕ) : ℤ := if room = 0 then 0 else min room c.outputWindow

/-- A write is requested if there is room for one. -/
def resumeWriting (room : ℕ) : Conn :=
  if 0 < bufferWindow c room then c.requestWrite else c

/-- The stream has something to send and is not linked. -/
def Conn.waits : Bool :=
  s.outputBuf.any (· ≠ []) && !c.sendingStreams.contains id && !c.sentStreams.contains id

/-- `update_stream_output_window`; `s` is the stream. -/
def updateStreamOutputWindow (delta : ℤ) : Option Conn :=
  (windowUpdate s.outputWindow delta).map fun window =>
    { c.setStream id { s with outputWindow := window } with
      sendingStreams :=
        if 0 < window ∧ c.waits id s then c.sendingStreams ++ [id] else c.sendingStreams }

/-- `update_stream_output_window` of all streams; a window that would overflow stays as it is. -/
def updateAllOutputWindows (delta : ℤ) : Conn :=
  let resumes (id : ℕ) : Bool := (c.streams id).any fun s =>
    (windowUpdate s.outputWindow delta).any (0 < ·) && c.waits id s
  { c with
    streams := fun id => (c.streams id).map fun s =>
      { s with outputWindow := (windowUpdate s.outputWindow delta).getD s.outputWindow }
    sendingStreams := c.sendingStreams ++ (List.range (c.maxOpenStreamId + 1)).filter resumes }

/-- `handle_settings_frame`. -/
def handleSettingsFrame : Conn × Ret :=
  if frame.streamId ≠ 0 then (c, some ⟨.protocol, "invalid stream id in SETTINGS frame"⟩)
  else if frame.has flagAck then
    if frame.payload.length ≠ 0 then (c, some ⟨.frameSize, "invalid SETTINGS frame (+ACK)"⟩)
    else (c, none)
  else
    match updatePeerSettings c.peerSettings frame.payload with
    | .error e => (c, some e)
    | .ok settings =>
      let prev := c.peerSettings.initialWindowSize
      let c := ((c.setPeerSettings settings).queue .settingsAck).requestWrite
      if prev = settings.initialWindowSize then (c, none)
      else
        -- the difference of two `uint32_t`
        let delta := ((settings.initialWindowSize : ℤ) - prev) % 2 ^ 32
        (resumeWriting (updateAllOutputWindows c delta) env.room, none)

/-- `handle_ping_frame`. -/
def handlePingFrame : Conn × Ret :=
  match Http2.decodePingPayload frame with
  | .error e => (c, some e)
  | .ok payload =>
    if frame.has flagAck then (c, none) else ((c.queue (.ping payload)).requestWrite, none)

/-- The streams above `last` are told that they are refused, and closed. -/
def refuseStreams (last : ℕ) : Conn :=
  let refused := (Finset.range (c.maxOpenStreamId + 1)).filter fun id =>
    last < id ∧ (c.streams id).isSome
  let c' := { c with
    numStreams := c.numStreams - refused.card
    streams := fun id => if last < id then none else c.streams id
    log := fun id =>
      if last < id then c.log id ++ ((c.streams id).map (errorCallbacks · .refusedStream)).getD []
      else c.log id
    sendingStreams := c.sendingStreams.filter (· ≤ last)
    sentStreams := c.sentStreams.filter (· ≤ last) }
  { c' with
    keepaliveTimeout := c.keepaliveTimeout || (c'.numStreams == 0 && refused.card != 0) }

/-- `handle_goaway_frame`. -/
def handleGoawayFrame : Conn × Ret :=
  match Http2.decodeGoawayPayload frame with
  | .error e => (c, some e)
  | .ok last => ({ refuseStreams c last with inPool := false }, none)

/-- The stream of a WINDOW_UPDATE frame with an error of its own. -/
def failWindowUpdate : Conn :=
  match c.streams id with
  | some s => c.failStream id s .protocolViolation .protocol
  | none => c.streamSendError id .protocol

/-- `handle_window_update_frame`. -/
def handleWindowUpdateFrame : Conn × Ret :=
  match Http2.decodeWindowUpdatePayload frame with
  | .error (e, isStreamLevel) =>
    if isStreamLevel then (failWindowUpdate c frame.streamId, none) else (c, some e)
  | .ok increment =>
    if frame.streamId = 0 then
      match windowUpdate c.outputWindow increment with
      | none => (c, some ⟨.flowControl, "flow control window overflow"⟩)
      | some window => (resumeWriting { c with outputWindow := window } env.room, none)
    else if frame.streamId ≤ c.maxOpenStreamId then
      match c.streams frame.streamId with
      | none => (resumeWriting c env.room, none)
      | some s =>
        match updateStreamOutputWindow c frame.streamId s increment with
        | none => (c.failStream frame.streamId s .flowControl .flowControl, none)
        | some c => (resumeWriting c env.room, none)
    else (c, some ⟨.protocol, "invalid stream id in WINDOW_UPDATE frame"⟩)

/-- `expect_default`, after the frame is decoded; a frame of an unknown type is skipped. -/
def expectDefault : Conn × Ret :=
  match frame.type with
  | 0 => handleDataFrame c frame env
  | 1 => handleHeadersFrame c frame env
  | 2 => handlePriorityFrame c frame
  | 3 => handleRstStreamFrame c frame
  | 4 => handleSettingsFrame c frame env
  | 5 => (c, some ⟨.protocol, "received PUSH_PROMISE frame"⟩)
  | 6 => handlePingFrame c frame
  | 7 => handleGoawayFrame c frame
  | 8 => handleWindowUpdateFrame c frame env
  | 9 => (c, some ⟨.protocol, "received invalid CONTINUATION frame"⟩)
  | _ => (c, none)

/-- `expect_settings`, after the frame is decoded. -/
def expectSettings : Conn × Ret :=
  if frame.type ≠ typeSettings then (c, some ⟨.protocolCloseImmediately, none⟩)
  else
    match handleSettingsFrame c frame env with
    | (c, some e) => (c, some e)
    | (c, none) => ({ c with readFrame := .default }, none)

/-- `input.read_frame`. -/
def readFrame (c : Conn) (frame : Frame) (env : Env) : Conn × Ret :=
  match c.readFrame with
  | .settings => expectSettings c frame env
  | .default => expectDefault c frame env
  | .continuationOfHeaders => expectContinuationOfHeaders c frame env

end Vhttp.Http2Client
