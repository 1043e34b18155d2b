import Vhttp.Bytes

/-!
# HTTP/2 frames: model

`lib/http2/frame.c`: how a frame and its payload are read. An error is a code with the text
of `err_desc`, if the source sets one.
-/

namespace Vhttp.Http2

/-- The error codes of `http2_common.h` that the functions below return. -/
inductive ErrorCode where
  | protocol
  | flowControl
  | streamClosed
  | frameSize
  | refusedStream
  | compression
  | enhanceYourCalm
  | invalidHeaderChar
  /-- not an error: more input is needed -/
  | incomplete
  | protocolCloseImmediately
  deriving DecidableEq

/-- An error with its `err_desc`. -/
structure Err where
  code : ErrorCode
  desc : Option String
  deriving DecidableEq

/-- `vhttp_http2_frame_t`; `length` is the length of the payload. -/
structure Frame where
  type : UInt8
  flags : UInt8
  streamId : ℕ
  payload : Bytes
  deriving DecidableEq

/-- `vhttp_HTTP2_FRAME_HEADER_SIZE`. -/
def frameHeaderSize : ℕ := 9

/-- `vhttp_HTTP2_SETTINGS_HOST_MAX_FRAME_SIZE`. -/
def hostMaxFrameSize : ℕ := 16384

def typeData : UInt8 := 0
def typeHeaders : UInt8 := 1
def typePriority : UInt8 := 2
def typeRstStream : UInt8 := 3
def typeSettings : UInt8 := 4
def typePushPromise : UInt8 := 5
def typePing : UInt8 := 6
def typeGoaway : UInt8 := 7
def typeWindowUpdate : UInt8 := 8
def typeContinuation : UInt8 := 9

def flagEndStream : UInt8 := 0x1
def flagAck : UInt8 := 0x1
def flagEndHeaders : UInt8 := 0x4
def flagPadded : UInt8 := 0x8
def flagPriority : UInt8 := 0x20

variable (frame : Frame)

/-- `(frame->flags & flag) != 0`. -/
def Frame.has (flag : UInt8) : Bool := frame.flags &&& flag != 0

/-- `vhttp_http2_decode16u`, `vhttp_http2_decode24u` and `vhttp_http2_decode32u`, by the length
of the argument. -/
def decodeUnsigned (src : Bytes) : ℕ := src.foldl (fun n b => n * 256 + b.toNat) 0

/-- `vhttp_http2_decode_frame`. -/
def decodeFrame (src : Bytes) (maxFrameSize : ℕ) : Except ErrorCode Frame :=
  if src.length < frameHeaderSize then .error .incomplete
  else
    let length := decodeUnsigned (src.take 3)
    if length > maxFrameSize then .error .frameSize
    else if src.length < frameHeaderSize + length then .error .incomplete
    else .ok
      { type := src.getD 3 0
        flags := src.getD 4 0
        streamId := decodeUnsigned ((src.drop 5).take 4) % 2 ^ 31
        payload := (src.drop frameHeaderSize).take length }

/-- `vhttp_http2_priority_t`. -/
structure Priority where
  exclusive : Bool
  dependency : ℕ
  weight : ℕ

/-- `vhttp_http2_default_priority`. -/
def defaultPriority : Priority := ⟨false, 0, 16⟩

/-- `decode_priority`. -/
def decodePriority (src : Bytes) : Priority :=
  let u4 := decodeUnsigned (src.take 4)
  ⟨u4 ≥ 2 ^ 31, u4 % 2 ^ 31, (src.getD 4 0).toNat + 1⟩

/-- `vhttp_http2_decode_data_payload`; the data. -/
def decodeDataPayload : Except Err Bytes :=
  if frame.streamId = 0 then .error ⟨.protocol, "invalid stream id in DATA frame"⟩
  else if frame.has flagPadded then
    match frame.payload with
    | [] => .error ⟨.protocol, "invalid DATA frame"⟩
    | paddingLength :: data =>
      if frame.payload.length < 1 + paddingLength.toNat then .error ⟨.protocol, "invalid DATA frame"⟩
      else .ok (data.take (frame.payload.length - (1 + paddingLength.toNat)))
  else .ok frame.payload

/-- `vhttp_http2_headers_payload_t`. -/
structure HeadersPayload where
  priority : Priority
  headers : Bytes

/-- The part of `vhttp_http2_decode_headers_payload` that removes the padding. -/
def removePadding : Except Err Bytes :=
  if frame.has flagPadded then
    match frame.payload with
    | [] => .error ⟨.protocol, "invalid HEADERS frame"⟩
    | padlen :: src =>
      if src.length < padlen.toNat then .error ⟨.protocol, "invalid HEADERS frame"⟩
      else .ok (src.take (src.length - padlen.toNat))
  else .ok frame.payload

/-- `vhttp_http2_decode_headers_payload`. -/
def decodeHeadersPayload : Except Err HeadersPayload :=
  if frame.streamId = 0 then .error ⟨.protocol, "invalid stream id in HEADERS frame"⟩
  else do
    let src ← removePadding frame
    if frame.has flagPriority then
      if src.length < 5 then .error ⟨.protocol, none⟩
      else .ok ⟨decodePriority src, src.drop 5⟩
    else .ok ⟨defaultPriority, src⟩

/-- `vhttp_http2_decode_priority_payload`. -/
def decodePriorityPayload : Except Err Priority :=
  if frame.streamId = 0 then .error ⟨.protocol, "invalid stream id in PRIORITY frame"⟩
  else if frame.payload.length ≠ 5 then .error ⟨.frameSize, "invalid PRIORITY frame"⟩
  else .ok (decodePriority frame.payload)

/-- `vhttp_http2_decode_rst_stream_payload`; the error code. -/
def decodeRstStreamPayload : Except Err ℕ :=
  if frame.streamId = 0 then .error ⟨.protocol, "invalid stream id in RST_STREAM frame"⟩
  else if frame.payload.length ≠ 4 then .error ⟨.frameSize, "invalid RST_STREAM frame"⟩
  else .ok (decodeUnsigned frame.payload)

/-- `vhttp_http2_decode_ping_payload`. -/
def decodePingPayload : Except Err Bytes :=
  if frame.streamId ≠ 0 then .error ⟨.protocol, "invalid PING frame"⟩
  else if frame.payload.length ≠ 8 then .error ⟨.frameSize, "invalid PING frame"⟩
  else .ok frame.payload

/-- `vhttp_http2_decode_goaway_payload`; the last stream id. -/
def decodeGoawayPayload : Except Err ℕ :=
  if frame.streamId ≠ 0 then .error ⟨.protocol, "invalid stream id in GOAWAY frame"⟩
  else if frame.payload.length < 8 then .error ⟨.frameSize, "invalid GOAWAY frame"⟩
  else .ok (decodeUnsigned (frame.payload.take 4) % 2 ^ 31)

/-- `vhttp_http2_decode_window_update_payload`; an error comes with `err_is_stream_level`. -/
def decodeWindowUpdatePayload : Except (Err × Bool) ℕ :=
  if frame.payload.length ≠ 4 then .error (⟨.frameSize, "invalid WINDOW_UPDATE frame"⟩, false)
  else
    let increment := decodeUnsigned frame.payload % 2 ^ 31
    if increment = 0 then
      .error (⟨.protocol, "invalid WINDOW_UPDATE frame"⟩, decide (frame.streamId ≠ 0))
    else .ok increment

/-- `vhttp_http2_settings_t`, as far as it is used. -/
structure Settings where
  headerTableSize : ℕ
  enablePush : ℕ
  maxConcurrentStreams : ℕ
  initialWindowSize : ℕ
  maxFrameSize : ℕ

/-- `vhttp_HTTP2_SETTINGS_DEFAULT`. -/
def Settings.default : Settings := ⟨4096, 1, 2 ^ 32 - 1, 65535, 16384⟩

/-- One entry of a SETTINGS frame: the body of the `switch` of
`vhttp_http2_update_peer_settings`. -/
def Settings.set (settings : Settings) (identifier value : ℕ) : Except Err Settings :=
  let invalid (code : ErrorCode) : Except Err Settings := .error ⟨code, "invalid SETTINGS frame"⟩
  match identifier with
  | 1 => .ok { settings with headerTableSize := value }
  | 2 => if value ≤ 1 then .ok { settings with enablePush := value } else invalid .protocol
  | 3 => .ok { settings with maxConcurrentStreams := value }
  | 4 =>
    if value ≤ 0x7fffffff then .ok { settings with initialWindowSize := value }
    else invalid .flowControl
  | 5 =>
    if 16384 ≤ value ∧ value ≤ 16777215 then .ok { settings with maxFrameSize := value }
    else invalid .protocol
  | _ => .ok settings

/-- `vhttp_http2_update_peer_settings`. -/
def updatePeerSettings (settings : Settings) : Bytes → Except Err Settings
  | a :: b :: c :: d :: e :: f :: src => do
    let settings ← settings.set (decodeUnsigned [a, b]) (decodeUnsigned [c, d, e, f])
    updatePeerSettings settings src
  | [] => .ok settings
  | _ => .error ⟨.frameSize, none⟩

end Vhttp.Http2
