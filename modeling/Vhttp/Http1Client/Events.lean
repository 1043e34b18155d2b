import Vhttp.Http1Client.Basic

/-!
# The HTTP/1 client: runs

The callbacks of the socket and of the timer, and the calls of the application. `Reach` are the
states that a client goes through with a request.
-/

namespace Vhttp.Http1Client

open Http1 (decodeChunked)

namespace Client

/-! ## Sending the request -/

variable (c : Client) (data : Bytes) (h : Head) (rlen : ℕ) (env : Env)

/-- `req_body_send`. -/
def reqBodySend : Client :=
  { c with writing := some .reqBodySendComplete, timer := true }

/-- `do_write_req`. -/
def doWriteReq (chunk : Bytes) (isEndStream : Bool) : Client :=
  reqBodySend { c with
    bodyBuf := chunk
    isEndStream
    doKeepalive := c.doKeepalive && c.res != .closed }

/-- `on_whole_request_sent` without an error. -/
def onWholeRequestSent : Client :=
  let c := { c with timer := false, req := .closed }
  if c.upgradeTo.isSome then c.onError (if c.res = .head then .io else .isEos)
  else
    match c.res with
    | .head => { c with timerCb := .onHeadFirstByteTimeout, timer := true }
    | .body => c
    | .closed => c.closeClient

/-- `on_header_sent_wait_100` without an error. -/
def onHeaderSentWait100 : Client :=
  if c.res = .head then { c with timerCb := .onHeadFirstByteTimeout, timer := true }
  else c.unlinkTimer

/-- `req_body_send_complete` without an error. The application may write more from within
`proceed_req`. -/
def reqBodySendComplete (reply : Option (Bytes × Bool)) : Client :=
  let isEndStream := c.isEndStream
  let c := { c with bodyBuf := [] }
  let c :=
    if c.proceedReq then
      let c := c.call (.proceedReq none)
      match reply with
      | some (chunk, isEndStream) => c.doWriteReq chunk isEndStream
      | none => c
    else c
  if isEndStream then c.onWholeRequestSent else c

/-! ## Reading the body -/

/-- `on_body_until_close` without an error; `data` is what is new in the buffer. -/
def onBodyUntilClose : Client :=
  let c := c.unlinkTimer
  if data = [] then c
  else
    let c := (c.call (.onBody none data)).consume env.consumed
    if env.onBodyOk then c.updateReadState else c.closeClient

/-- The end of `on_body_content_length`. -/
def continueContentLength : Client :=
  if c.onBodyPiped then updateReadState { c with reader := some .onBodyToPipe }
  else c.updateReadState

/-- The last octets of a body of known length. What comes after them is removed from the
buffer. -/
def finishContentLength : Client :=
  let left := c.decoder.bytesLeftInChunk
  let c := { c with
    input := c.input.take (c.input.length - (data.length - left))
    doKeepalive := c.doKeepalive && data.length ≤ left
    decoder := { c.decoder with bytesLeftInChunk := 0 }
    res := .closed }
  ((c.call (.onBody (some .isEos) (data.take left))).consume env.consumed).closeResponse

/-- `on_body_content_length` without an error; `data` is what is new in the buffer. -/
def onBodyContentLength : Client :=
  let c := c.unlinkTimer
  if data ≠ [] ∨ c.decoder.bytesLeftInChunk = 0 then
    if c.decoder.bytesLeftInChunk ≤ data.length then c.finishContentLength data env
    else
      let c := { c with
        decoder := { c.decoder with
          bytesLeftInChunk := c.decoder.bytesLeftInChunk - data.length } }
      let c := (c.call (.onBody none data)).consume env.consumed
      if env.onBodyOk then c.continueContentLength
      else closeClient { c with doKeepalive := false }
  else c.continueContentLength

/-- The end of `on_body_chunked`, after the buffer has been decoded. After an error the buffer has
its size again. -/
def afterDecode (raw data : Bytes) (result : Http1.ChunkResult) (env : Env) : Client :=
  let front := c.input.take (c.input.length - raw.length)
  match result with
  | .error =>
    let c := { c with doKeepalive := false, seenAtLeastOneChunk := true }
    ((c.call (.onBody (some .parseFailed) raw)).consume env.consumed).closeClient
  | .incomplete =>
    let c := { c with
      input := front ++ data
      seenAtLeastOneChunk := c.seenAtLeastOneChunk || front ++ data != [] }
    let c := (c.call (.onBody none data)).consume env.consumed
    if env.onBodyOk then c.updateReadState else closeClient { c with doKeepalive := false }
  | .complete left =>
    let c := { c with
      input := front ++ data
      seenAtLeastOneChunk := c.seenAtLeastOneChunk || front ++ data != []
      -- with garbage on tail
      doKeepalive := c.doKeepalive && left == 0
      res := .closed }
    ((c.call (.onBody (some .isEos) data)).consume env.consumed).closeResponse

/-- `on_body_chunked` without an error; `data` is what is new in the buffer. -/
def onBodyChunked : Client :=
  let c := c.unlinkTimer
  if data = [] then c
  else
    let (decoder, decoded, result) := decodeChunked c.decoder data
    afterDecode { c with decoder } data decoded result env

/-- What `splice` returns: -1 with `EAGAIN`, an error or 0, or the octets that went to the pipe. -/
inductive Splice where
  | again
  | failed
  | moved (data : Bytes)

/-- `on_body_to_pipe` without an error. -/
def onBodyToPipe (splice : Splice) (env : Env) : Client :=
  let c := { c with timer := false, reading := none }
  match splice with
  | .again => c.updateReadState
  | .failed => c.onError .io
  | .moved data =>
    let left := c.decoder.bytesLeftInChunk - data.length
    let c := { c with
      received := c.received ++ data
      decoder := { c.decoder with bytesLeftInChunk := left }
      res := if left = 0 then .closed else c.res }
    let c := c.call (.onBody (if left = 0 then some .isEos else none) data)
    if left = 0 then c.closeResponse
    else if env.onBodyOk then c
    else closeClient { c with doKeepalive := false }

/-- The callback for input, but for `on_head` and `on_body_to_pipe`. -/
def onBody (cb : ReadCb) (data : Bytes) (env : Env) : Client :=
  match cb with
  | .onBodyUntilClose => c.onBodyUntilClose data env
  | .onBodyContentLength => c.onBodyContentLength data env
  | .onBodyChunked => c.onBodyChunked data env
  | .onHead => c
  | .onBodyToPipe => c

/-! ## Reading the head -/

/-- The response has no body (RFC 2616 4.4). -/
def hasNoBody : Bool := c.methodIsHead || h.status == 204 || h.status == 304

/-- A pipe reader is offered to the application. -/
def offersPipe (reader : ReadCb) : Bool :=
  c.appPrefersPipeReader && reader == .onBodyContentLength &&
    c.input.length + 65536 ≤ c.decoder.bytesLeftInChunk

/-- `on_head`, from the call of the callback on. -/
def deliverHead (reader : ReadCb) (env : Env) : Client :=
  let c := c.call (.onHead (if c.res = .closed then some .isEos else none) (some h))
  if c.res = .closed then c.closeResponse
  else if !env.onHeadOk then closeClient { c with doKeepalive := false }
  else
    let c := { c with
      onBodyPiped := c.offersPipe reader && env.usesPipe
      input := c.input.drop rlen
      timerCb := .onBodyTimeout
      reading := some reader }
    c.onBody reader c.input env

/-- `on_head`, after the hop-by-hop fields are recognized. -/
def startBody (r : Recognized) (env : Env) : Client :=
  let c := { c with
    decoder := r.decoder
    doKeepalive := r.doKeepalive && (c.hasNoBody h || r.reader != ReadCb.onBodyUntilClose)
    res := if c.hasNoBody h then .closed else .body }
  c.deliverHead h rlen r.reader env

/-- `on_head`, with a final response. -/
def onFinalHead : Client :=
  if tunnelIsReady c.upgradeTo h.status then
    c.startBody h rlen ⟨c.doKeepalive, c.decoder, .onBodyUntilClose⟩ env
  else
    match recognize h c.decoder with
    | .error (err, r) => onError { c with doKeepalive := r.doKeepalive, decoder := r.decoder } err
    | .ok r => c.startBody h rlen r env

/-- The loop of `on_head`: every round takes a response, until there is a final one. `n` responses
have been passed to `informational_cb` before. -/
def onHeadLoop (parse : Parser) (env : Env) : ℕ → ℕ → Client → Client
  | 0, _, c => c
  | fuel + 1, n, c =>
    match parse c.input with
    | .error => c.onError .parseFailed
    | .incomplete => c.linkTimer
    | .head h rlen =>
      if h.fields.any (·.name = []) then c.onError .lineFolding
      else if h.status = 101 then
        if c.useExpect then c.onError .unexpected101 else c.onFinalHead h rlen env
      else
        -- the request body has been withheld
        let c :=
          if c.useExpect ∧ (h.status = 100 ∨ 200 ≤ h.status) then
            reqBodySend { c with useExpect := false }
          else c
        if 200 ≤ h.status then c.onFinalHead h rlen env
        else
          let c := if c.informationalCb then c.call (.informational h.status h.fields) else c
          if c.informationalCb ∧ !env.informationalOk n then c.closeClient
          else
            let c := c.consume rlen
            if c.input = [] then c.linkTimer else onHeadLoop parse env fuel (n + 1) c

/-- `on_head` without an error. -/
def onHead (parse : Parser) (c : Client) (env : Env) : Client :=
  onHeadLoop parse env (c.input.length + 1) 0 { c with timer := false, timerCb := .onHeadTimeout }

/-! ## Errors of the socket -/

/-- The callback for input with an error; `isClosed` says that the peer has closed. -/
def onReadError (cb : ReadCb) (isClosed : Bool) : Client :=
  let c := c.unlinkTimer
  match cb with
  | .onHead => c.onError .io
  | .onBodyUntilClose => ((call { c with res := .closed } (.onBody (some .isEos) []))).closeResponse
  | .onBodyContentLength => c.onError .io
  | .onBodyToPipe => onError { c with reading := none } .io
  | .onBodyChunked =>
    -- a missing last chunk is tolerated
    if isClosed ∧ !c.decoder.isInData ∧ c.seenAtLeastOneChunk then
      ((call { c with doKeepalive := false, res := .closed } (.onBody (some .isEos) []))).closeResponse
    else c.onError .io

/-- The callback of a write with an error. -/
def onWriteError (cb : WriteCb) : Client :=
  match cb with
  | .onWholeRequestSent => c.unlinkTimer.onError .io
  | .onHeaderSentWait100 => c.unlinkTimer.onError .io
  | .reqBodySendComplete => onError { c.unlinkTimer with bodyBuf := [] } .io

/-- The callbacks of the timer. -/
def onTimeout : Client :=
  let c := c.unlinkTimer
  match c.timerCb with
  | .onSendTimeout => c.onError .ioTimeout
  | .onHeadFirstByteTimeout => c.onError .firstByteTimeout
  | .onHeadTimeout => c.onError .ioTimeout
  | .onBodyTimeout => c.onError .ioTimeout

end Client

/-! ## Requests -/

/-- What `on_connect` returns, and the callbacks of the client. -/
structure Request where
  /-- `on_connect` returns a callback for the head -/
  accepted : Bool
  isHead : Bool
  body : Bytes
  /-- `proceed_req != NULL` -/
  proceedReq : Bool
  useExpect : Bool
  upgradeTo : Option Upgrade
  informationalCb : Bool
  prefersPipeReader : Bool
  pooled : Bool
  maxBufferSize : ℕ

/-- The request body is withheld until a 100 response comes. -/
def Request.expects (r : Request) : Bool :=
  r.useExpect && (r.proceedReq || r.body != []) && r.upgradeTo.isNone

/-- `setup_client`, `on_connection_ready` and `start_request`. -/
def Client.new (r : Request) : Client where
  req := .body
  res := .head
  methodIsHead := r.isHead
  doKeepalive := false
  upgradeTo := r.upgradeTo
  decoder := .zero
  reader := none
  proceedReq := r.proceedReq
  bodyBuf := if r.proceedReq || r.expects then r.body else []
  isEndStream := !r.proceedReq && r.expects
  onBodyPiped := false
  seenAtLeastOneChunk := false
  appPrefersPipeReader := r.prefersPipeReader
  useExpect := r.expects
  informationalCb := r.informationalCb
  pooled := r.pooled
  maxBufferSize := r.maxBufferSize
  input := []
  reading := some .onHead
  writing := some (if r.expects then .onHeaderSentWait100
    else if r.proceedReq then .reqBodySendComplete else .onWholeRequestSent)
  timer := true
  timerCb := .onSendTimeout
  disposal := if r.accepted then none else some .closed
  calls := []
  received := []

/-! ## Runs -/

/-- What happens to a client. -/
inductive Event where
  | read (data : Bytes) (env : Env)
  | readError (isClosed : Bool)
  /-- the pipe is filled, as the socket is readable or the application asks for more -/
  | splice (result : Client.Splice) (env : Env)
  | writeComplete (reply : Option (Bytes × Bool))
  | writeError
  | timeout
  | writeReq (chunk : Bytes) (isEndStream : Bool)
  | updateWindow
  | cancel

/-- The callback for input, with data. -/
def Client.onRead (parse : Parser) (c : Client) (cb : ReadCb) (data : Bytes) (env : Env) : Client :=
  let c := { c with input := c.input ++ data, received := c.received ++ data }
  match cb with
  | .onHead => c.onHead parse env
  | cb => c.onBody cb data env

/-- The callback of a write. -/
def Client.onWriteComplete (c : Client) (cb : WriteCb) (reply : Option (Bytes × Bool)) : Client :=
  let c := { c with writing := none }
  match cb with
  | .onWholeRequestSent => c.onWholeRequestSent
  | .onHeaderSentWait100 => c.onHeaderSentWait100
  | .reqBodySendComplete => c.reqBodySendComplete reply

/-- `splice` moves at least one octet, and at most as many as it is asked for. -/
def Client.canSplice (c : Client) : Client.Splice → Bool
  | .moved data => data ≠ [] ∧ data.length ≤ c.decoder.bytesLeftInChunk
  | _ => true

/-- An event, if it can happen. The application writes one piece of the body at a time, none after
the last one, and asks for more of the response only before its end. -/
def step (parse : Parser) (c : Client) (e : Event) : Option Client :=
  if c.disposal.isSome then none
  else
    match e with
    | .read data env =>
      match c.reading with
      | some .onBodyToPipe => none
      | some cb => some (c.onRead parse cb data env)
      | none => none
    | .readError isClosed => c.reading.map fun cb => c.onReadError cb isClosed
    | .splice result env =>
      if c.reader = some .onBodyToPipe ∧ c.res = .body ∧ c.canSplice result then
        some (c.onBodyToPipe result env)
      else none
    | .writeComplete reply =>
      if reply.isSome ∧ c.isEndStream then none
      else c.writing.map fun cb => c.onWriteComplete cb reply
    | .writeError => c.writing.map fun cb => Client.onWriteError { c with writing := none } cb
    | .timeout => if c.timer then some c.onTimeout else none
    | .writeReq chunk isEndStream =>
      if c.proceedReq ∧ c.req = .body ∧ c.writing = none ∧ c.bodyBuf = [] ∧ !c.isEndStream then
        some (c.doWriteReq chunk isEndStream)
      else none
    | .updateWindow =>
      if c.res = .body ∧ c.reader ≠ some .onBodyToPipe then some c.updateReadState else none
    | .cancel => some (Client.closeClient { c with doKeepalive := false })

/-- The states that a client reaches by events which meet a condition. -/
inductive Reach (parse : Parser) (ok : Client → Event → Prop) : Client → Prop
  | new (r : Request) : Reach parse ok (Client.new r)
  | step {c c' : Client} {e : Event} (hc : Reach parse ok c) (hok : ok c e)
    (h : step parse c e = some c') : Reach parse ok c'

/-- A sequence of events. -/
def run (parse : Parser) (c : Client) (events : List Event) : Option Client :=
  events.foldlM (step parse) c

lemma reach_run {parse : Parser} {c c' : Client} {events : List Event}
    (h : Reach parse (fun _ _ => True) c) (hr : run parse c events = some c') :
    Reach parse (fun _ _ => True) c' := by
  induction events generalizing c with
  | nil =>
    cases hr
    exact h
  | cons e events ih =>
    unfold run at hr
    rw [List.foldlM_cons] at hr
    obtain ⟨c1, hstep, hr⟩ := Option.bind_eq_some_iff.1 hr
    exact ih (.step h trivial hstep) hr

/-- A parser that knows one head. -/
def knows (text : Bytes) (h : Head) : Parser := fun xs =>
  if text.isPrefixOf xs then .head h text.length
  else if xs.isPrefixOf text then .incomplete else .error

lemma knows_head {text xs : Bytes} {h h' : Head} {n : ℕ} (hp : knows text h xs = .head h' n) :
    h' = h ∧ n = text.length ∧ text.length ≤ xs.length := by
  unfold knows at hp
  split at hp
  · next ht =>
    cases hp
    exact ⟨rfl, rfl, (List.isPrefixOf_iff_prefix.1 ht).length_le⟩
  · split at hp
    · cases hp
    · cases hp

/-- A request without a body, on a connection that can be kept. -/
def plainRequest : Request where
  accepted := true
  isHead := false
  body := []
  proceedReq := false
  useExpect := false
  upgradeTo := none
  informationalCb := false
  prefersPipeReader := false
  pooled := true
  maxBufferSize := 65536

/-- The application goes on, and takes what it is given. -/
def acceptAll : Env where
  informationalOk _ := true
  onHeadOk := true
  usesPipe := false
  onBodyOk := true
  consumed := 65536

/-- A response with a body of five octets. -/
def fiveText : Bytes := ascii "HTTP/1.1 200 OK\r\ncontent-length: 5\r\n\r\n"

def fiveHead : Head := ⟨1, 200, [⟨ascii "content-length", ascii "5"⟩]⟩

end Vhttp.Http1Client
