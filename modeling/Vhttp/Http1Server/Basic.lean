import Vhttp.Http1Server.Request

/-!
# The HTTP/1 server: connections

The model of a connection of `lib/http1.c`, from the first octet of a request to the end of its
response. What is given to the handlers, and the error responses, are recorded in `calls`. How a
response is written is not modelled, only when it starts and when it has been sent.

A function of the source that ends by cleaning up the connection takes the cleanup as an argument:
it is not needed while a request has just been read, and `cleanupConnection` itself reads a request.
-/

namespace Vhttp.Http1Server

open List Option Bool
open Http1 (ChunkResult)

/-- `vhttp_MAX_REQLEN`, with 100 header fields. -/
def maxReqlen : ℕ := 8192 + 4096 * 100

/-- `enum enum_vhttp_http1_ostream_state`. -/
inductive OstreamState where
  | head | body | done
  deriving DecidableEq

/-- `write_req.cb`; `handler` is the one that a handler sets. -/
inductive WriteReq where
  | first | nonStreaming | connectFirst | handler

/-- What the connection does to the rest of the server. -/
inductive Call where
  /-- `vhttp_process_request`, with the body as far as it is known and whether that is all of it -/
  | process (req : Request) (entity : Option Bytes) (complete : Bool)
  /-- the callback of a handler that streams the body -/
  | write (entity : Bytes) (isEndStream : Bool)
  | error (err : ErrorResponse)
  | continue100
  | upgradeH2 (req : Request)
  | acceptHttp2
  deriving DecidableEq

/-- `struct st_vhttp_http1_conn_t`. `pending` is set while a handler has a part of the body that it
has not asked to proceed from. -/
structure Conn (σ : Type) where
  input : Bytes
  reading : Bool
  reqIndex : ℕ
  prevReqlen : ℕ
  unconsumedRequestSize : ℕ
  reader : Option (Reader σ)
  reqBody : Option Bytes
  req : Option Request
  http1IsPersistent : Bool
  entity : Option Bytes
  reqBodyBytesReceived : ℕ
  writeReq : Option WriteReq
  proceedReq : Bool
  processCalled : Bool
  pending : Bool
  hasGenerator : Bool
  ostreamState : OstreamState
  continuing : Bool
  closed : Bool
  calls : List Call

/-- What the environment does in an event: whether data can be appended to the body, what the
callback of a handler and the upgrade to HTTP/2 return. -/
structure Outcome where
  appendOk : Bool
  writeOk : Bool
  upgradeOk : Bool

namespace Conn

variable {σ : Type}

variable (env : Env σ) (cleanup : Conn σ → Option (Conn σ)) (c : Conn σ) (req : Request)
  (isEndStream : Bool) (outcome : Outcome)

/-- A call is recorded. -/
def call (c : Conn σ) (call : Call) : Conn σ := { c with calls := c.calls ++ [call] }

/-- `vhttp_socket_read_stop`. -/
def readStop : Conn σ := { c with reading := false }

/-- `vhttp_socket_read_start`. -/
def readStart : Conn σ := { c with reading := true }

/-- `vhttp_buffer_consume` of the input. -/
def consume (n : ℕ) : Conn σ := { c with input := c.input.drop n }

/-- The input is replaced. -/
def setInput (input : Bytes) : Conn σ := { c with input }

/-- The reader of the body is replaced. -/
def setReader (reader : Reader σ) : Conn σ := { c with reader := some reader }

/-- `write_req.cb` is set. -/
def setWriteReq (writeReq : Option WriteReq) : Conn σ := { c with writeReq }

/-- `proceed_req` is set or cleared. -/
def setProceedReq (proceedReq : Bool) : Conn σ := { c with proceedReq }

/-- A handler has a part of the body. -/
def setPending (pending : Bool) : Conn σ := { c with pending }

/-- The connection waits until a 100 response has been sent, or waits no longer. -/
def setContinuing (continuing : Bool) : Conn σ := { c with continuing }

/-- The length of what was parsed is set. -/
def setPrevReqlen (prevReqlen : ℕ) : Conn σ := { c with prevReqlen }

/-- The handler has consumed the body. -/
def clearBody : Conn σ := { c with reqBody := some [] }

/-- There is no more body to read. -/
def endBody : Conn σ := { c with proceedReq := false, reader := none }

/-- The connection is not kept. -/
def setNotPersistent : Conn σ := { c with http1IsPersistent := false }

/-- `close_connection`. -/
def close : Conn σ := { c with closed := true, reading := false, continuing := false }

/-- `vhttp_process_request`. -/
def process (c : Conn σ) (req : Request) : Conn σ :=
  { c with processCalled := true, pending := c.proceedReq }.call
    (.process req c.entity (!c.proceedReq))

/-- `vhttp_send_error_generic` with `vhttp_SEND_ERROR_HTTP1_CLOSE_CONNECTION`. -/
def sendError (err : ErrorResponse) : Conn σ :=
  { c with hasGenerator := true, http1IsPersistent := false }.call (.error err)

/-- The same for a request that is not read any further. -/
def refuse (err : ErrorResponse) : Conn σ := c.readStop.sendError err

/-- `send_bad_request`. -/
def sendBadRequest : Conn σ := c.refuse ⟨400, "Bad Request", "Bad Request"⟩

/-! ## Reading a body -/

/-- `entity_read_do_send_error`. -/
def entityReadDoSendError (err : ErrorResponse) : Option (Conn σ) :=
  let c := c.endBody.readStop
  if !c.hasGenerator && c.ostreamState = .head then some (c.sendError err)
  else if c.ostreamState = .done then cleanup c.setNotPersistent
  else some c.setNotPersistent

/-- `entity_read_send_error_502`. -/
def badGateway : ErrorResponse := ⟨502, "Bad Gateway", "Bad Gateway"⟩

/-- `write_req_non_streaming`. -/
def writeReqNonStreaming : Conn σ :=
  if isEndStream then (c.setProceedReq false).process req else c.readStart

/-- `write_req_first`. -/
def writeReqFirst : Conn σ :=
  if !isEndStream && env.canStreamRequest req then
    ((c.setWriteReq none).setProceedReq true).process req
  else writeReqNonStreaming (c.setWriteReq (some .nonStreaming)) req isEndStream

/-- `write_req_connect_first`. -/
def writeReqConnectFirst : Conn σ :=
  (c.setWriteReq none).setProceedReq (c.proceedReq && !isEndStream)

/-- The call of `write_req.cb`; the inner `none` is an error of the callback, the outer one a call
through NULL. -/
def writeRequest (entity : Bytes) (isEndStream : Bool)
    (outcome : Outcome) : Option (Option (Conn σ)) :=
  match c.writeReq with
  | none => none
  | some .first => some (some (writeReqFirst env c req isEndStream))
  | some .nonStreaming => some (some (writeReqNonStreaming c req isEndStream))
  | some .connectFirst => some (some (writeReqConnectFirst c isEndStream))
  | some .handler =>
    if outcome.writeOk then
      some (some ((c.setPending !isEndStream).call (.write entity isEndStream)))
    else some none

/-- The end of `handle_one_body_fragment`. -/
def finishBody : Option (Conn σ) :=
  if c.ostreamState = .done then cleanup c.endBody else some c.endBody

/-- Data is moved from the input to the body. -/
def takeFragment (body : Bytes) (fragmentSize extraBytes : ℕ) : Conn σ :=
  let body := body ++ c.input.take fragmentSize
  { c with
    input := c.input.drop (fragmentSize + extraBytes)
    reqBody := some body
    entity := some body
    reqBodyBytesReceived := c.reqBodyBytesReceived + fragmentSize }

/-- `handle_one_body_fragment`. -/
def handleOneBodyFragment
    (fragmentSize extraBytes : ℕ) (complete : Bool) (outcome : Outcome) : Option (Conn σ) :=
  if fragmentSize = 0 ∧ !complete then some (c.consume extraBytes)
  else
    let c := c.readStop
    match c.req, c.reqBody with
    | some req, some body =>
      if !outcome.appendOk then entityReadDoSendError cleanup c badGateway
      else
        let entity := body ++ c.input.take fragmentSize
        match writeRequest env (c.takeFragment body fragmentSize extraBytes) req entity complete
          outcome with
        | none => none
        | some none =>
          entityReadDoSendError cleanup (c.takeFragment body fragmentSize extraBytes) badGateway
        | some (some c) => if complete then finishBody cleanup c else some c
    | _, _ => none

/-- `handle_chunked_entity_read` when the input has been decoded. The decoder works in place: the
data comes first, and then what follows the body, or octets of no meaning. -/
def handleDecoded (data : Bytes) (ret : ChunkResult) (outcome : Outcome) : Option (Conn σ) :=
  if ret ≠ .error ∧ data.length + c.reqBodyBytesReceived ≥ env.maxRequestEntitySize then
    entityReadDoSendError cleanup c tooLarge
  else
    match ret with
    | .error =>
      entityReadDoSendError cleanup c ⟨400, "Invalid Request", "broken chunked-encoding"⟩
    | .incomplete =>
      let c := c.setInput (data ++ c.input.drop data.length)
      handleOneBodyFragment env cleanup c data.length (c.input.length - data.length) false outcome
    | .complete left =>
      let c := c.setInput (data ++ c.input.drop (c.input.length - left))
      handleOneBodyFragment env cleanup c data.length 0 true outcome

/-- `handle_chunked_entity_read`. -/
def handleChunkedEntityRead (decoder : σ) (outcome : Outcome) : Option (Conn σ) :=
  if c.input = [] then some c
  else
    match env.decodeChunked decoder c.input with
    | (decoder, data, ret) =>
      handleDecoded env cleanup (c.setReader (.chunked decoder)) data ret outcome

/-- `handle_content_length_entity_read`. -/
def handleContentLengthEntityRead (contentLength : ℕ) (outcome : Outcome) : Option (Conn σ) :=
  if c.reqBodyBytesReceived + c.input.length ≥ contentLength then
    handleOneBodyFragment env cleanup c (contentLength - c.reqBodyBytesReceived) 0 true outcome
  else if c.input.length = 0 then some c
  else handleOneBodyFragment env cleanup c c.input.length 0 false outcome

/-- `handle_incoming_entity` of the reader. -/
def handleIncomingEntity (reader : Reader σ) (outcome : Outcome) : Option (Conn σ) :=
  match reader with
  | .contentLength n => handleContentLengthEntityRead env cleanup c n outcome
  | .chunked decoder => handleChunkedEntityRead env cleanup c decoder outcome

/-! ## Reading a head -/

/-- The request has a head, of which `reqlen` octets are in the input. -/
def setRequest (reqlen : ℕ) : Conn σ :=
  { c with
    req := some req
    http1IsPersistent := req.http1IsPersistent
    unconsumedRequestSize := reqlen }

/-- A body is going to be read. -/
def startBody (reader : Reader σ) (reqlen : ℕ) (writeReq : WriteReq) : Conn σ :=
  { c with
    reader := some reader
    writeReq := some writeReq
    unconsumedRequestSize := 0
    input := c.input.drop reqlen
    reqBody := some [] }

/-- `handle_incoming_request` when the head is complete. -/
def onHeadComplete (reqlen : ℕ) (head : Head) (outcome : Outcome) : Option (Conn σ) :=
  match decideRequest env head with
  | .refuse err => some ({ c with unconsumedRequestSize := reqlen }.refuse err)
  | .upgradeH2 req =>
    let c := (c.setRequest req reqlen).readStop.call (.upgradeH2 req)
    if outcome.upgradeOk then some c.close
    else
      some ({ c with hasGenerator := true }.call
        (.error ⟨400, "Invalid Request", "Broken upgrade request to HTTP/2"⟩))
  | .readBody req expectsContinue reader =>
    let c := (c.setRequest req reqlen).startBody reader reqlen .first
    if expectsContinue then some ((c.setContinuing true).readStop.call .continue100)
    else handleIncomingEntity env some c reader outcome
  | .methodNotAllowed req =>
    some ({ c.setRequest req reqlen with hasGenerator := true }.call
      (.error ⟨405, "Method Not Allowed", "Method Not Allowed"⟩))
  | .tunnel req =>
    let c := { (c.setRequest req reqlen).startBody (.contentLength (2 ^ 64 - 1)) reqlen
      .connectFirst with proceedReq := true }
    (handleIncomingEntity env some c (.contentLength (2 ^ 64 - 1)) outcome).map fun c =>
      ({ c with entity := some (c.entity.getD []) }.readStop.process req)
  | .process req => some ((c.setRequest req reqlen).readStop.process req)

/-- `PRI * HTTP/2`. -/
def http2Sig : Bytes := ascii "PRI * HTTP/2"

/-- `contains_crlf_only`. -/
def containsCrlfOnly (s : Bytes) : Bool := s.all fun ch => ch = 13 ∨ ch = 10

/-- `handle_incoming_request`. -/
def handleIncomingRequest : Option (Conn σ) :=
  let inreq := c.input.take maxReqlen
  let result := env.parseRequest inreq c.prevReqlen
  let c := c.setPrevReqlen inreq.length
  match result with
  | .complete reqlen head => onHeadComplete env c reqlen head outcome
  | .incomplete => if inreq.length = maxReqlen then some c.sendBadRequest else some c
  | .error =>
    if env.upgradeToHttp2 && http2Sig.isPrefixOf c.input then some (c.call .acceptHttp2).close
    else if inreq.length ≤ 4 ∧ containsCrlfOnly inreq then some c.close
    else some c.sendBadRequest

/-- `reqread_start`. -/
def reqreadStart : Option (Conn σ) :=
  let c := c.readStart
  if c.input ≠ [] then handleIncomingRequest env c outcome else some c

/-- `init_request` for a request that follows another one, and what `cleanup_connection` does
after it. -/
def nextRequest : Conn σ :=
  { c with
    input := c.input.drop c.unconsumedRequestSize
    reqIndex := c.reqIndex + 1
    prevReqlen := 0
    unconsumedRequestSize := 0
    reqBody := none
    req := none
    http1IsPersistent := false
    entity := none
    reqBodyBytesReceived := 0
    writeReq := none
    proceedReq := false
    processCalled := false
    pending := false
    hasGenerator := false
    ostreamState := .head }

/-- `cleanup_connection`; `none` is a failed assertion. -/
def cleanupConnection (c : Conn σ) : Option (Conn σ) :=
  if !c.http1IsPersistent then some c.close
  else if c.proceedReq || c.reader.isSome then none
  else reqreadStart env c.nextRequest outcome

/-! ## Callbacks -/

/-- `reqread_on_read`. -/
def reqreadOnRead (data : Bytes) (outcome : Outcome) : Option (Conn σ) :=
  let c := c.setInput (c.input ++ data)
  match c.reader with
  | none => handleIncomingRequest env c outcome
  | some reader => handleIncomingEntity env (cleanupConnection env outcome) c reader outcome

lemma reqreadOnRead_head {env : Env σ} {c : Conn σ} (h : c.reader = none) (data : Bytes)
    (outcome : Outcome) : c.reqreadOnRead env data outcome =
      handleIncomingRequest env (c.setInput (c.input ++ data)) outcome := by
  unfold reqreadOnRead
  dsimp only
  rw [show (c.setInput (c.input ++ data)).reader = c.reader from rfl, h]

lemma reqreadOnRead_body {env : Env σ} {c : Conn σ} {reader : Reader σ}
    (h : c.reader = some reader) (data : Bytes) (outcome : Outcome) :
    c.reqreadOnRead env data outcome = handleIncomingEntity env (cleanupConnection env outcome)
      (c.setInput (c.input ++ data)) reader outcome := by
  unfold reqreadOnRead
  dsimp only
  rw [show (c.setInput (c.input ++ data)).reader = c.reader from rfl, h]

/-- `on_continue_sent`. -/
def onContinueSent : Option (Conn σ) :=
  let c := (c.setContinuing false).readStart
  match c.reader with
  | none => none
  | some reader => handleIncomingEntity env (cleanupConnection env outcome) c reader outcome

/-- `proceed_request`; the handler has set its callback by then. -/
def proceedRequest (failed : Bool) (outcome : Outcome) : Option (Conn σ) :=
  let c := (c.setWriteReq (some .handler)).setPending false
  if failed then entityReadDoSendError (cleanupConnection env outcome) c badGateway
  else
    match c.reqBody, c.entity with
    | some body, some entity =>
      if entity.length = body.length then some c.clearBody.readStart else none
    | _, _ => none

/-- The response starts; it may be one after which the connection is closed. -/
def startResponse (closes : Bool) : Conn σ :=
  { c with
    hasGenerator := true
    ostreamState := .body
    http1IsPersistent := c.http1IsPersistent && !closes }

/-- The response has been sent, or could not be. -/
def endResponse (failed : Bool) : Conn σ :=
  { c with http1IsPersistent := c.http1IsPersistent && !failed, ostreamState := .done }

/-- `on_send_complete` and `on_send_complete_post_trailers`. -/
def onSendComplete (failed : Bool) (outcome : Outcome) : Option (Conn σ) :=
  let c := c.endResponse failed
  if c.req.any Request.isTunnelReq then
    if c.http1IsPersistent then none else cleanupConnection env outcome c
  else if !c.proceedReq then cleanupConnection env outcome c
  else some c

end Conn

/-- `vhttp_http1_accept`. -/
def accept (σ : Type) : Conn σ where
  input := []
  reading := true
  reqIndex := 1
  prevReqlen := 0
  unconsumedRequestSize := 0
  reader := none
  reqBody := none
  req := none
  http1IsPersistent := false
  entity := none
  reqBodyBytesReceived := 0
  writeReq := none
  proceedReq := false
  processCalled := false
  pending := false
  hasGenerator := false
  ostreamState := .head
  continuing := false
  closed := false
  calls := []

/-! ## Runs -/

/-- What happens to a connection. -/
inductive Event where
  | read (data : Bytes) (outcome : Outcome)
  | continueSent (outcome : Outcome)
  | proceed (failed : Bool) (outcome : Outcome)
  | startResponse (closes : Bool)
  | sendComplete (failed : Bool) (outcome : Outcome)
  /-- a timeout, or an error of the socket -/
  | close

variable {σ : Type}

/-- When an event can happen. -/
def possible (c : Conn σ) : Event → Bool
  | .read data _ => c.reading && data ≠ []
  | .continueSent _ => c.continuing
  | .proceed _ _ => c.proceedReq && c.pending
  | .startResponse _ => c.processCalled && !c.hasGenerator
  | .sendComplete _ _ => c.hasGenerator && c.ostreamState ≠ .done
  | .close => true

/-- One event; `none` is a failed assertion or a call through NULL. -/
def step (env : Env σ) (c : Conn σ) : Event → Option (Conn σ)
  | .read data outcome => c.reqreadOnRead env data outcome
  | .continueSent outcome => c.onContinueSent env outcome
  | .proceed failed outcome => c.proceedRequest env failed outcome
  | .startResponse closes => some (c.startResponse closes)
  | .sendComplete failed outcome => c.onSendComplete env failed outcome
  | .close => some c.close

/-- The octets that an event brings. -/
def Event.data : Event → Bytes
  | .read data _ => data
  | _ => []

/-- The states of the runs in which every event meets the condition, with the octets that came. -/
inductive Reach (env : Env σ) (ok : Conn σ → Event → Prop) : Conn σ → Bytes → Prop
  | accept : Reach env ok (accept σ) []
  | step {c c' : Conn σ} {stream : Bytes} {e : Event} (h : Reach env ok c stream)
    (hopen : c.closed = false) (hpossible : possible c e) (hok : ok c e)
    (hstep : step env c e = some c') : Reach env ok c' (stream ++ e.data)

/-- The events in their order. -/
def run (env : Env σ) (c : Conn σ) : List Event → Option (Conn σ)
  | [] => some c
  | e :: es => if !c.closed && possible c e then (step env c e).bind (run env · es) else none

lemma Reach.run {env : Env σ} {ok : Conn σ → Event → Prop} {c c' : Conn σ} {stream : Bytes}
    {es : List Event} (h : Reach env ok c stream) (ho : ∀ e ∈ es, ∀ c, ok c e)
    (hr : run env c es = some c') : Reach env ok c' (stream ++ (es.map Event.data).flatten) := by
  induction es generalizing c stream with
  | nil =>
    cases hr
    rw [map_nil, flatten_nil, append_nil]
    exact h
  | cons e es ih =>
    obtain ⟨hc, hr⟩ := ite_none_right_eq_some.1 hr
    obtain ⟨c1, hstep, hr⟩ := bind_eq_some_iff.1 hr
    rw [and_eq_true, not_eq_true'] at hc
    have hn := ih (.step h hc.1 hc.2 (ho e mem_cons_self c) hstep)
      (fun e he => ho e (mem_cons_of_mem _ he)) hr
    rw [append_assoc] at hn
    exact hn

end Vhttp.Http1Server
