import Vhttp.Http2.HeaderBlock

/-!
# Requests and the streams they open

`handle_headers_frame` tells trailers from requests by `pull_stream_ids.max_open`, which stops
advancing once GOAWAY has been sent.

* `Between`: what the server does between two frames, more exactly than `Background`.
* `StreamsOk`: a stream that has not got its header block has no body, and a stream behind
  `max_open` that serves a request was opened by a HEADERS frame after GOAWAY.
* `headers_prepare_idle`: unless a peer reuses such a stream, only idle streams are prepared for
  a request, and HEADERS frames on the others are trailers or errors.
* `headers_reused_after_goaway`: otherwise the assertion of `vhttp_http2_stream_set_state` fails.
-/

namespace Vhttp.Http2

open Option Prod

variable {srv : Server} {C : Conn → Frame → Prop} {conn conn' : Conn} {frame : Frame} {id : ℕ}
  {stream : Stream}

/-- What the server does between two frames: it opens no pull stream and prepares none for a
request, it leaves the streams alone that have not got their header block, and it sends GOAWAY
once and for all. -/
structure Between (conn conn' : Conn) : Prop extends Background conn conn' where
  requests : ∀ id stream', conn'.getStream id = some stream' → isPush id = false →
    stream'.state ≠ .idle → ∃ stream, conn.getStream id = some stream ∧ stream.state ≠ .idle
  fresh : ∀ id stream', conn'.getStream id = some stream' → stream'.isFresh →
    conn.getStream id = some stream'
  goaway : conn.state ≠ .open → conn'.state ≠ .open

/-- The states of a connection, as long as the frames that are handled meet the condition
`C`. -/
inductive Run (srv : Server) (C : Conn → Frame → Prop) : Conn → Prop
  | init : Run srv C .init
  | upgrade (settings : Settings) : Run srv C (.upgraded settings)
  | read {conn : Conn} (h : Run srv C conn) (bytes : Bytes) :
      Run srv C { conn with input := conn.input ++ bytes }
  | parse {conn conn' : Conn} (h : Run srv C conn)
      (hc : ∀ frame, decodeFrame conn.input hostMaxFrameSize = .ok frame → C conn frame)
      (hp : conn.parseInput srv = some conn') : Run srv C conn'
  | between {conn conn' : Conn} (h : Run srv C conn) (hb : Between conn conn') : Run srv C conn'

/-! ## The streams of a connection -/

/-- What holds of the streams in every state. -/
structure StreamsOk (conn : Conn) : Prop where
  fresh : ∀ id stream, conn.getStream id = some stream → stream.isFresh = true →
    stream.reqBodyState = .none
  late : ∀ id stream, conn.getStream id = some stream → isPush id = false → stream.state ≠ .idle →
    conn.pullMaxOpen < id →
      conn.state ≠ .open ∧ ∃ f ∈ conn.received, f.type = typeHeaders ∧ f.streamId = id

variable (h : StreamsOk conn)
include h

lemma StreamsOk.calm (hc : Calm conn conn') : StreamsOk conn' := by
  constructor
  · intro id stream' hg hf
    rcases hc.streams id stream' hg with ⟨stream, ho, hgo⟩ | ⟨-, hno⟩
    · exact (hgo (h.fresh id stream ho)).1 hf
    · exact hno
  · intro id stream' hg hp hi hl
    rw [hc.pullMaxOpen] at hl
    rw [hc.state, hc.received]
    rcases hc.streams id stream' hg with ⟨stream, ho, hgo⟩ | ⟨hn, -⟩
    · exact h.late id stream ho hp ((hgo (h.fresh id stream ho)).2 hi) hl
    · exact absurd hn hi

lemma StreamsOk.decode (b : Block) : StreamsOk (conn.decode b) :=
  ⟨h.fresh, h.late⟩

omit h

/-! ## HEADERS frames -/

/-- A stream that was idle has been prepared for the request of a HEADERS frame. -/
lemma StreamsOk.prepared (h : StreamsOk conn) {stream' : Stream} (hu : isPush id = false)
    (hl : conn.pullMaxOpen < id)
    (hf : ∃ f ∈ conn.received, f.type = typeHeaders ∧ f.streamId = id)
    (hb : stream.reqBodyState = .none)
    (hp : conn.prepareForRequest id stream = some (conn', stream')) (hasReqBody : Bool) :
    StreamsOk (conn'.setStream id { stream' with hasReqBody := hasReqBody }) := by
  unfold Conn.prepareForRequest at hp
  rw [hu] at hp
  simp only [Bool.false_eq_true, if_false] at hp
  split at hp
  swap
  · cases hp
  obtain ⟨rfl, rfl⟩ := mk.inj (some.inj hp)
  have hs : ∀ id', (if conn.state = .open
      then { conn with pullMaxOpen := max conn.pullMaxOpen id } else conn).getStream id' =
      conn.getStream id' := by
    intro id'
    split
    · rfl
    · rfl
  constructor
  · intro id' s hg hr
    obtain ⟨-, rfl⟩ | hg := setStream_cases hg
    · exact hb
    · exact h.fresh id' s (hs id' ▸ hg) hr
  · intro id' s hg hp' hi hl'
    have hg := (setStream_cases hg).imp_right (hs id' ▸ ·)
    by_cases ht : conn.state = .open
    · simp only [if_pos ht, Conn.setStream] at hl' ⊢
      obtain ⟨rfl, -⟩ | hg := hg
      · omega
      · exact h.late id' s hg hp' hi (by omega)
    · simp only [if_neg ht, Conn.setStream] at hl' ⊢
      obtain ⟨rfl, -⟩ | hg := hg
      · exact ⟨ht, hf⟩
      · exact h.late id' s hg hp' hi hl'

lemma Opened.streamsOk (ho : Opened conn frame conn') (h : StreamsOk conn)
    (ht : frame.type = typeHeaders) (hmem : frame ∈ conn.received) : StreamsOk conn' := by
  have hc : Calm conn (conn.withStream frame.streamId) := withStream_calm
  have h1 := h.calm hc
  cases ho with
  | same => exact h
  | registered => exact h1
  | @prepared payload stream stream' conn2 hp hr =>
    have hi : stream.isFresh = true := by
      simp [Stream.isFresh, (prepareForRequest_spec hr).2.2.1]
    refine h1.prepared hp.pull ?_ ⟨frame, ?_, ht, rfl⟩ (h1.fresh _ stream hp.registered hi) hr _
    · rw [hc.pullMaxOpen]
      exact hp.late
    · rw [hc.received]
      exact hmem

lemma HeadersDone.streamsOk (hd : HeadersDone conn frame conn') (h : StreamsOk conn) :
    StreamsOk conn' := by
  cases hd with
  | calm hc => exact h.calm hc
  | decoded _ _ hc => exact (h.decode _).calm hc
  | pending _ _ he =>
    rw [he]
    exact ⟨h.fresh, h.late⟩

/-! ## Runs -/

include h

lemma expectDefault_ok (hmem : frame ∈ conn.received) :
    StreamsOk (expectDefault srv conn frame).1 := by
  by_cases ht : frame.type = typeHeaders
  · rw [expectDefault_headers srv conn ht]
    obtain ⟨opened, ho, hd⟩ := handleHeadersFrame_done srv conn frame
    exact hd.streamsOk (ho.streamsOk h ht hmem)
  · exact h.calm (expectDefault_calm srv conn ht)

lemma expectContinuationOfHeaders_ok :
    StreamsOk (expectContinuationOfHeaders srv conn frame).1 := by
  cases expectContinuationOfHeaders_done srv conn frame with
  | error hn =>
    rw [hn]
    exact h
  | decoded _ _ _ _ hc =>
    have h1 : StreamsOk conn.endBlock := ⟨h.fresh, h.late⟩
    exact (h1.decode _).calm hc
  | pending _ _ _ _ hn =>
    rw [hn]
    exact ⟨h.fresh, h.late⟩
  | refused _ _ _ hn =>
    rw [hn]
    exact h.calm closeStream_calm

lemma finish_ok (length : ℕ) (r : Ret) : StreamsOk (conn.finish length r) := by
  cases r with
  | ok => exact ⟨h.fresh, h.late⟩
  | error e | abort =>
    refine ⟨h.fresh, fun id stream hg hp hi hl => ⟨?_, ?_⟩⟩
    · exact fun he => by cases he
    · exact (h.late id stream hg hp hi hl).2

lemma StreamsOk.record (frame : Frame) : StreamsOk (conn.record frame) := by
  refine ⟨h.fresh, fun id stream hg hp hi hl => ?_⟩
  obtain ⟨hs, f, hf, ht⟩ := h.late id stream hg hp hi hl
  exact ⟨hs, f, List.mem_append_left _ hf, ht⟩

lemma onFrame_ok : StreamsOk (conn.onFrame srv frame) := by
  have h1 := h.record frame
  by_cases hm : conn.readExpect = .continuationOfHeaders
  · rw [onFrame_continuation hm]
    exact finish_ok (expectContinuationOfHeaders_ok h1) _ _
  · rw [onFrame_default hm]
    exact finish_ok (expectDefault_ok h1 (by simp [Conn.record])) _ _

lemma parseInput_ok (hp : conn.parseInput srv = some conn') : StreamsOk conn' := by
  obtain ⟨-, ⟨e, rfl⟩ | ⟨-, rfl⟩ | ⟨frame, -, rfl⟩⟩ := parseInput_cases hp
  · exact finish_ok h _ _
  · exact ⟨h.fresh, h.late⟩
  · exact onFrame_ok h

lemma between_ok (hb : Between conn conn') : StreamsOk conn' := by
  constructor
  · intro id stream' hg hr
    exact h.fresh id stream' (hb.fresh id stream' hg hr) hr
  · intro id stream' hg hp hi hl
    obtain ⟨stream, ho, hi'⟩ := hb.requests id stream' hg hp hi
    rw [hb.pullMaxOpen] at hl
    obtain ⟨hs, hf⟩ := h.late id stream ho hp hi' hl
    rw [hb.received]
    exact ⟨hb.goaway hs, hf⟩

omit h

lemma Run.streamsOk (h : Run srv C conn) : StreamsOk conn := by
  induction h with
  | init => exact ⟨fun _ _ hg => (by cases hg), fun _ _ hg => (by cases hg)⟩
  | upgrade settings =>
    constructor
    · intro id stream hg hf
      obtain ⟨-, rfl⟩ | hg := setStream_cases hg
      · cases hf
      · cases hg
    · intro id stream hg _ _ hl
      obtain ⟨rfl, -⟩ | hg := setStream_cases hg
      · exact absurd hl (lt_irrefl 1)
      · cases hg
  | read _ bytes ih => exact ⟨ih.fresh, ih.late⟩
  | parse _ _ hp ih => exact parseInput_ok ih hp
  | between _ hb ih => exact between_ok ih hb

/-- After GOAWAY, a stream behind `max_open` gets one HEADERS frame at most. -/
def NoReuse (conn : Conn) (frame : Frame) : Prop :=
  frame.type = typeHeaders → conn.state ≠ .open → conn.pullMaxOpen < frame.streamId →
    ∀ f ∈ conn.received, f.type = typeHeaders → f.streamId ≠ frame.streamId

/-- A stream that serves a request and gets a HEADERS frame is not behind `max_open`. -/
lemma StreamsOk.le_pullMaxOpen (h : StreamsOk conn) (ht : frame.type = typeHeaders)
    (hc : NoReuse conn frame) (hg : conn.getStream frame.streamId = some stream)
    (hp : isPush frame.streamId = false) (hi : stream.state ≠ .idle) :
    frame.streamId ≤ conn.pullMaxOpen := by
  by_contra hl
  rw [not_le] at hl
  obtain ⟨hs, f, hf, hft, hd⟩ := h.late _ stream hg hp hi hl
  exact hc ht hs hl f hf hft hd

/-- **Requests are prepared on idle streams**, as long as no stream behind `max_open` is reused
after GOAWAY: whenever a HEADERS frame makes `handle_headers_frame` prepare a stream for a
request, the stream is idle, so that the assertion of `vhttp_http2_stream_set_state` holds; and
a HEADERS frame on a stream that serves a request is an error or is handled as trailers. -/
theorem headers_prepare_idle (h : Run srv NoReuse conn) (hc : NoReuse conn frame)
    (ht : frame.type = typeHeaders) :
    (∀ payload stream, Prepares (conn.record frame) frame payload stream → stream.state = .idle ∧
      (((conn.record frame).withStream frame.streamId).prepareForRequest frame.streamId
        stream).isSome = true) ∧
    ∀ stream, conn.getStream frame.streamId = some stream → stream.state ≠ .idle →
      (∃ e, handleHeadersFrame srv (conn.record frame) frame = (conn.record frame, .error e)) ∨
      ∃ payload, decodeHeadersPayload frame = .ok payload ∧
        handleHeadersFrame srv (conn.record frame) frame =
          handleTrailersFrame srv (conn.record frame) frame payload := by
  have ho := h.streamsOk
  have hr : ∀ payload stream, Prepares (conn.record frame) frame payload stream →
      stream.state = .idle := by
    intro payload stream hp
    by_contra hi
    have hl : frame.streamId ≤ conn.pullMaxOpen := by
      rcases withStream_calm.streams _ _ hp.registered with ⟨registered, hg, hgo⟩ | ⟨hn, -⟩
      · exact ho.le_pullMaxOpen ht hc hg hp.pull ((hgo (ho.fresh _ _ hg)).2 hi)
      · exact absurd hn hi
    exact absurd hp.late (not_lt.2 hl)
  refine ⟨fun payload stream hp => ⟨hr payload stream hp, ?_⟩, fun stream hg hi => ?_⟩
  · unfold Conn.prepareForRequest
    rw [if_pos (hr payload stream hp)]
    rfl
  · rcases headersKind srv (conn.record frame) frame with ⟨e, he⟩ | ⟨hp, -, he⟩ | hp
    · exact .inl ⟨e, he⟩
    · exact .inr ⟨_, hp, he⟩
    · have hl := ho.le_pullMaxOpen ht hc hg hp.pull hi
      exact absurd hp.late (not_lt.2 hl)

/-- The server sends GOAWAY. -/
lemma between_goaway (h : conn.state = .open) :
    Between conn { conn with state := .halfClosed } where
  streams _ stream' hg _ := ⟨stream', hg, rfl⟩
  live _ := by simp [Conn.live, h]
  pullMaxOpen := rfl
  readExpect := rfl
  headersUnparsed := rfl
  received := rfl
  decoded := rfl
  requests _ stream' hg _ hi := ⟨stream', hg, hi⟩
  fresh _ _ hg _ := hg
  goaway _ he := by cases he

lemma Run.parses {n : ℕ} (h : Run srv (fun _ _ => True) conn)
    (hp : conn.parseInputs srv n = some conn') : Run srv (fun _ _ => True) conn' := by
  induction n generalizing conn with
  | zero => exact some.inj hp ▸ h
  | succ n ih =>
    obtain ⟨c, hc, hp⟩ := bind_eq_some_iff.1 hp
    exact ih (.parse h (fun _ _ => trivial) hc) hp

/-- A connection on which GOAWAY has been sent, and the input that comes after it. -/
def goawaySent (input : Bytes) : Conn :=
  { Conn.init with state := .halfClosed, input := connectionPreface ++ input }

lemma run_goawaySent (input : Bytes) : Run srv C (goawaySent input) :=
  .read (.between .init (between_goaway rfl)) (connectionPreface ++ input)

/-- A request on stream `1` with a body. -/
def requestWithBody : Bytes := [0, 0, 1, 1, 4, 0, 0, 0, 1, 0x82]

/-- A new stream after GOAWAY, next to one with a body. -/
theorem headers_prepare_idle_afterGoaway :
    ∃ conn, Run plainServer NoReuse conn ∧ conn.state = .halfClosed ∧
      conn.getStream 1 = some { Stream.new 65535 with
        state := .recvBody, reqBodyState := .openBeforeFirstFrame, hasReqBody := true } ∧
      ∀ payload stream, Prepares (conn.record ⟨1, 4, 3, [0x82]⟩) ⟨1, 4, 3, [0x82]⟩ payload stream →
        stream.state = .idle := by
  have hr : (do
      let c1 ← (goawaySent requestWithBody).parseInput plainServer
      let c2 ← c1.parseInput plainServer
      pure (c1.received, c2.received, c2.state, c2.getStream 1))
      = some ([], [⟨1, 4, 1, [0x82]⟩], .halfClosed, some { Stream.new 65535 with
        state := .recvBody, reqBodyState := .openBeforeFirstFrame, hasReqBody := true }) := by
    rfl
  obtain ⟨c1, h1, hr⟩ := bind_eq_some_iff.1 hr
  obtain ⟨c2, h2, hr⟩ := bind_eq_some_iff.1 hr
  simp only [pure_def, some.injEq, mk.injEq] at hr
  obtain ⟨he1, he2, hs, hg⟩ := hr
  have hr1 : Run plainServer NoReuse c1 :=
    .parse (run_goawaySent requestWithBody) (fun _ _ _ _ _ f hf => by cases hf) h1
  have hr2 : Run plainServer NoReuse c2 :=
    .parse hr1 (fun _ _ _ _ _ f hf => by rw [he1] at hf; cases hf) h2
  have hc : NoReuse c2 ⟨1, 4, 3, [0x82]⟩ := by
    intro _ _ _ f hf _
    rw [he2, List.mem_singleton] at hf
    rw [hf]
    decide
  exact ⟨c2, hr2, hs, hg, fun payload stream hp =>
    ((headers_prepare_idle hr2 hc rfl).1 payload stream hp).1⟩

/-- The trailers of a request that was sent after GOAWAY are taken for a request. -/
theorem headers_reused_after_goaway : ∃ conn, Run plainServer (fun _ _ => True) conn ∧
    conn.state = .aborted := by
  refine (exists_of_any ?_).imp fun c ⟨hc, hs⟩ =>
    ⟨(run_goawaySent (requestWithBody ++ requestWithBody)).parses (n := 3) hc, hs⟩
  rfl

end Vhttp.Http2
