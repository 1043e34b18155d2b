import Vhttp.Http2.Lifecycle.Steps

/-!
# Streams that have ended are closed

A stream that has ended waits for its output to be written, or for its request body.

* `ended_of_reach`: in every run in which no request is reset while it is parked for replay, no
  request body ends unseen after the response, and no handler gives up a request body while the
  connection is closing, a stream that has ended is in `streams_to_proceed`, so that it is closed
  when the output has been written, or its request body is not done.
* `ended_left_behind`: without these conditions streams are left behind.
-/

namespace Vhttp.Http2.Lifecycle

open Cell

/-- A stream that has ended waits for its output, or for its request body. -/
structure Stream.Tidy (s : Stream) : Prop where
  ended : s.state = .endStream → s.link = some .streamsToProceed ∨
    s.reqBodyState ≠ .none ∧ s.reqBodyState ≠ .closeDelivered
  parked : s.state = .endStream → s.link ≠ some .blockedStreams

namespace Stream.Tidy

variable {s s' : Stream}

lemma of_state (h : s.state ≠ .endStream) : s.Tidy :=
  ⟨fun he => absurd he h, fun he => absurd he h⟩

lemma of_link (h : s.link = some .streamsToProceed) : s.Tidy :=
  ⟨fun _ => .inl h, by simp [h]⟩

/-- A stream that is reset is already in `streams_to_proceed`, unless it is parked. -/
lemma reset_link (ht : s.Tidy) (hp : s.Phase) (hs : answering s.state = true)
    (hf : ¬s.Parked) : s.link = none ∨ s.link = some .streamsToProceed := by
  have he := hp.answering_link hs
  have ha : s.link ≠ some .blockedStreams := by
    intro h
    rcases (hp.parked h).1 with h' | h' | h'
    · simp [h', answering] at hs
    · exact hf ⟨h', h⟩
    · exact ht.parked h' h
  cases hl : s.link with
  | none => exact .inl rfl
  | some list => cases list <;> simp_all

lemma sent (ht : s.Tidy) {r : Response} (h : Sent r s s') : s'.Tidy := by
  cases h with
  | parked _ hs => exact .of_state hs.2.2
  | replayed _ | ignored _ => exact ⟨ht.ended, ht.parked⟩
  | answered hs h =>
    cases h with
    | ended active => exact .of_link rfl
    | drained ha => exact .of_state (by simp)
    | sending hs ha =>
      refine .of_state ?_
      rcases hs with ⟨rfl, -⟩ | rfl <;> simp

lemma emitted (hp : s.Phase) {n : ℕ} (h : Emitted s n s') : s'.Tidy := by
  cases h with
  | more h hm =>
    refine .of_state ?_
    rcases hm with hd | hf
    · cases h with
      | written hr =>
        intro he
        rcases hp.data (hr hd) with h | h <;> simp [h] at he
      | ended sendState => simp at hd
    · simp [hf]
  | done => exact .of_link rfl

end Stream.Tidy

/-- Every safe move leaves the stream tidy. -/
lemma Move.tidy {s s' : Stream} (h : Move True s s') (hp : s.Phase) (ht : s.Tidy) : s'.Tidy := by
  cases h with
  | counted slot blocked | buffered size entity | setWriteReq on hc =>
    exact ⟨ht.ended, ht.parked⟩
  | first hb | closeQueued hb hc => exact ⟨fun _ => .inr (by simp), ht.parked⟩
  | queued hb hs hl => exact .of_state (by simp [(hp.not_run hb hs).1])
  | run hl hb =>
    refine .of_state ?_
    unfold calledIn
    split
    · simp
    · rcases (hp.pending hl).1 with h | h <;> simp [h]
  | bodyEnded hc =>
    rcases hp.endedIn_cases hc with ⟨-, he⟩ | ⟨-, he⟩
    · exact .of_state (by simp [he])
    · rw [he]
      exact ht
  | delivered hc hf => exact ⟨fun hn => .inl (hf trivial hn), ht.parked⟩
  | failed hst hf =>
    refine .of_link ?_
    rcases ht.reset_link hp hst (hf trivial) with h | h <;> simp [h]
  | sent ha hd h => exact ht.sent h
  | reset hst hl hf =>
    exact .of_link ((ht.reset_link hp hst (hf trivial)).resolve_left hl)
  | emitted hpe h => exact .emitted hp h
  | waiting hl hst hb => exact ⟨fun _ => .inr hb, by simp⟩
  | asked hl hst hd => exact .of_state hst
  | replayed hl => exact .of_state fun hn => ht.parked hn hl
  -- the header block has been received, or the request is pending
  | _ => exact .of_state (by simp)

lemma keeps_tidy : Keeps True Stream.Tidy where
  new w := .of_state (by simp [Stream.new])
  prepared hp h hi w b := .of_state (by simp)
  move hp h hm := hm.tidy hp h
  resized hp h hr := by
    cases hr with
    | same | overflow => exact h
    | done => exact ⟨h.ended, h.parked⟩
  marked h n b := ⟨h.ended, h.parked⟩

/-- A stream that has ended, and whose request body is done, can be closed. -/
lemma streamClose_of_ended {c : Cell} (hs : c.stream.state = .endStream)
    (hb : c.stream.reqBodyState = .none ∨ c.stream.reqBodyState = .closeDelivered) :
    ∃ c', c.streamClose = some c' := by
  have hd : c.ensureDelivered = some c := by
    rcases hb with h | h <;> simp [ensureDelivered, h]
  obtain ⟨c1, hu⟩ : ∃ c1, c.ensureUnblocked = some c1 := by
    unfold ensureUnblocked setBlockedByServer
    split <;> simp_all
  obtain ⟨-, num, slot, blocked, rfl⟩ := ensureUnblocked_becomes hu
  simp [streamClose, unregisterStream, hd, hu, unlinkByState, hs, ensureEnded, unlink]

/-- When the output has been written, a stream that has ended and whose request body is done is
closed. -/
lemma proceed_closes {conn : Conn} {i : ℕ} (hs : (conn.stream i).state = .endStream)
    (hb : (conn.stream i).reqBodyState = .none ∨ (conn.stream i).reqBodyState = .closeDelivered)
    (hd : (conn.stream i).data = []) :
    ∃ conn', conn.step (.proceed i) = some conn' ∧ i ∉ conn'.ids := by
  obtain ⟨c, hc⟩ : ∃ c, (conn.cell i).unlink.streamClose = some c :=
    streamClose_of_ended hs hb
  have hp : (conn.cell i).unlink.streamProceed = some c := by
    unfold streamProceed
    rw [if_pos (by exact hs), if_pos (by exact hb), hc]
  refine ⟨conn.put i c, ?_, fun hmem => ?_⟩
  · simp [Conn.step, Stream.hasPendingData, hd, Conn.on, hp]
  · have := (Conn.mem_put hmem).2 rfl
    simp [(streamClose_closes hc).registered] at this

/-- In every run of safe events, a stream that has ended is in `streams_to_proceed` or its
request body is not done; if the request body is done, the stream is closed when the output has
been written. -/
theorem ended_of_reach {conn : Conn} (h : conn.Reach Conn.Safe) (i : ℕ) (hi : i ∈ conn.ids)
    (hend : (conn.stream i).state = .endStream) : ((conn.stream i).link = some .streamsToProceed ∨
      (conn.stream i).reqBodyState = .openBeforeFirstFrame ∨
      (conn.stream i).reqBodyState = .open ∨ (conn.stream i).reqBodyState = .closeQueued) ∧
    ((conn.stream i).reqBodyState = .none ∨ (conn.stream i).reqBodyState = .closeDelivered →
      conn.ctx.live = true → conn.Enabled (.proceed i) ∧
        ∃ conn', conn.step (.proceed i) = some conn' ∧ i ∉ conn'.ids) := by
  have ht := keeps_tidy.all_of_reach (h.mono fun _ _ hs _ => hs) i hi
  have hp := h.wf.phase i hi
  constructor
  · refine (ht.ended hend).imp_right fun hb => ?_
    cases hst : (conn.stream i).reqBodyState <;> simp_all
  · intro hb hl
    have hk : (conn.stream i).link = some .streamsToProceed := by
      refine (ht.ended hend).resolve_right ?_
      rcases hb with h | h <;> simp [h]
    have hd := hp.data_nil (by simp [hend]) (by simp [hend])
    exact ⟨⟨hl, hi, hk⟩, proceed_closes hend hb hd⟩

/-- A request with a body, a WINDOW_UPDATE frame for its stream, and all of its response. -/
def responseEnded : List Event :=
  [.headers 1 false, .request 1 .plain, .data 1 ⟨10, true, false, true, ⟨true, none, false⟩⟩,
    .windowUpdate 1 5, .runPending 1, .send 1 ⟨[], .final, false, false, false, false, false⟩]

/-- A stream that has ended is closed when the write completes. -/
theorem ended_of_reach_response : ∃ conn : Conn, conn.Reach Conn.Safe ∧ 1 ∈ conn.ids ∧
    (conn.stream 1).state = .endStream ∧ (conn.stream 1).link = some .streamsToProceed ∧
    ∃ conn', conn.step (.proceed 1) = some conn' ∧ 1 ∉ conn'.ids := by
  obtain ⟨conn, hn, hmem, hs, hb, hl⟩ : ∃ conn, Conn.run Conn.Safe responseEnded .init =
      some conn ∧ 1 ∈ conn.ids ∧ (conn.stream 1).state = .endStream ∧
      (conn.stream 1).reqBodyState = .closeDelivered ∧ conn.ctx.live = true := exists_of_any rfl
  have hr := Conn.Reach.init.run hn
  obtain ⟨hk, hc⟩ := ended_of_reach hr 1 hmem hs
  exact ⟨conn, hr, hmem, hs, hk.resolve_right (by simp [hb]), (hc (.inr hb) hl).2⟩

/-- A request is sent as early data, parked by its handler, and reset; then it is replayed. -/
def parkedReset : List Event :=
  [.headers 1 true, .request 1 .plain, .runPending 1,
    .send 1 ⟨[], .final, true, true, false, false, false⟩, .rstStream 1, .replay 1,
    .send 1 ⟨[], .final, false, false, false, false, false⟩]

/-- The handler answers a request whose body is streamed, and installs no write_req callback;
the response is written, and the body ends. -/
def bodyEndsUnseen : List Event :=
  [.headers 1 false, .request 1 .plain, .data 1 ⟨10, false, false, true, ⟨true, none, false⟩⟩,
    .runPending 1, .send 1 ⟨[], .final, false, false, false, false, false⟩, .proceed 1,
    .data 1 ⟨10, true, false, true, ⟨true, none, false⟩⟩]

/-- The events leave a stream behind that has ended, is not in `streams_to_proceed`, and has no
request body to wait for. -/
def LeavesBehind (es : List Event) : Prop :=
  ∃ conn : Conn, Conn.run (fun _ _ => True) es .init = some conn ∧ (conn.Reach fun _ _ => True) ∧
    1 ∈ conn.ids ∧ (conn.stream 1).state = .endStream ∧
    (conn.stream 1).link ≠ some .streamsToProceed ∧
    ((conn.stream 1).reqBodyState = .none ∨ (conn.stream 1).reqBodyState = .closeDelivered)

/-- Both leave a stream behind. -/
theorem ended_left_behind : LeavesBehind parkedReset ∧ LeavesBehind bodyEndsUnseen := by
  constructor
  all_goals
    refine (exists_of_any ?_).imp fun conn ⟨hc, hf⟩ => ⟨hc, Conn.Reach.init.run hc, hf⟩
    rfl

end Vhttp.Http2.Lifecycle
