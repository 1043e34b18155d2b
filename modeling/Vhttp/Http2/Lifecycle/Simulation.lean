import Vhttp.Http2.Lifecycle.Phase

/-!
# The functions of a stream are moves

Every function that works on a stream closes it or lets it make a sequence of moves (`Goes`).
What the functions need to know about the stream is its phase; `safe` is passed on to the moves.
-/

namespace Vhttp.Http2.Lifecycle.Cell

open Option (bind_eq_some_iff ite_none_right_eq_some)

variable {safe : Prop} {ctx : Ctx} {c c' c'' : Cell} {r : Response} {w : WriteReq} {d : Chunk}

/-- The stream makes some moves and stays open; the counters follow. -/
structure Stays (safe : Prop) (c c' : Cell) : Prop where
  registered : c'.registered = c.registered
  id : c'.id = c.id
  settles : Settles c c'
  moves : Moves safe c.stream c'.stream

/-- The stream is closed, or makes some moves. -/
def Goes (safe : Prop) (c c' : Cell) : Prop := Closes c c' ∨ Stays safe c c'

lemma Goes.balances (h : Goes safe c c') : Balances c c' := by
  rcases h with h | h
  · exact ⟨h.id, h.settles, .inr ⟨h.registered, h.weight⟩⟩
  · exact ⟨h.id, h.settles, .inl h.registered⟩

lemma Stays.refl : Stays safe c c := ⟨rfl, rfl, .refl, .refl⟩

lemma Stays.trans (h : Stays safe c c') (h' : Stays safe c' c'') : Stays safe c c'' :=
  ⟨h'.registered.trans h.registered, h'.id.trans h.id, h.settles.trans h'.settles,
    h.moves.trans h'.moves⟩

lemma Stays.goes (h : Stays safe c c') (h' : Goes safe c' c'') : Goes safe c c'' := by
  rcases h' with hc | h'
  · exact .inl (hc.after h.id h.settles)
  · exact .inr (h.trans h')

lemma Stays.phase (h : Stays safe c c') (hp : c.stream.Phase) : c'.stream.Phase :=
  h.moves.phase hp

variable {c1 : Cell} {isFirst reqQueued : Bool} {s : Stream}

/-- A move that no counter depends on. -/
lemma Stays.of_stream (hs : Moves safe c.stream s) (hc : s.counted = c.stream.counted) :
    Stays safe c { c with stream := s } := ⟨rfl, rfl, .of_stream hc, hs⟩

lemma Stays.of_moves (hs : Moves safe c.stream s) (h : Becomes c c' s) : Stays safe c c' := by
  obtain ⟨he, num, slot, blocked, rfl⟩ := h
  exact ⟨rfl, rfl, he, hs.tail (.counted slot blocked)⟩

lemma Stays.of_move (hs : Move safe c.stream s) (h : Becomes c c' s) :
    Stays safe c c' := .of_moves (.single hs) h

lemma ensureBlocked_stays (h : c.ensureBlocked = some c') : Stays safe c c' :=
  .of_moves .refl (ensureBlocked_becomes h)

/-! ## Closing -/

lemma streamReset_goes (h : c.streamReset = some c') (hs : safe → ¬c.stream.Parked) :
    Goes safe c c' := by
  rcases streamReset_becomes h with hc | ⟨ht, hl, hb⟩
  · exact .inl hc
  · exact .inr (.of_move (.reset ht hl hs) hb)

lemma sendErrorAndReset_goes (h : c.sendErrorAndReset ctx = some c')
    (hs : safe → ¬c.stream.Parked) : Goes safe c c' :=
  streamReset_goes (sendErrorAndReset_eq h).2 hs

/-! ## Responses -/

lemma finalostreamSend_stays (h : c.finalostreamSend r = some c') (hp : c.stream.Phase)
    (ha : c.stream.asked = true) : Stays safe c c' := by
  obtain ⟨hd, s, hs, hb⟩ := finalostreamSend_becomes h (hp.asked ha).1
  exact .of_move (.sent ha hd hs) hb

/-- A stream is taken from its list, and more of the response is asked for. -/
lemma unlink_stays (h : c.unlink.ensureBlocked = some c')
    (hm : Move safe c.stream { c.stream with link := none, asked := true }) :
    Stays safe c c'.ask := by
  obtain ⟨hs, num, slot, blocked, rfl⟩ := ensureBlocked_becomes h
  have hs : Settles c _ := hs.update rfl
  exact .of_move hm ⟨hs.trans (.of_stream rfl), num, slot, blocked, rfl⟩

lemma streamProceed_goes (h : c.unlink.streamProceed = some c')
    (hl : c.stream.link = some .streamsToProceed) (hd : c.stream.data = []) : Goes safe c c' := by
  unfold streamProceed at h
  split at h
  · next hs =>
    split at h
    · exact .inl (unlink_becomes.closes (streamClose_closes h))
    · next hbd =>
      cases h
      exact .inr (.of_stream (.single (.waiting hl hs (not_or.1 hbd))) rfl)
  · next hs =>
    obtain ⟨c1, hb, h⟩ := bind_eq_some_iff.1 h
    cases h
    exact .inr (unlink_stays hb (.asked hl hs hd))

/-! ## Requests -/

lemma processRequest_stays (h : c.unlink.processRequest = some c') (hp : c.stream.Phase)
    (hl : c.stream.link = some .pendingReqs) : Stays safe c c' := by
  obtain ⟨ht, hc, -⟩ := hp.pending hl
  have hi : c.stream.state ≠ .idle := by rcases ht with h | h <;> simp [h]
  obtain ⟨hd, hb⟩ := processRequest_becomes h hi (hp.uncalled hc).1
  have hm : Move safe c.stream _ := .run hl hd
  obtain ⟨hs, num, slot, blocked, rfl⟩ := hb
  exact .of_move hm ⟨hs.update rfl, num, slot, blocked, rfl⟩

lemma executeOrEnqueueRequest_goes (h : c.executeOrEnqueueRequest ctx = some c')
    (hs : c.stream.state = .recvHeaders) : Goes safe c c' := by
  obtain ⟨-, hc | ⟨-, hb⟩⟩ := executeOrEnqueueRequest_becomes h
  · exact .inl hc
  · exact .inr (.of_move (.enqueued hs) hb)

lemma sendInvalidRequestError_stays (h : c.sendInvalidRequestError = some c')
    (ht : c.stream.state = .recvHeaders) : Stays safe c c' := by
  unfold sendInvalidRequestError at h
  obtain ⟨c1, hs, h⟩ := bind_eq_some_iff.1 h
  obtain ⟨-, hs1, _, _, _, rfl⟩ := setState_becomes hs fun _ => .inl ht
  obtain ⟨c2, hs, h⟩ := bind_eq_some_iff.1 h
  obtain ⟨-, hs2, num, slot, blocked, rfl⟩ := setState_becomes hs (by simp)
  cases h
  have hm : Move safe c.stream { c.stream with state := .sendHeaders, asked := true } :=
    .invalid ht
  exact .of_move hm ⟨(hs1.trans hs2).trans (.of_stream rfl), num, slot, blocked, rfl⟩

lemma handleIncomingRequest_goes {v : Verdict} (h : c.handleIncomingRequest ctx v = some c')
    (hp : c.stream.Phase) : Goes safe c c' := by
  obtain ⟨hst, h⟩ := ite_none_right_eq_some.1 h
  cases v with
  | refused => exact sendErrorAndReset_goes h fun _ => by simp [Stream.Parked, hst]
  | invalid => exact .inr (sendInvalidRequestError_stays h hst)
  | connect =>
    dsimp only at h
    split at h
    · have ht := (hp.uncalled (hp.early (.inr hst)).2.2.1).1
      obtain ⟨c1, hs, h⟩ := bind_eq_some_iff.1 h
      obtain ⟨-, hs1, _, _, _, rfl⟩ := setState_becomes hs fun _ => .inl hst
      obtain ⟨c2, hs, h⟩ := bind_eq_some_iff.1 h
      obtain ⟨hs2, _, _, _, rfl⟩ := setReqBodyState_becomes hs
      obtain ⟨-, hs3, num, slot, blocked, rfl⟩ := processRequest_becomes h (by simp) ht
      have hm : Move safe c.stream _ := .connected hst
      refine .inr (.of_move hm ⟨(isTunnelReq_settles ht).trans
        (hs1.trans (hs2.trans hs3)), num, slot, blocked, ?_⟩)
      simp [calledIn]
    · exact .inr (sendInvalidRequestError_stays h hst)
  | plain =>
    dsimp only at h
    split at h
    · obtain ⟨c1, hs, h⟩ := bind_eq_some_iff.1 h
      obtain ⟨-, hs1, _, _, _, rfl⟩ := setState_becomes hs fun _ => .inl hst
      obtain ⟨hs2, num, slot, blocked, rfl⟩ := setReqBodyState_becomes h
      have hm : Move safe c.stream _ := .received hst
      exact .inr (.of_move hm ⟨hs1.trans hs2, num, slot, blocked, rfl⟩)
    · exact executeOrEnqueueRequest_goes h hst

/-! ## Request bodies -/

/-- The write_req callback parks the request. -/
def WriteReq.parks (w : WriteReq) : Bool :=
  match w.send with
  | some r => r.tooEarly && r.earlyData
  | none => false

/-- The write_req callback does not fail for a request that is parked, or that it parks. -/
def WriteReq.Safe (w : WriteReq) (s : Stream) : Prop :=
  w.ok = false → s.link ≠ some .blockedStreams ∧ w.parks = false

instance (w : WriteReq) (s : Stream) : Decidable (w.Safe s) :=
  inferInstanceAs (Decidable (_ → _ ∧ _))

/-- What is left as it is when the handler sends. -/
lemma Sent.frame {s' : Stream} (h : Sent r s s') :
    s'.processCalled = s.processCalled ∧ s'.writeReq = s.writeReq ∧
      s'.reqBodyState = s.reqBodyState ∧ (s.state = .endStream → s'.state = .endStream ∧
        s'.link = s.link) ∧ (s'.link = some .blockedStreams → s.link = some .blockedStreams ∨
        r.tooEarly = true ∧ r.earlyData = true) := by
  cases h with
  | parked ha hs => exact ⟨rfl, rfl, rfl, fun h => absurd h hs.2.2, fun _ => .inr ha⟩
  | replayed hs => exact ⟨rfl, rfl, rfl, fun h => absurd h hs.2.2, .inl⟩
  | ignored hs => exact ⟨rfl, rfl, rfl, fun h => ⟨h, rfl⟩, .inl⟩
  | answered hs h =>
    have he : s.state ≠ .endStream := by rcases hs with h | h | h | h <;> simp [h]
    cases h with
    | ended active | drained hc => exact ⟨rfl, rfl, rfl, fun h => absurd h he, by simp⟩
    | sending hs hc => exact ⟨rfl, rfl, rfl, fun h => absurd h he, .inl⟩

/-- The call of write_req: the stream is asked for, and its body is left as it is. -/
lemma callWriteReq_stays (safe : Prop) (h : c.callWriteReq w = some c') (hp : c.stream.Phase) :
    Stays safe c c' ∧ c'.stream.reqBodyState = c.stream.reqBodyState ∧
      (c.stream.state = .endStream → c'.stream.state = .endStream ∧
        c'.stream.link = c.stream.link) ∧
      (w.Safe c.stream → w.ok = false → c'.stream.link ≠ some .blockedStreams) := by
  obtain ⟨hw, h⟩ := ite_none_right_eq_some.1 h
  have hc := hp.called (.inr hw)
  obtain ⟨c1, hd, h⟩ := bind_eq_some_iff.1 h
  cases h
  unfold sendIfAsked at hd
  split at hd
  · cases hd
    exact ⟨.of_stream (.single (.setWriteReq _ hc)) rfl, rfl, fun h => ⟨h, rfl⟩,
      fun h ho => (h ho).1⟩
  next r hr =>
  split at hd
  · next ha =>
    have ht : Stays safe c c1 := finalostreamSend_stays hd hp ha
    obtain ⟨hdt, s, hs, -, num, slot, blocked, rfl⟩ :=
      finalostreamSend_becomes hd (hp.asked ha).1
    obtain ⟨hc', -, hbd, he, hl⟩ := hs.frame
    refine ⟨ht.trans (.of_stream (.single (.setWriteReq _ (hc'.trans hc))) rfl), hbd, he, ?_⟩
    intro hf ho hb
    obtain ⟨hne, hpa⟩ := hf ho
    have hea := (hl hb).resolve_left hne
    simp [WriteReq.parks, hr, hea] at hpa
  · cases hd
    exact ⟨.of_stream (.single (.setWriteReq _ hc)) rfl, rfl, fun h => ⟨h, rfl⟩,
      fun h ho => (h ho).1⟩

lemma finishWriting_goes (h : c.finishWriting ctx w = some c')
    (hl : safe → w.ok = false → c.stream.link ≠ some .blockedStreams) : Goes safe c c' := by
  unfold finishWriting at h
  split at h
  · next ho =>
    exact sendErrorAndReset_goes h fun hs hp => hl hs (by simpa using ho) hp.2
  · split at h
    · exact .inl (streamClose_closes h)
    · cases h
      exact .inr .refl

/-- A stream that has ended is closed when the request body has been delivered, unless it is in
a list. -/
lemma finishWriting_closed (h : c.finishWriting ctx w = some c')
    (hb : c.stream.reqBodyState = .closeDelivered) (hs : c.stream.state = .endStream)
    (hl : w.ok = false → c.stream.link = none) : Closes c c' := by
  unfold finishWriting at h
  split at h
  · next ho =>
    rcases streamReset_becomes (sendErrorAndReset_eq h).2 with hc | ⟨-, hne, -⟩
    · exact hc
    · exact absurd (hl (by simpa using ho)) hne
  · rw [if_pos ⟨hb, hs⟩] at h
    exact streamClose_closes h

lemma writeStreamingBody_goes (h : c.writeStreamingBody ctx w = some c') (hp : c.stream.Phase)
    (hc : c.stream.processCalled = true) (hsf : safe → w.Safe c.stream) : Goes safe c c' := by
  obtain ⟨-, h⟩ := ite_none_right_eq_some.1 h
  obtain ⟨c1, hbd, h⟩ := bind_eq_some_iff.1 h
  obtain ⟨c2, ha, hf⟩ := bind_eq_some_iff.1 h
  have hc1 : c1 = c ∨ Becomes c c1
      { c.stream with proceedReq := false, reqBodyState := .closeDelivered } := by
    split at hbd
    case h_3 => exact .inr (deliverClose_becomes hbd)
    case h_1 | h_2 =>
      split at hbd
      · cases hbd
      · exact .inl (Option.some.inj hbd).symm
    all_goals cases hbd
  rcases hc1 with rfl | hb
  · have hu : Stays safe c1
        { c1 with stream := { c1.stream with entity := some c1.stream.bodySize } } :=
      .of_stream (.single (.buffered _ _)) rfl
    obtain ⟨ht, -, -, hlk⟩ := callWriteReq_stays safe ha (hu.phase hp)
    exact (hu.trans ht).goes (finishWriting_goes hf fun hs => hlk (hsf hs))
  have hpu := hb.put (s := { c1.stream with entity := some c1.stream.bodySize }) rfl
  obtain ⟨-, num, slot, blocked, rfl⟩ := hb
  have hp1 : Stream.Phase { c.stream with
      proceedReq := false, reqBodyState := .closeDelivered, slot := slot
      blockedByServer := blocked, entity := some c.stream.bodySize } :=
    { hp.delivered hc with }
  obtain ⟨ht, hbd, he, hlk⟩ := callWriteReq_stays safe ha hp1
  by_cases hg : safe → c.stream.state = .endStream → c.stream.link = some .streamsToProceed
  · have hd : Stays safe c _ :=
      .of_moves (.head (.delivered hc hg) (.single (.buffered _ _))) hpu
    exact (hd.trans ht).goes (finishWriting_goes hf fun hs => hlk (hsf hs))
  · -- the response has ended before: there is nobody else to close the stream
    obtain ⟨hs, hst, hne⟩ : safe ∧ c.stream.state = .endStream ∧
        c.stream.link ≠ some .streamsToProceed := by simpa using hg
    obtain ⟨hs2, hl2⟩ := he hst
    refine .inl (hpu.closes (.after (finishWriting_closed hf hbd hs2 fun ho => ?_)
      ht.id ht.settles))
    have hn := hp.answering_link (by simp [hst, answering])
    have hk := (hsf hs ho).1
    rw [hl2]
    cases hl : c.stream.link with
    | none => rfl
    | some list => cases list <;> simp_all

/-! ## The parts of a request body -/

/-- No stream is left behind at the end of its request body, or when it is reset: a part of the
body of a parked request is accepted, and when the body ends after the response there is a
write_req callback. -/
structure Chunk.Safe (ctx : Ctx) (d : Chunk) (c : Cell) : Prop where
  reset : c.stream.Parked →
    c.stream.reqBodyState.isOpen = true ∧ d.bad = false ∧ c.disregarded ctx = false
  ended : d.isEndStream = true → c.stream.writeReq = false → c.stream.state = .endStream →
    c.stream.link = some .streamsToProceed
  write : d.write.Safe c.stream

instance (ctx : Ctx) (d : Chunk) (c : Cell) : Decidable (d.Safe ctx c) :=
  decidable_of_iff (_ ∧ _ ∧ _) ⟨fun h => ⟨h.1, h.2.1, h.2.2⟩, fun h => ⟨h.reset, h.ended, h.write⟩⟩

/-- The end of a request body that the handler is already working on. -/
lemma endBody_stays (h : c.endBody = some c') (hp : c.stream.Phase)
    (hbd : c.stream.reqBodyState = .open) (hc : c.stream.processCalled = true)
    (hf : safe → c.stream.writeReq = false → c.stream.state = .endStream →
      c.stream.link = some .streamsToProceed) : Stays safe c c' := by
  have he : Move safe c.stream { c.stream with state := endedIn c.stream.state true } :=
    .bodyEnded hc
  have hn : endedIn c.stream.state true = .endStream → c.stream.state = .endStream := by
    rcases hp.endedIn_cases hc with ⟨-, h⟩ | ⟨-, h⟩ <;> simp [h]
  have ha := endBody_becomes h (hp.not_early (.inr hc)).1
  rw [hc] at ha
  rcases ha with ⟨-, hb⟩ | ⟨hw, hb⟩
  · exact .of_moves (.head he (.single (.closeQueued hbd hc))) hb
  · have hd := fun hs ht => hf hs hw (hn ht)
    exact .of_moves (.head he (.single (.delivered hc hd))) hb

/-- A part of a body that the handler is already working on. -/
lemma useChunk_streamed_goes
    (h : c.useChunk ctx d isFirst reqQueued = some c') (hp : c.stream.Phase)
    (hs : c.stream.streamed = true) (hf : safe → d.write.Safe c.stream) : Goes safe c c' := by
  unfold useChunk at h
  rw [if_pos hs] at h
  split at h
  · split at h
    · exact writeStreamingBody_goes h hp (hp.called (.inl hs)) hf
    · cases h
      exact .inr .refl
  · cases h
    exact .inr (.of_stream (.single (.buffered _ _)) rfl)

/-- A part of a body, but not its end, before the request is run. -/
lemma useChunk_goes (h : c.useChunk ctx d isFirst reqQueued = some c')
    (hb : c.stream.reqBodyState = .open) (hs : c.stream.streamed = false)
    (he : d.isEndStream = false) : Goes safe c c' := by
  unfold useChunk at h
  rw [if_neg (by simp [hs])] at h
  split at h
  · obtain ⟨hl, rfl⟩ := insertLink_eq h
    exact .inr (.of_stream (.head (.buffered c.stream.bodySize (some c.stream.bodySize))
      (.single (.queued hb hs hl))) rfl)
  · rw [he, if_neg (by simp)] at h
    cases h
    exact .inr (.of_stream (.single (.buffered _ _)) rfl)

/-- The end of a body, before the request is run. -/
lemma endBody_useChunk_goes {n : ℕ} (hn : c.endBody = some c1)
    (h : useChunk ctx d isFirst c.stream.proceedReq
      { c1 with stream := { c1.stream with bodySize := n } } = some c')
    (hp : c.stream.Phase) (hd : c.stream.reqBodyState = .open)
    (hs : c.stream.streamed = false) (hl : d.isEndStream = true) : Goes safe c c' := by
  obtain ⟨hst, hc, -⟩ := hp.not_run hd hs
  have hw := (hp.uncalled hc).2
  have he : endedIn c.stream.state c.stream.processCalled = .reqPending := by
    simp [endedIn, hst, hc, StreamState.beforeReqPending]
  have hb : Becomes c c1 { c.stream with
      state := .reqPending, proceedReq := false, reqBodyState := .closeDelivered } := by
    rcases endBody_becomes hn (by simp [hst]) with ⟨h, -⟩ | ⟨-, h⟩
    · simp [hw] at h
    · rwa [he] at h
  have hu := hb.put (s := { c1.stream with bodySize := n, entity := some n }) rfl
  obtain ⟨-, num, slot, blocked, rfl⟩ := hb
  unfold useChunk at h
  rw [if_neg (by simp [hs])] at h
  simp only [hl, Bool.not_true, Bool.and_false, Bool.false_and, Bool.true_and, if_false,
    Bool.false_eq_true] at h
  split at h
  · next hq =>
    have hr : c.stream.proceedReq = false := by simpa using hq
    obtain ⟨-, hcl | ⟨hk, hb⟩⟩ := executeOrEnqueueRequest_becomes h
    · exact .inl (hu.closes hcl)
    · obtain ⟨ht, num, slot, blocked, rfl⟩ := hb
      have hm : Move safe c.stream _ := .bodyEnqueued hd hs hr hk
      rw [hr] at hm
      exact .inr (.of_moves (.head hm (.single (.buffered n (some n))))
        ⟨hu.1.trans ht, num, slot, blocked, rfl⟩)
  · next hq =>
    have hr : c.stream.proceedReq = true := by simpa using hq
    cases h
    have hm : Move safe c.stream _ := .bodyPending hc hr
    exact .inr (.of_moves (.head hm (.single (.buffered n (some n)))) hu)

lemma takeChunk_goes (h : c.takeChunk ctx d isFirst = some c')
    (hp : c.stream.Phase) (hbd : c.stream.reqBodyState = .open)
    (hf : safe → d.Safe ctx c) : Goes safe c c' := by
  obtain ⟨c1, hl, h⟩ := bind_eq_some_iff.1 h
  have hy : Stays safe c c1 := ensureBlocked_stays hl
  have hp1 := hy.phase hp
  obtain ⟨-, num, slot, blocked, rfl⟩ := ensureBlocked_becomes hl
  refine hy.goes ?_
  split at h
  · next hd =>
    refine streamReset_goes h fun hs ha => ?_
    have := ((hf hs).reset ha).2.2
    simp_all [disregarded]
  obtain ⟨c2, he, h⟩ := bind_eq_some_iff.1 h
  have hb : Stays safe c2
      { c2 with stream := { c2.stream with bodySize := c2.stream.bodySize + d.length } } :=
    .of_stream (.single (.buffered _ c2.stream.entity)) rfl
  by_cases ht : c.stream.streamed = true
  · have hc := hp.called (.inl ht)
    obtain ⟨hs2, ht2, hk⟩ : Stays safe _ c2 ∧ c2.stream.streamed = true ∧
        c2.stream.link = c.stream.link := by
      split at he
      · next hla =>
        refine ⟨endBody_stays he hp1 hbd hc fun hs => (hf hs).ended hla, ?_⟩
        rcases endBody_becomes he (hp1.not_early (.inr hc)).1 with
          ⟨-, -, _, _, _, rfl⟩ | ⟨-, -, _, _, _, rfl⟩ <;> exact ⟨ht, rfl⟩
      · cases he
        exact ⟨.refl, ht, rfl⟩
    refine (hs2.trans hb).goes
      (useChunk_streamed_goes h ((hs2.trans hb).phase hp1) ht2 fun hs ho => ?_)
    rw [show _ = c.stream.link from hk]
    exact (hf hs).write ho
  · have ht : c.stream.streamed = false := by simpa using ht
    split at he
    · next hla => exact endBody_useChunk_goes he h hp1 hbd ht hla
    · next hla =>
      cases he
      exact hb.goes (useChunk_goes h hbd ht (by simpa using hla))

lemma handleRequestBodyChunk_goes (h : c.handleRequestBodyChunk ctx d = some c')
    (hp : c.stream.Phase) (hsf : safe → d.Safe ctx c) : Goes safe c c' := by
  obtain ⟨c1, hf, h⟩ := bind_eq_some_iff.1 h
  obtain ⟨hb, hm⟩ : Becomes c c1 { c.stream with reqBodyState := .open } ∧
      Moves safe c.stream { c.stream with reqBodyState := .open } := by
    split at hf
    · next hbd => exact ⟨setReqBodyState_becomes hf, .single (.first hbd)⟩
    · next hbd =>
      cases hf
      have he : { c.stream with reqBodyState := .open } = c.stream := by rw [← hbd]
      rw [he]
      exact ⟨.refl, .refl⟩
    all_goals cases hf
  have ht : Stays safe c c1 := .of_moves hm hb
  have hp1 := ht.phase hp
  obtain ⟨-, num, slot, blocked, rfl⟩ := hb
  refine ht.goes ?_
  split at h
  · next hd =>
    refine sendErrorAndReset_goes h fun hs ha => ?_
    simp [((hsf hs).reset ha).2.1] at hd
  · refine takeChunk_goes h hp1 rfl fun hs => ⟨fun ha => ?_, (hsf hs).ended, (hsf hs).write⟩
    exact ⟨rfl, ((hsf hs).reset ha).2⟩

lemma handleDataFrame_goes (h : c.handleDataFrame ctx d = some c') (hp : c.stream.Phase)
    (hf : safe → d.Safe ctx c) : Goes safe c c' := by
  unfold handleDataFrame at h
  split at h
  · next hc =>
    refine sendErrorAndReset_goes h fun hs ha => ?_
    simp [((hf hs).reset ha).1] at hc
  split at h
  · exact handleRequestBodyChunk_goes h hp hf
  · cases h
    exact .inr .refl

/-- No stream is left behind when the handler has taken a part of the request body. -/
def ProceedSafe (ctx : Ctx) (failed : Bool) (w : WriteReq) (s : Stream) : Prop :=
  if failed then
    if ctx.live then ¬s.Parked
    else s.state = .endStream → s.link = some .streamsToProceed
  else w.Safe s

instance (ctx : Ctx) (failed : Bool) (w : WriteReq) (s : Stream) :
    Decidable (ProceedSafe ctx failed w s) := by
  unfold ProceedSafe
  infer_instance

/-- The handler does not want the request body. -/
lemma proceedRequest_failed_goes (hd : c.deliverClose = some c1)
    (h : (if ctx.live then do
        let c ← (c1.setActive false).ensureLinked .streamsToProceed
        c.streamReset
      else some c1) = some c')
    (hc : c.stream.processCalled = true)
    (hf : safe → ProceedSafe ctx true w c.stream) : Goes safe c c' := by
  have hb := deliverClose_becomes hd
  unfold ProceedSafe at hf
  split at h
  · next hl =>
    simp only [hl, if_true] at hf
    obtain ⟨c2, hk, h⟩ := bind_eq_some_iff.1 h
    obtain rfl := ensureLinked_eq hk
    have hp := hb.put (s := { c1.stream with
      active := false, link := c1.stream.link.or (some .streamsToProceed) }) rfl
    obtain ⟨-, _, _, _, rfl⟩ := hb
    rcases streamReset_becomes h with hcl | ⟨ht, -, hs, num, slot, blocked, rfl⟩
    · exact .inl (hp.closes hcl)
    · have hm : Move safe c.stream _ := .failed ht hf
      exact .inr (.of_move hm ⟨hp.1.trans hs, num, slot, blocked, rfl⟩)
  · next hl =>
    simp only [hl, if_true, if_false, Bool.false_eq_true] at hf
    cases h
    exact .inr (.of_move (.delivered hc hf) hb)

lemma proceedRequest_goes {failed unblock : Bool}
    (h : c.proceedRequest ctx failed unblock w = some c') (hp : c.stream.Phase)
    (hsf : safe → ProceedSafe ctx failed w c.stream) : Goes safe c c' := by
  obtain ⟨ht, h⟩ := ite_none_right_eq_some.1 h
  have hc := hp.called (.inl ht)
  extract_lets written s c1 at h
  have hs : Stays safe c c1 := .of_stream (.single (.buffered _ _)) rfl
  have hp1 := hs.phase hp
  refine hs.goes ?_
  split at h
  · next hf =>
    obtain ⟨c2, hd, h⟩ := bind_eq_some_iff.1 h
    rw [hf] at hsf
    exact proceedRequest_failed_goes hd h hc hsf
  next hf =>
  have hw : safe → w.Safe c.stream := by simpa [ProceedSafe, hf] using hsf
  split at h
  · obtain ⟨c2, hu, h⟩ := bind_eq_some_iff.1 h
    have hb : Becomes c1 c2 c1.stream := by
      split at hu
      · exact ensureUnblocked_becomes hu
      · cases hu
        exact .refl
    have hs2 : Stays safe c1 c2 := .of_moves .refl hb
    refine hs2.goes ?_
    split at h
    · cases h
      exact .inr .refl
    · refine writeStreamingBody_goes h (hs2.phase hp1) ?_ ?_
      · obtain ⟨-, _, _, _, rfl⟩ := hb
        exact hc
      · obtain ⟨-, _, _, _, rfl⟩ := hb
        exact hw
  · split at h
    · cases h
    · exact writeStreamingBody_goes h hp1 hc hw
  all_goals cases h

/-! ## Output -/

lemma emitWritereqOfOpenref_stays {room : ℕ} {readOk : Bool} {frame : Option ℕ}
    (h : c.emitWritereqOfOpenref room readOk = some (c', frame)) : Stays safe c c' := by
  obtain ⟨hp, n, -, -, s, hs, hb⟩ := emitWritereqOfOpenref_becomes h
  exact .of_move (.emitted hp hs) hb

end Vhttp.Http2.Lifecycle.Cell
