import Vhttp.Http2.Lifecycle.Steps

/-!
# Output flow control

* `window_of_reach`: as long as no SETTINGS frame makes the window of a stream overflow, the
  window of every stream is the initial window of the peer, plus the increments it has got, minus
  the bytes that were sent, unless a flow-control error has been signalled; and no DATA frame is
  longer than the windows and the largest frame that the peer accepts.
* `settings_overflow`: a SETTINGS frame that makes a window overflow is ignored for that stream.
-/

namespace Vhttp.Http2.Lifecycle

open Cell

/-- What the moves of a stream do to its window: what is sent is taken from it. -/
structure Flows (s s' : Stream) : Prop where
  window : s'.outputWindow + s'.sent = s.outputWindow + s.sent
  increments : s'.increments = s.increments
  flowError : s'.flowError = s.flowError
  idle : s'.state = .idle → s.state = .idle ∧ s'.sent = s.sent

variable {n : ℕ} {s s' : Stream} {safe : Prop}

lemma Flows.refl : Flows s s := ⟨rfl, rfl, rfl, fun h => ⟨h, rfl⟩⟩

lemma Flows.trans {s'' : Stream} (h : Flows s s') (h' : Flows s' s'') : Flows s s'' := by
  refine ⟨h'.window.trans h.window, h'.increments.trans h.increments,
    h'.flowError.trans h.flowError, fun hi => ?_⟩
  obtain ⟨hi', hs'⟩ := h'.idle hi
  obtain ⟨hi, hs⟩ := h.idle hi'
  exact ⟨hi, hs'.trans hs⟩

/-- A move that sends nothing. -/
lemma Flows.of_state (hw : s'.outputWindow = s.outputWindow)
    (hs : s'.sent = s.sent) (hn : s'.increments = s.increments)
    (hf : s'.flowError = s.flowError) (hi : s'.state = .idle → s.state = .idle) : Flows s s' :=
  ⟨by rw [hw, hs], hn, hf, fun h => ⟨hi h, hs⟩⟩

lemma Flows.of_sent {r : Response} (h : Sent r s s') : Flows s s' := by
  cases h with
  | answered hs h =>
    cases h with
    | sending hs _ =>
      refine .of_state rfl rfl rfl rfl ?_
      rcases hs with ⟨rfl, -⟩ | rfl <;> simp
    | _ => exact .of_state rfl rfl rfl rfl (by simp)
  | _ => exact .of_state rfl rfl rfl rfl fun h => h

lemma Flows.of_output (h : Output s n s') (hp : s.state ≠ .idle) : Flows s s' := by
  cases h with
  | written hr => exact ⟨by push_cast; ring, rfl, rfl, fun h => absurd h hp⟩
  | ended sendState => exact ⟨by push_cast; ring, rfl, rfl, by simp⟩

lemma Flows.of_emitted (h : Emitted s n s') (hp : s.Phase)
    (he : s.data ≠ [] ∨ s.state = .sendBodyIsFinal ∨ s.state = .endStream) : Flows s s' := by
  have hi : s.state ≠ .idle := by
    intro h
    have := hp.answering_of_pending he
    simp [h, answering] at this
  cases h with
  | more h _ | done h _ _ _ =>
    obtain ⟨h1, h2, h3, h4⟩ := Flows.of_output h hi
    exact ⟨h1, h2, h3, h4⟩

lemma Move.flows (h : Move safe s s') (hp : s.Phase) : Flows s s' := by
  cases h with
  | sent _ _ h => exact .of_sent h
  | emitted he h => exact .of_emitted h hp he
  | run hl _ =>
    refine .of_state rfl rfl rfl rfl ?_
    unfold calledIn
    split
    · simp
    · exact fun h => h
  | bodyEnded hc =>
    refine .of_state rfl rfl rfl rfl ?_
    rcases hp.endedIn_cases hc with ⟨-, h⟩ | ⟨-, h⟩ <;> simp [h]
  | received _ | connected _ | invalid _ | enqueued _ | bodyPending _ _ | bodyEnqueued _ _ _ _
  | failed _ _ | reset _ _ _ => exact .of_state rfl rfl rfl rfl (by simp)
  | _ => exact .of_state rfl rfl rfl rfl fun h => h

lemma Moves.flows (h : Moves safe s s') (hp : s.Phase) : Flows s s' := by
  induction h with
  | refl => exact .refl
  | tail hm hv ih => exact ih.trans (hv.flows (Moves.phase hm hp))

namespace Conn

variable {conn conn' : Conn} {e : Event} {i : ℕ}

/-- The windows of the streams are accounted for. -/
structure Accounted (conn : Conn) (i : ℕ) (s : Stream) : Prop where
  window : s.flowError = true ∨
    s.outputWindow = (conn.initialWindow : ℤ) + s.increments - s.sent
  increments : conn.isIdleStreamId i = true → s.increments = 0
  idle : s.state = .idle → s.sent = 0

lemma accounted_new : conn.Accounted i (.new conn.initialWindow) :=
  ⟨.inr (by simp [Stream.new]), fun _ => rfl, fun _ => rfl⟩

/-- A stream id that is idle has been idle before. -/
lemma Grows.isIdleStreamId (h : Grows conn conn') (hi : conn'.isIdleStreamId i = true) :
    conn.isIdleStreamId i = true := by
  unfold Conn.isIdleStreamId at *
  have h1 := h.pull
  have h2 := h.push
  split at hi <;> simp_all <;> omega

lemma Accounted.flows (ha : conn.Accounted i s) (h : Flows s s')
    (hw : conn'.initialWindow = conn.initialWindow)
    (hi : conn'.isIdleStreamId i = true → conn.isIdleStreamId i = true) : conn'.Accounted i s' := by
  refine ⟨?_, fun hd => h.increments.trans (ha.increments (hi hd)), fun ht => ?_⟩
  · rw [h.flowError, h.increments, hw]
    refine ha.window.imp_right fun hn => ?_
    have := h.window
    omega
  · obtain ⟨ht, hs⟩ := h.idle ht
    exact hs.trans (ha.idle ht)

lemma windowUpdate_eq {w d w' : ℤ} (h : windowUpdate w d = some w') : w' = w + d := by
  unfold windowUpdate at h
  split at h
  · cases h
  · exact (Option.some.inj h).symm

/-- A request is opened with the initial window. -/
lemma Accounted.prepared (ha : conn.Accounted i s) (ht : s.state = .idle)
    (hi : conn.isIdleStreamId i = true) (b : Bool) : conn.Accounted i { s with
      state := .recvHeaders, outputWindow := conn.initialWindow, hasReqBody := b } := by
  have hn := ha.increments hi
  have hs := ha.idle ht
  exact ⟨.inr (by simp [hn, hs]), ha.increments, by simp⟩

lemma Accounted.resized (ha : conn.Accounted i s)
    (h : Resized ((conn'.initialWindow : ℤ) - conn.initialWindow) s s')
    (hf : windowUpdate s.outputWindow ((conn'.initialWindow : ℤ) - conn.initialWindow) ≠ none)
    (hi : conn'.isIdleStreamId i = true → conn.isIdleStreamId i = true) : conn'.Accounted i s' := by
  cases h with
  | same hd =>
    refine ⟨ha.window.imp_right fun hw => ?_, fun hid => ha.increments (hi hid), ha.idle⟩
    omega
  | overflow hn => exact absurd hn hf
  | done hs _ _ =>
    refine ⟨ha.window.imp_right fun hw => ?_, fun hid => ha.increments (hi hid), ha.idle⟩
    have := windowUpdate_eq hs
    dsimp only
    omega

lemma Accounted.updated (ha : conn.Accounted i s)
    (hp : s.Phase) (h : Updated safe n s s') (hw : conn'.initialWindow = conn.initialWindow)
    (hi : conn'.isIdleStreamId i = false) : conn'.Accounted i s' := by
  cases h with
  | done h hwi =>
    have hm : ∀ {s' : Stream}, s'.flowError = s.flowError → s'.increments = s.increments →
        s'.sent = s.sent → s'.state = s.state → s'.outputWindow = s.outputWindow + n →
        conn'.Accounted i { s' with increments := s'.increments + n } := by
      intro s' h1 h2 h3 h4 h5
      refine ⟨?_, by simp [hi], fun ht => h3.trans (ha.idle (h4.symm.trans ht))⟩
      simp only [h1, h2, h3, h5, hw]
      refine ha.window.imp_right fun hwi => ?_
      push_cast
      omega
    cases h with
    | same hn => exact hm rfl rfl rfl rfl (by omega)
    | overflow ho => exact absurd ho hwi
    | done hso _ _ => exact hm rfl rfl rfl rfl (windowUpdate_eq hso)
  | error ho hs =>
    refine ⟨.inl rfl, by simp [hi], fun ht => ?_⟩
    obtain ⟨ht, he⟩ := (hs.flows hp).idle ht
    exact he.trans (ha.idle ht)

lemma Change.accounted (h : Change False True conn conn' i) (hf : conn.Wf)
    (hd : conn'.isIdleStreamId i = true → conn.isIdleStreamId i = true)
    (ha : ∀ i ∈ conn.ids, conn.Accounted i (conn.stream i)) :
    conn'.Accounted i (conn'.stream i) := by
  cases h with
  | moved hi hw h => exact (ha i hi).flows (h.flows (hf.phase i hi)) hw hd
  | opened _ _ hw h =>
    rw [h, ← hw]
    exact accounted_new
  | requested b hw hid _ hs ht h =>
    rcases hs with ⟨hi, rfl⟩ | ⟨-, rfl⟩
    · have hp := (hf.phase i hi).prepared ht conn.initialWindow b
      exact ((ha i hi).prepared ht hid b).flows (h.flows hp) hw hd
    · have hp := (Stream.phase_new conn.initialWindow).prepared ht conn.initialWindow b
      exact (accounted_new.prepared ht hid b).flows (h.flows hp) hw hd
  | resized hi hft h => exact (ha i hi).resized h (hft trivial) hd
  | updated n hi hid hw h =>
    refine (ha i hi).updated (hf.phase i hi) h hw ?_
    by_contra hne
    simp [hd (by simpa using hne)] at hid

/-- The windows are accounted for, as long as they fit. -/
lemma Reach.accounted (h : Reach Conn.Fits conn) :
    ∀ i ∈ conn.ids, conn.Accounted i (conn.stream i) := by
  induction h with
  | init => exact fun i hi => absurd hi (Finset.notMem_empty i)
  | upgrade h =>
    intro i hi
    refine Change.accounted (upgraded_change h hi) (wf_init _) ?_
      fun i hi => absurd hi (Finset.notMem_empty i)
    unfold isIdleStreamId
    simp only [decide_eq_true_eq]
    intro hl
    exact (ite_self (0 : ℕ)).trans_lt (Nat.zero_lt_of_lt hl)
  | step hr he hc hs ih =>
    intro i hi
    have hw := hr.wf
    have hg := step_grows hs he hw.push
    have hh : Change False True _ _ i :=
      step_change hs he hw.push hw.phase False.elim (fun _ => hc) hi
    exact hh.accounted hw hg.isIdleStreamId ih

/-- Every DATA frame fits. -/
lemma Reach.dataSent {C : Conn → Event → Prop} (h : Reach C conn) :
    ∀ f ∈ conn.dataSent, f.Fits := by
  induction h with
  | init => exact fun f hf => absurd hf List.not_mem_nil
  | @upgrade settings conn h =>
    unfold upgraded at h
    obtain ⟨conn1, hp, h⟩ := Option.bind_eq_some_iff.1 h
    have hr := (on_rest h).trans (prepareForRequest_rest hp)
    have hn : conn.dataSent = [] := congrArg (·.2.2) hr
    simp [hn]
  | step hrc he hc hs ih =>
    intro f hf
    exact ((step_grows hs he hrc.wf.push).sent f hf).elim (ih f) fun h => h

end Conn

/-- As long as no SETTINGS frame makes a window overflow, the window of every stream is the
initial window, plus the increments, minus what was sent, unless a flow-control error has been
signalled; and no DATA frame is longer than the windows and the largest frame of the peer at the
time it was written. -/
theorem window_of_reach {conn : Conn} (h : conn.Reach Conn.Fits) :
    (∀ i ∈ conn.ids, (conn.stream i).flowError = true ∨ (conn.stream i).outputWindow =
      (conn.peerSettings.initialWindowSize : ℤ) + (conn.stream i).increments -
        (conn.stream i).sent) ∧
    ∀ f ∈ conn.dataSent, (f.length : ℤ) ≤ f.streamWindow ∧ (f.length : ℤ) ≤ f.connWindow ∧
      f.length ≤ f.maxFrameSize :=
  ⟨fun i hi => (h.accounted i hi).window, h.dataSent⟩

/-- A response of 70000 bytes, sent in two frames; then the peer lowers the initial window. -/
def windowUsed : List Event :=
  [.headers 1 true, .request 1 .plain, .runPending 1,
    .send 1 ⟨[70000], .final, false, false, false, false, false⟩, .emit 1 100000 true,
    .emit 1 100000 true, .windowUpdate 1 10,
    .settings { Settings.default with initialWindowSize := 100 }]

/-- The window is negative after SETTINGS. -/
theorem window_of_reach_used : ∃ conn : Conn, conn.Reach Conn.Fits ∧
    ((conn.stream 1).outputWindow, (conn.stream 1).increments, (conn.stream 1).sent) =
      (-32658, 10, 32768) ∧
    (conn.stream 1).outputWindow = (conn.peerSettings.initialWindowSize : ℤ) +
      (conn.stream 1).increments - (conn.stream 1).sent := by
  obtain ⟨conn, hc, hmem, hf, hs⟩ : ∃ conn, Conn.run Conn.Fits windowUsed .init =
      some conn ∧ 1 ∈ conn.ids ∧ (conn.stream 1).flowError = false ∧
      ((conn.stream 1).outputWindow, (conn.stream 1).increments, (conn.stream 1).sent) =
        (-32658, 10, 32768) := exists_of_any (by decide +kernel)
  have hr := Conn.Reach.init.run hc
  exact ⟨conn, hr, hs, ((window_of_reach hr).1 1 hmem).resolve_left (by simp [hf])⟩

/-- The peer raises the window of a stream as far as it can be, and then the initial window. -/
def settingsOverflow : List Event :=
  [.headers 1 true, .request 1 .plain, .windowUpdate 1 (2 ^ 31 - 1 - 65535),
    .settings { Settings.default with initialWindowSize := 65536 }]

/-- A SETTINGS frame that makes a window overflow is ignored for that stream, and no error is
signalled. -/
theorem settings_overflow : ∃ conn : Conn,
    Conn.run (fun _ _ => True) settingsOverflow .init = some conn ∧
    (conn.Reach fun _ _ => True) ∧ 1 ∈ conn.ids ∧ conn.state = .open ∧
    ¬((conn.stream 1).flowError = true ∨ (conn.stream 1).outputWindow =
      (conn.peerSettings.initialWindowSize : ℤ) + (conn.stream 1).increments -
        (conn.stream 1).sent) := by
  refine (exists_of_any ?_).imp fun conn ⟨hc, hr⟩ => ⟨hc, Conn.Reach.init.run hc, hr⟩
  decide +kernel

end Vhttp.Http2.Lifecycle
