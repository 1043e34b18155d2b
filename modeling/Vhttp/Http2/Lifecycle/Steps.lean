import Vhttp.Http2.Lifecycle.Simulation

/-!
# What an event does to the streams of a connection

* `step_change`: every stream that is open after an event has been opened by it, or has made some
  moves, or its window was changed (`Change`).
* `Keeps.all_of_reach`: what holds for new streams, and is kept by all of that, holds for every
  stream of every connection.
-/

namespace Vhttp.Http2.Lifecycle

open Cell Function Finset
open Option (bind_eq_some_iff ite_none_right_eq_some map_eq_some_iff)

/-- The output window is changed by `delta`, and the stream is activated if it can write. -/
inductive Resized (delta : ℤ) (s : Stream) : Stream → Prop
  | same (h : delta = 0) : Resized delta s s
  | overflow (h : windowUpdate s.outputWindow delta = none) : Resized delta s s
  | done {window : ℤ} {active : Bool} (h : windowUpdate s.outputWindow delta = some window)
    (hwake : 0 < window → s.data ≠ [] ∨ s.state = .sendBodyIsFinal →
      0 < s.outputWindow ∧ active = s.active ∨ active = true)
    (hactive : active = true → s.active = true ∨ s.data ≠ [] ∨ s.state = .sendBodyIsFinal) :
    Resized delta s { s with outputWindow := window, active := active }

/-- A WINDOW_UPDATE frame has been handled. -/
inductive Updated (safe : Prop) (increment : ℕ) (s : Stream) : Stream → Prop
  | done {s' : Stream} (h : Resized increment s s')
    (hwindow : windowUpdate s.outputWindow increment ≠ none) :
    Updated safe increment s { s' with increments := s'.increments + increment }
  | error {s' : Stream} (h : windowUpdate s.outputWindow increment = none) (hs : Moves safe s s') :
    Updated safe increment s { s' with
      increments := s'.increments + increment, flowError := true }

namespace Conn

variable {safe fits : Prop} {conn conn' conn'' : Conn} {e : Event} {i j : ℕ}

/-- The initial window size of the peer. -/
def initialWindow (conn : Conn) : ℕ := conn.peerSettings.initialWindowSize

/-- What happens to a stream that is open after an event. -/
inductive Change (safe fits : Prop) (conn conn' : Conn) (i : ℕ) : Prop
  | moved (hi : i ∈ conn.ids) (hw : conn'.initialWindow = conn.initialWindow)
    (h : Moves safe (conn.stream i) (conn'.stream i))
  | opened (hi : i ∉ conn.ids) (hpull : isPush i = false)
    (hw : conn'.initialWindow = conn.initialWindow) (h : conn'.stream i = .new conn.initialWindow)
  /-- a request, on a stream that is new or that had a priority only -/
  | requested {s : Stream} (b : Bool) (hw : conn'.initialWindow = conn.initialWindow)
    (hidle : conn.isIdleStreamId i = true) (hpush : isPush i = true → i ≤ conn'.pushMaxOpen)
    (hs : i ∈ conn.ids ∧ s = conn.stream i ∨ i ∉ conn.ids ∧ s = .new conn.initialWindow)
    (hstate : s.state = .idle) (h : Moves safe { s with
      state := .recvHeaders, outputWindow := conn.initialWindow, hasReqBody := b }
      (conn'.stream i))
  /-- a SETTINGS frame -/
  | resized (hi : i ∈ conn.ids)
    (hfits : fits → windowUpdate (conn.stream i).outputWindow
      ((conn'.initialWindow : ℤ) - conn.initialWindow) ≠ none)
    (h : Resized ((conn'.initialWindow : ℤ) - conn.initialWindow) (conn.stream i) (conn'.stream i))
  /-- a WINDOW_UPDATE frame -/
  | updated (n : ℕ) (hi : i ∈ conn.ids) (hidle : conn.isIdleStreamId i = false)
    (hw : conn'.initialWindow = conn.initialWindow)
    (h : Updated safe n (conn.stream i) (conn'.stream i))

/-- The stream is not looked at. -/
lemma Change.same (hi : i ∈ conn.ids) (hw : conn'.initialWindow = conn.initialWindow)
    (h : conn'.stream i = conn.stream i) : Change safe fits conn conn' i := by
  refine .moved hi hw ?_
  rw [h]
  exact .refl

/-- No stream is left behind by the event: a request that is parked is not reset, and the end of
a request body is seen by a write_req callback or before the response has been written. -/
def Safe (conn : Conn) : Event → Prop
  | .data i d => i ∈ conn.ids → d.Safe conn.ctx (conn.cell i)
  | .trailers i d => { d with isEndStream := true }.Safe conn.ctx (conn.cell i)
  | .rstStream i => i ∈ conn.ids → ¬(conn.stream i).Parked
  | .windowUpdate i n => i ∈ conn.ids →
      n = 0 ∨ windowUpdate (conn.stream i).outputWindow n = none → ¬(conn.stream i).Parked
  | .proceedRequest i failed _ w => ProceedSafe conn.ctx failed w (conn.stream i)
  | _ => True

/-- The window of no stream overflows by a SETTINGS frame. -/
def Fits (conn : Conn) : Event → Prop
  | .settings settings => ∀ i ∈ conn.ids, windowUpdate (conn.stream i).outputWindow
      ((settings.initialWindowSize : ℤ) - conn.initialWindow) ≠ none
  | _ => True

instance (conn : Conn) : DecidablePred conn.Fits := by
  rintro ⟨⟩ <;> unfold Fits <;> infer_instance

instance (conn : Conn) : DecidablePred conn.Safe := by
  rintro ⟨⟩ <;> unfold Safe <;> infer_instance

variable {c c' : Cell} {conn1 : Conn} {ctx : Ctx} {f : Cell → Option Cell} {is : List ℕ}

lemma on_eq (h : conn.on i f = some conn') :
    ∃ c, f (conn.cell i) = some c ∧ conn' = conn.put i c := by
  obtain ⟨c, hc, rfl⟩ := map_eq_some_iff.1 h
  exact ⟨c, hc, rfl⟩

/-- What the functions of a stream do not touch: `pull_stream_ids.max_open`,
`push_stream_ids.max_open` and the DATA frames that were sent. -/
def rest (conn : Conn) : ℕ × ℕ × List DataFrame :=
  (conn.pullMaxOpen, conn.pushMaxOpen, conn.dataSent)

lemma on_rest (h : conn.on i f = some conn') : conn'.rest = conn.rest := by
  obtain ⟨c, -, rfl⟩ := on_eq h
  rfl

lemma put_stream (c : Cell) : (conn.put i c).stream i = c.stream := update_self ..

lemma put_stream_of_ne (c : Cell) (h : j ≠ i) : (conn.put i c).stream j = conn.stream j :=
  update_of_ne h ..

lemma mem_put (h : j ∈ (conn.put i c).ids) : j ∈ conn.ids ∧ (j = i → c.registered = true) := by
  unfold put at h
  split at h
  · next hr => exact ⟨h, fun _ => hr⟩
  · exact ⟨mem_of_mem_erase h, fun hj => absurd hj (ne_of_mem_erase h)⟩

/-- A stream is closed or moves. -/
lemma put_change (h : Goes safe (conn.cell i) c) (hj : j ∈ (conn.put i c).ids) :
    Change safe fits conn (conn.put i c) j := by
  obtain ⟨hmem, hr⟩ := mem_put hj
  by_cases hi : j = i
  · subst hi
    refine .moved hmem rfl ?_
    rw [put_stream]
    rcases h with hc | hs
    · exact absurd (hr rfl) (by simp [hc.registered])
    · exact hs.moves
  · exact .same hmem rfl (put_stream_of_ne c hi)

/-! ## Windows -/

lemma settingsCell_resized {delta : ℤ} (h : settingsCell delta c = some c') :
    c'.registered = c.registered ∧ Balances c c' ∧ Resized delta c.stream c'.stream := by
  unfold settingsCell at h
  split at h
  · next hd =>
    cases h
    exact ⟨rfl, ⟨rfl, .refl, .inl rfl⟩, .same hd⟩
  · obtain ⟨⟨c1, overflow⟩, hu, rfl⟩ := map_eq_some_iff.1 h
    rcases updateStreamOutputWindow_eq hu with
      ⟨-, hn, rfl⟩ | ⟨-, window, active, hs, hw, ha, rfl⟩
    · exact ⟨rfl, ⟨rfl, .refl, .inl rfl⟩, .overflow hn⟩
    · exact ⟨rfl, ⟨rfl, .of_stream rfl, .inl rfl⟩, .done hs hw ha⟩

/-- The loop of `handle_settings_frame` changes the window of each stream once. -/
lemma applySettings_streams {delta : ℤ} (hn : is.Nodup)
    (h : applySettings delta is conn = some conn') :
    conn'.ids = conn.ids ∧ conn'.peerSettings = conn.peerSettings ∧
      (∀ j ∈ is, Resized delta (conn.stream j) (conn'.stream j)) ∧
      ∀ j ∉ is, conn'.stream j = conn.stream j := by
  induction is generalizing conn with
  | nil =>
    cases h
    exact ⟨rfl, rfl, by simp, fun _ _ => rfl⟩
  | cons i is ih =>
    obtain ⟨conn1, hon, h⟩ := bind_eq_some_iff.1 h
    obtain ⟨c, hc, rfl⟩ := on_eq hon
    obtain ⟨hr, -, he⟩ := settingsCell_resized hc
    obtain ⟨hi, hn⟩ := List.nodup_cons.1 hn
    obtain ⟨hd, hp, hin, ho⟩ := ih hn h
    refine ⟨hd.trans ?_, hp, ?_, ?_⟩
    · unfold put
      rw [if_pos (show c.registered = true from hr)]
    · intro j hj
      rcases List.mem_cons.1 hj with rfl | hj
      · rw [ho j hi, put_stream]
        exact he
      · have hne : j ≠ i := ne_of_mem_of_not_mem hj hi
        have := hin j hj
        rwa [put_stream_of_ne c hne] at this
    · intro j hj
      obtain ⟨hne, hj⟩ := not_or.1 (mt List.mem_cons.2 hj)
      rw [ho j hj, put_stream_of_ne c hne]

lemma handleSettingsFrame_change {settings : Settings}
    (h : conn.handleSettingsFrame settings = some conn') (hf : fits → conn.Fits (.settings settings))
    (hj : j ∈ conn'.ids) : Change safe fits conn conn' j := by
  obtain ⟨hi, hp, hn, -⟩ := applySettings_streams (conn.ids.sort_nodup _) h
  have hj' : j ∈ conn.ids := by rwa [hi] at hj
  have hw : conn'.initialWindow = settings.initialWindowSize := by
    unfold initialWindow
    rw [hp]
  refine .resized hj' ?_ ?_
  · rw [hw]
    exact fun hs => hf hs j hj'
  · rw [hw]
    exact hn j ((mem_sort _).2 hj')

lemma updateWindow_updated {n : ℕ} (h : updateWindow n c = some c')
    (hf : safe → windowUpdate c.stream.outputWindow n = none → ¬c.stream.Parked) :
    Balances c c' ∧ (c'.registered = false ∨ Updated safe n c.stream c'.stream) := by
  obtain ⟨⟨c1, overflow⟩, hu, he⟩ := bind_eq_some_iff.1 h
  rcases updateStreamOutputWindow_eq hu with
    ⟨rfl, hn, rfl⟩ | ⟨rfl, window, active, ho, hw, ha, rfl⟩
  · rw [if_pos rfl] at he
    obtain ⟨c2, hr, he⟩ := bind_eq_some_iff.1 he
    cases he
    have hg := streamReset_goes hr fun hs => hf hs hn
    refine ⟨hg.balances.put rfl, ?_⟩
    rcases hg with hc | ht
    · exact .inl hc.registered
    · exact .inr (.error hn ht.moves)
  · rw [if_neg (by simp)] at he
    cases he
    exact ⟨⟨rfl, .of_stream rfl, .inl rfl⟩, .inr (.done (.done ho hw ha) (by simp [ho]))⟩

lemma windowUpdate_change {n : ℕ} (h : conn.onIfOpen i (updateWindow n) = some conn')
    (hd : conn.isIdleStreamId i = false) (hf : safe → i ∈ conn.ids →
      windowUpdate (conn.stream i).outputWindow n = none → ¬(conn.stream i).Parked)
    (hj : j ∈ conn'.ids) : Change safe fits conn conn' j := by
  unfold onIfOpen at h
  split at h
  · next hi =>
    obtain ⟨c, hc, rfl⟩ := on_eq h
    obtain ⟨hmem, hr⟩ := mem_put hj
    by_cases hji : j = i
    · subst hji
      rcases (updateWindow_updated hc fun hs => hf hs hi).2 with hl | hu
      · simp [hr rfl] at hl
      · refine .updated n hmem hd rfl ?_
        rw [put_stream]
        exact hu
    · exact .same hmem rfl (put_stream_of_ne c hji)
  · cases h
    exact .same hj rfl rfl

/-! ## Requests -/

lemma openStream_stream : (conn.openStream i).stream i = .new conn.initialWindow :=
  update_self ..

lemma openStream_stream_of_ne (h : j ≠ i) : (conn.openStream i).stream j = conn.stream j :=
  update_of_ne h ..

lemma raiseMaxOpen_eq : ∃ pull push, conn.raiseMaxOpen i =
    { conn with pullMaxOpen := pull, pushMaxOpen := push } := by
  unfold raiseMaxOpen
  split_ifs <;> exact ⟨_, _, rfl⟩

/-- A stream is prepared for a request; the others are left as they are. -/
lemma prepareForRequest_eq (h : conn.prepareForRequest i = some conn') :
    (conn.stream i).state = .idle ∧ conn'.ids = conn.ids ∧
      conn'.initialWindow = conn.initialWindow ∧ (∀ j ≠ i, conn'.stream j = conn.stream j) ∧
      ∃ slot blocked, conn'.stream i = { conn.stream i with
        state := .recvHeaders, outputWindow := conn.initialWindow, slot := slot
        blockedByServer := blocked } := by
  obtain ⟨c, hc, rfl⟩ := on_eq h
  obtain ⟨hi, -, -, num, slot, blocked, rfl⟩ := prepareForRequest_becomes hc
  obtain ⟨pull, push, hr⟩ : ∃ pull push, conn.raiseMaxOpen i = _ := raiseMaxOpen_eq
  rw [hr] at hi ⊢
  exact ⟨hi, rfl, rfl, fun j hj => put_stream_of_ne _ hj, slot, blocked, put_stream _⟩

lemma ensureOpen_stream : i ∈ conn.ids ∧ (conn.ensureOpen i).stream i = conn.stream i ∨
      i ∉ conn.ids ∧ (conn.ensureOpen i).stream i = .new conn.initialWindow := by
  unfold ensureOpen
  split
  · next hi => exact .inl ⟨hi, rfl⟩
  · next hi => exact .inr ⟨hi, openStream_stream⟩

lemma ensureOpen_stream_of_ne (h : j ≠ i) : (conn.ensureOpen i).stream j = conn.stream j := by
  unfold ensureOpen
  split
  · rfl
  · exact openStream_stream_of_ne h

lemma mem_ensureOpen (h : j ∈ (conn.ensureOpen i).ids) : j = i ∨ j ∈ conn.ids := by
  unfold ensureOpen at h
  split at h
  · exact .inr h
  · exact mem_insert.1 h

lemma ensureOpen_initialWindow : (conn.ensureOpen i).initialWindow = conn.initialWindow := by
  unfold ensureOpen
  split <;> rfl

lemma priority_change (hp : isPush i = false) (hj : j ∈ (conn.ensureOpen i).ids) :
    Change safe fits conn (conn.ensureOpen i) j := by
  by_cases hji : j = i
  · subst hji
    rcases ensureOpen_stream with ⟨hi, h⟩ | ⟨hi, h⟩
    · exact .same hi ensureOpen_initialWindow h
    · exact .opened hi hp ensureOpen_initialWindow h
  · exact .same ((mem_ensureOpen hj).resolve_left hji) ensureOpen_initialWindow
      (ensureOpen_stream_of_ne hji)

/-- A request is opened, on a stream that is new or that had a priority only. -/
lemma openRequest_change {endStream : Bool} (h : conn.openRequest i endStream = some conn')
    (hp : isPush i = false) (hi : conn.isIdleStreamId i = true) (hj : j ∈ conn'.ids) :
    Change safe fits conn conn' j := by
  obtain ⟨conn1, hr, h⟩ := bind_eq_some_iff.1 h
  obtain ⟨ht, hd, hw, ho, slot, blocked, hs⟩ := prepareForRequest_eq hr
  obtain ⟨c, hc, rfl⟩ := on_eq h
  cases hc
  have hw' : conn1.initialWindow = conn.initialWindow := hw.trans ensureOpen_initialWindow
  have hmem : j = i ∨ j ∈ conn.ids := mem_ensureOpen (hd ▸ (mem_put hj).1)
  by_cases hji : j = i
  · subst hji
    refine .requested (!endStream) hw' hi (by simp [hp]) ensureOpen_stream ht ?_
    rw [put_stream, show (conn1.cell j).stream = _ from hs, ensureOpen_initialWindow]
    exact .single (.counted slot blocked)
  · refine .same (hmem.resolve_left hji) hw' ?_
    rw [put_stream_of_ne _ hji, ho j hji, ensureOpen_stream_of_ne hji]

/-- The streams that the server has opened. -/
structure PushOk (conn : Conn) : Prop where
  even : isPush conn.pushMaxOpen = true
  bound : conn.pushMaxOpen ≤ 0x7ffffffe
  ids : ∀ i ∈ conn.ids, isPush i = true → i ≤ conn.pushMaxOpen

lemma isPush_add_two (h : isPush i = true) : isPush (i + 2) = true := by
  simpa [isPush] using h

/-- A pushed stream is new. -/
lemma PushOk.notMem (h : conn.PushOk) : conn.pushMaxOpen + 2 ∉ conn.ids := by
  intro hmem
  have := h.ids _ hmem (isPush_add_two h.even)
  omega

lemma prepareForRequest_rest (h : conn.prepareForRequest i = some conn') :
    conn'.rest = (conn.raiseMaxOpen i).rest := on_rest h

/-- A request of the server's own, on a new stream. -/
lemma execute_moves (hp : (conn.openStream i).prepareForRequest i = some conn1)
    (h : (conn1.cell i).executeOrEnqueueRequest ctx = some c) (hr : c.registered = true) :
    Moves safe { Stream.new conn.initialWindow with
      state := .recvHeaders, outputWindow := conn.initialWindow, hasReqBody := false } c.stream := by
  obtain ⟨-, -, -, -, slot, blocked, hs⟩ := prepareForRequest_eq hp
  rw [openStream_stream] at hs
  have hst : (conn1.cell i).stream.state = .recvHeaders := by
    show (conn1.stream i).state = _
    rw [hs]
  have hg : Goes safe (conn1.cell i) c := executeOrEnqueueRequest_goes h hst
  rcases hg with hc | ht
  · exact absurd hr (by simp [hc.registered])
  · refine .head (.counted slot blocked) ?_
    have ha : (conn1.cell i).stream = _ := hs
    have hm := ht.moves
    rwa [ha] at hm

/-- A stream is opened for a request of the server's own. -/
lemma execute_change (hn : i ∉ conn.ids)
    (hp : (conn.openStream i).prepareForRequest i = some conn1)
    (h : conn1.on i (Cell.executeOrEnqueueRequest ctx) = some conn')
    (hi : conn.isIdleStreamId i = true) (hj : j ∈ conn'.ids) : Change safe fits conn conn' j := by
  obtain ⟨-, hd, hw, ho, -⟩ := prepareForRequest_eq hp
  have hm : conn1.pushMaxOpen = _ := congrArg (·.2.1) (prepareForRequest_rest hp)
  obtain ⟨c, hc, rfl⟩ := on_eq h
  obtain ⟨hmem, hr⟩ := mem_put hj
  rw [hd] at hmem
  by_cases hji : j = i
  · subst hji
    refine .requested false hw hi ?_ (.inr ⟨hn, rfl⟩) rfl ?_
    · intro hu
      refine le_of_le_of_eq ?_ hm.symm
      simp [raiseMaxOpen, hu, rest]
    · rw [put_stream]
      exact execute_moves hp hc (hr rfl)
  · refine .same ((mem_insert.1 hmem).resolve_left hji) hw ?_
    rw [put_stream_of_ne _ hji, ho j hji, openStream_stream_of_ne hji]

lemma pushPath_change (h : conn.pushPath = some conn') (hu : conn.PushOk) (hj : j ∈ conn'.ids) :
    Change safe fits conn conn' j := by
  obtain ⟨conn1, hp, h⟩ := bind_eq_some_iff.1 h
  refine execute_change hu.notMem hp h ?_ hj
  simp [isIdleStreamId, isPush_add_two hu.even]

lemma upgraded_change {settings : Settings} (h : upgraded settings = some conn)
    (hj : j ∈ conn.ids) : Change safe fits (initWith settings) conn j := by
  unfold upgraded at h
  obtain ⟨conn1, hp, h⟩ := bind_eq_some_iff.1 h
  exact execute_change (notMem_empty 1) hp h rfl hj

/-! ## The end of the connection -/

lemma closeStreams_ids (h : closeStreams is conn = some conn') (hj : j ∈ conn'.ids) :
    j ∈ conn.ids ∧ j ∉ is := by
  induction is generalizing conn with
  | nil =>
    cases h
    exact ⟨hj, by simp⟩
  | cons i is ih =>
    obtain ⟨conn1, ho, h⟩ := bind_eq_some_iff.1 h
    obtain ⟨c, hc, rfl⟩ := on_eq ho
    obtain ⟨hmem, hn⟩ := ih h
    obtain ⟨hmem, hr⟩ := mem_put hmem
    refine ⟨hmem, ?_⟩
    rintro (_ | hi)
    · simp [(streamClose_closes hc).registered] at hr
    · exact hn ‹_›

lemma closeConnectionNow_ids (h : conn.closeConnectionNow = some conn') : conn'.ids = ∅ := by
  obtain ⟨closed, hc, h⟩ := bind_eq_some_iff.1 h
  obtain ⟨-, h⟩ := ite_none_right_eq_some.1 h
  cases h
  refine eq_empty_of_forall_notMem fun j hj => ?_
  obtain ⟨hmem, hn⟩ := closeStreams_ids hc hj
  exact hn ((mem_sort _).2 hmem)

/-! ## Events -/

lemma emitWritereq_change {room : ℕ} {readOk : Bool}
    (h : conn.emitWritereq i room readOk = some conn') (hj : j ∈ conn'.ids) :
    Change safe fits conn conn' j := by
  obtain ⟨⟨c, frame⟩, he, h⟩ := bind_eq_some_iff.1 h
  have ht : Stays safe (conn.cell i) c := emitWritereqOfOpenref_stays he
  have hp : conn'.ids = (conn.put i c).ids ∧ conn'.stream = (conn.put i c).stream ∧
      conn'.initialWindow = conn.initialWindow := by
    cases frame <;> cases h <;> exact ⟨rfl, rfl, rfl⟩
  obtain ⟨hi, hs, hw⟩ := hp
  rw [hi] at hj
  by_cases hji : j = i
  · subst hji
    refine .moved (mem_put hj).1 hw ?_
    rw [hs, put_stream]
    exact ht.moves
  · refine .same (mem_put hj).1 hw ?_
    rw [hs, put_stream_of_ne _ hji]

/-- An event that does no more than to call a function on a stream. -/
def touches : Event → Bool
  | .request .. | .data .. | .trailers .. | .rstStream .. | .windowUpdate _ 0 | .runPending ..
  | .setWriteReq .. | .send .. | .proceedRequest .. | .proceed .. | .replay .. => true
  | _ => false

/-- The stream is closed or moves, if it is open. -/
lemma step_touches (h : conn.step e = some conn') (he : conn.Enabled e)
    (hp : ∀ i ∈ conn.ids, (conn.stream i).Phase) (hsf : safe → conn.Safe e)
    (ht : touches e = true) :
    conn' = conn ∨ ∃ i ∈ conn.ids, ∃ c, Goes safe (conn.cell i) c ∧ conn' = conn.put i c := by
  have ho {i : ℕ} {f : Cell → Option Cell} (h : conn.on i f = some conn') (hi : i ∈ conn.ids)
      (hf : ∀ c, f (conn.cell i) = some c → Goes safe (conn.cell i) c) :
      ∃ i ∈ conn.ids, ∃ c, Goes safe (conn.cell i) c ∧ conn' = conn.put i c := by
    obtain ⟨c, hc, rfl⟩ := on_eq h
    exact ⟨i, hi, c, hf c hc, rfl⟩
  have hr {i : ℕ} (h : conn.onIfOpen i Cell.streamReset = some conn')
      (hsf : safe → i ∈ conn.ids → ¬(conn.stream i).Parked) :
      conn' = conn ∨ ∃ i ∈ conn.ids, ∃ c, Goes safe (conn.cell i) c ∧ conn' = conn.put i c := by
    unfold onIfOpen at h
    split at h
    · next hi => exact .inr (ho h hi fun c hc => streamReset_goes hc fun hs => hsf hs hi)
    · cases h
      exact .inl rfl
  cases e with
  | request i v =>
    exact .inr (ho h he.2.1 fun c hc => handleIncomingRequest_goes hc (hp i he.2.1))
  | data i d =>
    exact .inr (ho h he.2 fun c hc =>
      handleDataFrame_goes hc (hp i he.2) fun hs => hsf hs he.2)
  | trailers i d =>
    refine .inr (ho h he.2 fun c hc =>
      handleRequestBodyChunk_goes hc (hp i he.2) fun hs => ?_)
    exact ⟨(hsf hs).reset, (hsf hs).ended, (hsf hs).write⟩
  | rstStream i => exact hr h hsf
  | windowUpdate i n =>
    cases n with
    | zero => exact hr h fun hs hi => hsf hs hi (.inl rfl)
    | succ n => cases ht
  | runPending i =>
    dsimp only [step] at h
    exact .inr (ho h he.1 fun c hc => .inr (processRequest_stays hc (hp i he.1) he.2))
  | setWriteReq i writeReq =>
    dsimp only [step] at h
    refine .inr (ho h he.1 fun c hc => ?_)
    cases hc
    exact .inr (.of_stream (.single (.setWriteReq writeReq he.2)) rfl)
  | send i r =>
    dsimp only [step] at h
    exact .inr (ho h he.1 fun c hc => .inr (finalostreamSend_stays hc (hp i he.1) he.2))
  | proceedRequest i failed unblock w =>
    exact .inr (ho h he.1 fun c hc => proceedRequest_goes hc (hp i he.1) hsf)
  | proceed i =>
    dsimp only [step] at h
    split at h
    · cases h
    · next hd =>
      have hd : (conn.stream i).data = [] := by simpa [Stream.hasPendingData] using hd
      exact .inr (ho h he.2.1 fun c hc => streamProceed_goes hc he.2.2 hd)
  | replay i =>
    dsimp only [step] at h
    refine .inr (ho h he.1 fun c hc => ?_)
    obtain ⟨c1, hb, hc⟩ := bind_eq_some_iff.1 hc
    cases hc
    exact .inr (unlink_stays hb (.replayed he.2))
  | _ => cases ht

/-- Every stream that is open after an event is new, has made some moves, or its window was
changed. -/
theorem step_change (h : conn.step e = some conn') (he : conn.Enabled e) (hu : conn.PushOk)
    (hh : ∀ i ∈ conn.ids, (conn.stream i).Phase) (hf : safe → conn.Safe e)
    (hft : fits → conn.Fits e) (hj : j ∈ conn'.ids) : Change safe fits conn conn' j := by
  by_cases ht : touches e = true
  · rcases step_touches h he hh hf ht with rfl | ⟨i, -, c, hg, rfl⟩
    · exact .same hj rfl rfl
    · exact put_change hg hj
  cases e with
  | headers i endStream =>
    obtain ⟨-, hp, hm⟩ := he
    exact openRequest_change h hp (by simp [isIdleStreamId, hp, hm]) hj
  | priority i =>
    cases h
    exact priority_change he.2.1 hj
  | settings settings => exact handleSettingsFrame_change h hft hj
  | windowUpdate i n =>
    cases n with
    | zero => exact absurd rfl ht
    | succ n =>
      exact windowUpdate_change h (he.2 n.succ_ne_zero) (fun hs hi hw => hf hs hi (.inr hw)) hj
  | connWindowUpdate n =>
    dsimp only [step] at h
    split at h <;> cases h <;> exact .same hj rfl rfl
  | goaway | sendGoaway | closeConnection =>
    cases h
    exact .same hj rfl rfl
  | emit i room readOk => exact emitWritereq_change h hj
  | push => exact pushPath_change h hu hj
  | closeConnectionNow => simp [closeConnectionNow_ids h] at hj
  | _ => exact absurd rfl ht

/-! ## The ids of the streams, and the frames that were sent -/

lemma onIfOpen_rest (h : conn.onIfOpen i f = some conn') : conn'.rest = conn.rest := by
  unfold onIfOpen at h
  split at h
  · exact on_rest h
  · cases h
    rfl

lemma applySettings_rest {delta : ℤ}
    (h : applySettings delta is conn = some conn') : conn'.rest = conn.rest := by
  induction is generalizing conn with
  | nil =>
    cases h
    rfl
  | cons i is ih =>
    obtain ⟨conn1, ho, h⟩ := bind_eq_some_iff.1 h
    exact (ih h).trans (on_rest ho)

lemma closeStreams_rest (h : closeStreams is conn = some conn') : conn'.rest = conn.rest := by
  induction is generalizing conn with
  | nil =>
    cases h
    rfl
  | cons i is ih =>
    obtain ⟨conn1, ho, h⟩ := bind_eq_some_iff.1 h
    exact (ih h).trans (on_rest ho)

lemma raiseMaxOpen_pull (hp : isPush i = false) :
    conn.pullMaxOpen ≤ (conn.raiseMaxOpen i).pullMaxOpen ∧
      (conn.raiseMaxOpen i).rest.2 = conn.rest.2 := by
  unfold raiseMaxOpen
  rw [if_neg (by simp [hp])]
  split
  · exact ⟨le_max_left _ _, rfl⟩
  · exact ⟨le_rfl, rfl⟩

lemma raiseMaxOpen_push (hp : isPush i = true) :
    (conn.raiseMaxOpen i).rest = (conn.pullMaxOpen, max conn.pushMaxOpen i, conn.dataSent) := by
  unfold raiseMaxOpen
  rw [if_pos hp]
  rfl

lemma ensureOpen_rest : (conn.ensureOpen i).rest = conn.rest := by
  unfold ensureOpen
  split <;> rfl

end Conn

/-- A DATA frame is not longer than the windows and the largest frame. -/
def DataFrame.Fits (f : DataFrame) : Prop :=
  (f.length : ℤ) ≤ f.streamWindow ∧ (f.length : ℤ) ≤ f.connWindow ∧ f.length ≤ f.maxFrameSize

namespace Conn

variable {safe fits : Prop} {conn conn' : Conn} {e : Event} {i : ℕ}

lemma calcMaxPayloadSize_fits {n room : ℕ} (h : n ≤ conn.calcMaxPayloadSize i room)
    (hne : conn.calcMaxPayloadSize i room ≠ 0) : DataFrame.Fits ⟨i, n, (conn.stream i).outputWindow,
      conn.writeWindow, conn.peerSettings.maxFrameSize⟩ := by
  unfold calcMaxPayloadSize at h hne
  dsimp only at h hne
  split at h
  · next hc =>
    rw [if_pos hc] at hne
    exact absurd rfl hne
  · next ho =>
    obtain ⟨hs, hf⟩ := le_min_iff.1 h
    refine ⟨?_, ?_, hf⟩ <;> dsimp only <;> omega

/-- `max_open` only grows, and the frames that are sent fit. -/
structure Grows (conn conn' : Conn) : Prop where
  pull : conn.pullMaxOpen ≤ conn'.pullMaxOpen
  push : conn.pushMaxOpen ≤ conn'.pushMaxOpen
  even : isPush conn'.pushMaxOpen = true
  bound : conn'.pushMaxOpen ≤ 0x7ffffffe
  sent : ∀ f ∈ conn'.dataSent, f ∈ conn.dataSent ∨ f.Fits

lemma Grows.of_rest (hp : conn.PushOk) (h : conn'.rest = conn.rest) : Grows conn conn' := by
  obtain ⟨h1, h2⟩ := Prod.mk.inj h
  obtain ⟨h2, h3⟩ := Prod.mk.inj h2
  exact ⟨h1.ge, h2.ge, h2 ▸ hp.even, h2 ▸ hp.bound, fun f hf => .inl (h3 ▸ hf)⟩

lemma emitWritereq_grows {room : ℕ} {readOk : Bool} (hp : conn.PushOk)
    (h : conn.emitWritereq i room readOk = some conn') : Grows conn conn' := by
  obtain ⟨⟨c, frame⟩, he, h⟩ := bind_eq_some_iff.1 h
  obtain ⟨-, n, hn, hr, -⟩ := emitWritereqOfOpenref_becomes he
  rcases hr with ⟨rfl, -⟩ | ⟨rfl, hm⟩
  · cases h
    exact .of_rest hp rfl
  · cases h
    refine ⟨le_rfl, le_rfl, hp.even, hp.bound, fun f hf => ?_⟩
    rcases List.mem_cons.1 hf with rfl | hf
    · exact .inr (calcMaxPayloadSize_fits hn hm)
    · exact .inl hf

lemma step_grows (h : conn.step e = some conn') (he : conn.Enabled e) (hpu : conn.PushOk) :
    Grows conn conn' := by
  cases e with
  | headers i endStream =>
    obtain ⟨conn1, hp, h⟩ := bind_eq_some_iff.1 h
    have ho : (conn.ensureOpen i).rest = conn.rest := ensureOpen_rest
    obtain ⟨hu, hp1⟩ : (conn.ensureOpen i).pullMaxOpen ≤ _ ∧ _ := raiseMaxOpen_pull he.2.1
    have hr := (on_rest h).trans (prepareForRequest_rest hp)
    have hs : conn'.rest.2 = conn.rest.2 := by rw [hr, hp1, ho]
    obtain ⟨h2, h3⟩ := Prod.mk.inj hs
    refine ⟨?_, h2.ge, h2 ▸ hpu.even, h2 ▸ hpu.bound, fun f hf => .inl (h3 ▸ hf)⟩
    calc conn.pullMaxOpen = (conn.ensureOpen i).pullMaxOpen := (Prod.mk.inj ho).1.symm
      _ ≤ _ := hu
      _ = conn'.pullMaxOpen := (Prod.mk.inj hr).1.symm
  | settings settings =>
    have hs : conn'.rest = _ := applySettings_rest h
    exact .of_rest hpu hs
  | windowUpdate i n =>
    dsimp only [step] at h
    split at h <;> exact .of_rest hpu (onIfOpen_rest h)
  | rstStream i => exact .of_rest hpu (onIfOpen_rest h)
  | connWindowUpdate n =>
    dsimp only [step] at h
    split at h <;> cases h <;> exact .of_rest hpu rfl
  | priority i =>
    cases h
    exact .of_rest hpu ensureOpen_rest
  | goaway =>
    cases h
    exact ⟨le_rfl, hpu.bound, (by decide : isPush 0x7ffffffe = true), le_rfl, fun f => .inl⟩
  | emit i room readOk => exact emitWritereq_grows hpu h
  | proceed i =>
    dsimp only [step] at h
    split at h
    · cases h
    · exact .of_rest hpu (on_rest h)
  | push =>
    obtain ⟨conn1, hp, h⟩ := bind_eq_some_iff.1 h
    have hr := (on_rest h).trans (prepareForRequest_rest hp)
    rw [raiseMaxOpen_push (isPush_add_two hpu.even)] at hr
    obtain ⟨h1, h2⟩ := Prod.mk.inj hr
    obtain ⟨h2, h3⟩ := Prod.mk.inj h2
    have hq : conn'.pushMaxOpen = conn.pushMaxOpen + 2 :=
      h2.trans (max_eq_right (Nat.le_add_right _ _))
    have hb := he.2
    exact ⟨h1.ge, by omega, hq ▸ isPush_add_two hpu.even, by omega, fun f hf => .inl (h3 ▸ hf)⟩
  | sendGoaway | closeConnection =>
    cases h
    exact .of_rest hpu rfl
  | closeConnectionNow =>
    obtain ⟨closed, hc, h⟩ := bind_eq_some_iff.1 h
    obtain ⟨-, h⟩ := ite_none_right_eq_some.1 h
    cases h
    have hs : conn'.rest = _ := closeStreams_rest hc
    exact .of_rest hpu hs
  | _ =>
    dsimp only [step] at h
    exact .of_rest hpu (on_rest h)

lemma Change.pushed (h : Change safe fits conn conn' i) (hu : conn.PushOk)
    (hl : conn.pushMaxOpen ≤ conn'.pushMaxOpen) (hi : isPush i = true) : i ≤ conn'.pushMaxOpen := by
  cases h with
  | moved hmem _ _ | resized hmem _ _ | updated _ hmem _ _ _ =>
    exact (hu.ids i hmem hi).trans hl
  | opened _ hp _ _ => simp [hp] at hi
  | requested _ _ _ hl _ _ _ => exact hl hi

end Conn

/-- The streams are in their phases, and the pushed streams have the ids of pushed streams. -/
structure Conn.Wf (conn : Conn) : Prop where
  push : conn.PushOk
  phase : ∀ i ∈ conn.ids, (conn.stream i).Phase

/-- What holds for new streams, and is kept by all that happens to a stream. -/
structure Keeps (safe : Prop) (P : Stream → Prop) : Prop where
  new (w : ℕ) : P (.new w)
  prepared {s : Stream} (hp : s.Phase) (h : P s) (hidle : s.state = .idle) (w : ℤ) (b : Bool) :
    P { s with state := .recvHeaders, outputWindow := w, hasReqBody := b }
  move {s s' : Stream} (hp : s.Phase) (h : P s) (hmove : Move safe s s') : P s'
  resized {s s' : Stream} {delta : ℤ} (hp : s.Phase) (h : P s) (hresized : Resized delta s s') : P s'
  marked {s : Stream} (h : P s) (n : ℕ) (b : Bool) : P { s with increments := n, flowError := b }

namespace Keeps

variable {safe fits : Prop} {P : Stream → Prop} {s s' : Stream} {conn conn' : Conn} {i : ℕ}

lemma moves (hk : Keeps safe P) (hm : Moves safe s s') (hp : s.Phase) (h : P s) : P s' := by
  induction hm with
  | refl => exact h
  | tail hm hv ih => exact hk.move (Moves.phase hm hp) ih hv

lemma change (hk : Keeps safe P) (hc : conn.Change safe fits conn' i) (hw : conn.Wf)
    (ha : ∀ i ∈ conn.ids, P (conn.stream i)) : P (conn'.stream i) := by
  cases hc with
  | moved hi _ h => exact hk.moves h (hw.phase i hi) (ha i hi)
  | opened _ _ _ h =>
    rw [h]
    exact hk.new _
  | requested b _ _ _ hs ht h =>
    rcases hs with ⟨hi, rfl⟩ | ⟨-, rfl⟩
    · have hp := hw.phase i hi
      exact hk.moves h (hp.prepared ht _ _) (hk.prepared hp (ha i hi) ht _ _)
    · have hp := Stream.phase_new conn.initialWindow
      exact hk.moves h (hp.prepared ht _ _) (hk.prepared hp (hk.new _) ht _ _)
  | resized hi _ h => exact hk.resized (hw.phase i hi) (ha i hi) h
  | updated n hi _ _ h =>
    have hp := hw.phase i hi
    have hP := ha i hi
    generalize conn'.stream i = s' at h
    cases h with
    | done h _ => exact hk.marked (hk.resized hp hP h) _ _
    | error _ hs => exact hk.marked (hk.moves hs hp hP) _ _

end Keeps

lemma keeps_phase (safe : Prop) : Keeps safe Stream.Phase where
  new := Stream.phase_new
  prepared hp _ hi w b := hp.prepared hi w b
  move hp _ hm := hm.phase hp
  resized hp _ h := by
    cases h with
    | same | overflow => exact hp
    | done => exact { hp with }
  marked hp n b := { hp with }

namespace Conn

variable {safe fits : Prop} {conn conn' : Conn} {e : Event} {i : ℕ}

lemma wf_init (settings : Settings) : (initWith settings).Wf := by
  refine ⟨⟨rfl, Nat.zero_le _, ?_⟩, ?_⟩ <;> intro i hi <;> exact absurd hi (notMem_empty i)

lemma Wf.step (hw : conn.Wf) (h : conn.step e = some conn') (he : conn.Enabled e) : conn'.Wf := by
  have hg := step_grows h he hw.push
  have hc : ∀ i ∈ conn'.ids, Change False False conn conn' i :=
    fun i hi => step_change h he hw.push hw.phase False.elim False.elim hi
  exact ⟨⟨hg.even, hg.bound, fun i hi => (hc i hi).pushed hw.push hg.push⟩,
    fun i hi => (keeps_phase False).change (hc i hi) hw hw.phase⟩

lemma wf_upgraded {settings : Settings} (h : upgraded settings = some conn) : conn.Wf := by
  have hc : ∀ i ∈ conn.ids, Change False False (initWith settings) conn i :=
    fun i hi => upgraded_change h hi
  have hm : conn.pushMaxOpen = 0 := by
    unfold upgraded at h
    obtain ⟨conn1, hp, h⟩ := bind_eq_some_iff.1 h
    exact congrArg (·.2.1) ((on_rest h).trans (prepareForRequest_rest hp))
  exact ⟨⟨hm ▸ rfl, hm ▸ Nat.zero_le _, fun i hi =>
    (hc i hi).pushed (wf_init settings).push (Nat.zero_le _)⟩,
    fun i hi => (keeps_phase False).change (hc i hi) (wf_init settings) (wf_init settings).phase⟩

/-- A weaker condition on the events allows more states. -/
lemma Reach.mono {C C' : Conn → Event → Prop} (h : Reach C conn)
    (hC : ∀ conn e, C conn e → C' conn e) : Reach C' conn := by
  induction h with
  | init => exact .init
  | upgrade h => exact .upgrade h
  | step _ he hc hs ih => exact .step ih he (hC _ _ hc) hs

lemma Reach.wf {C : Conn → Event → Prop} (h : Reach C conn) : conn.Wf := by
  induction h with
  | init => exact wf_init .default
  | upgrade h => exact wf_upgraded h
  | step _ he _ hs ih => exact ih.step hs he

end Conn

namespace Keeps

variable {safe : Prop} {P : Stream → Prop} {conn : Conn}

/-- Such a property holds for every stream of every connection. -/
lemma all_of_reach (hk : Keeps safe P)
    (h : Conn.Reach (fun conn e => safe → conn.Safe e) conn) : ∀ i ∈ conn.ids, P (conn.stream i) := by
  induction h with
  | init => exact fun i hi => absurd hi (notMem_empty i)
  | upgrade h =>
    intro i hi
    have hh : Conn.Change safe False _ _ i := Conn.upgraded_change h hi
    exact hk.change hh (Conn.wf_init _) fun i hi => absurd hi (notMem_empty i)
  | step hr he hc hs ih =>
    intro i hi
    have hw := hr.wf
    exact hk.change (Conn.step_change hs he hw.push hw.phase hc False.elim hi) hw ih

end Keeps

end Vhttp.Http2.Lifecycle
