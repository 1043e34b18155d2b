import Vhttp.Http3Server.Announced

/-!
# What a callback does to a connection

Each callback works on one stream. `Moves` says what it keeps, whatever it does: the lists have
only streams that may be there, the other streams stay in their lists, and a free slot for a blocked
stream is not forgotten unless the stream had a slot itself.

* `fits_of_reach`: the lists and the states of the streams fit in every run.
-/

namespace Vhttp.Http3Server

open Http3 (Frame readFrame)
open Function List Option Bool Prod StreamState

/-! ## The invariant of a stream -/

/-- Before the request is processed there is no response and the request is not streamed; a blocked
stream is not read, and the head is expected only at the beginning. -/
structure Sound (s : Stream) : Prop where
  sendOpen : s.state.isReceiving = true → s.sendOpen = true
  notStreaming : s.state.isReceiving = true → s.reqStreaming = false ∧ s.proceedReq = false
  readBlocked : s.state = .recvBodyBlocked → s.readBlocked = true
  head : s.handleInput = .expectHeaders → s.state = .recvHeaders ∨ s.state = .closeWait

/-- The lists have the streams that are in these states, and a closed stream is in no list. -/
structure Base (i : ℕ) (v : View) : Prop where
  sound : Sound v.stream
  closed : v.stream.state = .closeWait → v.shared.isLinked i = false
  blocked : i ∈ v.shared.recvBodyBlocked → v.stream.state = .recvBodyBlocked
  pending : i ∈ v.shared.pending → v.stream.state = .reqPending

/-- If there is a free slot and a blocked stream, `run_delayed` is going to be called. -/
def Kept (env : Env) (d : Shared) : Prop :=
  d.closing = false → d.slotFree env = true → d.recvBodyBlocked ≠ [] → d.timeout = true

/-- The other streams are in the same lists, the timer stays linked, and a connection that is being
closed stays so. -/
structure Others (i : ℕ) (d d' : Shared) : Prop where
  blocked : ∀ k, k ≠ i → (k ∈ d'.recvBodyBlocked ↔ k ∈ d.recvBodyBlocked)
  streaming : ∀ k, k ≠ i → (k ∈ d'.reqStreaming ↔ k ∈ d.reqStreaming)
  pending : ∀ k, k ≠ i → (k ∈ d'.pending ↔ k ∈ d.pending)
  timeout : d.timeout = true → d'.timeout = true
  closing : d.closing = true → d'.closing = true

lemma Others.refl (i : ℕ) (d : Shared) : Others i d d :=
  ⟨fun _ _ => Iff.rfl, fun _ _ => Iff.rfl, fun _ _ => Iff.rfl, id, id⟩

lemma Others.trans {i : ℕ} {d1 d2 d3 : Shared} (h : Others i d1 d2) (h' : Others i d2 d3) :
    Others i d1 d3 :=
  ⟨fun k hk => (h'.blocked k hk).trans (h.blocked k hk),
    fun k hk => (h'.streaming k hk).trans (h.streaming k hk),
    fun k hk => (h'.pending k hk).trans (h.pending k hk), fun ht => h'.timeout (h.timeout ht),
    fun hc => h'.closing (h.closing hc)⟩

/-- The states before a stream can be blocked. -/
def StreamState.canBlock : StreamState → Bool
  | .recvHeaders | .recvBodyBeforeBlock => true
  | _ => false

/-- What a callback on a stream keeps. No stream gets blocked later than in its first states. -/
structure Moves (env : Env) (i : ℕ) (v v' : View) : Prop where
  others : Others i v.shared v'.shared
  base : Base i v → Base i v'
  kept : Base i v → v.stream.state ≠ .recvBodyUnblocked → Kept env v.shared →
    v'.stream.state ≠ .recvBodyUnblocked ∧ Kept env v'.shared
  noneAdded : v.stream.state.canBlock = false → v'.stream.state.canBlock = false ∧
    ∀ k, k ∈ v'.shared.recvBodyBlocked → k ∈ v.shared.recvBodyBlocked

/-- What does not read the input either; a closed stream stays closed. -/
structure Still (env : Env) (i : ℕ) (v v' : View) : Prop extends Moves env i v v' where
  input : v'.stream.input = v.stream.input
  closed : v.stream.state = .closeWait → v'.stream.state = .closeWait

/-- What may read the input, and accepts no more of it than is announced. -/
structure Works (env : Env) (i : ℕ) (v v' : View) : Prop extends Moves env i v v' where
  bounded : Base i v → ∀ m, Bounded env m v → Bounded env m v'

variable {env : Env} {i m : ℕ} {v v' v1 v2 v3 : View}

lemma Moves.refl (v : View) : Moves env i v v :=
  ⟨.refl i _, id, fun _ ht hkt => ⟨ht, hkt⟩, fun hc => ⟨hc, fun _ hk => hk⟩⟩

lemma Moves.trans (h : Moves env i v1 v2) (h' : Moves env i v2 v3) : Moves env i v1 v3 := by
  refine ⟨h.others.trans h'.others, fun hb => h'.base (h.base hb), fun hb ht hkt => ?_,
    fun hc => ?_⟩
  · obtain ⟨ht', hk'⟩ := h.kept hb ht hkt
    exact h'.kept (h.base hb) ht' hk'
  · obtain ⟨hc', hu⟩ := h.noneAdded hc
    obtain ⟨hc'', hs'⟩ := h'.noneAdded hc'
    exact ⟨hc'', fun k hk => hu k (hs' k hk)⟩

lemma Still.refl (v : View) : Still env i v v := ⟨.refl v, rfl, id⟩

lemma Still.trans (h : Still env i v1 v2) (h' : Still env i v2 v3) : Still env i v1 v3 :=
  ⟨h.toMoves.trans h'.toMoves, h'.input.trans h.input, fun hc => h'.closed (h.closed hc)⟩

variable {c c' : Conn} {d d' : Shared} {fuel k : ℕ} {s s' : Stream} {state : StreamState}

lemma Still.within (h : Still env i v v') {src : Bytes} (hw : Within env m v.stream src) :
    Within env m v'.stream src := by
  refine ⟨?_, hw.2.imp h.closed fun ha => ?_⟩
  · rw [(input_eq_iff.1 h.input).2.2.1]
    exact hw.1
  · rw [announced_eq_of_input h.input]
    exact ha

lemma Still.works (h : Still env i v v') : Works env i v v' := by
  refine ⟨h.toMoves, fun _ m hb => hb.imp h.others.closing fun hw => ?_⟩
  rw [(input_eq_iff.1 h.input).2.2.2]
  exact h.within hw

lemma Works.trans (h : Works env i v1 v2) (h' : Works env i v2 v3) : Works env i v1 v3 :=
  ⟨h.toMoves.trans h'.toMoves, fun hb m hd =>
    h'.bounded (h.base hb) m (h.bounded hb m hd)⟩

/-- The second step may use what the first one keeps. -/
lemma Works.andThen (h : Works env i v1 v2) (hb : Base i v1)
    (h' : Base i v2 → Works env i v2 v3) : Works env i v1 v3 :=
  h.trans (h' (h.base hb))

/-! ## Changes of the stream -/

/-- The part of a stream that the invariant is about. -/
def Stream.key (s : Stream) : StreamState × Bool × HandleInput × Bool × Bool × Bool :=
  (s.state, s.sendOpen, s.handleInput, s.reqStreaming, s.proceedReq, s.readBlocked)

lemma key_eq_iff : s'.key = s.key ↔ s'.state = s.state ∧
    s'.sendOpen = s.sendOpen ∧ s'.handleInput = s.handleInput ∧
      s'.reqStreaming = s.reqStreaming ∧ s'.proceedReq = s.proceedReq ∧
        s'.readBlocked = s.readBlocked := by
  unfold Stream.key
  simp only [mk.injEq]

lemma Sound.of_key (h : Sound s) (hk : s'.key = s.key) : Sound s' := by
  obtain ⟨hst, hd, hn, ht, hp, hrd⟩ := key_eq_iff.1 hk
  constructor
  · rw [hst, hd]
    exact h.sendOpen
  · rw [hst, ht, hp]
    exact h.notStreaming
  · rw [hst, hrd]
    exact h.readBlocked
  · rw [hn, hst]
    exact h.head

/-- A stream whose request is being processed. -/
lemma sound_of_not_isReceiving (ht : s.state.isReceiving = false)
    (hh : s.handleInput = .expectHeaders → s.state = .closeWait) : Sound s where
  sendOpen h := by rw [ht] at h; cases h
  notStreaming h := by rw [ht] at h; cases h
  readBlocked h := by rw [h] at ht; cases ht
  head h := .inr (hh h)

/-- Its other parts may be changed. -/
lemma Sound.of_not_isReceiving (h : Sound s)
    (hc : s.state.isReceiving = false) (ht : s'.state = s.state)
    (hn : s'.handleInput = s.handleInput) : Sound s' := by
  refine sound_of_not_isReceiving (ht ▸ hc) fun hh => ?_
  rcases h.head (hn ▸ hh) with hs | hs
  · rw [hs] at hc
    cases hc
  · exact ht.trans hs

/-- Only the stream is changed, and stays in its state. -/
lemma Moves.mapStream {f : Stream → Stream} (ht : (f v.stream).state = v.stream.state)
    (hd : Sound v.stream → Sound (f v.stream)) : Moves env i v (v.mapStream f) where
  others := .refl i _
  base h :=
    ⟨hd h.sound, fun hc => h.closed (ht.symm.trans hc),
      fun hm => ht.trans (h.blocked hm), fun hm => ht.trans (h.pending hm)⟩
  kept _ hs hkt := ⟨fun hc => hs (ht.symm.trans hc), hkt⟩
  noneAdded ha := ⟨(congrArg canBlock ht).trans ha, fun _ hk => hk⟩

lemma Still.mapStream {f : Stream → Stream} (ht : (f v.stream).state = v.stream.state)
    (hn : (f v.stream).input = v.stream.input)
    (hd : Sound v.stream → Sound (f v.stream)) : Still env i v (v.mapStream f) :=
  ⟨.mapStream ht hd, hn, fun hc => ht.trans hc⟩

/-- Only a part of the stream is changed that does not matter here. -/
lemma Still.mapStream_of_key {f : Stream → Stream} (hk : (f v.stream).key = v.stream.key)
    (hn : (f v.stream).input = v.stream.input) : Still env i v (v.mapStream f) :=
  .mapStream (key_eq_iff.1 hk).1 hn fun h => h.of_key hk

/-! ## Changes of the shared data -/

lemma kept_checkRunBlocked (env : Env) (d : Shared) : Kept env (d.checkRunBlocked env) := by
  unfold Shared.checkRunBlocked
  split
  · exact fun _ _ _ => rfl
  · rename_i ho
    exact fun _ hf hne => absurd ⟨hf, hne⟩ ho

lemma kept_requestRunDelayed (env : Env) (d : Shared) : Kept env d.requestRunDelayed :=
  fun _ _ _ => rfl

/-- The lists of delayed streams. -/
def Shared.lists (d : Shared) : List ℕ × List ℕ × List ℕ :=
  (d.recvBodyBlocked, d.reqStreaming, d.pending)

section SameLists

variable (h : d'.lists = d.lists)
include h

lemma blocked_eq : d'.recvBodyBlocked = d.recvBodyBlocked := congrArg fst h

lemma pending_eq : d'.pending = d.pending := congrArg (·.2.2) h

lemma isLinked_eq (k : ℕ) : d'.isLinked k = d.isLinked k := by
  have ht : d'.reqStreaming = d.reqStreaming := congrArg (·.2.1) h
  unfold Shared.isLinked
  rw [blocked_eq h, ht, pending_eq h]

lemma Others.of_lists (ho : d.timeout = true → d'.timeout = true)
    (hc : d.closing = true → d'.closing = true) : Others i d d' := by
  have ht : d'.reqStreaming = d.reqStreaming := congrArg (·.2.1) h
  exact ⟨fun k _ => by rw [blocked_eq h], fun k _ => by rw [ht],
    fun k _ => by rw [pending_eq h], ho, hc⟩

lemma Base.of_lists (hb : Base i ⟨d, s⟩) : Base i ⟨d', s⟩ :=
  ⟨hb.sound, fun hc => (isLinked_eq h i).trans (hb.closed hc),
    fun hm => hb.blocked (blocked_eq h ▸ hm), fun hm => hb.pending (pending_eq h ▸ hm)⟩

end SameLists

lemma kept_unlink (h : Kept env d) (i : ℕ) : Kept env (d.unlink i) := by
  intro hc hf hne
  refine h hc hf fun hi => hne ?_
  change d.recvBodyBlocked.filter _ = []
  rw [hi, filter_nil]

lemma others_unlink (d : Shared) (i : ℕ) : Others i d (d.unlink i) := by
  unfold Shared.unlink
  exact ⟨fun k hk => by simp [hk], fun k hk => by simp [hk], fun k hk => by simp [hk], id, id⟩

lemma isLinked_unlink (d : Shared) (i : ℕ) : (d.unlink i).isLinked i = false := by
  simp [Shared.unlink, Shared.isLinked]

lemma count_eq {old new : StreamState} (ho : old ≠ .recvBodyUnblocked)
    (hw : new ≠ .recvBodyUnblocked) : d.count old new = d := by
  unfold Shared.count
  rw [if_neg ho, if_neg hw]
  simp

/-- A stream that is not blocked does not wait to be unblocked. -/
lemma Base.not_mem_blocked (h : Base i v)
    (hne : v.stream.state ≠ .recvBodyBlocked) : i ∉ v.shared.recvBodyBlocked :=
  fun hm => hne (h.blocked hm)

lemma Base.not_mem_pending (h : Base i v) (hne : v.stream.state ≠ .reqPending) :
    i ∉ v.shared.pending :=
  fun hm => hne (h.pending hm)

lemma StreamState.ne_of_isReceiving {state' : StreamState}
    (h : state.isReceiving = false) (h' : state'.isReceiving = true) : state ≠ state' := by
  rintro rfl
  rw [h] at h'
  cases h'

lemma StreamState.canBlock_of_not_isReceiving
    (h : state.isReceiving = false) : state.canBlock = false := by
  cases state <;> first | rfl | cases h

/-! ## States -/

/-- The shared data is changed, but not the lists. -/
lemma Still.mapShared {f : Shared → Shared} (h : (f v.shared).lists = v.shared.lists)
    (ht : v.shared.timeout = true → (f v.shared).timeout = true)
    (hc : v.shared.closing = true → (f v.shared).closing = true)
    (hkt : Kept env v.shared → Kept env (f v.shared)) : Still env i v (v.mapShared f) where
  others := .of_lists h ht hc
  base hb := hb.of_lists h
  kept _ hs hk := ⟨hs, hkt hk⟩
  noneAdded ha := ⟨ha, fun _ hk => blocked_eq h ▸ hk⟩
  input := rfl
  closed := id

/-- The counters may be changed before. -/
lemma still_check {f : Shared → Shared} (v : View)
    (h : ∀ d, (f d).lists = d.lists ∧ (f d).timeout = d.timeout ∧ (f d).closing = d.closing) :
    Still env i v (v.mapShared fun d => (f d).checkRunBlocked env) := by
  obtain ⟨hi, ht, hc⟩ := h v.shared
  refine .mapShared ?_ ?_ ?_ fun _ => kept_checkRunBlocked env _
  all_goals
    unfold Shared.checkRunBlocked
    split
  · exact hi
  · exact hi
  · exact fun _ => rfl
  · exact ht.trans
  · exact hc.trans
  · exact hc.trans

lemma still_checkRunBlocked (v : View) : Still env i v (v.mapShared (·.checkRunBlocked env)) :=
  still_check v fun _ => ⟨rfl, rfl, rfl⟩

lemma still_endStreaming (v : View) : Still env i v (v.mapShared (·.endStreaming env)) :=
  still_check v fun _ => ⟨rfl, rfl, rfl⟩

lemma still_requestRunDelayed (v : View) : Still env i v (v.mapShared (·.requestRunDelayed)) :=
  .mapShared rfl (fun _ => rfl) id fun _ => kept_requestRunDelayed env _

lemma still_closeConnection (v : View) : Still env i v v.closeConnection :=
  .mapShared rfl id (fun _ => rfl) fun _ hc => absurd hc nofun

lemma still_unlink (v : View) : Still env i v (v.mapShared (·.unlink i)) where
  others := others_unlink _ _
  base h :=
    ⟨h.sound, fun _ => isLinked_unlink _ _, fun hm => h.blocked (mem_of_mem_filter hm),
      fun hm => h.pending (mem_of_mem_filter hm)⟩
  kept _ hs hk := ⟨hs, kept_unlink hk i⟩
  noneAdded hc := ⟨hc, fun _ hk => mem_of_mem_filter hk⟩
  input := rfl
  closed := id

lemma still_preDisposeRequest (ht : v.stream.state = .closeWait) :
    Still env i v (v.preDisposeRequest env) := by
  have hb : Still env i v (v.mapStream (·.setReqBody none)) := .mapStream_of_key rfl rfl
  unfold View.preDisposeRequest
  dsimp only
  split
  · refine (hb.trans (.mapStream rfl rfl fun h => ?_)).trans (still_endStreaming _)
    refine h.of_not_isReceiving ?_ rfl rfl
    change v.stream.state.isReceiving = false
    rw [ht]
    rfl
  · exact hb

lemma others_changeState (v : View) (state : StreamState) :
    Others i v.shared (v.changeState state).shared :=
  .of_lists rfl id id

lemma kept_changeState (hw : state ≠ .recvBodyUnblocked)
    (hs : v.stream.state ≠ .recvBodyUnblocked) (hk : Kept env v.shared) :
    (v.changeState state).stream.state ≠ .recvBodyUnblocked ∧
      Kept env (v.changeState state).shared := by
  refine ⟨hw, ?_⟩
  change Kept env (v.shared.count v.stream.state state)
  rw [count_eq hs hw]
  exact hk

/-- The stream is changed, and its state to one in which the request is processed. -/
lemma still_changeState {f : Stream → Stream}
    (ht : (f v.stream).state = v.stream.state) (hsm : (f v.stream).input = v.stream.input)
    (hw : state.isReceiving = false) (hl : state ≠ .closeWait)
    (ho : v.stream.state ≠ .closeWait) (hn : Base i v → v.stream.handleInput ≠ .expectHeaders)
    (hb : Base i v → i ∉ v.shared.recvBodyBlocked) (he : Base i v → i ∉ v.shared.pending) :
    Still env i v ((v.mapStream f).changeState state) where
  others := others_changeState (v.mapStream f) state
  base h := by
    refine ⟨sound_of_not_isReceiving hw fun hi => absurd ?_ (hn h), fun hc => absurd hc hl,
      fun hm => absurd hm (hb h), fun hm => absurd hm (he h)⟩
    exact (input_eq_iff.1 hsm).1.symm.trans hi
  kept _ hs := kept_changeState (v := v.mapStream f) (ne_of_isReceiving hw rfl)
    fun h => hs (ht.symm.trans h)
  noneAdded _ := ⟨canBlock_of_not_isReceiving hw, fun _ hk => hk⟩
  input := hsm
  closed hc := absurd hc ho

lemma not_mem_unlink (d : Shared) (i : ℕ) :
    i ∉ (d.unlink i).recvBodyBlocked ∧ i ∉ (d.unlink i).pending := by
  simp [Shared.unlink]

lemma setState_closeWait (v : View) :
    v.setState env i .closeWait = (v.enterCloseWait i).preDisposeRequest env :=
  if_pos rfl

lemma setState_eq (v : View) (h : state ≠ .closeWait) :
    v.setState env i state = v.changeState state :=
  if_neg h

/-- The stream is changed and closed, whatever it has been. No slot is freed unless it had one. -/
lemma still_close {f : Stream → Stream} (hst : (f v.stream).state = v.stream.state)
    (hsm : (f v.stream).input = v.stream.input) :
    Still env i v ((v.mapStream f).setState env i .closeWait) := by
  have ho := not_mem_unlink ((v.mapStream f).changeState .closeWait).shared i
  have ht : Still env i v ((v.mapStream f).enterCloseWait i) := by
    refine ⟨⟨(others_changeState (v.mapStream f) _).trans (others_unlink _ i), fun _ => ?_,
      fun _ hs hk => ⟨nofun, ?_⟩,
      fun _ => ⟨rfl, fun _ hk => mem_of_mem_filter hk⟩⟩, hsm, fun _ => rfl⟩
    · exact ⟨sound_of_not_isReceiving rfl fun _ => rfl, fun _ => isLinked_unlink _ _,
        fun hm => absurd hm ho.1, fun hm => absurd hm ho.2⟩
    · change Kept env ((v.shared.count (f v.stream).state .closeWait).unlink i)
      rw [hst, count_eq hs noConfusion]
      exact kept_unlink hk i
  rw [setState_closeWait]
  exact ht.trans (still_preDisposeRequest rfl)

lemma still_closeWait (v : View) : Still env i v (v.setState env i .closeWait) :=
  still_close (f := id) rfl rfl

lemma still_requestStop (v : View) : Still env i v v.requestStop := by
  unfold View.requestStop
  split
  · exact .refl v
  · exact .mapStream_of_key rfl rfl

lemma key_requestStop (v : View) : v.requestStop.stream.key = v.stream.key := by
  unfold View.requestStop
  split <;> rfl

/-- A stream whose response is over is being processed. -/
lemma Sound.isReceiving_eq_false (h : Sound s) (hd : s.sendOpen = false) :
    s.state.isReceiving = false := by
  refine eq_false_iff.2 fun hi => ?_
  rw [h.sendOpen hi] at hd
  cases hd

/-- The head of a request that is being processed has been received. -/
lemma Sound.handleInput_ne (h : Sound s) (ht : s.state.isReceiving = false)
    (hl : s.state ≠ .closeWait) : s.handleInput ≠ .expectHeaders := by
  intro hn
  rcases h.head hn with hs | hs
  · rw [hs] at ht
    cases ht
  · exact hl hs

/-- The state of a request that is being processed is changed. -/
lemma still_changeState_of_not_isReceiving
    (hw : state.isReceiving = false) (hn' : state ≠ .closeWait) (hl : v.stream.state ≠ .closeWait)
    (ho : Base i v → v.stream.state.isReceiving = false) : Still env i v (v.changeState state) :=
  still_changeState (f := id) rfl rfl hw hn' hl (fun h => h.sound.handleInput_ne (ho h) hl)
    (fun h => h.not_mem_blocked (ne_of_isReceiving (ho h) rfl))
    fun h => h.not_mem_pending (ne_of_isReceiving (ho h) rfl)

/-- `shutdown_stream`, when the stream is closed. -/
lemma still_shutdownStream_false (v : View) : Still env i v (v.shutdownStream env i false) :=
  (still_requestStop v).trans (still_close rfl rfl)

lemma still_shutdownStream (hl : v.stream.state ≠ .closeWait)
    (resetOnlyIfOpen : Bool) : Still env i v (v.shutdownStream env i resetOnlyIfOpen) := by
  refine .trans (still_requestStop v) ?_
  unfold View.shutdownStream
  dsimp only
  split
  · rename_i hre
    have hd : v.requestStop.stream.sendOpen = false := by
      simpa using ((and_eq_true _ _).mp hre).2
    split
    · exact .refl _
    · rw [setState_eq _ noConfusion]
      refine still_changeState_of_not_isReceiving rfl nofun ?_ fun h =>
        h.sound.isReceiving_eq_false hd
      rw [(key_eq_iff.1 (key_requestStop v)).1]
      exact hl
  · exact still_close rfl rfl

/-! ## Sending -/

lemma still_shutdownByGenerator (ht : v.stream.state.isReceiving = false) :
    Still env i v (v.shutdownByGenerator env i) := by
  have hd : Still env i v (v.mapStream (·.setSendOpen false)) :=
    .mapStream rfl rfl fun h => h.of_not_isReceiving ht rfl rfl
  unfold View.shutdownByGenerator
  dsimp only
  split
  · exact hd
  · exact hd.trans ((still_requestStop _).trans (still_closeWait _))

lemma still_sendBody (hasBody final : Bool) (ht : v.stream.state.isReceiving = false) :
    Still env i v (v.sendBody env i hasBody final) := by
  have hv : Still env i v (v.mapStream (·.setUnsent true)) := .mapStream_of_key rfl rfl
  unfold View.sendBody
  cases hasBody with
  | true =>
    cases final with
    | true => exact hv.trans (still_shutdownByGenerator ht)
    | false => exact hv
  | false =>
    cases final with
    | true => exact still_shutdownByGenerator ht
    | false => exact .refl v

lemma still_doSend (v : View) (hasBody final : Bool) :
    Still env i v (v.doSend env i hasBody final) := by
  unfold View.doSend
  split
  · rename_i ht
    have hv : Still env i v (v.mapStream (·.setUnsent true)) := .mapStream_of_key rfl rfl
    refine (hv.trans ?_).trans (still_sendBody _ _ rfl)
    rw [setState_eq _ noConfusion]
    refine still_changeState_of_not_isReceiving rfl nofun ?_ fun _ => ?_
    · exact fun hc => noConfusion (ht.symm.trans hc)
    · change v.stream.state.isReceiving = false
      rw [ht]
      rfl
  · rename_i ht
    split
    · refine still_sendBody _ _ ?_
      rw [ht]
      rfl
    · exact .refl v
  · exact .refl v

lemma still_appSend (v : View) (call : AppCall) : Still env i v (v.appSend env i call) := by
  unfold View.appSend
  split
  · exact still_doSend v _ _
  · split
    · exact .mapStream_of_key rfl rfl
    · exact .refl v
  · exact .refl v

/-- A list of calls. -/
lemma still_foldl {f : View → AppCall → View} (h : ∀ v call, Still env i v (f v call))
    (v : View) (calls : List AppCall) : Still env i v (calls.foldl f v) := by
  induction calls generalizing v with
  | nil => exact .refl v
  | cons call calls ih => exact (h v call).trans (ih (f v call))

/-! ## Receiving -/

variable (hn : v.stream.handleInput ≠ .expectHeaders)
include hn

/-- `handle_input_expect_headers_send_http_error`. -/
lemma still_sendHttpError
    (hb : v.stream.state ≠ .recvBodyBlocked) (he : v.stream.state ≠ .reqPending)
    (hl : v.stream.state ≠ .closeWait) : Still env i v (v.sendHttpError env i) := by
  have hc {v' : View} (hk : v'.stream.key = v.stream.key) :
      Still env i v' (v'.setState env i .sendHeaders) := by
    obtain ⟨ht, -, hi', -⟩ := key_eq_iff.1 hk
    rw [setState_eq _ noConfusion]
    exact still_changeState (f := id) rfl rfl rfl noConfusion (ht ▸ hl)
      (fun _ => hi' ▸ hn) (fun h => h.not_mem_blocked (ht ▸ hb))
      fun h => h.not_mem_pending (ht ▸ he)
  unfold View.sendHttpError
  split
  · exact (hc rfl).trans (still_doSend _ _ _)
  · exact ((still_requestStop v).trans (hc (key_requestStop v))).trans (still_doSend _ _ _)

/-- `handle_input_expect_headers_process_connect`. -/
lemma still_processConnect
    (hst : v.stream.state = .recvHeaders) : Still env i v (v.processConnect env i) := by
  have hne {state : StreamState} (h : recvHeaders ≠ state) : v.stream.state ≠ state :=
    hst ▸ h
  unfold View.processConnect
  split
  · exact still_sendHttpError hn (hne nofun) (hne nofun) (hne nofun)
  · have ht : Still env i v ((v.mapStream (·.startTunnel)).changeState .sendHeaders) :=
      still_changeState rfl rfl rfl noConfusion (hne nofun)
        (fun _ => hn) (fun h => h.not_mem_blocked (hne nofun))
        fun h => h.not_mem_pending (hne nofun)
    exact ht.trans (.trans (.mapStream_of_key rfl rfl) (still_foldl still_appSend _ _))

/-- The head has been received. -/
lemma still_beforeBlock (ht : v.stream.state = .recvHeaders) :
    Still env i v (v.changeState .recvBodyBeforeBlock) := by
  refine ⟨⟨others_changeState _ _, fun h => ?_, fun _ => kept_changeState nofun,
    fun ha => ?_⟩, rfl, fun hc => noConfusion (ht.symm.trans hc)⟩
  swap
  · rw [ht] at ha
    cases ha
  have hv : v.stream.state.isReceiving = true := by rw [ht]; rfl
  have hb := h.not_mem_blocked (by rw [ht]; exact nofun)
  have he := h.not_mem_pending (by rw [ht]; exact nofun)
  refine ⟨⟨fun _ => h.sound.sendOpen hv, fun _ => h.sound.notStreaming hv, ?_, ?_⟩,
    ?_, fun hm => absurd hm hb, fun hm => absurd hm he⟩
  · exact nofun
  · exact fun hi => absurd hi hn
  · exact nofun

omit hn

/-- The rest of `handle_input_expect_headers`. -/
lemma still_processHead (head : Head) (hn : v.stream.handleInput ≠ .expectHeaders)
    (ht : v.stream.state = .recvHeaders) : Still env i v (v.processHead env i head).2 := by
  have hlen : Still env i v (v.mapStream (·.setContentLength head.contentLength)) :=
    .mapStream_of_key rfl rfl
  have hne {state : StreamState} (h : recvHeaders ≠ state) : v.stream.state ≠ state :=
    ht ▸ h
  have her : Still env i _
      ((v.mapStream (·.setContentLength head.contentLength)).sendHttpError env i) :=
    still_sendHttpError hn (hne nofun) (hne nofun) (hne nofun)
  have hb : Still env i _
      ((v.mapStream (·.setContentLength head.contentLength)).changeState .recvBodyBeforeBlock) :=
    still_beforeBlock hn ht
  refine hlen.trans ?_
  unfold View.processHead
  dsimp only
  rw [setState_eq _ noConfusion]
  split
  · exact still_shutdownStream_false _
  split
  · exact her
  split
  · exact .refl _
  split
  · exact her
  split
  · exact still_processConnect hn ht
  split
  · exact hb.trans (still_sendHttpError hn nofun nofun nofun)
  · refine hb.trans ?_
    exact .mapStream_of_key (f := (·.setUnsent true)) rfl rfl
  · exact hb

/-- What `handle_input` does: it accepts no more of the body than is announced. -/
structure Handles (env : Env) (i : ℕ) (v : View) (src : Bytes) (r : Result) : Prop
    extends Moves env i v r.2.1 where
  within : ∀ m, announced env v.stream src ≤ m → r.1 ≠ .error → Within env m r.2.1.stream r.2.2

variable {src rest : Bytes} {code : Code} {f : Frame}

lemma Handles.of_still (h : Still env i v v') : Handles env i v src (code, v', src) :=
  ⟨h.toMoves, fun _ ha _ => h.within (within_of_announced ha)⟩

lemma Handles.error (h : Moves env i v v') : Handles env i v src (.error, v', rest) :=
  ⟨h, fun _ _ hc => absurd rfl hc⟩

lemma Handles.next (h : Moves env i v v')
    (hq : announced env v'.stream rest = announced env v.stream src) :
    Handles env i v src (code, v', rest) :=
  ⟨h, fun _ ha _ => within_of_announced (hq.trans_le ha)⟩

/-- Another frame than a DATA frame, after which something else may be expected. -/
lemma handles_frame {input : HandleInput} (hn : v.stream.handleInput ≠ .expectDataPayload)
    (hx : input ≠ .expectDataPayload) (hh : input ≠ .expectHeaders)
    (hd : readFrame false env.maxFramePayloadSize src = .frame f rest) (ht : f.type ≠ .data) :
    Handles env i v src (code, v.mapStream (·.setHandleInput input), rest) := by
  refine .next (.mapStream rfl fun h =>
    ⟨h.sendOpen, h.notStreaming, h.readBlocked, fun hi => absurd hi hh⟩) ?_
  exact announced_frame hn hx rfl hd ht

lemma handles_expectHeaders (hb : Base i v) (hl : v.stream.state ≠ .closeWait)
    (hn : v.stream.handleInput = .expectHeaders) (src : Bytes) :
    Handles env i v src (v.handleExpectHeaders env i src) := by
  have hst : v.stream.state = .recvHeaders := (hb.sound.head hn).resolve_right hl
  have ho : v.stream.handleInput ≠ .expectDataPayload := hn ▸ HandleInput.noConfusion
  unfold View.handleExpectHeaders
  cases hd : readFrame false env.maxFramePayloadSize src with
  | incomplete => exact .of_still (.refl v)
  | tooLarge type =>
    dsimp only
    split
    · exact .of_still (still_shutdownStream_false v)
    · exact .error (.refl v)
  | unexpected => exact .error (.refl v)
  | frame f rest =>
    dsimp only
    cases ht : f.type with
    | headers =>
      have hx (code : Code) : Handles env i v src
          (code, v.mapStream (·.setHandleInput .expectData), rest) :=
        handles_frame ho nofun nofun hd (by simp [ht])
      cases env.parseRequest f.payload with
      | none => exact hx _
      | some head =>
        have hp : Still env i (v.mapStream (·.setHandleInput .expectData)) _ :=
          still_processHead head nofun hst
        exact ⟨(hx .ok).toMoves.trans hp.toMoves, fun m ha _ =>
          hp.within ((hx .ok).within m ha nofun)⟩
    | data => exact .error (.refl v)
    | _ => exact .next (.refl v) (announced_frame ho ho rfl hd (by simp [ht]))

lemma moves_startData (v : View) (length : ℕ) :
    Moves env i v (v.mapStream (·.startData length)) := by
  refine .mapStream ?_ fun h => ?_
  · unfold Stream.startData
    split <;> rfl
  · unfold Stream.startData
    split
    · exact h
    · exact ⟨h.sendOpen, h.notStreaming, h.readBlocked, nofun⟩

lemma handles_expectData (hn : v.stream.handleInput = .expectData) (src : Bytes) :
    Handles env i v src (v.handleExpectData env i src) := by
  have ho : v.stream.handleInput ≠ .expectDataPayload := hn ▸ HandleInput.noConfusion
  unfold View.handleExpectData
  cases hd : readFrame false env.maxFramePayloadSize src with
  | incomplete => exact .of_still (.refl v)
  | tooLarge type | unexpected => exact .error (.refl v)
  | frame f rest =>
    dsimp only
    cases ht : f.type with
    | headers =>
      dsimp only
      split
      · exact .error (.refl v)
      · exact handles_frame ho nofun nofun hd (by simp [ht])
    | data =>
      dsimp only
      split
      · have hdo : Still env i v (v.shutdownStream env i false) := still_shutdownStream_false v
        refine ⟨hdo.toMoves, fun m ha _ => ⟨(hdo.within (within_of_announced ha)).1, .inl ?_⟩⟩
        exact (still_preDisposeRequest (i := i) rfl).closed rfl
      · exact .next (moves_startData v _) (announced_startData hn hd ht)
    | _ => exact .next (.refl v) (announced_frame ho ho rfl hd (by simp [ht]))

lemma handles_expectDataPayload (hn : v.stream.handleInput = .expectDataPayload)
    (src : Bytes) : Handles env i v src (v.handleExpectDataPayload src) := by
  refine .next (.mapStream rfl fun h => ⟨h.sendOpen, h.notStreaming, h.readBlocked, fun hi => ?_⟩)
    (announced_appendBody src hn)
  unfold Stream.appendBody at hi
  split at hi
  · cases hi
  · rw [hn] at hi
    cases hi

lemma handles_postTrailers (hn : v.stream.handleInput = .postTrailers) (src : Bytes) :
    Handles env i v src (v.handlePostTrailers env src) := by
  have ho : v.stream.handleInput ≠ .expectDataPayload := hn ▸ HandleInput.noConfusion
  unfold View.handlePostTrailers
  cases hd : readFrame false env.maxFramePayloadSize src with
  | incomplete => exact .of_still (.refl v)
  | tooLarge type | unexpected => exact .error (.refl v)
  | frame f rest =>
    dsimp only
    cases ht : f.type with
    | headers | data => exact .error (.refl v)
    | _ => exact .next (.refl v) (announced_frame ho ho rfl hd (by simp [ht]))

lemma handles_handle (hb : Base i v) (hl : v.stream.state ≠ .closeWait) (src : Bytes) :
    Handles env i v src (v.handle env i src) := by
  unfold View.handle
  split
  · exact handles_expectHeaders hb hl ‹_› src
  · exact handles_expectData ‹_› src
  · exact handles_expectDataPayload ‹_› src
  · exact handles_postTrailers ‹_› src

/-- An incomplete frame does nothing. -/
lemma handle_incomplete (h : v.handle env i src = (.incomplete, v', rest)) : v' = v := by
  unfold View.handle View.handleExpectHeaders View.handleExpectData View.handleExpectDataPayload
    View.handlePostTrailers View.processHead at h
  repeat' split at h
  all_goals
    first
    | (cases h; rfl)
    | cases h

/-- How the loop ends. -/
def LoopResult.view : LoopResult → View
  | .returned v => v
  | .consumed v => v

/-- The loop of `handle_buffered_input`. -/
lemma moves_handleLoop (env : Env) (fuel : ℕ) (hb : Base i v) (hl : v.stream.state ≠ .closeWait)
    (src : Bytes) : Moves env i v (handleLoop env i fuel v src).view ∧
      ∀ m, announced env v.stream src ≤ m → Bounded env m (handleLoop env i fuel v src).view := by
  have hu (v : View) (buf : Bytes) : Moves env i v (v.mapStream (·.setBuf buf)) :=
    .mapStream rfl fun h => h.of_key rfl
  induction fuel generalizing v src with
  | zero => exact ⟨hu v src, fun m ha => .inr (within_of_announced ha)⟩
  | succ fuel ih =>
    have hstep : Handles env i v src (v.handle env i src) := handles_handle hb hl src
    unfold handleLoop
    rcases hrs : v.handle env i src with ⟨code, v', rest⟩
    rw [hrs] at hstep
    have hc : Moves env i v v'.closeConnection :=
      hstep.toMoves.trans (still_closeConnection v').toMoves
    cases code with
    | incomplete =>
      dsimp only
      split
      · exact ⟨hc, fun _ _ => .inl rfl⟩
      · exact ⟨hstep.toMoves.trans (hu v' rest), fun m ha =>
          .inr (hstep.within m ha nofun)⟩
    | error => exact ⟨hc, fun _ _ => .inl rfl⟩
    | ok =>
      have hw (m : ℕ) (ha : announced env v.stream src ≤ m) :=
        hstep.within m ha nofun
      dsimp only
      split
      · rename_i hc'
        exact ⟨hstep.toMoves, fun m ha => .inr ⟨(hw m ha).1, .inl hc'⟩⟩
      rename_i hc'
      split
      · have hre := ih (hstep.base hb) hc' rest
        exact ⟨hstep.toMoves.trans hre.1, fun m ha =>
          hre.2 m ((hw m ha).2.resolve_left hc')⟩
      · exact ⟨hstep.toMoves.trans (hu v' rest), fun m ha => .inr (hw m ha)⟩

/-- The stream is not closed if `handle_buffered_input` goes on. -/
lemma handleLoop_consumed (fuel : ℕ) {v v' : View} {src : Bytes}
    (hl : v.stream.state ≠ .closeWait) (h : handleLoop env i fuel v src = .consumed v') :
    v'.stream.state ≠ .closeWait := by
  induction fuel generalizing v src with
  | zero =>
    cases h
    exact hl
  | succ fuel ih =>
    unfold handleLoop at h
    rcases hstep : v.handle env i src with ⟨code, v1, rest⟩
    rw [hstep] at h
    cases code with
    | incomplete =>
      dsimp only at h
      split at h
      · cases h
      · cases h
        rw [handle_incomplete hstep]
        exact hl
    | error => cases h
    | ok =>
      dsimp only at h
      split at h
      · cases h
      rename_i hc'
      split at h
      · exact ih hc' h
      · cases h
        exact hc'

/-! ## Lists of delayed streams -/

/-- A stream that is being processed, or whose data is to be submitted. -/
lemma still_linkStreaming (hl : v.stream.state ≠ .closeWait) :
    Still env i v (v.linkStreaming i) := by
  have ha : Still env i v (v.mapShared (·.addStreaming i)) := by
    unfold View.mapShared Shared.addStreaming
    dsimp only
    split
    · exact .refl v
    · refine ⟨⟨⟨fun _ _ => Iff.rfl, fun k hk => ?_, fun _ _ => Iff.rfl, id, id⟩, fun h => ?_,
        fun _ hs hk => ⟨hs, hk⟩, fun hca => ⟨hca, fun _ hk => hk⟩⟩, rfl, id⟩
      · simp [hk]
      · exact ⟨h.sound, fun hc => absurd hc hl, h.blocked, h.pending⟩
  exact ha.trans (still_requestRunDelayed _)

/-- A request that has been received is to be processed; this is not forgotten. -/
lemma kept_linkPending (v : View) : Kept env (v.linkPending env i).shared :=
  kept_requestRunDelayed env _

lemma still_linkPending (hn : v.stream.handleInput ≠ .expectHeaders)
    (hv : v.stream.state.isReceiving = true)
    (hb : v.stream.state ≠ .recvBodyBlocked) : Still env i v (v.linkPending env i) := by
  unfold View.linkPending
  rw [setState_eq _ noConfusion]
  refine ⟨⟨⟨fun _ _ => Iff.rfl, fun _ _ => Iff.rfl, fun k hk => ?_, fun _ => rfl, id⟩,
    fun h => ⟨?_, ?_, ?_, ?_⟩,
    fun _ _ _ => ⟨nofun, kept_requestRunDelayed env _⟩,
    fun _ => ⟨rfl, fun _ hk => hk⟩⟩, rfl, fun hc => ?_⟩
  rotate_right
  · rw [hc] at hv
    cases hv
  · change k ∈ v.shared.pending ++ [i] ↔ k ∈ v.shared.pending
    simp [hk]
  · exact ⟨fun _ => h.sound.sendOpen hv, fun _ => h.sound.notStreaming hv,
      nofun, fun hi => absurd hi hn⟩
  · exact nofun
  · exact fun hm => absurd hm (h.not_mem_blocked hb)
  · exact fun _ => rfl

/-- The request waits to be unblocked. -/
lemma still_linkBlocked (ht : v.stream.state = .recvBodyBeforeBlock) :
    Still env i v (v.linkBlocked env i) := by
  have hv : v.stream.state.isReceiving = true := by rw [ht]; rfl
  have hd (h : Base i v) : Base i
      (((v.mapStream (·.setReadBlocked true)).mapShared (·.addBlocked i)).changeState
        .recvBodyBlocked) := by
    refine ⟨⟨fun _ => h.sound.sendOpen hv, fun _ => h.sound.notStreaming hv,
      fun _ => rfl, fun hi => ?_⟩, nofun, fun _ => rfl, fun hm => ?_⟩
    · have hne := h.sound.head hi
      rw [ht] at hne
      rcases hne with hne | hne <;> cases hne
    · refine absurd hm (h.not_mem_pending ?_)
      rw [ht]
      exact nofun
  have ho : Others i v.shared
      (((v.mapStream (·.setReadBlocked true)).mapShared (·.addBlocked i)).changeState
        .recvBodyBlocked).shared := by
    refine ⟨fun k hk => ?_, fun _ _ => Iff.rfl, fun _ _ => Iff.rfl, id, id⟩
    change k ∈ v.shared.recvBodyBlocked ++ [i] ↔ k ∈ v.shared.recvBodyBlocked
    simp [hk]
  unfold View.linkBlocked
  dsimp only
  rw [setState_eq _ noConfusion]
  have hh (w : View) : Still env i w (w.mapShared (·.checkRunBlocked env)) :=
    still_checkRunBlocked w
  refine ⟨⟨ho.trans (hh _).others, fun h => (hh _).base (hd h),
    fun _ _ _ => ⟨nofun, kept_checkRunBlocked env _⟩, fun ha => ?_⟩, rfl,
    fun hc => noConfusion (ht.symm.trans hc)⟩
  rw [ht] at ha
  cases ha

variable (hl : v.stream.state ≠ .closeWait)
include hl

/-- The end of `handle_buffered_input`, when the request has been received completely. -/
lemma still_receivedAll
    (hb : v.stream.state ≠ .recvBodyBlocked) : Still env i v (v.receivedAll env i) := by
  unfold View.receivedAll
  dsimp only
  split
  · rename_i ha
    split
    · exact still_shutdownStream_false v
    split
    · exact still_linkStreaming hl
    split
    · rename_i hw
      refine still_linkPending (fun hi => ?_) ((and_eq_true _ _).mp hw).2 hb
      rw [hi] at ha
      rcases ha.2 with h | h <;> cases h
    · exact .refl v
  · exact still_shutdownStream_false v

/-- The end of `handle_buffered_input`, when there is more to come. -/
lemma still_receivedSome : Still env i v (v.receivedSome env i) := by
  unfold View.receivedSome
  dsimp only
  split
  · rename_i hb
    exact still_linkBlocked hb.1
  split
  · exact still_linkStreaming hl
  · exact .refl v

/-- The end of `handle_buffered_input`. -/
lemma still_received (hb : v.stream.state ≠ .recvBodyBlocked) :
    Still env i v (if v.stream.recvComplete then v.receivedAll env i
      else v.receivedSome env i) := by
  split
  · exact still_receivedAll hl hb
  · exact still_receivedSome hl

omit hl

lemma works_handleBufferedInput (hb : Base i v) (hk : v.stream.state ≠ .recvBodyBlocked) :
    Works env i v (v.handleBufferedInput env i) := by
  unfold View.handleBufferedInput
  by_cases hl : v.stream.state = .closeWait
  · rw [if_pos hl]
    exact (Still.refl v).works
  rw [if_neg hl]
  by_cases hu : v.stream.buf = []
  · rw [if_pos hu]
    dsimp only
    rw [if_neg fun h => h.1 hu]
    exact (still_received hl hk).works
  · rw [if_neg hu]
    have hp : Works env i v (handleLoop env i v.stream.buf.length v v.stream.buf).view := by
      obtain ⟨hm, hd⟩ :=
        moves_handleLoop env v.stream.buf.length hb hl v.stream.buf
      refine ⟨hm, fun _ m hb => ?_⟩
      rcases hb with hc | hw
      · exact .inl (hm.others.closing hc)
      · exact hd m (hw.2.resolve_left hl)
    cases hre : handleLoop env i v.stream.buf.length v v.stream.buf with
    | returned v' =>
      rw [hre] at hp
      exact hp
    | consumed v' =>
      rw [hre] at hp
      dsimp only
      split
      · exact hp
      · rename_i hrd
        refine hp.andThen hb fun hb' =>
          (still_received (handleLoop_consumed _ hl hre) fun hs => ?_).works
        exact hrd ⟨hu, hb'.sound.readBlocked hs⟩

lemma moves_onReceive (env : Env) (hb : Base i v) (fresh : Bytes) :
    Moves env i v (v.onReceive env i fresh) ∧
      ∀ m, announced env v.stream (v.stream.buf ++ fresh) ≤ m →
        Bounded env m (v.onReceive env i fresh) := by
  have hu : Moves env i v (v.mapStream fun s => s.setBuf (s.buf ++ fresh)) :=
    .mapStream rfl fun h => h.of_key rfl
  unfold View.onReceive
  dsimp only
  split
  · exact ⟨hu, fun m ha => .inr (within_of_announced ha)⟩
  · rename_i hd
    have hh : Works env i _ _ := works_handleBufferedInput (hu.base hb) fun hs => hd <| by
      rw [(hu.base hb).sound.readBlocked hs]
      rfl
    exact ⟨hu.trans hh.toMoves, fun m ha =>
      hh.bounded (hu.base hb) m (.inr (within_of_announced ha))⟩

/-! ## The application -/

lemma still_tidyUp (ht : v.stream.state.isReceiving = false) : Still env i v (v.tidyUp env) := by
  have hd : Still env i v (v.mapStream (·.endStreaming)) :=
    .mapStream rfl rfl fun h => h.of_not_isReceiving ht rfl rfl
  unfold View.tidyUp
  cases v.stream.isTunnelReq with
  | true => exact hd.trans (still_checkRunBlocked _)
  | false => exact hd.trans (still_endStreaming _)

/-- A request that can proceed is being processed. -/
lemma Sound.isReceiving_of_proceedReq (h : Sound s)
    (hp : s.proceedReq = true) : s.state.isReceiving = false := by
  refine eq_false_iff.2 fun hi => ?_
  rw [(h.notStreaming hi).2] at hp
  cases hp

lemma works_proceedRequestStreaming (hb : Base i v) (err : Bool)
    (hp : v.stream.proceedReq = true) (hl : v.stream.state ≠ .closeWait) :
    Works env i v (v.proceedRequestStreaming env i err) := by
  have hst := hb.sound.isReceiving_of_proceedReq hp
  unfold View.proceedRequestStreaming
  extract_lets v1
  have ht : Still env i v v1 := by
    unfold v1
    split
    · exact still_tidyUp hst
    · exact .refl v
  have hm : v1.stream.state = v.stream.state := by
    unfold v1
    split <;> rfl
  have ht1 : v1.stream.state.isReceiving = false := by rw [hm]; exact hst
  cases err with
  | true => exact (ht.trans (still_shutdownStream (hm ▸ hl) true)).works
  | false =>
    rw [if_neg Bool.false_ne_true]
    refine (ht.trans (.mapStream rfl rfl fun h => ?_)).works.andThen hb fun hb' =>
      works_handleBufferedInput hb' (ne_of_isReceiving ht1 rfl)
    exact h.of_not_isReceiving ht1 rfl rfl

/-- A call of the application. -/
lemma works_appCall (hb : Base i v) (call : AppCall) : Works env i v (v.appCall env i call) := by
  unfold View.appCall
  split
  · split
    · rename_i hp
      exact works_proceedRequestStreaming hb _ hp.1 hp.2.1
    · exact (Still.refl v).works
  · exact (still_appSend v _).works

/-- The calls that the application makes before it returns. -/
lemma works_react (hb : Base i v) : Works env i v (v.react env i) := by
  unfold View.react
  generalize env.react i v = calls
  induction calls generalizing v with
  | nil => exact (Still.refl v).works
  | cons call calls ih => exact (works_appCall hb call).andThen hb fun hb' => ih hb'

lemma works_processRequest (hb : Base i v) : Works env i v (v.processRequest env i) := by
  have hc : Still env i v (v.mapStream (·.setProcessCalled)) := .mapStream_of_key rfl rfl
  exact hc.works.andThen hb fun hb' => works_react hb'

/-! ## Delayed streams -/

/-- `write_req` is called by `run_delayed`. -/
lemma works_callWriteReq (hb : Base i v) : Works env i v (v.callWriteReq env i) := by
  have hd : Still env i v ((v.mapShared (·.unlink i)).mapStream (·.setReadBlocked true)) :=
    (still_unlink v).trans
      (.mapStream rfl rfl fun h => ⟨h.sendOpen, h.notStreaming, fun _ => rfl, h.head⟩)
  have ha := hd.works.andThen hb fun hb' => works_react hb'
  unfold View.callWriteReq
  dsimp only
  split
  · rename_i hf
    exact ha.trans (still_shutdownStream hf.2 true).works
  · exact ha

/-- A stream that is pending or blocked expects more of its request. -/
lemma Sound.handleInput_ne_of_state (h : Sound s)
    (hs : s.state = state) (hh : state ≠ .recvHeaders) (hl : state ≠ .closeWait) :
    s.handleInput ≠ .expectHeaders :=
  fun hi => (h.head hi).elim (fun h => hh (hs.symm.trans h)) fun h => hl (hs.symm.trans h)

/-- A request is processed by `run_delayed`. -/
lemma works_runPending (hb : Base i v) (hm : i ∈ v.shared.pending) :
    Works env i v (v.runPending env i) := by
  have ho := not_mem_unlink v.shared i
  have hl : v.stream.state ≠ .closeWait := hb.pending hm ▸ noConfusion
  have hn := hb.sound.handleInput_ne_of_state (hb.pending hm) nofun nofun
  have ht : Still env i v ((v.mapShared (·.unlink i)).changeState .sendHeaders) :=
    (still_unlink v).trans (still_changeState (f := id) rfl rfl rfl nofun hl
      (fun _ => hn) (fun _ => ho.1) fun _ => ho.2)
  unfold View.runPending
  rw [setState_eq _ noConfusion]
  exact ht.works.andThen hb fun hb' => works_processRequest hb'

/-- A blocked stream is promoted by `run_delayed`. It may get a slot. -/
lemma promote_spec (env : Env) (hb : Base i v) (hm : i ∈ v.shared.recvBodyBlocked) :
    Others i v.shared (v.promote env i).shared ∧ Base i (v.promote env i) ∧
      ∀ m, Bounded env m v → Bounded env m (v.promote env i) := by
  have ho := not_mem_unlink v.shared i
  have hc : v.stream.state.isReceiving = true := by rw [hb.blocked hm]; rfl
  have hl : v.stream.state ≠ .closeWait := hb.blocked hm ▸ noConfusion
  have hn := hb.sound.handleInput_ne_of_state (hb.blocked hm) nofun nofun
  have ht {v' v'' : View} (ha : Base i v') (h : v'.stream.input = v.stream.input)
      (hh : Others i (v.shared.unlink i) v'.shared) (hwo : Works env i v' v'') :
      Others i v.shared v''.shared ∧ Base i v'' ∧
        ∀ m, Bounded env m v → Bounded env m v'' := by
    have ho' := (others_unlink v.shared i).trans hh
    refine ⟨ho'.trans hwo.others, hwo.base ha, fun m hd =>
      hwo.bounded ha m (hd.imp ho'.closing fun hw => within_of_announced ?_)⟩
    rw [announced_eq_of_input h, (input_eq_iff.1 h).2.2.2]
    exact hw.2.resolve_left hl
  unfold View.promote
  dsimp only
  split
  · rw [setState_eq _ noConfusion]
    have ha : Base i ((((v.mapShared (·.unlink i)).mapStream (·.startStreaming)).mapShared
        (·.startStreaming)).changeState .sendHeaders) :=
      ⟨sound_of_not_isReceiving rfl fun hi => absurd hi hn,
        nofun, fun h => absurd h ho.1, fun h => absurd h ho.2⟩
    exact ht ha rfl (.of_lists rfl id id) (works_processRequest ha)
  · rw [setState_eq _ noConfusion]
    have ha : Base i (((v.mapShared (·.unlink i)).mapStream
        (·.setReadBlocked false)).changeState .recvBodyUnblocked) :=
      ⟨⟨fun _ => hb.sound.sendOpen hc, fun _ => hb.sound.notStreaming hc,
          nofun, fun hi => absurd hi hn⟩,
        nofun, fun h => absurd h ho.1, fun h => absurd h ho.2⟩
    exact ht ha rfl (.of_lists rfl id id) (works_handleBufferedInput ha nofun)

/-! ## The connection -/

/-- The invariant of all streams; only streams that exist are in the lists. -/
structure Conn.Fits (c : Conn) : Prop where
  base : ∀ i s, c.streams i = some s → Base i ⟨c.shared, s⟩
  exists_of_linked : ∀ i, c.streams i = none → c.shared.isLinked i = false

lemma Others.isLinked_eq (h : Others i d d') (hne : k ≠ i) : d'.isLinked k = d.isLinked k := by
  unfold Shared.isLinked
  simp only [h.blocked k hne, h.streaming k hne, h.pending k hne]

lemma Base.of_others (h : Base k ⟨d, s⟩) (ho : Others i d d') (hne : k ≠ i) : Base k ⟨d', s⟩ := by
  refine ⟨h.sound, fun hc => ?_, fun hm => h.blocked ((ho.blocked k hne).1 hm),
    fun hm => h.pending ((ho.pending k hne).1 hm)⟩
  exact (ho.isLinked_eq hne).trans (h.closed hc)

/-- One stream is changed, and the others stay in their lists. -/
lemma fits_update {o : Option Stream} (h : c.Fits)
    (ho : Others i c.shared d) (hso : ∀ s, o = some s → Base i ⟨d, s⟩)
    (hno : o = none → d.isLinked i = false) : Conn.Fits ⟨d, update c.streams i o⟩ := by
  constructor
  · intro k s hk
    change update c.streams i o k = some s at hk
    by_cases hi : k = i
    · subst hi
      rw [update_self] at hk
      exact hso s hk
    · rw [update_of_ne hi] at hk
      exact (h.base k s hk).of_others ho hi
  · intro k hk
    change update c.streams i o k = none at hk
    by_cases hi : k = i
    · subst hi
      rw [update_self] at hk
      exact hno hk
    · rw [update_of_ne hi] at hk
      exact (ho.isLinked_eq hi).trans (h.exists_of_linked k hk)

lemma fits_onStream {f : View → View} (h : c.Fits) (hf : ∀ s, c.streams i = some s →
      Others i c.shared (f ⟨c.shared, s⟩).shared ∧ Base i (f ⟨c.shared, s⟩)) :
    (c.onStream i f).Fits := by
  unfold Conn.onStream
  cases hi : c.streams i with
  | none =>
    have hu := fits_update (o := none) h (others_unlink c.shared i)
      (fun _ hs => by cases hs) fun _ => isLinked_unlink c.shared i
    rw [← hi, update_eq_self] at hu
    exact hu
  | some s =>
    obtain ⟨ho, hb⟩ := hf s hi
    refine fits_update h ho (fun s' hs => ?_) fun hs => by cases hs
    cases hs
    exact hb

lemma fits_of_moves {f : View → View} (h : c.Fits)
    (hf : ∀ s, c.streams i = some s → Base i ⟨c.shared, s⟩ →
      Moves env i ⟨c.shared, s⟩ (f ⟨c.shared, s⟩)) : (c.onStream i f).Fits := by
  refine fits_onStream h fun s hs => ?_
  have hm := hf s hs (h.base i s hs)
  exact ⟨hm.others, hm.base (h.base i s hs)⟩

namespace Conn

section RunDelayed

variable {P : Conn → Prop}
  (hr : ∀ {c i}, P c → i ∈ c.shared.recvBodyBlocked → P (c.onStream i (·.promote env i)))
  (hwr : ∀ {c i}, P c → i ∈ c.shared.reqStreaming → P (c.onStream i (·.callWriteReq env i)))
  (he : ∀ {c i}, P c → i ∈ c.shared.pending → P (c.onStream i (·.runPending env i)))

include hwr in
lemma drainStreaming_induct (h : P c) (hs : c.drainStreaming env fuel = some c') : P c' := by
  fun_induction drainStreaming env fuel c with
  | case1 c fuel hli =>
    cases hs
    exact h
  | case2 c i is hli => cases hs
  | case3 c i is fuel hli ih => exact ih (hwr h (hli ▸ mem_cons_self)) hs

include he in
lemma drainPending_induct (h : P c) (hs : c.drainPending env fuel = some c') : P c' := by
  fun_induction drainPending env fuel c with
  | case1 c fuel hli =>
    cases hs
    exact h
  | case2 c i is hli => cases hs
  | case3 c i is fuel hli ih => exact ih (he h (hli ▸ mem_cons_self)) hs

include hwr he in
lemma drain_induct (h : P c) (hs : c.drain env fuel = some c') : P c' := by
  obtain ⟨c1, hs1, hs2⟩ := bind_eq_some_iff.1 hs
  exact drainPending_induct he (drainStreaming_induct hwr h hs1) hs2

include hr hwr he in
/-- What the three kinds of steps of `run_delayed` keep, it keeps. -/
lemma runDelayed_induct (h : P c) (hs : c.runDelayed env fuel = some c') : P c' := by
  induction fuel generalizing c with
  | zero => cases hs
  | succ fuel ih =>
    unfold runDelayed at hs
    dsimp only at hs
    split at hs
    · rename_i hb
      have hmem : c.shared.recvBodyBlocked.headD 0 ∈ c.shared.recvBodyBlocked := by
        cases hli : c.shared.recvBodyBlocked with
        | nil => exact absurd hli hb.2
        | cons i is => exact mem_cons_self
      have hp := hr h hmem
      split at hs
      · cases hs
        exact hp
      · obtain ⟨c1, hs1, hs2⟩ := bind_eq_some_iff.1 hs
        exact ih (drain_induct hwr he hp hs1) hs2
    · split at hs
      · cases hs
        exact h
      · obtain ⟨c1, hs1, hs2⟩ := bind_eq_some_iff.1 hs
        exact ih (drain_induct hwr he h hs1) hs2

end RunDelayed

lemma fits_runDelayed (h : c.Fits) (hs : c.runDelayed env fuel = some c') : c'.Fits := by
  refine runDelayed_induct (fun {c i} h hm => ?_) (fun {c i} h hm => ?_) (fun {c i} h hm => ?_) h hs
  · refine fits_onStream h fun s hs => ?_
    have hr := promote_spec env (h.base i s hs) hm
    exact ⟨hr.1, hr.2.1⟩
  · exact fits_of_moves h fun _ _ hb => (works_callWriteReq hb).toMoves
  · exact fits_of_moves h fun _ _ hb => (works_runPending hb hm).toMoves

end Conn

/-- What is read of the request announces no more than the bound. -/
def Callback.within (env : Env) (m : ℕ) (s : Stream) : Callback → Bool
  | .receive fresh _ => announced env s (s.buf ++ fresh) ≤ m
  | _ => true

/-- A callback of a stream that is not closed. -/
lemma moves_callback (env : Env) (hb : Base i v) (hl : v.stream.state ≠ .closeWait)
    (callback : Callback) : Moves env i v (callback.run env i v) ∧
      ∀ m, callback.within env m v.stream = true → Bounded env m v →
        Bounded env m (callback.run env i v) := by
  have hw {v' : View} (h : Works env i v v') : Moves env i v v' ∧
      ∀ m, true = true → Bounded env m v → Bounded env m v' :=
    ⟨h.toMoves, fun m _ => h.bounded hb m⟩
  have ho : Still env i v (v.mapStream (·.setRecvComplete)) := .mapStream_of_key rfl rfl
  cases callback with
  | eosKnown => exact hw (Still.mapStream_of_key rfl rfl).works
  | receive fresh fin =>
    cases fin with
    | true =>
      have hc := moves_onReceive env (ho.base hb) fresh
      exact ⟨ho.toMoves.trans hc.1, fun m ha _ =>
        hc.2 m (of_decide_eq_true ha)⟩
    | false =>
      have hc := moves_onReceive env hb fresh
      exact ⟨hc.1, fun m ha _ => hc.2 m (of_decide_eq_true ha)⟩
  | reset =>
    have hc' : (v.mapStream (·.setRecvComplete)).stream.state ≠ .closeWait := hl
    exact hw (ho.trans (still_shutdownStream hc' true)).works
  | stopSending =>
    refine hw (Still.works ?_)
    unfold Callback.run View.shutdownStream View.requestStop
    dsimp only
    split
    · exact still_close (f := fun s => (s.setSendOpen false).setSendOpen false) rfl rfl
    · exact still_close
        (f := fun s => ((s.setSendOpen false).setStopRequested).setSendOpen false) rfl rfl
  | sendError => exact hw (still_shutdownStream_false v).works
  | acked =>
    have hk : Still env i v (v.mapStream (·.setUnsent false)) := .mapStream_of_key rfl rfl
    refine hw (Still.works ?_)
    unfold Callback.run
    dsimp only
    split
    · exact hk
    · exact hk.trans ((still_requestStop _).trans (still_closeWait _))
  | app call => exact hw (works_appCall hb call)

namespace Conn

/-- What the events do that can happen. -/
inductive Takes (env : Env) (c : Conn) : Event → Conn → Prop
  | open {i : ℕ} (hnone : c.streams i = none) :
      Takes env c (.open i) { c with streams := update c.streams i (some Stream.new) }
  | stream {i : ℕ} {s : Stream} {callback : Callback} (hs : c.streams i = some s)
      (hclose : s.state ≠ .closeWait) (hpossible : callback.possible s = true) :
      Takes env c (.stream i callback) (c.onStream i fun v => callback.run env i v)
  | timeout {fuel : ℕ} {c' : Conn}
      (hs : { c with shared := c.shared.setTimeout false }.runDelayed env fuel = some c') :
      Takes env c (.timeout fuel) c'
  | destroy {i : ℕ} : Takes env c (.destroy i) ⟨c.shared.unlink i, update c.streams i none⟩
  | close : Takes env c .close { c with shared := c.shared.setClosing }

lemma takes_of_step {e : Event} (h : c.step env e = some c') : Takes env c e c' := by
  obtain ⟨-, h⟩ := ite_none_left_eq_some.1 h
  cases e with
  | «open» i =>
    obtain ⟨ho, h⟩ := ite_none_right_eq_some.1 h
    cases h
    exact .open ho
  | stream i callback =>
    obtain ⟨ha, h⟩ := ite_none_right_eq_some.1 h
    obtain ⟨s, hs, hb⟩ := (Option.any_eq_true _ _).1 ha
    cases h
    exact .stream hs (of_decide_eq_true hb).1 (of_decide_eq_true hb).2
  | timeout fuel => exact .timeout (ite_none_right_eq_some.1 h).2
  | destroy i =>
    cases (ite_none_right_eq_some.1 h).2
    exact .destroy
  | close =>
    cases h
    exact .close

/-- Only the timer or the flag of closing is changed. -/
lemma Fits.of_lists (h : c.Fits) (hi : d.lists = c.shared.lists) : Fits ⟨d, c.streams⟩ :=
  ⟨fun k s hk => (h.base k s hk).of_lists hi,
    fun k hk => (isLinked_eq hi k).trans (h.exists_of_linked k hk)⟩

lemma not_mem_of_isLinked (h : d.isLinked i = false) : i ∉ d.recvBodyBlocked ∧ i ∉ d.pending := by
  unfold Shared.isLinked at h
  simp only [or_eq_false_iff, decide_eq_false_iff_not] at h
  exact ⟨h.1.1, h.2⟩

lemma sound_new : Sound Stream.new :=
  ⟨fun _ => rfl, fun _ => ⟨rfl, rfl⟩, nofun, fun _ => .inl rfl⟩

lemma fits_step {e : Event} (h : c.Fits) (hs : c.step env e = some c') : c'.Fits := by
  cases takes_of_step hs with
  | @«open» i hno =>
    have ho := not_mem_of_isLinked (h.exists_of_linked i hno)
    refine fits_update h (.refl i _) (fun s hs => ?_) fun hs => by cases hs
    cases hs
    exact ⟨sound_new, nofun, fun hm => absurd hm ho.1, fun hm => absurd hm ho.2⟩
  | stream hi hl =>
    refine fits_of_moves h fun s' hi' hb => (moves_callback env hb ?_ _).1
    cases hi.symm.trans hi'
    exact hl
  | timeout hs => exact fits_runDelayed (h.of_lists (d := c.shared.setTimeout false) rfl) hs
  | destroy =>
    exact fits_update h (others_unlink c.shared _) (fun _ hs => by cases hs)
      fun _ => isLinked_unlink c.shared _
  | close => exact h.of_lists rfl

/-- The lists and the states of the streams fit in every run. -/
theorem fits_of_reach {ok : Conn → Event → Bool} (h : Reach env ok c) : c.Fits := by
  induction h with
  | new => exact ⟨fun _ _ hs => (by cases hs), fun _ _ => rfl⟩
  | step _ _ hs ih => exact fits_step ih hs

end Conn

end Vhttp.Http3Server
