import Vhttp.Http2Client.Fragments

/-!
# The response of one stream

A response comes in header blocks and DATA frames of its stream, between other frames.

* `onFrame_block`: what a frame with a whole header block does.
* `aside_onFrame`: a frame that carries nothing for a stream leaves its response alone, or ends it
  with an error.
-/

namespace Vhttp.Http2Client

open Http2 (Err Frame flagEndHeaders flagEndStream typeHeaders decodeHeadersPayload
  decodeDataPayload)
open Hpack (parseResponse)
open Function List

variable {c c' c'' : Conn} {id j : ℕ} {s s' : Stream} {frame : Frame} {env : Env}

/-! ## What a response is made of -/

/-- A callback that passes on a part of the response. -/
def Callback.isNews : Callback → Bool
  | .informational _ _ => true
  | .onHead err _ _ => err.all (· = .isEos)
  | .onBody err _ => err.all (· = .isEos)
  | .proceedReq _ => false

/-- The response of a stream goes on as it was, or ends; nothing of it is passed on. -/
structure Aside (id : ℕ) (c c' : Conn) : Prop where
  stream : ∀ s', c'.streams id = some s' → s'.res ≠ .closed →
    ∃ s, c.streams id = some s ∧ SameInput s s'
  log : ∃ calls, c'.log id = c.log id ++ calls ∧ ∀ cb ∈ calls, cb.isNews = false

/-- The stream and its callbacks are what they were. -/
lemma Aside.same (hs : c'.streams id = c.streams id) (hl : c'.log id = c.log id) :
    Aside id c c' where
  stream s' hs' _ := ⟨s', hs ▸ hs', .refl s'⟩
  log := ⟨[], hl.trans (append_nil _).symm, nofun⟩

lemma Aside.refl (c : Conn) : Aside id c c := .same rfl rfl

lemma Aside.trans (h : Aside id c c') (h' : Aside id c' c'') : Aside id c c'' where
  stream s'' hs'' ho := by
    obtain ⟨s', hs', hi'⟩ := h'.stream s'' hs'' ho
    obtain ⟨s, hs, hi⟩ := h.stream s' hs' (hi'.res ▸ ho)
    exact ⟨s, hs, hi.trans hi'⟩
  log := by
    obtain ⟨calls, hcs, hn⟩ := h.log
    obtain ⟨calls', hc', hn'⟩ := h'.log
    refine ⟨calls ++ calls', ?_, fun cb hc => ?_⟩
    · rw [hc', hcs, append_assoc]
    · rcases mem_append.1 hc with hc | hc
      · exact hn cb hc
      · exact hn' cb hc

/-! ## Actions -/

lemma aside_update {o : Option Stream} {calls : List Callback}
    (hs : c'.streams = update c.streams j o) (hl : c'.log = update c.log j (c.log j ++ calls))
    (h : j = id → (∀ cb ∈ calls, cb.isNews = false) ∧
      ∀ s', o = some s' → s'.res ≠ .closed → ∃ s, c.streams id = some s ∧ SameInput s s') :
    Aside id c c' := by
  by_cases hj : id = j
  · subst hj
    refine ⟨fun s' hs' => (h rfl).2 s' ?_, calls, ?_, (h rfl).1⟩
    · rw [← hs', hs, update_self]
    · rw [hl, update_self]
  · refine .same ?_ ?_
    · rw [hs, update_of_ne hj]
    · rw [hl, update_of_ne hj]

lemma errorCallbacks_notNews {err : Error} (he : err ≠ .isEos) :
    ∀ cb ∈ errorCallbacks s err, cb.isNews = false := by
  unfold errorCallbacks
  cases s.res with
  | head | body =>
    intro cb hc
    rw [mem_singleton.1 hc]
    exact decide_eq_false he
  | closed =>
    split_ifs
    · intro cb hc
      rw [mem_singleton.1 hc]
      rfl
    · exact nofun

/-- The callbacks of a stream that may be told an error. -/
lemma getD_notNews (err : Stream → Error) (he : ∀ s, err s ≠ .isEos) (o : Option Stream) :
    ∀ cb ∈ (o.map fun s => errorCallbacks s (err s)).getD [], cb.isNews = false := by
  cases o with
  | none => exact nofun
  | some s => exact errorCallbacks_notNews (he s)

/-- No action for another stream touches the response. -/
lemma aside_of_act {σ : Scope} (hn : ¬ σ.news id) (h : Act σ c c') : Aside id c c' := by
  have hk : ∀ j, c.log = update c.log j (c.log j ++ []) := fun j => by
    rw [append_nil, update_eq_self]
  have ho : ∀ {j : ℕ}, σ.news j → j ≠ id := fun hj h => hn (h ▸ hj)
  cases h with
  | updateConnWindow =>
    unfold Conn.updateConnWindow
    split <;> exact .same rfl rfl
  | @amend j s s' hs _ _ hin =>
    refine aside_update rfl (hk j) fun hj => ⟨nofun, fun s1 hs1 _ => ⟨s, hj ▸ hs, ?_⟩⟩
    cases hs1
    exact hin.resolve_left fun h => ho h hj
  | @requestSent j s _ hs =>
    refine aside_update rfl (hk j) fun hj => ⟨nofun, fun s1 hs1 _ => ⟨s, hj ▸ hs, ?_⟩⟩
    cases hs1
    exact ⟨rfl, rfl, rfl, rfl, rfl, rfl⟩
  | map f hf =>
    refine ⟨fun s' hs' _ => ?_, [], (append_nil _).symm, nofun⟩
    obtain ⟨s, hs, rfl⟩ := Option.map_eq_some_iff.1 hs'
    exact ⟨s, hs, (hf s).2⟩
  | error hs _ he =>
    exact aside_update (update_idem _ _ _) rfl fun _ =>
      ⟨errorCallbacks_notNews he, fun _ hs _ => no_stream hs⟩
  | refuse last =>
    by_cases hi : last < id
    · refine ⟨fun s' hs' _ => (nomatch (if_pos hi).symm.trans hs'), _, if_pos hi, ?_⟩
      exact getD_notNews (fun _ => .refusedStream) (fun _ => nofun) (c.streams id)
    · exact .same (if_neg hi) (if_neg hi)
  | answer _ hj => exact aside_update rfl rfl fun h => absurd h (ho hj)
  | @finish j _ s' cb _ hj =>
    have hc : Aside id c (c.call j cb) :=
      .same rfl (update_of_ne (ho hj).symm _ _)
    refine hc.trans ?_
    unfold Conn.closeResponse
    split_ifs
    · exact .same rfl rfl
    · exact .same (closeStream_of_ne (ho hj).symm) rfl
    · exact .same (setStream_of_ne (ho hj).symm) rfl
  | call _ hj cb => exact .same rfl (update_of_ne (ho hj).symm _ _)
  | @reset j _ _ code =>
    exact aside_update rfl (hk j) fun _ => ⟨nofun, fun _ hs _ => no_stream hs⟩
  | @proceed j hs =>
    refine aside_update (update_eq_self j c.streams).symm rfl fun hj => ⟨?_, ?_⟩
    · intro cb hb
      rw [mem_singleton.1 hb]
      rfl
    · exact fun s' hs' _ => ⟨s', hj ▸ hs', .refl s'⟩
  | tell _ err he =>
    exact ⟨fun s' hs' _ => ⟨s', hs', .refl s'⟩, _, rfl, getD_notNews err he (c.streams id)⟩
  | free => exact ⟨fun _ hs _ => no_stream hs, [], (append_nil _).symm, nofun⟩
  | _ => exact .same rfl rfl

lemma aside_of_acts {σ : Scope} (hn : ¬ σ.news id) (h : Acts σ c c') : Aside id c c' :=
  h.rule Aside.refl Aside.trans (aside_of_act hn)

/-- Whatever happens to the other streams. -/
def Scope.others (id : ℕ) : Scope := ⟨(· ≠ id), False, True, True, True⟩

lemma aside_connectionError (e : Err) : Aside id c (c.connectionError e) :=
  aside_of_acts (σ := .others id) (not_not_intro rfl) (acts_connectionError trivial e)

/-- A frame that carries nothing for a stream. -/
theorem aside_onFrame (hb : blockOf c id frame = none)
    (hd : dataOf c id frame = none ∨ ∀ s, c.streams id = some s → s.res ≠ .body) :
    Aside id c (onFrame c frame env) := by
  refine aside_of_acts (σ := .others id) (not_not_intro rfl)
    (acts_settle trivial (handled_readFrame (fun _ _ => trivial) ?_ ?_ False.elim).acts)
  · rintro ho rfl
    rw [hb] at ho
    cases ho
  · rintro ho ⟨s, hs, hbd⟩ rfl
    rcases hd with hn | hp
    · rw [hn] at ho
      cases ho
    · exact hp s hs hbd

/-! ## Frames that carry a block or data -/

/-- The block is given to the stream, whose response is as it was. -/
theorem onFrame_block (env : Env) (hs : c.streams id = some s) {block : Bytes} {isEndStream : Bool}
    (hb : blockOf c id frame = some (block, isEndStream)) :
    ∃ c1 s1, c1.streams id = some s1 ∧ SameInput s s1 ∧ c1.log id = c.log id ∧
      c1.headerTable = c.headerTable ∧
      onFrame c frame env = settle (onHeaderBlock c1 id block isEndStream env) := by
  unfold blockOf at hb
  split at hb
  · cases hb
  next hn =>
  push Not at hn
  obtain ⟨rfl, he'⟩ := hn
  have he : frame.has flagEndHeaders = true := by simpa using he'
  cases hd : c.readFrame with
  | settings =>
    rw [hd] at hb
    cases hb
  | default =>
    rw [hd] at hb
    have ht : frame.type = typeHeaders := by
      by_contra ht
      rw [if_neg ht] at hb
      cases hb
    rw [if_pos ht] at hb
    cases hp : decodeHeadersPayload frame with
    | error e =>
      rw [hp] at hb
      cases hb
    | ok payload =>
      rw [hp] at hb
      dsimp only at hb
      split_ifs at hb with hr
      cases hb
      refine ⟨unlinkTimeout c frame.streamId, { s with timeout := false }, ?_,
        ⟨rfl, rfl, rfl, rfl, rfl, rfl⟩, ?_, (unlinkTimeout_frame c _).2.2.1, ?_⟩
      · unfold unlinkTimeout
        rw [hs]
        exact setStream_self
      · rw [(unlinkTimeout_frame c _).2.2.2]
      · rw [onFrame_headers hd ht hp, handleHeaders_accepted hr, if_pos he]
  | continuationOfHeaders =>
    rw [hd] at hb
    dsimp only at hb
    split_ifs at hb with hc
    cases hb
    refine ⟨{ c with readFrame := .default, headersUnparsed := [] }, s, hs, .refl s, rfl, rfl, ?_⟩
    unfold onFrame readFrame
    rw [hd]
    unfold expectContinuationOfHeaders
    have ho : (c.streams frame.streamId).any (·.res == .closed) = false := hc.2
    rw [if_neg (not_not_intro hc.1), ho, if_neg Bool.false_ne_true, if_pos he]

/-- The header block is the head of the response. -/
lemma onFrame_head (env : Env) (hs : c.streams id = some s) (hr : s.res = .head)
    {block : Bytes} {isEndStream : Bool}
    (hb : blockOf c id frame = some (block, isEndStream)) :
    ∃ (c1 : Conn) (s1 : Stream), c1.streams id = some s1 ∧ SameInput s s1 ∧
      c1.log id = c.log id ∧ onFrame c frame env = match parseResponse c.headerTable false block with
        | .error e => c1.connectionError e
        | .ok p => onHeadParsed (c1.setTable p.table) id p isEndStream env := by
  obtain ⟨c1, s1, hs1, hi, hl, ht, hf⟩ := onFrame_block env hs hb
  refine ⟨c1, s1, hs1, hi, hl, ?_⟩
  rw [hf, onHeaderBlock, hs1]
  dsimp only
  rw [if_neg (by rw [hi.res, hr]; decide), onHead, ht]
  cases parseResponse c.headerTable false block <;> rfl

/-- The data is given to the stream, after the octets are counted. -/
lemma onFrame_data {payload : Bytes} (ht : dataOf c id frame = some payload) :
    onFrame c frame env = settle (handleData (c.count frame.payload.length) id payload
      (frame.has flagEndStream) env) := by
  unfold dataOf at ht
  split_ifs at ht with hf
  obtain ⟨hr, hy, rfl⟩ := hf
  have hp : decodeDataPayload frame = .ok payload := by
    cases hd : decodeDataPayload frame with
    | error e =>
      rw [hd] at ht
      cases ht
    | ok data =>
      rw [hd] at ht
      rw [Option.some.inj ht]
  unfold onFrame readFrame
  rw [hr]
  unfold expectDefault
  rw [hy]
  show settle (handleDataFrame c frame env) = _
  unfold handleDataFrame
  rw [hp]

/-! ## The stages of a response -/

lemma closeResponse_stream (hs' : (c.closeResponse id s).streams id = some s')
    (ho : s.res ≠ .closed) : s'.res = .closed := by
  unfold Conn.closeResponse at hs'
  rw [if_neg ho] at hs'
  split at hs'
  · exact nomatch closeStream_self.symm.trans hs'
  · rw [← Option.some.inj (setStream_self.symm.trans hs')]

/-- After its head a response is over, or its body follows. -/
lemma deliverHead_stream {isEndStream : Bool}
    (hs' : (deliverHead c id s isEndStream env).streams id = some s') (hr : s.res = .head) :
    s'.res = .closed ∨ isEndStream = false ∧ s' = { s with res := .body } := by
  unfold deliverHead at hs'
  split at hs'
  · exact .inl (closeResponse_stream hs' (by rw [hr]; decide))
  · next hm =>
    split at hs'
    · exact nomatch closeStream_self.symm.trans hs'
    · exact .inr ⟨Bool.eq_false_iff.2 hm, (Option.some.inj (setStream_self.symm.trans hs')).symm⟩

/-! ## The callbacks of a response -/

/-- The connection is read from, and the response of the stream is in a state. -/
def Conn.receives (c : Conn) (id : ℕ) (state : StreamState) : Bool :=
  c.isReading && (c.streams id).any (·.res == state)

/-- The callbacks that the frame brings the stream. -/
def newCalls (c : Conn) (id : ℕ) (frame : Frame) (env : Env) : List Callback :=
  ((onFrame c frame env).log id).drop (c.log id).length

/-- The callbacks that the frames bring the stream, as long as its response is in a state. -/
def callsWhile (state : StreamState) (id : ℕ) : Conn → List Frame → (ℕ → Env) → List Callback
  | _, [], _ => []
  | c, frame :: frames, env =>
    if c.receives id state then
      newCalls c id frame (env 0) ++
        callsWhile state id (onFrame c frame (env 0)) frames fun i => env (i + 1)
    else []

lemma exists_of_receives {state : StreamState} (h : c.receives id state = true) :
    ∃ s, c.streams id = some s ∧ s.res = state := by
  obtain ⟨-, ha⟩ := Bool.and_eq_true_iff.1 h
  obtain ⟨s, hs, hr⟩ := (Option.any_eq_true _ _).1 ha
  exact ⟨s, hs, eq_of_beq hr⟩

lemma newCalls_of_log {calls : List Callback}
    (h : (onFrame c frame env).log id = c.log id ++ calls) : newCalls c id frame env = calls := by
  unfold newCalls
  rw [h, drop_left]

lemma callsWhile_of_not_receives {state : StreamState} (h : c.receives id state = false)
    (frames : List Frame) (env : ℕ → Env) : callsWhile state id c frames env = [] := by
  cases frames with
  | nil => rfl
  | cons frame frames => exact if_neg (by rw [h]; decide)

/-- A connection error ends every response. -/
lemma receives_connectionError (e : Err) (state : StreamState) :
    (c.connectionError e).receives id state = false := by
  unfold Conn.receives
  rw [not_reading_of_failed (connectionError_failed c e)]
  rfl

end Vhttp.Http2Client
