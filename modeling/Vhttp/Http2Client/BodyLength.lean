import Vhttp.Http2Client.Response

/-!
# The content-length of a response

The client keeps what is left of the content-length in `remaining_content_length`, and refuses a
DATA frame that has more. At the end of the stream it does not look whether something is left: a
body that is too short is told as a whole one.

* `contentLength_iff`: when the application is told the end of the stream for a body of the
  announced length, and a protocol error for any other.
-/

namespace Vhttp.Http2Client

open Bool List Option Function
open Http2 (Err Frame flagEndStream)
open Hpack (Parsed parseResponse)

variable {c : Conn} {id length total : ℕ} {s : Stream} {frame : Frame} {env : Env}

/-! ## The length of a body -/

/-- The end of the stream, or the error, that a callback tells. -/
def Callback.error : Callback → Option Error
  | .onHead err _ _ => err
  | .onBody err _ => err
  | _ => none

/-- The length of the body, when it is known: at the end of the stream, or when it is more than was
announced. So many octets have been received before. -/
def bodyEnd (id length : ℕ) : Conn → ℕ → List Frame → (ℕ → Env) → Option ℕ
  | _, _, [], _ => none
  | c, total, frame :: frames, env =>
    if c.receives id .body then
      match dataOf c id frame with
      | some payload =>
        if frame.has flagEndStream ∨ length < total + payload.length then
          some (total + payload.length)
        else
          bodyEnd id length (onFrame c frame (env 0)) (total + payload.length) frames
            fun i => env (i + 1)
      | none =>
        if (blockOf c id frame).isSome then some total
        else bodyEnd id length (onFrame c frame (env 0)) total frames fun i => env (i + 1)
    else none

/-- The trailers of the stream can be read. -/
def trailersOk (c : Conn) (block : Bytes) : Bool :=
  match parseResponse c.headerTable true block with
  | .error _ => false
  | .ok p => p.errDesc.isNone

/-- The application is told the end of the stream if and only if the body has the announced length,
and last a protocol error if it has another one. -/
def LengthTold (length : ℕ) (calls : List Callback) (bodyLength : Option ℕ) : Prop :=
  ((∃ cb ∈ calls, cb.error = some .isEos) ↔ bodyLength = some length) ∧
    ∀ n, bodyLength = some n → n ≠ length →
      calls.getLast?.bind Callback.error = some .protocolViolation

/-- At the end of the stream the body has the announced length, and what comes last can be taken;
or it is too short, but the trailers cannot be read. -/
def WholeBody (id length : ℕ) : Conn → ℕ → List Frame → (ℕ → Env) → Prop
  | _, _, [], _ => True
  | c, total, frame :: frames, env =>
    c.receives id .body = true →
      match dataOf c id frame with
      | some payload =>
        length < total + payload.length ∨
          if frame.has flagEndStream then
            total + payload.length = length ∧ (c.streams id).all fun s =>
              s.body.length + payload.length ≤ c.maxBufferSize
          else
            WholeBody id length (onFrame c frame (env 0)) (total + payload.length) frames
              fun i => env (i + 1)
      | none =>
        match blockOf c id frame with
        | some (block, _) => total = length ↔ trailersOk c block = true
        | none => WholeBody id length (onFrame c frame (env 0)) total frames fun i => env (i + 1)

/-! ## A DATA frame -/

/-- What the stream is told about a DATA frame, if so much of the content-length is left. -/
def dataCallback (c : Conn) (s : Stream) (left : ℕ) (payload : Bytes) (isFinal : Bool) : Callback :=
  .onBody (if left < payload.length then some .protocolViolation
    else if c.maxBufferSize < s.body.length + payload.length then some .flowControl
    else if isFinal then some .isEos else none) []

lemma receives_of_streams {state : StreamState}
    (h : ∀ s, c.streams id = some s → s.res ≠ state) : c.receives id state = false := by
  rw [← not_eq_true]
  intro hr
  obtain ⟨s, hs, he⟩ := exists_of_receives hr
  exact h s hs he

lemma updateWindow_stream (hs : c.streams id = some s) {s' : Stream}
    (h : (c.updateWindow id s).streams id = some s') : SameInput s s' := by
  unfold Conn.updateWindow at h
  split at h
  · rw [some.inj (hs.symm.trans h)]
    exact .refl s'
  · split at h
    · rw [some.inj (hs.symm.trans h)]
      exact .refl s'
    · rw [← some.inj (setStream_self.symm.trans h)]
      exact ⟨rfl, rfl, rfl, rfl, rfl, rfl⟩

lemma dataError_eq (hb : s.res = .body) (hf : s.messageBodyForbidden = false) {left : ℕ}
    (hl : s.remainingContentLength = some left) (payload : Bytes) :
    dataError c s payload = if left < payload.length then some (.protocolViolation, .protocol)
      else if c.maxBufferSize < s.body.length + payload.length then
        some (.flowControl, .flowControl) else none := by
  unfold dataError
  rw [if_neg (not_not_intro hb), hf, hl, if_neg (fun h => Bool.false_ne_true h.1), any_some]
  simp only [decide_eq_true_eq]

lemma failStream_body (hb : s.res = .body) (err : Error) (code : ResetCode) :
    (c.failStream id s err code).log id = c.log id ++ [.onBody (some err) []] := by
  have hl : (c.failStream id s err code).log id = c.log id ++ errorCallbacks s err :=
    update_self _ _ _
  rw [hl]
  unfold errorCallbacks
  rw [hb]

lemma closeResponse_log : (c.closeResponse id s).log = c.log := by
  unfold Conn.closeResponse
  split
  · rfl
  · split <;> rfl

lemma updateWindow_log : (c.updateWindow id s).log = c.log := by
  unfold Conn.updateWindow
  split
  · rfl
  · split <;> rfl

lemma updateConnWindow_log : c.updateConnWindow.log = c.log := by
  unfold Conn.updateConnWindow
  split <;> rfl

lemma acceptData_body (c : Conn) (id : ℕ) (env : Env) (hb : s.res = .body)
    (hf : s.messageBodyForbidden = false)
    {left : ℕ} (hlf : s.remainingContentLength = some left) (payload : Bytes) (isFinal : Bool) :
    (acceptData c id s payload isFinal env).log id =
      c.log id ++ [.onBody (if isFinal then some .isEos else none) []] ∧
    ∀ s', (acceptData c id s payload isFinal env).streams id = some s' → s'.res = .body →
      isFinal = false ∧ s'.messageBodyForbidden = false ∧
        s'.remainingContentLength = some (left - payload.length) := by
  have hl : ∀ cb, ((c.consumeWindow payload.length).call id cb).log id = c.log id ++ [cb] :=
    fun cb => update_self _ _ _
  have hb' : (s.receive payload env.consumed).res = .body := hb
  unfold acceptData
  dsimp only
  split
  · exact ⟨hl _, fun s' hs' _ => nomatch closeStream_self.symm.trans hs'⟩
  split
  · refine ⟨?_, fun s' hs' hr => ?_⟩
    · rw [closeResponse_log]
      exact hl _
    · exact nomatch hr.symm.trans (closeResponse_stream hs' (by rw [hb']; decide))
  · next hi =>
    refine ⟨?_, fun s' hs' _ => ⟨eq_false_iff.2 hi, ?_⟩⟩
    · rw [updateWindow_log, updateConnWindow_log]
      exact hl _
    · have hn : SameInput (s.receive payload env.consumed) s' := by
        refine updateWindow_stream ?_ hs'
        rw [updateConnWindow_streams]
        exact setStream_self
      refine ⟨hn.forbidden.trans hf, hn.remaining.trans ?_⟩
      show s.remainingContentLength.map (· - payload.length) = some (left - payload.length)
      rw [hlf]
      rfl

lemma handleData_body (env : Env) (hs : c.streams id = some s) (hb : s.res = .body)
    (hf : s.messageBodyForbidden = false) {left : ℕ}
    (hlf : s.remainingContentLength = some left) (payload : Bytes) (isFinal : Bool) :
    (handleData c id payload isFinal env).2 = none ∧
    (handleData c id payload isFinal env).1.log id =
      c.log id ++ [dataCallback c s left payload isFinal] ∧
    ∀ s', (handleData c id payload isFinal env).1.streams id = some s' → s'.res = .body →
      payload.length ≤ left ∧ isFinal = false ∧ s'.messageBodyForbidden = false ∧
        s'.remainingContentLength = some (left - payload.length) := by
  have hg : ∀ {c : Conn} {s'}, (c.closeStream id).streams id = some s' → False :=
    fun hs' => nomatch closeStream_self.symm.trans hs'
  unfold handleData dataCallback
  rw [hs]
  dsimp only
  rw [dataError_eq hb hf hlf]
  by_cases ho : left < payload.length
  · rw [if_pos ho, if_pos ho]
    exact ⟨rfl, failStream_body hb _ _, fun s' hs' _ => (hg hs').elim⟩
  rw [if_neg ho, if_neg ho]
  by_cases hu : c.maxBufferSize < s.body.length + payload.length
  · rw [if_pos hu, if_pos hu]
    exact ⟨rfl, failStream_body hb _ _, fun s' hs' _ => (hg hs').elim⟩
  rw [if_neg hu, if_neg hu]
  obtain ⟨hl, ht⟩ := acceptData_body c id env hb hf hlf payload isFinal
  exact ⟨rfl, hl, fun s' hs' hr => ⟨not_lt.1 ho, ht s' hs' hr⟩⟩

/-! ## Trailers -/

lemma connectionError_body (hs : c.streams id = some s) (hb : s.res = .body) (e : Err) :
    (c.connectionError e).log id = c.log id ++ [.onBody (some .protocolViolation) []] := by
  have hl : ∀ c : Conn, c.closeConnection.log = c.log := by
    intro c
    unfold Conn.closeConnection
    split <;> rfl
  have hg : ∀ c : Conn, (c.enqueueGoaway (some e.code) e.desc).streams = c.streams ∧
      (c.enqueueGoaway (some e.code) e.desc).log = c.log := by
    intro c
    unfold Conn.enqueueGoaway
    split <;> exact ⟨rfl, rfl⟩
  have hc : ∀ c' : Conn, c'.streams = c.streams → c'.log = c.log →
      (c'.callStreamCallbacksWithError .protocolViolation).log id =
        c.log id ++ [.onBody (some .protocolViolation) []] := by
    intro c' ht ho
    show c'.log id ++ ((c'.streams id).map (errorCallbacks · .protocolViolation)).getD [] = _
    rw [ht, ho, hs, map_some, getD_some, errorCallbacks, hb]
  unfold Conn.connectionError
  rw [hl]
  split
  · exact hc c rfl rfl
  · exact hc _ (hg c).1 (hg c).2

/-- Trailers end the response. -/
lemma onFrame_trailers (env : Env) (hs : c.streams id = some s) (hd : s.res = .body) {block : Bytes}
    {isEndStream : Bool} (hb : blockOf c id frame = some (block, isEndStream)) :
    (∃ trailers, (onFrame c frame env).log id = c.log id ++ [.onBody
      (some (if trailersOk c block then .isEos else .protocolViolation)) trailers]) ∧
    (onFrame c frame env).receives id .body = false := by
  obtain ⟨c1, s1, hs1, hi, hl, ht, hf⟩ := onFrame_block env hs hb
  have hb1 : s1.res = .body := hi.res.trans hd
  unfold onHeaderBlock at hf
  rw [hs1] at hf
  dsimp only at hf
  rw [if_pos hb1] at hf
  unfold onTrailers at hf
  rw [ht] at hf
  cases hp : parseResponse c.headerTable true block with
  | error e =>
    rw [hp] at hf
    have hr : onFrame c frame env = c1.connectionError e := hf
    have ho : trailersOk c block = false := by
      unfold trailersOk
      rw [hp]
    rw [hr, ← hl, ho]
    exact ⟨⟨[], connectionError_body hs1 hb1 e⟩, receives_connectionError e .body⟩
  | ok p =>
    rw [hp] at hf
    have ha : onFrame c frame env = onTrailersParsed (c1.setTable p.table) id s1 p env := hf
    have ho : trailersOk c block = !p.errDesc.isSome := by
      unfold trailersOk
      rw [hp]
      dsimp only
      cases p.errDesc <;> rfl
    rw [ha, ← hl, ho]
    unfold onTrailersParsed
    by_cases he : p.errDesc.isSome = true
    · rw [if_pos he, he]
      refine ⟨⟨[], ?_⟩, receives_of_streams fun s' hs' => ?_⟩
      · apply failStream_body
        exact hb1
      · exact nomatch closeStream_self.symm.trans hs'
    · have hc : ((c1.setTable p.table).call id
          (.onBody (some .isEos) (s1.trailers ++ p.fields))).log id =
          c1.log id ++ [.onBody (some .isEos) (s1.trailers ++ p.fields)] :=
        update_self _ _ _
      rw [if_neg he, eq_false_iff.2 he]
      split
      · refine ⟨⟨s1.trailers ++ p.fields, ?_⟩, receives_of_streams fun s' hs' => ?_⟩
        · rw [closeResponse_log]
          exact hc
        · rw [closeResponse_stream hs' (ne_of_eq_of_ne hb1 nofun)]
          decide
      · refine ⟨⟨s1.trailers ++ p.fields, hc⟩, receives_of_streams fun s' hs' => ?_⟩
        exact nomatch closeStream_self.symm.trans hs'

/-! ## All frames -/

lemma bodyEnd_of_not_receives (h : c.receives id .body = false) (frames : List Frame)
    (env : ℕ → Env) : bodyEnd id length c total frames env = none := by
  cases frames with
  | nil => rfl
  | cons frame frames => exact if_neg (by rw [h]; decide)

lemma wholeBody_of_not_receives (h : c.receives id .body = false) (frames : List Frame)
    (env : ℕ → Env) : WholeBody id length c total frames env := by
  cases frames with
  | nil => trivial
  | cons frame frames =>
    unfold WholeBody
    intro hr
    exact nomatch h.symm.trans hr

/-- One callback decides, when the length is known. -/
lemma lengthTold_singleton {cb : Callback} {n : ℕ} :
    LengthTold length [cb] (some n) ↔ (cb.error = some .isEos ↔ n = length) ∧
      (n ≠ length → cb.error = some .protocolViolation) := by
  simp [LengthTold]

/-- The last DATA frame of a body. -/
lemma lengthTold_data {payload : Bytes} {isFinal : Bool}
    (he : isFinal = true ∨ length < total + payload.length) (ht : total ≤ length) :
    LengthTold length [dataCallback c s (length - total) payload isFinal]
      (some (total + payload.length)) ↔ length < total + payload.length ∨
      total + payload.length = length ∧ s.body.length + payload.length ≤ c.maxBufferSize := by
  rw [lengthTold_singleton, dataCallback]
  dsimp only [Callback.error]
  by_cases ho : length < total + payload.length
  · have hm : length - total < payload.length := by omega
    rw [if_pos hm]
    have hne : total + payload.length ≠ length := by omega
    simp [ho, hne]
  · have hft : ¬ length - total < payload.length := by omega
    rw [if_neg hft, he.resolve_right ho]
    by_cases hf : c.maxBufferSize < s.body.length + payload.length
    · rw [if_pos hf]
      have hn : ¬ s.body.length + payload.length ≤ c.maxBufferSize := by omega
      simp [ho, hn]
    · rw [if_neg hf]
      have hl : s.body.length + payload.length ≤ c.maxBufferSize := by omega
      simp [ho, hl]

/-- What comes before does not matter, if it is not the end of the stream. -/
lemma lengthTold_append {calls rest : List Callback} {bodyLength : Option ℕ}
    (hs : ∀ cb ∈ calls, cb.error ≠ some .isEos) (hr : bodyLength ≠ none → rest ≠ []) :
    LengthTold length (calls ++ rest) bodyLength ↔ LengthTold length rest bodyLength := by
  have ha : (∃ cb ∈ calls ++ rest, cb.error = some .isEos) ↔
      ∃ cb ∈ rest, cb.error = some .isEos := by
    constructor
    · rintro ⟨cb, hc, he⟩
      rcases mem_append.1 hc with hc | hc
      · exact absurd he (hs cb hc)
      · exact ⟨cb, hc, he⟩
    · rintro ⟨cb, hc, he⟩
      exact ⟨cb, mem_append_right _ hc, he⟩
  unfold LengthTold
  rw [ha]
  refine and_congr_right fun _ => forall_congr' fun n => ?_
  refine imp_congr_right fun hn => ?_
  rw [getLast?_append_of_ne_nil]
  exact hr (by rw [hn]; exact some_ne_none n)

lemma error_ne_eos_of_notNews {cb : Callback} (h : cb.isNews = false) :
    cb.error ≠ some .isEos := by
  intro he
  cases cb with
  | informational status headers | proceedReq err => cases he
  | onHead err status headers | onBody err trailers =>
    have hr : err = some .isEos := he
    rw [hr] at h
    cases h

/-- What the frames of a body tell, when so many octets have been received before them. -/
lemma lengthTold_callsWhile_iff (length total : ℕ) (frames : List Frame) (env : ℕ → Env)
    (hm : ∀ s, c.streams id = some s → s.res = .body →
      s.messageBodyForbidden = false ∧ s.remainingContentLength = some (length - total))
    (ht : total ≤ length) : (LengthTold length (callsWhile .body id c frames env)
      (bodyEnd id length c total frames env) ↔ WholeBody id length c total frames env) ∧
    (bodyEnd id length c total frames env ≠ none → callsWhile .body id c frames env ≠ []) := by
  have hno : LengthTold length [] none := by
    simp [LengthTold]
  induction frames generalizing c total env with
  | nil => exact ⟨⟨fun _ => trivial, fun _ => hno⟩, fun h => absurd rfl h⟩
  | cons frame frames ih =>
    by_cases hr : c.receives id .body = true
    · obtain ⟨s, hs, hd⟩ := exists_of_receives hr
      obtain ⟨hf, hlf⟩ := hm s hs hd
      rw [callsWhile, bodyEnd, WholeBody, if_pos hr, if_pos hr, forall_prop_of_true hr]
      cases hdt : dataOf c id frame with
      | some payload =>
        have hs' : (c.count frame.payload.length).streams id = some s := hs
        obtain ⟨hre, hl, hx⟩ := handleData_body (env 0) hs' hd hf hlf
          payload (frame.has flagEndStream)
        rw [← settle_of_none hre, ← onFrame_data hdt] at hl hx
        rw [newCalls_of_log hl]
        have hv : length - total < payload.length ↔ length < total + payload.length := by omega
        simp only
        by_cases he : frame.has flagEndStream = true ∨ length < total + payload.length
        · -- the length is known, and the stream takes no more data
          have hcl : (onFrame c frame (env 0)).receives id .body = false := by
            refine receives_of_streams fun s' hs' hb' => ?_
            obtain ⟨hle, hn, -⟩ := hx s' hs' hb'
            rcases he with he | he
            · exact nomatch he.symm.trans hn
            · omega
          rw [callsWhile_of_not_receives hcl, append_nil, if_pos he, hs, all_some]
          refine ⟨?_, fun _ => cons_ne_nil _ _⟩
          rw [lengthTold_data (c := c.count frame.payload.length) he ht]
          by_cases ho : length < total + payload.length
          · exact ⟨fun _ => .inl ho, fun _ => .inl ho⟩
          · rw [if_pos (he.resolve_right ho)]
            exact or_congr_right (and_congr_right fun _ => decide_eq_true_iff.symm)
        · obtain ⟨hmo, hft⟩ := not_or.1 he
          have hn' : ∀ s', (onFrame c frame (env 0)).streams id = some s' → s'.res = .body →
              s'.messageBodyForbidden = false ∧
                s'.remainingContentLength = some (length - (total + payload.length)) := by
            intro s' hs' hb'
            obtain ⟨-, -, hf', hl'⟩ := hx s' hs' hb'
            exact ⟨hf', by rw [hl', Nat.sub_add_eq]⟩
          obtain ⟨hi, hc⟩ := ih _ (fun i => env (i + 1)) hn' (not_lt.1 hft)
          rw [if_neg he, if_neg hmo]
          refine ⟨?_, fun he => append_ne_nil_of_right_ne_nil _ (hc he)⟩
          rw [lengthTold_append ?_ hc, hi]
          · exact ⟨.inr, fun h => h.resolve_left hft⟩
          · intro cb hcb
            rw [mem_singleton.1 hcb]
            unfold dataCallback
            rw [if_neg (mt hv.1 hft), if_neg hmo]
            split <;> decide
      | none =>
        cases hb : blockOf c id frame with
        | some block =>
          obtain ⟨block, isEndStream⟩ := block
          obtain ⟨⟨trailers, hl⟩, hx⟩ := onFrame_trailers (env 0) hs hd hb
          rw [callsWhile_of_not_receives hx, newCalls_of_log hl, append_nil]
          refine ⟨?_, fun _ => cons_ne_nil _ _⟩
          simp only [isSome_some, if_true]
          rw [lengthTold_singleton]
          cases trailersOk c block <;> simp [Callback.error]
        | none =>
          have ha : Aside id c (onFrame c frame (env 0)) := aside_onFrame hb (.inl hdt)
          obtain ⟨calls, hl, hw⟩ := ha.log
          have hx : ∀ s', (onFrame c frame (env 0)).streams id = some s' → s'.res = .body →
              s'.messageBodyForbidden = false ∧
                s'.remainingContentLength = some (length - total) := by
            intro s' hs' hb'
            obtain ⟨s0, hs0, hin⟩ := ha.stream s' hs' (by rw [hb']; decide)
            obtain rfl := some.inj (hs.symm.trans hs0)
            exact ⟨hin.forbidden.trans hf, hin.remaining.trans hlf⟩
          obtain ⟨hi, hc⟩ := ih _ (fun i => env (i + 1)) hx ht
          rw [newCalls_of_log hl]
          simp only [isSome_none, false_eq_true, if_false]
          refine ⟨?_, fun he => append_ne_nil_of_right_ne_nil _ (hc he)⟩
          rw [lengthTold_append (fun cb hcb => error_ne_eos_of_notNews (hw cb hcb)) hc]
          exact hi
    · rw [not_eq_true] at hr
      rw [callsWhile_of_not_receives hr, bodyEnd_of_not_receives hr]
      exact ⟨⟨fun _ => wholeBody_of_not_receives hr _ _, fun _ => hno⟩, fun h => absurd rfl h⟩

/-! ## A response -/

/-- A frame completes the header block of a final response, which may have a body and announces its
length. -/
structure Announces (c : Conn) (id length : ℕ) (s : Stream) (frame : Frame) (isEndStream : Bool)
    (p : Parsed) : Prop where
  stream : c.streams id = some s
  waiting : s.res = .head
  parsed : ∃ block, blockOf c id frame = some (block, isEndStream) ∧
    parseResponse c.headerTable false block = .ok p
  noError : p.errDesc = none
  isFinal : ¬ (100 ≤ p.status ∧ p.status ≤ 199)
  mayHaveBody : s.messageBodyForbidden = false ∧ p.status ≠ 204 ∧ p.status ≠ 304
  contentLength : extractContentLength (s.headers ++ p.fields) = .ok (some length)

variable {isEndStream : Bool} {p : Parsed}

/-- The head of the response is passed on, with the end of the stream if the flag is set. -/
lemma Announces.onFrame (h : Announces c id length s frame isEndStream p) (env : Env) :
    (Http2Client.onFrame c frame env).log id = c.log id ++
      [.onHead (if isEndStream then some .isEos else none) p.status (s.headers ++ p.fields)] ∧
    ∀ s', (Http2Client.onFrame c frame env).streams id = some s' → s'.res = .body →
      isEndStream = false ∧ s'.messageBodyForbidden = false ∧
        s'.remainingContentLength = some length := by
  obtain ⟨block, hb, hp⟩ := h.parsed
  obtain ⟨c1, s1, hs1, hi, hl, hr⟩ := onFrame_head env h.stream h.waiting hb
  obtain ⟨s2, hs2⟩ : ∃ s2, s2 = { s1 with
      status := p.status
      headers := s1.headers ++ p.fields
      messageBodyForbidden := s1.messageBodyForbidden || p.status == 204 || p.status == 304
      remainingContentLength := some length } := ⟨_, rfl⟩
  have hd : Http2Client.onFrame c frame env =
      deliverHead (c1.setTable p.table) id s2 isEndStream env := by
    have hs : (c1.setTable p.table).streams id = some s1 := hs1
    rw [hr, hs2, hp]
    dsimp only
    rw [onHeadParsed, hs]
    dsimp only
    rw [h.noError, if_neg (by decide), if_neg h.isFinal, onFinalHead]
    rw [hi.headers, h.contentLength]
  rw [hd]
  refine ⟨?_, fun s' hs' hbd => ?_⟩
  · rw [deliverHead_log, ← hl, hs2, hi.headers]
    rfl
  · have hw2 : s2.res = .head := by
      rw [hs2]
      exact hi.res.trans h.waiting
    rcases deliverHead_stream hs' hw2 with hc | ⟨hm, rfl⟩
    · exact nomatch hc.symm.trans hbd
    obtain ⟨hf, hn, ho⟩ := h.mayHaveBody
    rw [hs2]
    refine ⟨hm, ?_, rfl⟩
    show (s1.messageBodyForbidden || p.status == 204 || p.status == 304) = false
    rw [hi.forbidden, hf, beq_eq_false_iff_ne.2 hn, beq_eq_false_iff_ne.2 ho]
    rfl

/-- A response with a body, and the frames after its head: the application is told the end of the
stream for a body of the announced length only, and a protocol error for any other, if and only if
the body is not too short at the end of the stream. -/
theorem contentLength_iff (h : Announces c id length s frame isEndStream p) (frames : List Frame)
    (env : ℕ → Env) : LengthTold length (newCalls c id frame (env 0) ++
        callsWhile .body id (Http2Client.onFrame c frame (env 0)) frames fun i => env (i + 1))
      (if isEndStream then some 0
        else bodyEnd id length (Http2Client.onFrame c frame (env 0)) 0 frames
          fun i => env (i + 1)) ↔ if isEndStream then length = 0
    else WholeBody id length (Http2Client.onFrame c frame (env 0)) 0 frames
      fun i => env (i + 1) := by
  obtain ⟨hl, hn⟩ := h.onFrame (env 0)
  rw [newCalls_of_log hl]
  cases isEndStream with
  | true =>
    have hc : (Http2Client.onFrame c frame (env 0)).receives id .body = false :=
      receives_of_streams fun s' hs' hb => nomatch (hn s' hs' hb).1
    rw [callsWhile_of_not_receives hc, append_nil, if_pos rfl, if_pos rfl, if_pos rfl,
      lengthTold_singleton]
    simp only [Callback.error, true_iff]
    constructor
    · exact fun ht => ht.1.symm
    · rintro rfl
      exact ⟨rfl, fun hne => absurd rfl hne⟩
  | false =>
    obtain ⟨hi, hs⟩ := lengthTold_callsWhile_iff length 0 frames
      (fun i => env (i + 1)) (fun s' hs' hb => (hn s' hs' hb).2) (Nat.zero_le length)
    rw [if_neg Bool.false_ne_true, if_neg Bool.false_ne_true, ← hi]
    refine lengthTold_append (fun cb hcb => ?_) hs
    rw [mem_singleton.1 hcb]
    exact nofun

/-- A response that announces five octets. -/
lemma exists_announces : ∃ s p, Announces twoRequests 1 5 s
    ⟨1, 4, 1, [0x88, 0x0f, 0x0d, 1, 0x35]⟩ false p := by
  have ha : (parseResponse twoRequests.headerTable false
      [0x88, 0x0f, 0x0d, 1, 0x35]).toOption.any (fun p => p.errDesc.isNone && p.status == 200 &&
        (extractContentLength p.fields).toOption == some (some 5)) = true := by
    rfl
  obtain ⟨p, hp, hc⟩ := (Option.any_eq_true _ _).1 ha
  simp only [and_eq_true, isNone_iff_eq_none, beq_iff_eq] at hc
  obtain ⟨⟨he, hs⟩, hlen⟩ := hc
  refine ⟨newStream (Conn.new 65536 true) plainRequest, p, rfl, rfl,
    ⟨[0x88, 0x0f, 0x0d, 1, 0x35], rfl, ?_⟩, he, ?_, ?_, ?_⟩
  · cases h : parseResponse twoRequests.headerTable false [0x88, 0x0f, 0x0d, 1, 0x35] with
    | error e =>
      rw [h] at hp
      cases hp
    | ok p' =>
      rw [h] at hp
      rw [some.inj hp]
  · rw [hs]
    decide
  · rw [hs]
    exact ⟨rfl, by decide, by decide⟩
  · show extractContentLength p.fields = .ok (some 5)
    cases h : extractContentLength p.fields with
    | error e =>
      rw [h] at hlen
      cases hlen
    | ok n =>
      rw [h] at hlen
      rw [some.inj hlen]

/-- The response announces five octets, and ends after one. -/
theorem contentLength_short : ∃ c, Reach (fun _ _ => True) c ∧
    ∃ s p frame frames, ∃ env : ℕ → Env, Announces c 1 5 s frame false p ∧ ¬ LengthTold 5
      (newCalls c 1 frame (env 0) ++
        callsWhile .body 1 (onFrame c frame (env 0)) frames fun i => env (i + 1))
      (bodyEnd 1 5 (onFrame c frame (env 0)) 0 frames fun i => env (i + 1)) := by
  obtain ⟨s, p, ha⟩ := exists_announces
  refine ⟨twoRequests, reach_twoRequests, s, p, _, [⟨0, 1, 1, [65]⟩], fun _ => acceptAll,
    ha, fun ht => ?_⟩
  have he : bodyEnd 1 5 (onFrame twoRequests ⟨1, 4, 1, [0x88, 0x0f, 0x0d, 1, 0x35]⟩ acceptAll) 0
      [⟨0, 1, 1, [65]⟩] (fun _ => acceptAll) = some 1 := by
    rfl
  have ho : ∃ cb ∈ newCalls twoRequests 1 ⟨1, 4, 1, [0x88, 0x0f, 0x0d, 1, 0x35]⟩ acceptAll ++
      callsWhile .body 1 (onFrame twoRequests ⟨1, 4, 1, [0x88, 0x0f, 0x0d, 1, 0x35]⟩ acceptAll)
        [⟨0, 1, 1, [65]⟩] (fun _ => acceptAll), cb.error = some .isEos := by
    decide
  exact absurd (he.symm.trans (ht.1.1 ho)) (by decide)

/-- The response announces five octets, and has them. -/
theorem contentLength_iff_response : LengthTold 5
    (newCalls twoRequests 1 ⟨1, 4, 1, [0x88, 0x0f, 0x0d, 1, 0x35]⟩ acceptAll ++
      callsWhile .body 1 (onFrame twoRequests ⟨1, 4, 1, [0x88, 0x0f, 0x0d, 1, 0x35]⟩ acceptAll)
        [⟨0, 1, 1, [65, 66, 67, 68, 69]⟩] fun _ => acceptAll)
    (bodyEnd 1 5 (onFrame twoRequests ⟨1, 4, 1, [0x88, 0x0f, 0x0d, 1, 0x35]⟩ acceptAll) 0
      [⟨0, 1, 1, [65, 66, 67, 68, 69]⟩] fun _ => acceptAll) := by
  obtain ⟨s, p, ha⟩ := exists_announces
  refine (contentLength_iff ha [⟨0, 1, 1, [65, 66, 67, 68, 69]⟩] fun _ => acceptAll).2 ?_
  have hd : dataOf (onFrame twoRequests ⟨1, 4, 1, [0x88, 0x0f, 0x0d, 1, 0x35]⟩ acceptAll) 1
      ⟨0, 1, 1, [65, 66, 67, 68, 69]⟩ = some [65, 66, 67, 68, 69] := by
    rfl
  rw [if_neg Bool.false_ne_true]
  unfold WholeBody
  intro _
  rw [hd]
  exact .inr ⟨rfl, rfl⟩

end Vhttp.Http2Client
