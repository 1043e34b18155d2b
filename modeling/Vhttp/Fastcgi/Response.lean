import Vhttp.Fastcgi.Basic

/-!
# The response as a function of the records

`Phase` says what has come of a response, without buffers and without the pace of the client. Every
generator that can be reached is in the phase that the records it has read and the end of the
connection lead to.

* `accounted_of_reach`: what the client was sent, with what is still in the buffers, is what the
  phase has.
* `Reach.completes`: a response that is over is sent to its end.
-/

namespace Vhttp.Fastcgi

open List Option Bool Generator Transcript DoubleBuffer Incremental.ItemParser

/-! ## Phases -/

/-- A record, or the end of the connection. -/
inductive Input where
  | record (r : Record)
  | cut (c : Cut)
  deriving DecidableEq

/-- What has come: a part of the fields, a part of the body with what is left of it, all that will
come, or something that is not a response. -/
inductive Phase where
  | starting (received : Bytes)
  | body (head : Head) (left : Option ℕ) (content : Bytes)
  | finished (head : Head) (left : Option ℕ) (content : Bytes)
  | failed
  deriving DecidableEq

/-- Content comes in the body. -/
def Phase.append (head : Head) (left : Option ℕ) (content src : Bytes) : Phase :=
  .body head (left.map (· - (limited left src).length)) (content ++ limited left src)

/-- Content comes in the head. What follows the fields is limited if they came in one record. -/
def Phase.receive (env : Env) (received src : Bytes) : Phase :=
  match env.parseHeaders (received ++ src) received.length with
  | .error => .failed
  | .incomplete => .starting (received ++ src)
  | .complete len fields =>
    match fillHeaders env.date fields with
    | .error _ => .failed
    | .ok head =>
      if received = [] then .append head head.contentLength [] (src.drop len)
      else .body head head.contentLength ((received ++ src).drop len)

/-- A record, or the end of the connection, comes. -/
def Phase.next (env : Env) : Phase → Input → Phase
  | .starting received, .record r =>
    if r.type = stdout then
      if r.content = [] then .starting received else .receive env received r.content
    else if r.type = stderr then .starting received
    else .failed
  | .starting _, .cut _ => .failed
  | .body head left content, .record r =>
    if r.type = stdout then .append head left content r.content
    else if r.type = stderr then .body head left content
    else .finished head left content
  | .body head left content, .cut _ => .finished head left content
  | .finished head left content, _ => .finished head left content
  | .failed, _ => .failed

/-- The phase after these inputs. -/
def Phase.run (env : Env) (inputs : List Input) : Phase :=
  inputs.foldl (Phase.next env) (.starting [])

/-- The inputs of a generator. -/
def Transcript.inputs (t : Transcript) : List Input :=
  (recordParser.items t.stream).1.map .record ++ (t.cut.map .cut).toList

lemma limited_nil (left : Option ℕ) : limited left [] = [] := by
  cases left with
  | none => rfl
  | some left => exact take_nil

variable {body receiving : Bytes} {db : DoubleBuffer} {n : ℕ} {ok : Event → Prop}

lemma Phase.append_of_nil {left : Option ℕ} {src : Bytes} (h : limited left src = [])
    (head : Head) (content : Bytes) :
    Phase.append head left content src = .body head left content := by
  unfold Phase.append
  rw [h, append_nil]
  cases left with
  | none | some left => rfl

/-- What ends a response ends it for good. -/
lemma foldl_finished {env : Env} {head : Head} {left : Option ℕ} {content : Bytes}
    (inputs : List Input) :
    inputs.foldl (Phase.next env) (.finished head left content) = .finished head left content := by
  induction inputs with
  | nil => rfl
  | cons i inputs ih => exact ih

lemma foldl_failed {env : Env} (inputs : List Input) :
    inputs.foldl (Phase.next env) .failed = .failed := by
  induction inputs with
  | nil => rfl
  | cons i inputs ih => exact ih

section Buffers

variable {env : Env} {g g' : Generator} {p : Phase} {head : Head} {left : Option ℕ}
  {content : Bytes}

lemma reply_call (calls : List Call) (c : Call) : reply (calls ++ [c]) = (reply calls).add c := by
  unfold reply
  rw [foldl_append]
  rfl

lemma reply_log (message : Bytes) : reply (g.log message).calls = reply g.calls := by
  change reply (g.calls ++ [.logError message]) = _
  rw [reply_call]
  cases reply g.calls <;> rfl

/-- A response is ended. -/
lemma add_verdict (head : Head) (body more : Bytes) (left : Option ℕ) :
    Reply.add (.started head body) (.send more (verdict left)) =
      .done head (body ++ more) (verdict left) := by
  unfold verdict
  split_ifs <;> rfl

/-- What has not been sent of a buffer. -/
def DoubleBuffer.pending (db : DoubleBuffer) : Bytes := db.buf.drop db.bytesInflight

/-- The buffers of a response that has been started: what was sent and what is in them is the
content. -/
structure Flow (g : Generator) (head : Head) (left : Option ℕ) (content : Bytes) : Prop where
  sentHeaders : g.sentHeaders = true
  leftsize : g.leftsize = left
  connecting : g.connecting = false
  disposed : g.disposed = false
  idle : g.sending.inflight = false → g.sending.bytesInflight = 0
  sent : ∃ body, reply g.calls = .started head body ∧
    body ++ g.sending.pending ++ g.receiving = content

variable (h : Flow g head left content)
include h

/-- Fields that the buffers do not depend on. -/
lemma Flow.congr (he : g'.sentHeaders = g.sentHeaders)
    (hl : g'.leftsize = g.leftsize) (hc : g'.connecting = g.connecting)
    (hd : g'.disposed = g.disposed) (hs : g'.sending = g.sending)
    (hr : g'.receiving = g.receiving) (hp : reply g'.calls = reply g.calls) :
    Flow g' head left content where
  sentHeaders := he.trans h.sentHeaders
  leftsize := hl.trans h.leftsize
  connecting := hc.trans h.connecting
  disposed := hd.trans h.disposed
  idle := by rw [hs]; exact h.idle
  sent := by rw [hs, hr, hp]; exact h.sent

/-- What was sent is a part of the content. -/
lemma Flow.content_eq (hb : reply g.calls = .started head body) :
    body ++ g.sending.pending ++ g.receiving = content := by
  obtain ⟨body', hr, hc⟩ := h.sent
  rw [hb] at hr
  cases hr
  exact hc

lemma Flow.length_le
    (hb : reply g.calls = .started head body) : body.length ≤ content.length := by
  rw [← h.content_eq hb, append_assoc, length_append]
  exact Nat.le_add_right _ _

lemma Flow.log (message : Bytes) : Flow (g.log message) head left content :=
  h.congr rfl rfl rfl rfl rfl rfl (reply_log message)

omit h

/-! ## Sending -/

/-- Only the buffers and the calls are changed. -/
lemma doSend_eq (env : Env) (g : Generator) : ∃ sending receiving calls,
    g.doSend env = { g with sending, receiving, calls } := by
  unfold doSend sendPrepared
  generalize g.sending.prepare g.receiving env.preferredChunkSize = prepared
  by_cases ha : g.sock = none ∧ prepared.1.length = prepared.2.1.buf.length ∧ prepared.2.2 = []
  · rw [if_pos ha]
    exact ⟨_, _, _, rfl⟩
  · rw [if_neg ha]
    by_cases hv : prepared.1 = []
    · rw [if_pos hv]
      exact ⟨_, _, _, rfl⟩
    · rw [if_neg hv]
      exact ⟨_, _, _, rfl⟩

@[simp] lemma doSend_sock : (g.doSend env).sock = g.sock := by
  obtain ⟨_, _, _, h⟩ := doSend_eq env g
  rw [h]

@[simp] lemma doSend_timeout : (g.doSend env).timeout = g.timeout := by
  obtain ⟨_, _, _, h⟩ := doSend_eq env g
  rw [h]

@[simp] lemma doSend_connecting : (g.doSend env).connecting = g.connecting := by
  obtain ⟨_, _, _, h⟩ := doSend_eq env g
  rw [h]

/-- What `vhttp_doublebuffer_prepare` returns. -/
structure Prepared (db : DoubleBuffer) (receiving : Bytes) (r : Bytes × DoubleBuffer × Bytes) :
    Prop where
  whole : r.1 ++ r.2.1.pending ++ r.2.2 = db.buf ++ receiving
  empty : r.1 = [] → db.buf ++ receiving = []
  inflight : r.1 ≠ [] → r.2.1.inflight = true
  idle : r.2.1.inflight = false → r.2.1.bytesInflight = 0
  all : r.1.length = r.2.1.buf.length → r.2.2 = [] → r.1 = db.buf ++ receiving

/-- A part of a buffer is taken. -/
lemma prepared_take {buf rest : Bytes} (hpos : 0 < n)
    (hb : buf ≠ []) (hw : buf ++ rest = db.buf ++ receiving) :
    Prepared db receiving (buf.take n, ⟨buf, true, min buf.length n⟩, rest) where
  whole := by
    change buf.take n ++ buf.drop (min buf.length n) ++ rest = _
    have hd : buf.drop (min buf.length n) = buf.drop n := by
      by_cases hl : buf.length ≤ n
      · rw [Nat.min_eq_left hl, drop_length, drop_eq_nil_of_le hl]
      · rw [Nat.min_eq_right (Nat.le_of_not_le hl)]
    rw [hd, take_append_drop, hw]
  empty h := by
    rcases take_eq_nil_iff.1 h with h | h
    · exact absurd h (Nat.ne_of_gt hpos)
    · exact absurd h hb
  inflight _ := rfl
  idle h := by cases h
  all hlen hr := by
    dsimp only at hlen hr ⊢
    rw [← hw, hr, append_nil]
    refine take_of_length_le ?_
    rw [length_take] at hlen
    omega

lemma prepared_prepare (hz : db.bytesInflight = 0) (receiving : Bytes) (hpos : 0 < n) :
    Prepared db receiving (db.prepare receiving n) := by
  unfold prepare
  by_cases hb : db.buf = []
  · rw [if_pos hb]
    by_cases hr : receiving = []
    · rw [if_pos hr]
      subst hr
      exact ⟨by simp [pending, hb], fun _ => by simp [hb], fun h => absurd rfl h,
        fun _ => hz, fun _ _ => by simp [hb]⟩
    · rw [if_neg hr]
      exact prepared_take hpos hr (by rw [hb, append_nil, nil_append])
  · rw [if_neg hb]
    exact prepared_take hpos hb rfl

lemma prepared_doSend (env : Env) (h : Flow g head left content)
    (hi : g.sending.inflight = false) : Prepared g.sending g.receiving
      (g.sending.prepare g.receiving env.preferredChunkSize) :=
  prepared_prepare (h.idle hi) _ env.preferredChunkSize_pos

variable (hi : g.sending.inflight = false)
include h hi

lemma pending_of_idle : g.sending.pending = g.sending.buf := by
  unfold pending
  rw [h.idle hi, drop_zero]

/-- A part of the content is sent. -/
lemma flow_send {vec : Bytes} (hp : Prepared g.sending g.receiving (vec, db, receiving)) :
    Flow ((g.setBuffers db receiving).call (.send vec .inProgress)) head left content where
  sentHeaders := h.sentHeaders
  leftsize := h.leftsize
  connecting := h.connecting
  disposed := h.disposed
  idle := hp.idle
  sent := by
    obtain ⟨body, hr, hc⟩ := h.sent
    refine ⟨body ++ vec, ?_, ?_⟩
    · change reply (g.calls ++ [_]) = _
      rw [reply_call, hr]
      rfl
    · change body ++ vec ++ db.pending ++ receiving = content
      have hw : vec ++ db.pending ++ receiving = _ := hp.whole
      rw [pending_of_idle h hi, append_assoc] at hc
      rw [append_assoc body, append_assoc body, hw, hc]

/-- While the application is connected something may be sent, or nothing. -/
lemma Flow.doSend_open (hs : g.sock ≠ none) : Flow (g.doSend env) head left content := by
  have hp : Prepared g.sending g.receiving _ := prepared_doSend env h hi
  unfold doSend sendPrepared
  rw [if_neg fun ha => hs ha.1]
  by_cases hv : (g.sending.prepare g.receiving env.preferredChunkSize).1 = []
  · rw [if_pos hv]
    obtain ⟨body, hr, hc⟩ := h.sent
    refine ⟨h.sentHeaders, h.leftsize, h.connecting, h.disposed, hp.idle, body, hr, ?_⟩
    have hw := hp.whole
    rw [hv, nil_append] at hw
    rw [pending_of_idle h hi, append_assoc] at hc
    rw [append_assoc, ← hc]
    exact congrArg (body ++ ·) hw
  · rw [if_neg hv]
    exact flow_send h hi hp

omit h hi

/-- When nothing more will come, the rest is sent, or a part of it. -/
lemma Flow.doSend_closed (env : Env) (h : Flow g head left content)
    (hi : g.sending.inflight = false) (hs : g.sock = none)
    (hd : reply g.calls = .started head body) :
    reply (g.doSend env).calls = .done head content (verdict left) ∨
      (Flow (g.doSend env) head left content ∧ (g.doSend env).sending.inflight = true ∧
        ∃ more, more ≠ [] ∧ reply (g.doSend env).calls = .started head (body ++ more)) := by
  have hp : Prepared g.sending g.receiving _ := prepared_doSend env h hi
  have hc := h.content_eq hd
  rw [pending_of_idle h hi, append_assoc] at hc
  unfold doSend sendPrepared
  by_cases ha : g.sock = none ∧ (g.sending.prepare g.receiving env.preferredChunkSize).1.length =
        (g.sending.prepare g.receiving env.preferredChunkSize).2.1.buf.length ∧
      (g.sending.prepare g.receiving env.preferredChunkSize).2.2 = []
  · rw [if_pos ha]
    left
    change reply (g.calls ++ [_]) = _
    rw [reply_call, hd, hp.all ha.2.1 ha.2.2, h.leftsize, ← hc]
    exact add_verdict head body _ left
  · rw [if_neg ha]
    by_cases hv : (g.sending.prepare g.receiving env.preferredChunkSize).1 = []
    · -- nothing is left to be sent, and this is the end
      exfalso
      have hn := hp.empty hv
      have hw := hp.whole
      rw [hn, hv, nil_append, append_eq_nil_iff] at hw
      obtain ⟨hb, hr⟩ := append_eq_nil_iff.1 hn
      refine ha ⟨hs, ?_, hw.2⟩
      unfold prepare
      rw [if_pos hb, if_pos hr, hb]
    · rw [if_neg hv]
      right
      refine ⟨flow_send h hi hp, hp.inflight hv, _, hv, ?_⟩
      change reply (g.calls ++ [_]) = _
      rw [reply_call, hd]
      rfl

/-! ## Receiving -/

/-- A generator that waits for records. -/
inductive Ready (g : Generator) : Phase → Prop
  | starting (sentHeaders : g.sentHeaders = false) (connecting : g.connecting = false)
    (disposed : g.disposed = false) (sending : g.sending = ⟨[], false, 0⟩)
    (waiting : reply g.calls = .waiting) : Ready g (.starting g.receiving)
  | body {head : Head} {left : Option ℕ} {content : Bytes} (flow : Flow g head left content) :
    Ready g (.body head left content)

lemma Ready.congr (h : Ready g p) (hs : g'.sentHeaders = g.sentHeaders)
    (hl : g'.leftsize = g.leftsize) (hc : g'.connecting = g.connecting)
    (hd : g'.disposed = g.disposed) (he : g'.sending = g.sending)
    (hr : g'.receiving = g.receiving) (hp : reply g'.calls = reply g.calls) : Ready g' p := by
  cases h with
  | starting hs' hc' hd' he' hw =>
    rw [← hr]
    exact .starting (hs.trans hs') (hc.trans hc') (hd.trans hd') (he.trans he') (hp.trans hw)
  | body hf => exact .body (hf.congr hs hl hc hd he hr hp)

lemma Ready.log (h : Ready g p) (message : Bytes) : Ready (g.log message) p :=
  h.congr rfl rfl rfl rfl rfl rfl (reply_log message)

lemma Ready.setSock (h : Ready g p) (sock : Option Bytes) : Ready (g.setSock sock) p :=
  h.congr rfl rfl rfl rfl rfl rfl rfl

/-- How the loop goes on is how the response goes on. -/
def Next.Fits (p : Phase) : Next → Prop
  | .more g => Ready g p ∧ g.room = none
  | .eosReceived g _ => ∃ head left content, p = .finished head left content ∧
    Flow g head left content
  | .error g => p = .failed ∧ g.sentHeaders = false ∧ reply g.calls = .waiting

/-- `Next.Fits` for what a handler of a record returns. -/
def Handled (p : Phase) (r : Bool × Generator) : Prop :=
  (match r with
    | (true, g) => Next.more g
    | (false, g) => Next.error g).Fits p

lemma handled_appendOrLog (h : Flow g head left content) (hm : g.room = none) (src : Bytes) :
    Handled (.append head left content src) (g.appendOrLog src) := by
  unfold appendOrLog appendContent
  rw [h.leftsize]
  by_cases hn : limited left src = []
  · rw [if_pos hn, Phase.append_of_nil hn]
    exact ⟨.body h, hm⟩
  · rw [if_neg hn]
    rw [hm]
    refine ⟨.body ⟨h.sentHeaders, rfl, h.connecting, h.disposed, h.idle, ?_⟩, rfl⟩
    obtain ⟨body, hr, hc⟩ := h.sent
    refine ⟨body, hr, ?_⟩
    change body ++ g.sending.pending ++ (g.receiving ++ limited left src) = _
    rw [← append_assoc, hc]

/-- The response is started. -/
lemma flow_startResponse (hc : g.connecting = false) (hd : g.disposed = false)
    (hs : g.sending = ⟨[], false, 0⟩) (hw : reply g.calls = .waiting) (head : Head) :
    Flow ((g.call (.startResponse head)).setStarted head) head head.contentLength g.receiving where
  sentHeaders := rfl
  leftsize := rfl
  connecting := hc
  disposed := hd
  idle _ := congrArg bytesInflight hs
  sent := by
    refine ⟨[], ?_, ?_⟩
    · change reply (g.calls ++ [_]) = _
      rw [reply_call, hw]
      rfl
    · change [] ++ g.sending.pending ++ g.receiving = _
      rw [hs]
      rfl

lemma handled_startResponse (hs : g.sentHeaders = false) (hw : reply g.calls = .waiting)
    {fields : List Http1Client.Field} {rest : Generator → Bool × Generator} {q : Head → Phase}
    (h : ∀ head, Handled (q head) (rest ((g.call (.startResponse head)).setStarted head))) :
    Handled (match fillHeaders env.date fields with
      | .error _ => .failed
      | .ok head => q head) (g.startResponse env fields rest) := by
  unfold startResponse
  cases fillHeaders env.date fields with
  | error message => exact ⟨rfl, hs, (reply_log _).trans hw⟩
  | ok head => exact h head

lemma handled_stdout (h : Ready g p) (hm : g.room = none) (src : Bytes) :
    Handled (p.next env (.record ⟨stdout, src⟩)) (g.handleStdinRecord env src) := by
  unfold handleStdinRecord
  by_cases hr : src = []
  · rw [if_pos hr]
    subst hr
    cases h with
    | starting hs hc hd he hw =>
      exact ⟨.starting hs hc hd he hw, hm⟩
    | body hl =>
      change Handled (Phase.append _ _ _ []) _
      rw [Phase.append_of_nil (limited_nil _)]
      exact ⟨.body hl, hm⟩
  · rw [if_neg hr]
    cases h with
    | body hl =>
      rw [if_pos hl.sentHeaders]
      exact handled_appendOrLog hl hm src
    | starting hs hc hd he hw =>
      have hn : (Phase.starting g.receiving).next env (.record ⟨stdout, src⟩) =
          Phase.receive env g.receiving src := by
        rw [Phase.next, if_pos rfl, if_neg hr]
      rw [if_neg (by rw [hs]; exact Bool.false_ne_true), hn]
      by_cases hf : g.receiving = []
      · rw [if_pos hf, hf]
        unfold Phase.receive
        rw [nil_append, length_nil]
        cases env.parseHeaders src 0 with
        | error => exact ⟨rfl, hs, (reply_log _).trans hw⟩
        | incomplete => exact ⟨.starting hs hc hd he hw, hm⟩
        | complete len fields =>
          refine handled_startResponse hs hw fun head => ?_
          have hl := flow_startResponse hc hd he hw head
          rw [hf] at hl
          rw [if_pos rfl]
          by_cases hre : src.drop len = []
          · rw [if_pos hre, hre, Phase.append_of_nil (limited_nil _)]
            exact ⟨.body hl, hm⟩
          · rw [if_neg hre]
            exact handled_appendOrLog hl hm _
      · rw [if_neg hf]
        unfold Phase.receive
        dsimp only
        cases env.parseHeaders (g.receiving ++ src) g.receiving.length with
        | error => exact ⟨rfl, hs, (reply_log _).trans hw⟩
        | incomplete => exact ⟨.starting hs hc hd he hw, hm⟩
        | complete len fields =>
          refine handled_startResponse (g := g.setReceiving (g.receiving ++ src)) hs hw
            fun head => ?_
          rw [if_neg hf]
          exact ⟨.body (flow_startResponse (g := g.setReceiving ((g.receiving ++ src).drop len))
            hc hd he hw head), hm⟩

lemma fits_handleRecord (env : Env) (h : Ready g p) (hm : g.room = none) (r : Record) :
    (g.handleRecord env r).Fits (p.next env (.record r)) := by
  obtain ⟨type, src⟩ := r
  unfold handleRecord
  by_cases ht : type = stdout
  · subst ht
    rw [if_pos rfl]
    exact handled_stdout h hm src
  rw [if_neg ht]
  by_cases hs : type = stderr
  · rw [if_pos hs]
    have hl : Ready (if src = [] then g else g.log src) p := by
      by_cases hr : src = []
      · rwa [if_pos hr]
      · rw [if_neg hr]
        exact h.log src
    have hx : p.next env (.record ⟨type, src⟩) = p := by
      cases h with
      | starting | body => rw [Phase.next, if_neg ht, if_pos hs]
    rw [hx]
    refine ⟨hl, ?_⟩
    split_ifs <;> exact hm
  rw [if_neg hs]
  cases h with
  | starting hn hc hdi hd hw =>
    have hx : (Phase.starting g.receiving).next env (.record ⟨type, src⟩) = .failed := by
      rw [Phase.next, if_neg ht, if_neg hs]
    have ho : ¬g.sentHeaders = true := by
      rw [hn]
      exact Bool.false_ne_true
    rw [hx, if_neg ho]
    by_cases he : type = endRequest
    · rw [if_pos he]
      exact ⟨rfl, hn, (reply_log _).trans hw⟩
    · rw [if_neg he]
      change Next.Fits _ (if g.sentHeaders = true then _ else _)
      rw [if_neg ho]
      exact ⟨rfl, hn, (reply_log _).trans hw⟩
  | body hf =>
    rw [Phase.next, if_neg ht, if_neg hs, if_pos hf.sentHeaders]
    by_cases he : type = endRequest
    · rw [if_pos he]
      exact ⟨_, _, _, rfl, hf⟩
    · rw [if_neg he]
      have hl := hf.log (unexpectedRecord type)
      rw [if_pos hl.sentHeaders]
      exact ⟨_, _, _, rfl, hl⟩

/-- The records of a read, one after another. -/
lemma fits_handleRecords (env : Env) (h : Ready g p) (hr : g.room = none) (fuel : ℕ)
    (input : Bytes) : (g.handleRecords env fuel input).Fits
        (((recordParser.take fuel input).1.map .record).foldl (Phase.next env) p) ∧
      ∀ g', g.handleRecords env fuel input = .more g' →
        g'.sock = some (recordParser.take fuel input).2 := by
  induction fuel generalizing g p input with
  | zero =>
    refine ⟨⟨?_, hr⟩, fun g' h' => by cases h'; rfl⟩
    exact h.setSock _
  | succ fuel ih =>
    cases hn : nextRecord input with
    | none =>
      rw [take_of_none hn, handleRecords, hn]
      exact ⟨⟨h.setSock _, hr⟩, fun g' h' => by cases h'; rfl⟩
    | some item =>
      obtain ⟨r, n⟩ := item
      have hf := fits_handleRecord env h hr r
      rw [take_of_some hn, handleRecords, hn]
      dsimp only
      rw [map_cons, foldl_cons]
      cases hh : g.handleRecord env r with
      | more g' =>
        rw [hh] at hf
        exact ih hf.1 hf.2 _
      | eosReceived g' canKeepalive =>
        rw [hh] at hf
        obtain ⟨head, left, content, hp, hl⟩ := hf
        rw [hp, foldl_finished]
        exact ⟨⟨head, left, content, rfl, hl⟩, fun g' h' => by cases h'⟩
      | error g' =>
        rw [hh] at hf
        obtain ⟨hp, hs, hw⟩ := hf
        rw [hp, foldl_failed]
        exact ⟨⟨rfl, hs, hw⟩, fun g' h' => by cases h'⟩

end Buffers

/-! ## Runs -/

/-- Nothing but the client is waited for. -/
structure Inert (g : Generator) : Prop where
  connecting : g.connecting = false
  sock : g.sock = none
  timeout : g.timeout = false

/-- A generator is in the phase that its inputs lead to. -/
inductive Accounted (env : Env) (g : Generator) (t : Transcript) : Prop
  | connecting (connecting : g.connecting = true) (sock : g.sock = none)
    (sentHeaders : g.sentHeaders = false) (receiving : g.receiving = [])
    (disposed : g.disposed = false) (sending : g.sending = ⟨[], false, 0⟩)
    (waiting : reply g.calls = .waiting) (nothing : t = ⟨[], none, false⟩)
  | live (sock : g.sock = some (recordParser.items t.stream).2) (cut : t.cut = none)
    (ready : Ready g (Phase.run env t.inputs))
  | draining {head : Head} {left : Option ℕ} {content : Bytes} (inert : Inert g)
    (flow : Flow g head left content) (phase : Phase.run env t.inputs = .finished head left content)
    (inflight : g.sending.inflight = true)
  | ended {head : Head} {left : Option ℕ} {content : Bytes} (inert : Inert g)
    (phase : Phase.run env t.inputs = .finished head left content)
    (done : reply g.calls = .done head content (verdict left))
  | failed (inert : Inert g) (phase : Phase.run env t.inputs = .failed)
    (disposed : g.disposed = true) (unavailable : reply g.calls = .unavailable)
  | stopped (inert : Inert g) (disposed : g.disposed = true) (stopped : t.stopped = true)
    (open_ : ∀ head body state, reply g.calls ≠ .done head body state)

section Runs

variable {env : Env} {g g' : Generator} {t : Transcript} {p : Phase} {head : Head}
  {left : Option ℕ} {content : Bytes}

lemma reply_socket (b : Bool) :
    reply (g.call (if b then .returnSocket else .closeSocket)).calls = reply g.calls := by
  change reply (g.calls ++ [_]) = _
  rw [reply_call]
  cases b <;> cases reply g.calls <;> rfl

/-- The rest is sent when nothing more will come. -/
lemma accounted_doSend (hn : Inert g) (h : Flow g head left content)
    (hi : g.sending.inflight = false) (hp : Phase.run env t.inputs = .finished head left content) :
    Accounted env (g.doSend env) t := by
  have hi' : Inert (g.doSend env) :=
    ⟨by rw [doSend_connecting]; exact hn.connecting, by rw [doSend_sock]; exact hn.sock,
      by rw [doSend_timeout]; exact hn.timeout⟩
  obtain ⟨body, hr, -⟩ := h.sent
  rcases h.doSend_closed env hi hn.sock hr with hd | ⟨hl, hf, -⟩
  · exact .ended hi' hp hd
  · exact .draining hi' hl hp hf

lemma accounted_eos (h : Flow g head left content) (canKeepalive : Bool)
    (hp : Phase.run env t.inputs = .finished head left content) :
    Accounted env (g.sendEosAndClose env canKeepalive) t := by
  have hl : Flow (((g.call (if env.keepalive && canKeepalive then .returnSocket
      else .closeSocket)).setSock none).setTimeout false) head left content :=
    h.congr rfl rfl rfl rfl rfl rfl (reply_socket _)
  unfold sendEosAndClose
  by_cases hf : g.sending.inflight = true
  · exact (if_pos hf).symm ▸ .draining ⟨h.connecting, rfl, rfl⟩ hl hp hf
  · exact (if_neg hf).symm ▸ accounted_doSend ⟨h.connecting, rfl, rfl⟩ hl
      (eq_false_of_not_eq_true hf) hp

lemma reply_closeGenerator : reply g.closeGenerator.calls = reply g.calls := by
  unfold closeGenerator
  by_cases hs : g.sock = none
  · rw [if_pos hs]
  · rw [if_neg hs]
    exact reply_socket false

/-- The error response is sent. -/
lemma accounted_error (hs : g.sentHeaders = false) (hw : reply g.calls = .waiting)
    (hp : Phase.run env t.inputs = .failed) : Accounted env (g.errorclose env) t := by
  have hn : ¬g.sentHeaders = true := by
    rw [hs]
    exact Bool.false_ne_true
  unfold errorclose
  rw [if_neg hn]
  refine .failed ⟨rfl, rfl, rfl⟩ hp rfl ?_
  change reply (g.closeGenerator.calls ++ [_]) = _
  rw [reply_call, reply_closeGenerator, hw]
  rfl

/-- The connection is lost. -/
lemma accounted_cut (h : Ready g p) (c : Cut)
    (hp : Phase.run env t.inputs = p.next env (.cut c)) : Accounted env (g.errorclose env) t := by
  cases h with
  | starting hs _ _ _ hw => exact accounted_error hs hw hp
  | body hf =>
    unfold errorclose
    rw [if_pos hf.sentHeaders]
    exact accounted_eos hf false hp

/-- A record stream goes on. -/
lemma inputs_append (hc : t.cut = none) (data : Bytes) :
    (Transcript.inputs { t with stream := t.stream ++ data }) =
      t.inputs ++ (recordParser.items ((recordParser.items t.stream).2 ++ data)).1.map .record := by
  unfold inputs
  rw [hc, items_append, map_append]
  simp only [map_none, toList_none, append_nil]

lemma inputs_cut (hc : t.cut = none) (c : Cut) :
    (Transcript.inputs { t with cut := some c }) = t.inputs ++ [.cut c] := by
  unfold inputs
  rw [hc]
  simp

lemma run_append (inputs more : List Input) :
    Phase.run env (inputs ++ more) = more.foldl (Phase.next env) (Phase.run env inputs) :=
  foldl_append

/-- What was received is sent on. -/
lemma ready_sendReceived (env : Env) (h : Ready g p) (hk : g.sock ≠ none) (before : Bool) :
    Ready (g.sendReceived env before) p ∧ (g.sendReceived env before).sock = g.sock := by
  unfold sendReceived
  cases h with
  | starting hs hcn hd hn hw =>
    rw [if_neg (by rw [hs]; exact Bool.false_ne_true)]
    exact ⟨.starting hs hcn hd hn hw, rfl⟩
  | @body head left content hl =>
    rw [if_pos hl.sentHeaders]
    by_cases he : (!before && decide (g.receiving = [])) = true
    · rw [if_pos he]
      obtain ⟨body, hr, hc⟩ := hl.sent
      refine ⟨.body ⟨hl.sentHeaders, hl.leftsize, hl.connecting, hl.disposed,
        fun h => (by cases h), body, ?_, hc⟩, rfl⟩
      change reply (g.calls ++ [_]) = _
      rw [reply_call, hr]
      exact congrArg (Reply.started head) (append_nil body)
    · rw [if_neg he]
      by_cases hf : g.sending.inflight = true
      · rw [if_pos hf]
        exact ⟨.body hl, rfl⟩
      · rw [if_neg hf]
        exact ⟨.body (hl.doSend_open (eq_false_of_not_eq_true hf) hk), doSend_sock⟩

lemma accounted_read (hk : g.sock = some (recordParser.items t.stream).2)
    (hc : t.cut = none) (h : Ready g (Phase.run env t.inputs)) (data : Bytes) :
    Accounted env (handle env g (.read data none)) (t.add (.read data none)) := by
  have hd : Ready (g.setRoom none) (Phase.run env t.inputs) :=
    h.congr rfl rfl rfl rfl rfl rfl rfl
  have hn := inputs_append hc data
  change Accounted env ((g.setRoom none).onRead env (g.sock.getD [] ++ data))
    { t with stream := t.stream ++ data }
  unfold onRead
  rw [hk, getD_some]
  obtain ⟨hf, hm⟩ := fits_handleRecords env hd rfl
    ((recordParser.items t.stream).2 ++ data).length ((recordParser.items t.stream).2 ++ data)
  rw [take_eq_items (le_refl _), ← run_append, ← hn] at hf
  rw [take_eq_items (le_refl _)] at hm
  cases hr : (g.setRoom none).handleRecords env ((recordParser.items t.stream).2 ++ data).length
      ((recordParser.items t.stream).2 ++ data) with
  | more g' =>
    rw [hr] at hf
    have hs' := hm g' hr
    obtain ⟨hr', hkp⟩ := ready_sendReceived env hf.1
      (by rw [hs']; exact some_ne_none _) (g.setRoom none).sentHeaders
    refine .live ?_ hc (hr'.congr rfl rfl rfl rfl rfl rfl rfl)
    change (g'.sendReceived env _).sock = _
    rw [hkp, hs']
    exact congrArg some (congrArg Prod.snd (items_append _ _ _)).symm
  | eosReceived g' canKeepalive =>
    rw [hr] at hf
    obtain ⟨head, left, content, hp, hl⟩ := hf
    exact accounted_eos hl canKeepalive hp
  | error g' =>
    rw [hr] at hf
    obtain ⟨hp, hs, hw⟩ := hf
    exact accounted_error hs hw hp

lemma accounted_readError (hc : t.cut = none) (h : Ready g (Phase.run env t.inputs)) :
    Accounted env (g.onReadError env) (t.add .readError) := by
  have hp : Phase.run env (t.add .readError).inputs =
      (Phase.run env t.inputs).next env (.cut .closed) := by
    change Phase.run env (inputs { t with cut := some .closed }) = _
    rw [inputs_cut hc, run_append]
    rfl
  unfold onReadError
  split_ifs
  · exact accounted_cut h .closed hp
  · exact accounted_cut (h.log _) .closed hp

lemma accounted_timeout (hc : t.cut = none) (h : Ready g (Phase.run env t.inputs)) :
    Accounted env (g.onTimeout env) (t.add .timeout) := by
  have hp : Phase.run env (t.add .timeout).inputs =
      (Phase.run env t.inputs).next env (.cut .timeout) := by
    change Phase.run env (inputs { t with cut := some .timeout }) = _
    rw [inputs_cut hc, run_append]
    rfl
  have hr : Ready (g.setTimeout false) (Phase.run env t.inputs) :=
    h.congr rfl rfl rfl rfl rfl rfl rfl
  exact accounted_cut (hr.log _) .timeout hp

/-- What was in flight has been taken. -/
lemma Flow.consume (h : Flow g head left content) :
    Flow (g.setBuffers g.sending.consume g.receiving) head left content where
  sentHeaders := h.sentHeaders
  leftsize := h.leftsize
  connecting := h.connecting
  disposed := h.disposed
  idle _ := rfl
  sent := h.sent

lemma accounted_stop (h : Accounted env g t) : Accounted env g.closeGenerator (t.add .stop) := by
  have hs (ho : ∀ head body state, reply g.calls ≠ .done head body state) :
      Accounted env g.closeGenerator (t.add .stop) := by
    refine .stopped ⟨rfl, rfl, rfl⟩ rfl rfl fun head body state hn => ?_
    rw [reply_closeGenerator] at hn
    exact ho head body state hn
  cases h with
  | connecting _ _ _ _ _ _ hw _ =>
    exact hs fun head body state hn => by rw [hw] at hn; cases hn
  | live _ _ hd =>
    refine hs fun head body state hn => ?_
    generalize Phase.run env t.inputs = p at hd
    cases hd with
    | starting _ _ _ _ hw => rw [hw] at hn; cases hn
    | body hf =>
      obtain ⟨_, hr, -⟩ := hf.sent
      rw [hr] at hn
      cases hn
  | draining _ hf _ _ =>
    refine hs fun head body state hn => ?_
    obtain ⟨_, hr, -⟩ := hf.sent
    rw [hr] at hn
    cases hn
  | ended _ hp hn => exact .ended ⟨rfl, rfl, rfl⟩ hp (reply_closeGenerator.trans hn)
  | failed _ hp _ hu =>
    exact .failed ⟨rfl, rfl, rfl⟩ hp rfl (reply_closeGenerator.trans hu)
  | stopped _ _ _ ho => exact hs ho

/-- The response is not over while `proceed` may be called. -/
lemma accounted_proceed (h : Accounted env g t) (hp : possible g .proceed = true) :
    Accounted env (g.doProceed env) t := by
  have hp' : (g.sending.inflight && !g.disposed && !g.ended) = true := hp
  rw [and_eq_true, and_eq_true, not_eq_true', not_eq_true'] at hp'
  obtain ⟨⟨hf, hd⟩, he⟩ := hp'
  cases h with
  | connecting _ _ _ _ _ hs _ _ => rw [hs] at hf; cases hf
  | live hk hc hr =>
    refine .live ?_ hc ?_
    · exact doSend_sock.trans hk
    · generalize Phase.run env t.inputs = p at hr
      cases hr with
      | starting _ _ _ hs _ => rw [hs] at hf; cases hf
      | body hl =>
        refine .body (hl.consume.doSend_open rfl ?_)
        change g.sock ≠ none
        rw [hk]
        exact some_ne_none _
  | draining hn hl hh _ =>
    exact accounted_doSend ⟨hn.connecting, hn.sock, hn.timeout⟩ hl.consume rfl hh
  | ended _ _ hdn =>
    unfold ended at he
    rw [hdn] at he
    cases he
  | failed _ _ hd' _ | stopped _ hd' => rw [hd'] at hd; cases hd

/-- Memory is not short. -/
def Event.Roomy : Event → Prop
  | .read _ room => room = none
  | _ => True

lemma not_isSome_of_inert (h : Inert g) : ¬g.sock.isSome = true := by
  rw [h.sock]
  exact Bool.false_ne_true

variable (h : Accounted env g t)
include h

/-- While there is a connection, its records are waited for. -/
lemma Accounted.live_of_sock (hs : g.sock.isSome = true) :
    g.sock = some (recordParser.items t.stream).2 ∧ t.cut = none ∧
      Ready g (Phase.run env t.inputs) := by
  cases h with
  | connecting _ hk => rw [hk] at hs; cases hs
  | live hk hc hr => exact ⟨hk, hc, hr⟩
  | draining hn | ended hn | failed hn | stopped hn =>
    exact absurd hs (not_isSome_of_inert hn)

lemma accounted_connect (hcn : g.connecting = true)
    (errstr : Option Bytes) : Accounted env (g.onConnect env errstr) (t.add (.connect errstr)) := by
  have hi (hf : g.connecting = false) : Accounted env (g.onConnect env errstr)
      (t.add (.connect errstr)) := by
    rw [hcn] at hf
    cases hf
  cases h with
  | connecting _ _ hs hc hd he hw ho =>
    subst ho
    cases errstr with
    | some errstr => exact accounted_error hs ((reply_log _).trans hw) rfl
    | none =>
      refine .live rfl rfl ?_
      have hr : Ready ((g.setConnected.setSock (some [])).setTimeout true)
        (.starting g.receiving) := .starting hs rfl hd he hw
      rw [hc] at hr
      exact hr
  | live _ _ hr =>
    generalize Phase.run env t.inputs = p at hr
    cases hr with
    | starting _ hf => exact hi hf
    | body hl => exact hi hl.connecting
  | draining hn | ended hn | failed hn | stopped hn => exact hi hn.connecting

lemma accounted_onTimeout (ht : g.timeout = true) :
    Accounted env (g.onTimeout env) (t.add .timeout) := by
  have hi (hn : Inert g) : Accounted env (g.onTimeout env) (t.add .timeout) := by
    rw [hn.timeout] at ht
    cases ht
  cases h with
  | connecting _ _ hs _ _ _ hw ho =>
    subst ho
    exact accounted_error hs ((reply_log _).trans hw) rfl
  | live _ hc hr => exact accounted_timeout hc hr
  | draining hn | ended hn | failed hn | stopped hn => exact hi hn

lemma accounted_step {e : Event} (hm : e.Roomy)
    (hstep : step env g e = some g') : Accounted env g' (t.add e) := by
  obtain ⟨hp, hg'⟩ := ite_none_right_eq_some.1 hstep
  cases hg'
  cases e with
  | connect errstr => exact accounted_connect h hp errstr
  | sendComplete =>
    obtain ⟨hs, hc, hr⟩ := h.live_of_sock hp
    exact .live hs hc (hr.congr rfl rfl rfl rfl rfl rfl rfl)
  | read data room =>
    obtain ⟨hs, hc, hr⟩ := h.live_of_sock hp
    cases hm
    exact accounted_read hs hc hr data
  | readError =>
    obtain ⟨hs, hc, hr⟩ := h.live_of_sock hp
    exact accounted_readError hc hr
  | timeout => exact accounted_onTimeout h hp
  | proceed => exact accounted_proceed h hp
  | stop => exact accounted_stop h

omit h

/-- Every generator is in the phase that its inputs lead to. -/
theorem accounted_of_reach (ho : ∀ e, ok e → e.Roomy)
    (h : Reach env ok g t) : Accounted env g t := by
  induction h with
  | new => exact .connecting rfl rfl rfl rfl rfl rfl rfl rfl
  | step _ he hstep ih => exact accounted_step ih (ho _ he) hstep

/-- The client takes the rest of a response that nothing is added to. -/
lemma Reach.drain (hpr : ok .proceed) (h : Reach env ok g t)
    (hs : g.sock = none) (hl : Flow g head left content) (hf : g.sending.inflight = true) :
    ∃ g', Reach env ok g' t ∧ reply g'.calls = .done head content (verdict left) := by
  obtain ⟨body, hr, -⟩ := hl.sent
  induction hlf : content.length - body.length using Nat.strongRecOn generalizing g body with
  | ind n ih =>
    have he : g.ended = false := by
      unfold ended
      rw [hr]
    have hp : possible g .proceed = true := by
      change (g.sending.inflight && !g.disposed && !g.ended) = true
      rw [hf, hl.disposed, he]
      rfl
    have hstep : Fastcgi.step env g .proceed = some (g.doProceed env) := if_pos hp
    have hc : Reach env ok (g.doProceed env) t := h.step hpr hstep
    rcases hl.consume.doSend_closed env rfl hs hr with
      hd | ⟨hl', hf', more, hm, hr'⟩
    · exact ⟨_, hc, hd⟩
    · -- more has been sent, and less is left
      refine ih (content.length - (body ++ more).length) ?_ hc (doSend_sock.trans hs) hl'
        hf' (body ++ more) hr' rfl
      have hlen := hl'.length_le hr'
      have hpos : 0 < more.length := length_pos_iff.2 hm
      rw [length_append] at hlen ⊢
      omega

/-- A response that is finished is sent to its end. -/
theorem Reach.completes (ho : ∀ e, ok e → e.Roomy) (hpr : ok .proceed)
    (h : Reach env ok g t) (hs : t.stopped = false)
    (hp : Phase.run env t.inputs = .finished head left content) :
    ∃ g', Reach env ok g' t ∧ reply g'.calls = .done head content (verdict left) := by
  cases accounted_of_reach ho h with
  | connecting _ _ _ _ _ _ _ hn =>
    subst hn
    cases hp
  | live _ _ hr =>
    rw [hp] at hr
    cases hr
  | draining he hl hp' hf =>
    rw [hp] at hp'
    cases hp'
    exact h.drain hpr he.sock hl hf
  | ended _ hp' hd =>
    rw [hp] at hp'
    cases hp'
    exact ⟨g, h, hd⟩
  | failed _ hp' =>
    rw [hp] at hp'
    cases hp'
  | stopped _ _ hs' =>
    rw [hs] at hs'
    cases hs'

end Runs

end Vhttp.Fastcgi
