import Vhttp.Http3Client.Basic

/-!
# The application is told of the end of the response

What the application of the HTTP/3 client is to hear of a response: the head at most once, and one
end, after which nothing comes.

* `contract_of_reach`: it hears that and no more, if the stream does not end in one of the ways that
  `handleFine` and `eventFine` exclude.
-/

namespace Vhttp.Http3Client

open List Prod
open Http3 (readFrame)

/-! ## What the application hears -/

/-- What the application has heard of the response: nothing but informational heads, the head, or
the end. It is `broken` after anything else. -/
inductive Heard where
  | nothing | head | ended | broken

/-- Another call. -/
def Heard.add : Heard → Call → Heard
  | .nothing, .informational _ => .nothing
  | .nothing, .head _ isEos => if isEos then .ended else .head
  | .nothing, .headError _ => .ended
  | .head, .body none => .head
  | .head, .body (some _) => .ended
  | _, _ => .broken

/-- What has been heard by these calls. -/
def heard (calls : List Call) : Heard := calls.foldl Heard.add .nothing

lemma heard_append (calls : List Call) (c : Call) :
    heard (calls ++ [c]) = (heard calls).add c := by
  unfold heard
  rw [foldl_append]
  rfl

/-- The final head. -/
def Call.isHead : Call → Bool
  | .head _ _ => true
  | _ => false

/-- The end of the response, or an error. -/
def Call.isTerminal : Call → Bool
  | .head _ isEos => isEos
  | .headError _ => true
  | .body err => err.isSome
  | _ => false

/-- The final head comes at most once, nothing comes after the end, which comes before the request
is destroyed unless the application cancels it, and a `NULL` body callback is not called. -/
structure Contract (r : Req) : Prop where
  headOnce : r.calls.countP Call.isHead ≤ 1
  nothingAfter : ∀ c ∈ r.calls.dropLast, c.isTerminal = false
  ended : r.destroyed → ¬r.cancelled → ∃ c ∈ r.calls, c.isTerminal = true
  noNullBody : .nullBody ∉ r.calls
  returns : ¬r.stuck

/-- The calls by which this has been heard. -/
def Heard.Means : Heard → List Call → Prop
  | .nothing, calls => calls.countP Call.isHead = 0 ∧ (∀ c ∈ calls, c.isTerminal = false) ∧
      .nullBody ∉ calls
  | .head, calls => calls.countP Call.isHead = 1 ∧ (∀ c ∈ calls, c.isTerminal = false) ∧
      .nullBody ∉ calls
  | .ended, calls => calls.countP Call.isHead ≤ 1 ∧ (∀ c ∈ calls.dropLast, c.isTerminal = false) ∧
      .nullBody ∉ calls ∧ ∃ c ∈ calls, c.isTerminal = true
  | .broken, _ => True

lemma means_add {h : Heard} {calls : List Call} (hm : h.Means calls) (c : Call) :
    (h.add c).Means (calls ++ [c]) := by
  cases h with
  | nothing =>
    obtain ⟨hc, ht, hn⟩ := hm
    cases c with
    | informational status =>
      exact ⟨by simp [hc, Call.isHead], by simpa [or_imp, forall_and, Call.isTerminal], by simpa⟩
    | head status isEos =>
      cases isEos with
      | true => exact ⟨by simp [hc, Call.isHead], by simpa, by simpa, by simp [Call.isTerminal]⟩
      | false =>
        exact ⟨by simp [hc, Call.isHead], by simpa [or_imp, forall_and, Call.isTerminal], by simpa⟩
    | headError err =>
      exact ⟨by simp [hc, Call.isHead], by simpa, by simpa, by simp [Call.isTerminal]⟩
    | body err | nullBody => exact trivial
  | head =>
    obtain ⟨hc, ht, hn⟩ := hm
    cases c with
    | body err =>
      cases err with
      | none =>
        exact ⟨by simp [hc, Call.isHead], by simpa [or_imp, forall_and, Call.isTerminal], by simpa⟩
      | some err =>
        exact ⟨by simp [hc, Call.isHead], by simpa, by simpa, by simp [Call.isTerminal]⟩
    | _ => exact trivial
  | _ => exact trivial

/-- The automaton tells what the calls are. -/
lemma means_heard (calls : List Call) : (heard calls).Means calls := by
  induction calls using reverseRecOn with
  | nil => exact ⟨rfl, by simp, by simp⟩
  | append_singleton calls c ih =>
    rw [heard_append]
    exact means_add ih c

variable {code : Code} {destroyed last : Bool} {e : Event} {env : Env} {quic : Quic} {r r' : Req}
  {rest src : Bytes} {status : ℕ}

/-- The contract holds if the end has been heard. -/
lemma contract_of_ended (h : heard r.calls = .ended) (hs : ¬r.stuck) : Contract r := by
  have hm := means_heard r.calls
  rw [h] at hm
  exact ⟨hm.1, hm.2.1, fun _ _ => hm.2.2.2, hm.2.2.1, hs⟩

/-- It holds if nothing is out of order and the request is alive or has been cancelled. -/
lemma contract_of_inOrder (h : heard r.calls ≠ .broken)
    (hl : r.destroyed → r.cancelled) (hs : ¬r.stuck) : Contract r := by
  have he (hd : r.destroyed) (hc : ¬r.cancelled) : ∃ c ∈ r.calls, c.isTerminal = true :=
    absurd (hl hd) hc
  have hm := means_heard r.calls
  cases hh : heard r.calls with
  | nothing =>
    rw [hh] at hm
    exact ⟨hm.1 ▸ Nat.zero_le 1, fun c hc => hm.2.1 c (mem_of_mem_dropLast hc), he, hm.2.2, hs⟩
  | head =>
    rw [hh] at hm
    exact ⟨hm.1.le, fun c hc => hm.2.1 c (mem_of_mem_dropLast hc), he, hm.2.2, hs⟩
  | ended => exact contract_of_ended hh hs
  | broken => exact absurd hh h

/-! ## The condition -/

/-- The request is destroyed when the input has been processed. -/
def Quic.finished (quic : Quic) : Bool := quic.recvComplete && quic.sendComplete

lemma Quic.finished_iff :
    quic.finished = true ↔ quic.recvComplete = true ∧ quic.sendComplete = true :=
  Iff.of_eq (Bool.and_eq_true _ _)

/-- The application takes the payload of the DATA frame, unless it is the end of the response. -/
def payloadFine (env : Env) (quic : Quic) (r : Req) (rest : Bytes) : Bool :=
  !quic.finished || rest = [] || env.content (r.calls ++ [.body none])

/-- A head that the client does not offer a datagram-flow-id for, or an informational one that the
application does not take, does not come at the end of the stream. A final one that is the end
of the stream comes when the request has been sent, and is the only one for which the application
has no body callback. -/
def headersFine (env : Env) (quic : Quic) (r : Req) (payload : Bytes) (last : Bool) : Bool :=
  match env.parseResponse payload with
  | .error _ => true
  | .ok head =>
    if head.datagramFlowId && !env.offeredDatagramFlowId then !quic.finished
    else if 100 ≤ head.status ∧ head.status ≤ 199 then
      !quic.finished || head.status = 101 || last || !env.informationalCb ||
        env.content (r.calls ++ [.informational head.status])
    else (!last || quic.sendComplete) &&
      (last || env.content (r.calls ++ [.head head.status last]))

/-- What `handle_input` finds does not keep the application from being told the end: no frame
before the head is cut off by the end of the stream, and the last frame is a DATA frame or the
head. -/
def handleFine (env : Env) (quic : Quic) (r : Req) (src : Bytes) : Bool :=
  match r.handleInput with
  | .dataPayload => payloadFine env quic r (src.drop r.bytesLeftInDataFrame)
  | .expectHeaders =>
    match readFrame true env.maxFramePayloadSize src with
    | .incomplete => !quic.recvComplete || src = []
    | .tooLarge _ | .unexpected => true
    | .frame f rest =>
      match f.type with
      | .headers => headersFine env quic r f.payload (rest = [] && quic.recvComplete)
      | .data => !quic.finished
      | _ => !quic.finished || rest ≠ []
  | .expectDataFrame =>
    match readFrame true env.maxFramePayloadSize src with
    | .incomplete | .tooLarge _ | .unexpected => true
    | .frame f rest =>
      match f.type with
      | .data => payloadFine env quic r (rest.drop f.length)
      | .headers => !quic.finished || (rest ≠ [] && !env.upgradeTo)
      | _ => !quic.finished || rest ≠ []

/-- All the calls of `handle_input` in the loop are so. -/
def loopFine (env : Env) (quic : Quic) : ℕ → Req → Bytes → Bool
  | 0, _, _ => true
  | fuel + 1, r, src =>
    handleFine env quic r src &&
      match r.handle env quic.recvComplete src with
      | (.ok, r, rest) => rest = [] || loopFine env quic fuel r rest
      | _ => true

/-- What is received is so, and the peer does not stop the request when it has sent a response
whose end the application has not been told. -/
def eventFine (env : Env) (r : Req) : Event → Bool
  | .receive fresh fin =>
    match r.quic with
    | none => true
    | some quic =>
      (fresh = [] && (r.stream ≠ [] || !fin)) ||
        loopFine env { quic with recvComplete := fin } (turns (r.stream ++ fresh))
          (r.setQuic (some { quic with recvComplete := fin })) (r.stream ++ fresh)
  | .stopSending =>
    match r.quic with
    | none => true
    | some quic => !quic.recvComplete || r.responseState = .closed
  | _ => true

/-! ## The state of the response and what has been heard -/

/-- The application has the head and wants the body. -/
structure InBody (r : Req) : Prop where
  state : r.responseState = .body
  heard : heard r.calls = .head
  onBody : r.onBody = true

/-- What the application has heard is what `response_state` says. -/
inductive Told (r : Req) : Prop where
  | head (hstate : r.responseState = .head) (hheard : heard r.calls = .nothing)
      (hinput : r.handleInput = .expectHeaders)
  | body (hbody : InBody r) (hinput : r.handleInput = .expectDataFrame ∨
      r.handleInput = .dataPayload ∧ 0 < r.bytesLeftInDataFrame)
  | closed (hstate : r.responseState = .closed) (hheard : heard r.calls = .ended)

/-- After the input has been processed: the end has been told if the request is going to be
destroyed. -/
def Settled (quic : Quic) (r : Req) : Prop :=
  if quic.finished then heard r.calls = .ended else Told r

/-- The part of the request that `handle_input` leaves alone. -/
def Req.fate (r : Req) : Option Quic × Bool × Bool × Bool :=
  (r.quic, r.cancelled, r.destroyed, r.stuck)

lemma fate_eq_iff {quic : Option Quic} {cancelled stuck : Bool} :
    r.fate = (quic, cancelled, destroyed, stuck) ↔
      r.quic = quic ∧ r.cancelled = cancelled ∧ r.destroyed = destroyed ∧ r.stuck = stuck := by
  unfold Req.fate
  simp only [mk.injEq]

lemma Told.inOrder (h : Told r) : heard r.calls ≠ .broken := by
  cases h with
  | head _ hh _ | closed _ hh => rw [hh]; exact nofun
  | body hb _ => rw [hb.heard]; exact nofun

/-- Only these parts of the request matter. -/
lemma Told.of_eq (h : Told r) (hst : r'.responseState = r.responseState)
    (hc : r'.calls = r.calls) (hin : r'.handleInput = r.handleInput)
    (hl : r'.bytesLeftInDataFrame = r.bytesLeftInDataFrame) (hb : r'.onBody = r.onBody) :
    Told r' := by
  cases h with
  | head h1 h2 h3 => exact .head (hst.trans h1) (by rw [hc, h2]) (hin.trans h3)
  | body h1 h2 =>
    refine .body ⟨hst.trans h1.state, by rw [hc, h1.heard], hb.trans h1.onBody⟩ ?_
    rw [hin, hl]
    exact h2
  | closed h1 h2 => exact .closed (hst.trans h1) (by rw [hc, h2])

lemma settled_of_ended (hst : r.responseState = .closed)
    (hh : heard r.calls = .ended) : Settled quic r := by
  unfold Settled
  by_cases hf : quic.finished = true
  · rw [if_pos hf]
    exact hh
  · rw [if_neg hf]
    exact .closed hst hh

lemma settled_of_told (hf : quic.finished = false) (h : Told r) : Settled quic r := by
  unfold Settled
  rw [hf]
  exact h

/-! ## Calls -/

@[simp]
lemma heard_call (r : Req) (c : Call) : heard (r.call c).calls = (heard r.calls).add c :=
  heard_append r.calls c

lemma InBody.callBody_eq (h : InBody r) (err : Option Err) :
    r.callBody err = r.call (.body err) := by
  unfold Req.callBody
  rw [h.onBody]
  rfl

/-- `notify_response_error` tells the end, unless it has been told. -/
lemma heard_notifyResponseError (h : Told r) (err : Err) :
    heard (r.notifyResponseError err).calls = .ended := by
  unfold Req.notifyResponseError
  cases h with
  | head hst hh _ =>
    rw [hst]
    change heard (r.call (.headError err)).calls = .ended
    rw [heard_call, hh]
    rfl
  | body hb _ =>
    rw [hb.state]
    change heard (r.callBody (some err)).calls = .ended
    rw [hb.callBody_eq, heard_call, hb.heard]
    rfl
  | closed hst hh =>
    rw [hst]
    exact hh

lemma settled_notify (h : Told r) (err : Err) : Settled quic (r.notifyResponseError err) :=
  settled_of_ended rfl (heard_notifyResponseError h err)

/-- `call_on_body` with an error tells the end. -/
lemma settled_callOnBody (h : InBody r) (err : Err) : Settled quic (r.callOnBody (some err)) := by
  have he : r.callOnBody (some err) = (r.call (.body (some err))).setState .closed := by
    unfold Req.callOnBody
    rw [if_neg (Option.some_ne_none err), h.callBody_eq]
  rw [he]
  refine settled_of_ended rfl ?_
  change heard (r.call (.body (some err))).calls = .ended
  rw [heard_call, h.heard]
  rfl

/-! ## One call of `handle_input` -/

/-- What a call of `handle_input` has to leave: if the loop goes on, there is less input and the end
has not been told; the end is told only by an error or when all has been received. -/
structure Handled (quic : Quic) (src : Bytes) (result : Result) : Prop where
  more : result.1 = .ok → result.2.2 ≠ [] →
    Told result.2.1 ∧ result.2.1.responseState ≠ .closed ∧ result.2.2.length < src.length
  done : (result.1 = .ok → result.2.2 = []) → Settled quic result.2.1
  stays : result.1 = .error ∨ quic.recvComplete = true ∨ result.2.1.responseState ≠ .closed

/-- The loop does not go on. -/
lemma Handled.of_settled (hs : code = .ok → rest = []) (h : Settled quic r)
    (ht : code = .error ∨ quic.recvComplete = true ∨ r.responseState ≠ .closed) :
    Handled quic src (code, r, rest) where
  more ho hr := absurd (hs ho) hr
  done _ := h
  stays := ht

lemma Handled.of_error (h : Settled quic r) : Handled quic src (.error, r, rest) :=
  .of_settled nofun h (.inl rfl)

/-- The end has not been told, and the loop goes on if it would have to be. -/
lemma Handled.of_told (h : Told r)
    (hst : r.responseState ≠ .closed) (hlen : rest ≠ [] → rest.length < src.length)
    (hi : quic.finished = true → code = .ok ∧ rest ≠ []) : Handled quic src (code, r, rest) where
  more _ hr := ⟨h, hst, hlen hr⟩
  done hs := by
    refine settled_of_told (Bool.eq_false_iff.2 fun hf => ?_) h
    obtain ⟨hc, hr⟩ := hi hf
    exact hr (hs hc)
  stays := .inr (.inr hst)

lemma InBody.savePayload (h : InBody r) (src : Bytes) : InBody (r.savePayload src) := by
  unfold Req.savePayload
  dsimp only
  split
  · exact ⟨h.state, h.heard, h.onBody⟩
  · exact ⟨h.state, h.heard, h.onBody⟩

lemma calls_savePayload (r : Req) (src : Bytes) : (r.savePayload src).calls = r.calls := by
  unfold Req.savePayload
  dsimp only
  split <;> rfl

/-- The payload handler stays only while something of the frame is left. -/
lemma handleInput_savePayload (h : r.handleInput = .dataPayload) (src : Bytes) :
    (r.savePayload src).handleInput = .expectDataFrame ∨
      (r.savePayload src).handleInput = .dataPayload ∧
        0 < (r.savePayload src).bytesLeftInDataFrame := by
  unfold Req.savePayload
  dsimp only
  split
  · exact .inl rfl
  · rename_i hl
    exact .inr ⟨h, Nat.pos_of_ne_zero hl⟩

lemma told_callBody (h : InBody r) (hin : r.handleInput = .expectDataFrame ∨
    r.handleInput = .dataPayload ∧ 0 < r.bytesLeftInDataFrame) : Told (r.call (.body none)) := by
  refine .body ⟨h.state, ?_, h.onBody⟩ hin
  rw [heard_call, h.heard]
  rfl

lemma handled_dataPayload {full : Bytes} (h : InBody r) (hin : r.handleInput = .dataPayload)
    (hlen : src.drop r.bytesLeftInDataFrame ≠ [] →
      (src.drop r.bytesLeftInDataFrame).length < full.length)
    (hi : payloadFine env quic r (src.drop r.bytesLeftInDataFrame) = true) :
    Handled quic full (r.handleDataPayload env quic.recvComplete src) := by
  have hs := h.savePayload src
  unfold Req.handleDataPayload
  dsimp only
  by_cases he : src.drop r.bytesLeftInDataFrame = [] ∧ quic.recvComplete = true
  · -- the end of the stream is told with the payload
    unfold Req.payloadErr
    rw [if_pos he]
    exact .of_settled (fun _ => he.1) (settled_callOnBody hs _) (.inr (.inl he.2))
  · unfold Req.payloadErr
    rw [if_neg he]
    have ha : (r.savePayload src).callOnBody none = (r.savePayload src).call (.body none) := by
      unfold Req.callOnBody
      rw [if_pos rfl, hs.callBody_eq]
    rw [ha]
    refine .of_told (told_callBody hs (handleInput_savePayload hin src)) ?_ hlen fun hf => ?_
    · change (r.savePayload src).responseState ≠ .closed
      rw [hs.state]
      exact nofun
    · have hr : src.drop r.bytesLeftInDataFrame ≠ [] := fun hn =>
        he ⟨hn, (Quic.finished_iff.1 hf).1⟩
      have hc : ((r.savePayload src).call (.body none)).content env = true := by
        change env.content ((r.savePayload src).calls ++ [.body none]) = true
        rw [calls_savePayload]
        simpa [payloadFine, hf, hr] using hi
      exact ⟨if_pos hc, hr⟩

lemma handled_expectDataFrame (h : InBody r)
    (hin : r.handleInput = .expectDataFrame) (hi : handleFine env quic r src = true) :
    Handled quic src (r.handleExpectDataFrame env quic.recvComplete src) := by
  have ht : Told r := .body h (.inl hin)
  have hst : r.responseState ≠ .closed := by
    rw [h.state]
    exact nofun
  have hs (length : ℕ) : InBody (r.startData length) := ⟨h.state, h.heard, h.onBody⟩
  unfold handleFine at hi
  rw [hin] at hi
  unfold Req.handleExpectDataFrame
  by_cases hr : src = []
  · subst hr
    rw [if_pos rfl]
    cases hv : quic.recvComplete with
    | true =>
      rw [if_pos rfl, ← hv]
      exact handled_dataPayload (hs 0) rfl (fun hne => absurd rfl hne) (by simp [payloadFine])
    | false =>
      rw [if_neg Bool.false_ne_true]
      exact .of_told ht hst (fun hne => absurd rfl hne) fun hf => by simp [Quic.finished, hv] at hf
  · rw [if_neg hr]
    cases hd : readFrame true env.maxFramePayloadSize src with
    | incomplete =>
      cases hv : quic.recvComplete with
      | true => exact .of_settled Code.noConfusion (settled_callOnBody h _) (.inr (.inl hv))
      | false =>
        exact .of_settled nofun (settled_of_told (by simp [Quic.finished, hv]) ht) (.inr (.inr hst))
    | tooLarge _ | unexpected => exact .of_error (settled_callOnBody h _)
    | frame f rest =>
      have hlen := Http3.length_rest_lt hd
      rw [hd] at hi
      dsimp only at hi ⊢
      cases hy : f.type with
      | data =>
        rw [hy] at hi
        refine handled_dataPayload (hs f.length) rfl (fun _ => ?_) hi
        rw [length_drop]
        omega
      | headers =>
        rw [hy] at hi
        refine .of_told ht hst (fun _ => hlen) fun hf => ?_
        cases hu : env.upgradeTo with
        | true => simp [hf, hu] at hi
        | false => exact ⟨rfl, by simpa [hf, hu] using hi⟩
      | _ =>
        rw [hy] at hi
        exact .of_told ht hst (fun _ => hlen) fun hf =>
          ⟨rfl, by simpa [hf] using hi⟩

/-- The end of `handle_input_expect_headers`. -/
lemma handled_final (hh : heard r.calls = .nothing) (hlen : rest.length < src.length)
    (hl : last = (rest = [] && quic.recvComplete)) (hs : last = true → quic.sendComplete = true)
    (hb : last = true ∨ env.content (r.calls ++ [.head status last]) = true) :
    Handled quic src (r.handleFinal env status last rest) := by
  have ha : (r.call (.head status last)).content env =
      env.content (r.calls ++ [.head status last]) := rfl
  have hc : heard (r.calls ++ [.head status last]) = if last then .ended else .head := by
    rw [heard_append, hh]
    rfl
  unfold Req.handleFinal
  dsimp only
  cases last with
  | true =>
    have he := (Bool.and_eq_true _ _).mp hl.symm
    have hre : rest = [] := of_decide_eq_true he.1
    have hf : quic.finished = true := Quic.finished_iff.2 ⟨he.2, hs rfl⟩
    have ho {r' : Req} (hr : r'.calls = r.calls ++ [.head status true]) : Settled quic r' := by
      unfold Settled
      rw [if_pos hf, hr]
      exact hc
    split
    · exact .of_settled (fun _ => hre) (ho rfl) (.inr (.inl he.2))
    · exact .of_settled (fun _ => hre) (ho rfl) (.inr (.inl he.2))
  | false =>
    have hy := hb.resolve_left Bool.false_ne_true
    rw [ha, hy]
    change Handled quic src (.ok, _, rest)
    refine .of_told (.body ⟨rfl, hc, rfl⟩ (.inl rfl)) ResponseState.noConfusion (fun _ => hlen)
      fun hf => ⟨rfl, fun hn => ?_⟩
    rw [hn, (Quic.finished_iff.1 hf).1] at hl
    cases hl

variable (hst : r.responseState = .head) (hh : heard r.calls = .nothing)
  (hin : r.handleInput = .expectHeaders)
include hst hh hin

/-- The handling of 1xx. -/
lemma handled_informational (hlen : rest.length < src.length)
    (ha : last = (rest = [] && quic.recvComplete))
    (hi : quic.finished = true → status = 101 ∨ last = true ∨ env.informationalCb = false ∨
      env.content (r.calls ++ [.informational status]) = true) :
    Handled quic src (r.handleInformational env status last rest) := by
  have ht : Told r := .head hst hh hin
  have ho : r.responseState ≠ .closed := by
    rw [hst]
    exact nofun
  have hr (hf : quic.finished = true) (hl : ¬last = true) : rest ≠ [] := by
    rintro rfl
    rw [ha, (Quic.finished_iff.1 hf).1] at hl
    exact hl rfl
  unfold Req.handleInformational
  by_cases hs : status = 101
  · rw [if_pos hs]
    exact .of_error (settled_notify ht _)
  rw [if_neg hs]
  by_cases hl : last = true
  · rw [if_pos hl]
    have he := (Bool.and_eq_true _ _).mp (ha.symm.trans hl)
    exact .of_settled (fun _ => of_decide_eq_true he.1) (settled_notify ht _) (.inr (.inl he.2))
  rw [if_neg hl]
  by_cases hc : env.informationalCb = true
  · rw [if_pos hc]
    have ht' : Told (r.call (.informational status)) := by
      refine .head hst ?_ hin
      rw [heard_call, hh]
      rfl
    refine .of_told ht' ho (fun _ => hlen) fun hf => ⟨?_, hr hf hl⟩
    rcases hi hf with h | h | h | h
    · exact absurd h hs
    · exact absurd h hl
    · rw [hc] at h
      cases h
    · exact if_pos h
  · rw [if_neg hc]
    exact .of_told ht ho (fun _ => hlen) fun hf => ⟨rfl, hr hf hl⟩

/-- The handling of a HEADERS frame. -/
lemma handled_headers {payload : Bytes} (hlen : rest.length < src.length)
    (ha : last = (rest = [] && quic.recvComplete))
    (hfi : headersFine env quic r payload last = true) :
    Handled quic src (r.handleHeaders env payload last rest) := by
  have ht : Told r := .head hst hh hin
  unfold headersFine at hfi
  unfold Req.handleHeaders
  cases hp : env.parseResponse payload with
  | error desc => exact .of_error (settled_notify ht _)
  | ok head =>
    rw [hp] at hfi
    dsimp only at hfi ⊢
    by_cases hd : (head.datagramFlowId && !env.offeredDatagramFlowId) = true
    · rw [if_pos hd] at hfi ⊢
      exact .of_error (settled_of_told ((Bool.not_eq_true' _).mp hfi) ht)
    rw [if_neg hd] at hfi ⊢
    by_cases hi : 100 ≤ head.status ∧ head.status ≤ 199
    · rw [if_pos hi] at hfi ⊢
      refine handled_informational hst hh hin hlen ha fun hf => ?_
      simpa [hf, or_assoc] using hfi
    · rw [if_neg hi] at hfi ⊢
      obtain ⟨hs, hb⟩ := (Bool.and_eq_true _ _).mp hfi
      refine handled_final hh hlen ha (fun hl => ?_) ((Bool.or_eq_true _ _).mp hb)
      rw [hl] at hs
      exact hs

lemma handled_expectHeaders (hi : handleFine env quic r src = true) :
    Handled quic src (r.handleExpectHeaders env quic.recvComplete src) := by
  have ht : Told r := .head hst hh hin
  have ho : r.responseState ≠ .closed := by
    rw [hst]
    exact nofun
  unfold handleFine at hi
  rw [hin] at hi
  unfold Req.handleExpectHeaders
  cases hr : readFrame true env.maxFramePayloadSize src with
  | incomplete =>
    rw [hr] at hi
    cases hv : quic.recvComplete with
    | true =>
      have hs : src = [] := by simpa [hv] using hi
      exact .of_settled (fun _ => hs) (settled_notify ht _) (.inr (.inl hv))
    | false =>
      exact .of_settled Code.noConfusion (settled_of_told (by simp [Quic.finished, hv]) ht)
        (.inr (.inr ho))
  | tooLarge _ | unexpected => exact .of_error (settled_notify ht _)
  | frame f rest =>
    have hlen := Http3.length_rest_lt hr
    rw [hr] at hi
    dsimp only at hi ⊢
    cases hy : f.type with
    | headers =>
      rw [hy] at hi
      exact handled_headers hst hh hin hlen rfl hi
    | data =>
      rw [hy] at hi
      exact .of_error (settled_of_told ((Bool.not_eq_true' _).mp hi) ht)
    | _ =>
      rw [hy] at hi
      exact .of_told ht ho (fun _ => hlen) fun hf => ⟨rfl, by simpa [hf] using hi⟩

omit hst hh hin

/-- `handle_input`, unless the end has been told. -/
lemma handled_handle (h : Told r)
    (ho : r.responseState ≠ .closed) (hf : handleFine env quic r src = true) :
    Handled quic src (r.handle env quic.recvComplete src) := by
  unfold Req.handle
  cases h with
  | head hst hh hin =>
    rw [hin]
    exact handled_expectHeaders hst hh hin hf
  | body hb hin =>
    rcases hin with hin | ⟨hin, hl⟩
    · rw [hin]
      exact handled_expectDataFrame hb hin hf
    · unfold handleFine at hf
      rw [hin] at hf ⊢
      refine handled_dataPayload hb hin (fun hne => ?_) hf
      have hs := length_pos_iff.2 hne
      rw [length_drop] at hs ⊢
      omega
  | closed hst _ => exact absurd hst ho

/-! ## The stream is left alone by `handle_input` -/

lemma fate_notifyResponseError (r : Req) (err : Err) :
    (r.notifyResponseError err).fate = r.fate := by
  unfold Req.notifyResponseError
  cases r.responseState <;> rfl

lemma fate_callOnBody (r : Req) (err : Option Err) : (r.callOnBody err).fate = r.fate := by
  unfold Req.callOnBody
  split <;> rfl

lemma fate_dataPayload (env : Env) (eos : Bool) (r : Req) (src : Bytes) :
    (r.handleDataPayload env eos src).2.1.fate = r.fate := by
  refine (fate_callOnBody _ _).trans ?_
  unfold Req.savePayload
  dsimp only
  split <;> rfl

lemma fate_expectDataFrame (env : Env) (eos : Bool) (r : Req) (src : Bytes) :
    (r.handleExpectDataFrame env eos src).2.1.fate = r.fate := by
  have hs (length : ℕ) : (r.startData length).fate = r.fate := rfl
  unfold Req.handleExpectDataFrame
  repeat' split
  all_goals
    simp only [fate_callOnBody, fate_dataPayload, hs]

lemma fate_headers (env : Env) (r : Req) (payload : Bytes) (last : Bool) (rest : Bytes) :
    (r.handleHeaders env payload last rest).2.1.fate = r.fate := by
  unfold Req.handleHeaders Req.handleInformational Req.handleFinal
  dsimp only
  repeat' split
  all_goals
    first
    | exact fate_notifyResponseError _ _
    | rfl

lemma fate_expectHeaders (env : Env) (eos : Bool) (r : Req) (src : Bytes) :
    (r.handleExpectHeaders env eos src).2.1.fate = r.fate := by
  unfold Req.handleExpectHeaders
  repeat' split
  all_goals
    simp only [fate_notifyResponseError, fate_headers]

lemma fate_handle (env : Env) (eos : Bool) (r : Req) (src : Bytes) :
    (r.handle env eos src).2.1.fate = r.fate := by
  unfold Req.handle
  cases r.handleInput with
  | expectHeaders => exact fate_expectHeaders env eos r src
  | expectDataFrame => exact fate_expectDataFrame env eos r src
  | dataPayload => exact fate_dataPayload env eos r src

/-! ## The loop -/

/-- What the loop leaves. -/
structure Processed (quic : Quic) (r : Req) (result : Result) : Prop where
  settled : Settled quic result.2.1
  stays : result.1 = .error ∨ quic.recvComplete = true ∨ result.2.1.responseState ≠ .closed
  fate : result.2.1.fate = r.fate

/-- The loop ends, as the input gets shorter with each turn, and the end has been told if the
request is going to be destroyed. -/
lemma processed_processBytes (fuel : ℕ)
    (h : Told r) (ho : r.responseState ≠ .closed) (hf : src.length < fuel)
    (hi : loopFine env quic fuel r src = true) :
    Processed quic r (processBytes env quic.recvComplete fuel r src) := by
  induction fuel generalizing r src with
  | zero => exact absurd hf (Nat.not_lt_zero _)
  | succ fuel ih =>
    unfold loopFine at hi
    obtain ⟨ha, hm⟩ := (Bool.and_eq_true _ _).mp hi
    have hstep := handled_handle h ho ha
    have hfa := fate_handle env quic.recvComplete r src
    unfold processBytes
    rcases hr : r.handle env quic.recvComplete src with ⟨code, r', rest⟩
    rw [hr] at hstep hfa hm
    cases code with
    | ok =>
      dsimp only at hm ⊢
      by_cases he : rest = []
      · rw [if_pos he]
        exact ⟨hstep.done fun _ => he, hstep.stays, hfa⟩
      · rw [if_neg he]
        obtain ⟨ht, ho', hlen⟩ := hstep.more rfl he
        have hl : loopFine env quic fuel r' rest = true := by simpa [he] using hm
        have hr' := ih ht ho' (Nat.lt_of_lt_of_le hlen (Nat.le_of_lt_succ hf)) hl
        exact ⟨hr'.settled, hr'.stays, hr'.fate.trans hfa⟩
    | incomplete =>
      refine ⟨hstep.done nofun, .inr ?_, hfa⟩
      exact hstep.stays.resolve_left nofun
    | error => exact ⟨hstep.done nofun, .inl rfl, hfa⟩

/-! ## Events -/

/-- The invariant of the runs: a request that has its stream is alive, and the end is told before
the stream is given up, unless the application cancels the request. -/
inductive Inv (r : Req) : Prop where
  | attached {quic : Quic} (hfate : r.fate = (some quic, false, false, false)) (htold : Told r)
      (hopen : quic.recvComplete = false → r.responseState ≠ .closed)
  | ended {destroyed : Bool} (hfate : r.fate = (none, false, destroyed, false))
      (hheard : heard r.calls = .ended)
  | cancelled (hfate : r.fate = (none, true, true, false)) (hheard : heard r.calls ≠ .broken)

lemma Inv.contract (h : Inv r) : Contract r := by
  cases h with
  | attached hfa ht _ =>
    obtain ⟨-, -, hd, hs⟩ := fate_eq_iff.1 hfa
    exact contract_of_inOrder ht.inOrder (by simp [hd]) (by simp [hs])
  | ended hfa hh =>
    obtain ⟨-, -, -, hs⟩ := fate_eq_iff.1 hfa
    exact contract_of_ended hh (by simp [hs])
  | cancelled hfa hh =>
    obtain ⟨-, hc, -, hs⟩ := fate_eq_iff.1 hfa
    exact contract_of_inOrder hh (fun _ => hc) (by simp [hs])

/-- The end is told and the stream is given up. -/
lemma inv_notify {quic : Option Quic} (hfa : r.fate = (quic, false, false, false))
    (h : Told r) (err : Err) :
    Inv (r.notifyResponseError err).detach ∧ Inv (r.notifyResponseError err).detach.destroy := by
  have hh := heard_notifyResponseError h err
  obtain ⟨-, hc, hd, hs⟩ :=
    fate_eq_iff.1 ((fate_notifyResponseError r err).trans hfa)
  exact ⟨.ended (fate_eq_iff.2 ⟨rfl, hc, hd, hs⟩) hh, .ended (fate_eq_iff.2 ⟨rfl, hc, rfl, hs⟩) hh⟩

lemma inv_closeOnError {q : Option Quic}
    (hfa : r.fate = (q, false, false, false)) (h : Told r) : Inv (r.closeOnError quic) := by
  obtain ⟨hw, hd⟩ := inv_notify hfa h .io
  unfold Req.closeOnError
  dsimp only
  split
  · exact hd
  split
  · cases hd with
    | ended hfa hh => exact .ended hfa hh
    | cancelled hfa hh => exact .cancelled hfa hh
    | attached hfa _ _ => cases (fate_eq_iff.1 hfa).1
  · exact hw

lemma inv_onStreamDestroy (h : Inv r) : Inv r.onStreamDestroy := by
  unfold Req.onStreamDestroy
  split
  · exact h
  rename_i hq
  cases h with
  | attached hfa ht _ => exact (inv_notify hfa ht .io).2
  | ended hfa _ | cancelled hfa _ => exact absurd (fate_eq_iff.1 hfa).1 hq

lemma inv_reap (h : Inv r) (quic : Quic) : Inv (reap quic r) := by
  unfold reap
  split
  · exact inv_onStreamDestroy h
  · exact h

variable (hfa : r.fate = (some quic, false, false, false))
include hfa

/-- The end of `on_receive`. -/
lemma inv_afterProcess {result : Result} (h : Processed quic r result) :
    Inv (Req.afterProcess quic result) := by
  obtain ⟨code, r', rest⟩ := result
  have hf' : r'.fate = (some quic, false, false, false) := h.fate.trans hfa
  obtain ⟨-, hc, -, ht⟩ := fate_eq_iff.1 hf'
  have hs : Settled quic r' := h.settled
  have hy : code = .error ∨ quic.recvComplete = true ∨ r'.responseState ≠ .closed := h.stays
  have hl (hf : quic.finished = false) : Told (r'.setStream rest) := by
    unfold Settled at hs
    rw [hf, if_neg Bool.false_ne_true] at hs
    exact hs.of_eq rfl rfl rfl rfl rfl
  change Inv (if r'.stuck = true then _ else _)
  rw [if_neg (by simp [ht])]
  by_cases hr : quic.recvComplete = true
  · rw [if_pos hr]
    by_cases hd : quic.sendComplete = true
    · rw [if_pos hd]
      unfold Settled at hs
      rw [if_pos (Quic.finished_iff.2 ⟨hr, hd⟩)] at hs
      exact .ended (fate_eq_iff.2 ⟨rfl, hc, rfl, ht⟩) hs
    · rw [if_neg hd]
      exact .attached hf' (hl (by simp [Quic.finished, hd])) (by simp [hr])
  · rw [if_neg hr]
    have hf : quic.finished = false := by simp [Quic.finished, hr]
    by_cases he : code = .error
    · rw [if_pos he]
      exact inv_closeOnError (r := r'.setStream rest) hf' (hl hf)
    · rw [if_neg he]
      exact .attached hf' (hl hf) fun _ => (hy.resolve_left he).resolve_left hr

lemma inv_onReceive {fresh : Bytes} (ht : Told r) (ho : r.responseState ≠ .closed)
    (hf : fresh = [] ∧ (r.stream ≠ [] ∨ ¬quic.recvComplete) ∨
      loopFine env quic (turns (r.stream ++ fresh)) r (r.stream ++ fresh) = true) :
    Inv (r.onReceive env quic fresh) := by
  unfold Req.onReceive
  by_cases he : fresh = [] ∧ (r.stream ≠ [] ∨ ¬quic.recvComplete)
  · rw [if_pos he]
    exact .attached hfa ht fun _ => ho
  · rw [if_neg he]
    exact inv_afterProcess hfa (processed_processBytes _ ht ho (Nat.lt_succ_self _)
      (hf.resolve_left he))

lemma inv_onSendStop (ht : Told r) (hf : quic.recvComplete = true → r.responseState = .closed) :
    Inv (r.onSendStop quic) := by
  have hf' : (r.setInflight false).fate = (some quic, false, false, false) := hfa
  have ht' : Told (r.setInflight false) := ht.of_eq rfl rfl rfl rfl rfl
  unfold Req.onSendStop
  dsimp only
  by_cases hr : quic.recvComplete = true
  · rw [if_pos hr]
    obtain ⟨-, hc, -, hs⟩ := fate_eq_iff.1 hfa
    refine .ended (fate_eq_iff.2 ⟨rfl, hc, rfl, hs⟩) ?_
    have hl := hf hr
    cases ht with
    | head hst _ _ => cases hl.symm.trans hst
    | body hb _ => cases hl.symm.trans hb.state
    | closed _ hh => exact hh
  · rw [if_neg hr]
    exact (inv_notify hf' ht' .io).2

omit hfa

lemma inv_cancel (hs : r.stuck = false) (h : heard r.calls ≠ .broken) : Inv r.cancel :=
  .cancelled (fate_eq_iff.2 ⟨rfl, rfl, rfl, hs⟩) h

/-- An event of a request that has its stream. -/
lemma inv_streamStep (hfa : r.fate = (some quic, false, false, false)) (hl : Told r)
    (ho : quic.recvComplete = false → r.responseState ≠ .closed)
    (hf : eventFine env r e = true) (hs : streamStep env r quic e = some r') : Inv r' := by
  obtain ⟨hq, hc, hd, ht⟩ := fate_eq_iff.1 hfa
  have he (quic' : Quic) : (r.setQuic (some quic')).fate = (some quic', false, false, false) :=
    fate_eq_iff.2 ⟨rfl, hc, hd, ht⟩
  cases e with
  | receive fresh fin =>
    obtain ⟨hr, hs⟩ := Option.ite_none_left_eq_some.1 hs
    cases hs
    refine inv_reap (inv_onReceive (he _) (hl.of_eq rfl rfl rfl rfl rfl)
      (ho (Bool.eq_false_iff.2 hr)) ?_) _
    unfold eventFine at hf
    rw [hq] at hf
    simpa [Req.setQuic] using hf
  | reset =>
    obtain ⟨-, hs⟩ := Option.ite_none_left_eq_some.1 hs
    cases hs
    exact (inv_notify hfa hl .io).2
  | stopSending =>
    obtain ⟨-, hs⟩ := Option.ite_none_right_eq_some.1 hs
    cases hs
    refine inv_onSendStop hfa hl fun hr => ?_
    unfold eventFine at hf
    rw [hq] at hf
    simpa [hr] using hf
  | sent =>
    obtain ⟨-, hs⟩ := Option.ite_none_right_eq_some.1 hs
    cases hs
    exact .attached (r := r.setInflight false) hfa (hl.of_eq rfl rfl rfl rfl rfl) ho
  | acked =>
    obtain ⟨-, hs⟩ := Option.ite_none_left_eq_some.1 hs
    cases hs
    refine inv_reap (.attached (he _) (hl.of_eq rfl rfl rfl rfl rfl) ?_) _
    exact ho
  | connectionClosed =>
    cases hs
    exact inv_onStreamDestroy (.attached hfa hl ho)
  | writeReq isEndStream =>
    obtain ⟨⟨-, -, hsd⟩, hs⟩ := Option.ite_none_right_eq_some.1 hs
    cases hs
    unfold Req.doWriteReq
    rw [hq]
    dsimp only
    rw [if_pos hsd]
    exact .attached (fate_eq_iff.2 ⟨rfl, hc, hd, ht⟩) (hl.of_eq rfl rfl rfl rfl rfl) ho
  | cancel =>
    cases hs
    exact inv_cancel ht hl.inOrder

/-- An event of a request without a stream. -/
lemma inv_detachedStep
    (hfa : r.fate = (none, false, destroyed, false)) (hh : heard r.calls = .ended)
    (hs : detachedStep env r e = some r') : Inv r' := by
  obtain ⟨hq, hc, -, ht⟩ := fate_eq_iff.1 hfa
  cases e with
  | writeReq isEndStream =>
    obtain ⟨-, hs⟩ := Option.ite_none_right_eq_some.1 hs
    cases hs
    unfold Req.doWriteReq
    rw [hq]
    exact .ended (fate_eq_iff.2 ⟨hq, hc, rfl, ht⟩) hh
  | cancel =>
    cases hs
    exact inv_cancel ht (by simp [hh])
  | _ => cases hs

lemma inv_step (h : Inv r)
    (hf : eventFine env r e = true) (hs : step env r e = some r') : Inv r' := by
  obtain ⟨hl, hs⟩ := Option.ite_none_left_eq_some.1 hs
  cases h with
  | attached hfa ht ho =>
    rw [(fate_eq_iff.1 hfa).1] at hs
    exact inv_streamStep hfa ht ho hf hs
  | ended hfa hh =>
    rw [(fate_eq_iff.1 hfa).1] at hs
    exact inv_detachedStep hfa hh hs
  | cancelled hfa _ => exact absurd (.inl (fate_eq_iff.1 hfa).2.2.1) hl

lemma inv_start (env : Env) (opened : Bool) : Inv (Req.start env opened) := by
  cases opened with
  | true => exact .attached rfl (.head rfl rfl rfl) fun _ => nofun
  | false => exact .ended rfl rfl

/-- In every run in which what is received does not end in one of the ways that are excluded, the
application hears the head at most once and exactly one end, after which nothing comes, and a
`NULL` body callback is not called. -/
theorem contract_of_reach {env : Env} {r : Req} (h : Reach env (eventFine env) r) : Contract r := by
  refine Inv.contract ?_
  induction h with
  | start opened => exact inv_start env opened
  | step _ hf hs ih => exact inv_step ih hf hs

/-- A client that is content with the calls or not, for which all heads are those of a 200. -/
def simpleEnv (content : Bool) : Env where
  maxFramePayloadSize := 16384
  parseResponse _ := .ok ⟨200, false⟩
  upgradeTo := false
  informationalCb := false
  proceedReq := false
  offeredDatagramFlowId := false
  content _ := content

/-- A HEADERS frame with the status 200. -/
def okHeaders : Bytes := [1, 3, 0, 0, 0xd9]

/-- It, and a DATA frame. -/
def headAndBody : Bytes := okHeaders ++ [0, 2, 65, 66]

/-- The end of the stream comes alone. -/
theorem contract_of_reach_fin : ∃ r, Reach (simpleEnv true) (eventFine (simpleEnv true)) r ∧
    r.destroyed = true ∧
    r.calls = [.head 200 false, .body none, .body (some .isEos)] ∧ Contract r := by
  obtain ⟨r, hr, hd, hs⟩ : ∃ r, run (simpleEnv true) (eventFine (simpleEnv true))
      [.acked, .receive headAndBody false, .receive [] true] (Req.start (simpleEnv true) true) =
        some r ∧ r.destroyed = true ∧
      r.calls = [.head 200 false, .body none, .body (some .isEos)] := exists_of_any rfl
  have hc := (Reach.start true).run hr
  exact ⟨r, hc, hd, hs, contract_of_reach hc⟩

/-- The application is not told of the end when the last frame is an unknown one, it is told twice
when the head is the end and the request has not been acknowledged, and then a `NULL` body callback
is called if there is one. -/
theorem end_untold : (∃ r, Reach (simpleEnv true) (fun _ _ => true) r ∧ r.destroyed = true ∧
      r.cancelled = false ∧ r.calls = [.head 200 false, .body none]) ∧
    (∃ r, Reach (simpleEnv true) (fun _ _ => true) r ∧
      r.calls = [.head 200 true, .body (some .io)]) ∧
    ∃ r, Reach (simpleEnv false) (fun _ _ => true) r ∧ r.calls = [.head 200 true, .nullBody] := by
  obtain ⟨r₁, hr₁, hl⟩ : ∃ r, run (simpleEnv true) (fun _ _ => true)
      [.acked, .receive (headAndBody ++ [33, 0]) true] (Req.start (simpleEnv true) true) = some r ∧
      r.destroyed = true ∧ r.cancelled = false ∧ r.calls = [.head 200 false, .body none] :=
    exists_of_any rfl
  obtain ⟨r₂, hr₂, ht⟩ : ∃ r, run (simpleEnv true) (fun _ _ => true)
      [.receive okHeaders true, .acked] (Req.start (simpleEnv true) true) = some r ∧
      r.calls = [.head 200 true, .body (some .io)] := exists_of_any rfl
  obtain ⟨r₃, hr₃, hn⟩ : ∃ r, run (simpleEnv false) (fun _ _ => true)
      [.receive okHeaders true, .acked] (Req.start (simpleEnv false) true) = some r ∧
      r.calls = [.head 200 true, .nullBody] := exists_of_any rfl
  exact ⟨⟨r₁, (Reach.start true).run hr₁, hl⟩, ⟨r₂, (Reach.start true).run hr₂, ht⟩,
    r₃, (Reach.start true).run hr₃, hn⟩

end Vhttp.Http3Client
