import Vhttp.Http2Client.Actions

/-!
# A header block of the client

What is done with a whole header block, apart from the frames that it came in.

* `onHeaderBlock_withUnparsed`: it does not depend on the buffer that the block was collected in.
* `onHeaderBlock_failed`: it is a connection error exactly if the block cannot be read.
* `onHead_endStream`, `onHead_log`: END_STREAM counts for a final response, and for nothing else.
* `connectionError_outcome`: what a connection error does to the streams.
-/

namespace Vhttp.Http2Client

open Conn
open Http2 (Err ErrorCode)
open Hpack (Parsed parseResponse)

variable {c : Conn} {id : ℕ} {s : Stream} {block unparsed : Bytes} {env : Env} {isEndStream : Bool}

/-! ## Outcomes -/

/-- The streams have the same states, they saw the same callbacks, and the connection is in the
same state. -/
def SameOutcome (c c' : Conn) : Prop :=
  c.streams = c'.streams ∧ c.log = c'.log ∧ c.state = c'.state

/-- The connection was closed with an error. -/
def Conn.failed (c : Conn) : Prop := c.state = .isClosing ∨ c.state = .freed

lemma connectionError_failed (c : Conn) (e : Err) : (c.connectionError e).failed := by
  unfold connectionError closeConnection
  dsimp only
  split_ifs
  · exact .inl rfl
  · exact .inr rfl
  · exact .inl rfl
  · exact .inr rfl

lemma not_reading_of_failed (h : c.failed) : c.isReading = false := by
  unfold isReading
  rcases h with h | h <;> rw [h] <;> rfl

lemma settle_of_none {x : Conn × Ret} (h : x.2 = none) : settle x = x.1 := by
  obtain ⟨c, ret⟩ := x
  subst h
  rfl

/-! ## The buffer of unparsed headers -/

/-- The connection with another buffer of unparsed headers. -/
def Conn.withUnparsed (c : Conn) (unparsed : Bytes) : Conn := { c with headersUnparsed := unparsed }

lemma closeResponse_withUnparsed : (c.withUnparsed unparsed).closeResponse id s =
    (c.closeResponse id s).withUnparsed unparsed := by
  unfold closeResponse
  split_ifs <;> rfl

lemma deliverHead_withUnparsed : deliverHead (c.withUnparsed unparsed) id s isEndStream env =
    (deliverHead c id s isEndStream env).withUnparsed unparsed := by
  unfold deliverHead
  extract_lets c1 c2
  have hc : c1 = c2.withUnparsed unparsed := rfl
  rw [hc, closeResponse_withUnparsed]
  split_ifs <;> rfl

lemma onFinalHead_withUnparsed : onFinalHead (c.withUnparsed unparsed) id s isEndStream env =
    (onFinalHead c id s isEndStream env).withUnparsed unparsed := by
  unfold onFinalHead
  extract_lets s1
  cases extractContentLength s1.headers with
  | error _ => rfl
  | ok contentLength => exact deliverHead_withUnparsed

lemma onInformational_withUnparsed : onInformational (c.withUnparsed unparsed) id s env =
    (onInformational c id s env).withUnparsed unparsed := by
  unfold onInformational
  split_ifs <;> rfl

lemma onHeadParsed_withUnparsed (p : Parsed) :
    onHeadParsed (c.withUnparsed unparsed) id p isEndStream env =
      (onHeadParsed c id p isEndStream env).withUnparsed unparsed := by
  unfold onHeadParsed
  have hs : (c.withUnparsed unparsed).streams id = c.streams id := rfl
  rw [hs]
  cases c.streams id with
  | none =>
    split_ifs <;> rfl
  | some s =>
    dsimp only
    split_ifs
    · rfl
    · exact onInformational_withUnparsed
    · exact onFinalHead_withUnparsed

lemma onTrailersParsed_withUnparsed (p : Parsed) :
    onTrailersParsed (c.withUnparsed unparsed) id s p env =
      (onTrailersParsed c id s p env).withUnparsed unparsed := by
  unfold onTrailersParsed
  extract_lets s1 c1 c2
  have hc : c1 = c2.withUnparsed unparsed := rfl
  rw [hc, closeResponse_withUnparsed]
  split_ifs <;> rfl

lemma onHead_withUnparsed : onHead (c.withUnparsed unparsed) id block isEndStream env =
    ((onHead c id block isEndStream env).1.withUnparsed unparsed,
      (onHead c id block isEndStream env).2) := by
  unfold onHead
  have ht : (c.withUnparsed unparsed).headerTable = c.headerTable := rfl
  rw [ht]
  cases parseResponse c.headerTable false block with
  | error e => rfl
  | ok p =>
    have hs : (c.withUnparsed unparsed).setTable p.table =
      (c.setTable p.table).withUnparsed unparsed := rfl
    dsimp only
    rw [hs, onHeadParsed_withUnparsed]

lemma onTrailers_withUnparsed : onTrailers (c.withUnparsed unparsed) id s block env =
    ((onTrailers c id s block env).1.withUnparsed unparsed, (onTrailers c id s block env).2) := by
  unfold onTrailers
  have ht : (c.withUnparsed unparsed).headerTable = c.headerTable := rfl
  rw [ht]
  cases parseResponse c.headerTable true block with
  | error e => rfl
  | ok p =>
    have hs : (c.withUnparsed unparsed).setTable p.table =
      (c.setTable p.table).withUnparsed unparsed := rfl
    dsimp only
    rw [hs, onTrailersParsed_withUnparsed]

/-- What is done with a block does not depend on the buffer that it was collected in. -/
theorem onHeaderBlock_withUnparsed :
    onHeaderBlock (c.withUnparsed unparsed) id block isEndStream env =
      ((onHeaderBlock c id block isEndStream env).1.withUnparsed unparsed,
        (onHeaderBlock c id block isEndStream env).2) := by
  unfold onHeaderBlock
  have hs : (c.withUnparsed unparsed).streams id = c.streams id := rfl
  rw [hs]
  cases c.streams id with
  | none => exact onHead_withUnparsed
  | some s =>
    dsimp only
    split_ifs
    · exact onTrailers_withUnparsed
    · exact onHead_withUnparsed

lemma closeConnection_withUnparsed :
    (c.withUnparsed unparsed).closeConnection = c.closeConnection.withUnparsed unparsed := by
  unfold closeConnection
  have hp : ((c.withUnparsed unparsed).bufInFlight.isSome ||
      (c.withUnparsed unparsed).deferTimeout) = (c.bufInFlight.isSome || c.deferTimeout) := rfl
  rw [hp]
  split_ifs <;> rfl

lemma enqueueGoaway_withUnparsed (code : Option ErrorCode) (desc : Option String) :
    (c.withUnparsed unparsed).enqueueGoaway code desc =
      (c.enqueueGoaway code desc).withUnparsed unparsed := by
  unfold enqueueGoaway
  have hs : (c.withUnparsed unparsed).state = c.state := rfl
  rw [hs]
  split_ifs <;> rfl

lemma connectionError_withUnparsed (e : Err) : (c.withUnparsed unparsed).connectionError e =
      (c.connectionError e).withUnparsed unparsed := by
  have hc : ∀ c : Conn, (c.withUnparsed unparsed).callStreamCallbacksWithError
      .protocolViolation = (c.callStreamCallbacksWithError .protocolViolation).withUnparsed
        unparsed := fun _ => rfl
  unfold connectionError
  dsimp only
  rw [enqueueGoaway_withUnparsed]
  split_ifs
  · rw [hc, closeConnection_withUnparsed]
  · rw [hc, closeConnection_withUnparsed]

lemma settle_withUnparsed (x : Conn × Ret) :
    SameOutcome (settle (x.1.withUnparsed unparsed, x.2)) (settle x) := by
  obtain ⟨c, _ | e⟩ := x
  · exact ⟨rfl, rfl, rfl⟩
  · have hc : settle (c.withUnparsed unparsed, some e) =
        (c.connectionError e).withUnparsed unparsed := connectionError_withUnparsed e
    rw [hc]
    exact ⟨rfl, rfl, rfl⟩

/-! ## END_STREAM -/

/-- The block is a final response that is given to `on_head`. -/
def deliversHead (c : Conn) (s : Stream) (block : Bytes) : Bool :=
  match parseResponse c.headerTable false block with
  | .ok p => p.errDesc.isNone && !(100 ≤ p.status && p.status ≤ 199) &&
      (extractContentLength (s.headers ++ p.fields)).isOk
  | .error _ => false

/-- END_STREAM counts only for a final response. -/
theorem onHead_endStream (h : ∀ s, c.streams id = some s → deliversHead c s block = false)
    (b b' : Bool) : onHead c id block b env = onHead c id block b' env := by
  unfold onHead
  unfold deliversHead at h
  cases hp : parseResponse c.headerTable false block with
  | error e => rfl
  | ok p =>
    rw [hp] at h
    dsimp only
    congr 1
    unfold onHeadParsed
    have hst : (c.setTable p.table).streams id = c.streams id := rfl
    rw [hst]
    cases hs : c.streams id with
    | none => rfl
    | some s =>
      have hd := h s hs
      dsimp only at hd ⊢
      split_ifs with ho ht
      · rfl
      · rfl
      · have he : (extractContentLength (s.headers ++ p.fields)).isOk = false := by
          have hn : p.errDesc = none := by simpa using ho
          simp only [hn, Option.isNone_none, Bool.true_and, Bool.and_eq_false_iff] at hd
          refine hd.resolve_left fun h => ht ?_
          simpa using h
        unfold onFinalHead
        dsimp only
        cases hlen : extractContentLength (s.headers ++ p.fields) with
        | error _ => rfl
        | ok n =>
          rw [hlen] at he
          cases he

lemma deliverHead_log : (deliverHead c id s isEndStream env).log id = c.log id ++
    [.onHead (if isEndStream then some .isEos else none) s.status s.headers] := by
  unfold deliverHead closeResponse
  split_ifs <;> exact Function.update_self _ _ _

/-- With a final response, the application sees END_STREAM. -/
theorem onHead_log (hs : c.streams id = some s) (h : deliversHead c s block = true) :
    ∃ status headers, ∀ isEndStream, (onHead c id block isEndStream env).2 = none ∧
        (onHead c id block isEndStream env).1.log id = c.log id ++
          [.onHead (if isEndStream then some .isEos else none) status headers] := by
  unfold onHead
  unfold deliversHead at h
  cases hp : parseResponse c.headerTable false block with
  | error e =>
    rw [hp] at h
    cases h
  | ok p =>
    rw [hp] at h
    simp only [Bool.and_eq_true, Option.isNone_iff_eq_none, Bool.not_eq_true'] at h
    obtain ⟨⟨ho, ht⟩, hlen⟩ := h
    refine ⟨p.status, s.headers ++ p.fields, fun isEndStream => ⟨rfl, ?_⟩⟩
    show (onHeadParsed (c.setTable p.table) id p isEndStream env).log id = _
    unfold onHeadParsed
    have hst : (c.setTable p.table).streams id = some s := hs
    rw [hst]
    dsimp only
    rw [if_neg (by simp [ho]), if_neg (by simpa using ht)]
    unfold onFinalHead
    dsimp only
    cases he : extractContentLength (s.headers ++ p.fields) with
    | error _ =>
      rw [he] at hlen
      cases hlen
    | ok n => exact deliverHead_log

/-! ## Blocks that cannot be read -/

/-- The block of a stream is read as trailers, or as a response, and cannot be read. -/
def unreadable (c : Conn) (id : ℕ) (block : Bytes) : Bool :=
  !(parseResponse c.headerTable ((c.streams id).any (·.res == .body)) block).isOk

variable (hr : c.isReading = true)
include hr

lemma not_failed_of_keepsState {c' : Conn} (h : KeepsState c c') : ¬ c'.failed := by
  unfold isReading at hr
  unfold failed
  rcases h with h | h
  · rw [h]
    rintro (h' | h') <;> rw [h'] at hr <;> cases hr
  · rw [h]
    rintro (h' | h') <;> cases h'

lemma onHead_failed : (settle (onHead c id block isEndStream env)).failed ↔
      (parseResponse c.headerTable false block).isOk = false := by
  unfold onHead
  cases parseResponse c.headerTable false block with
  | error e => exact iff_of_true (connectionError_failed c e) rfl
  | ok p =>
    have ha : Acts .handler (c.setTable p.table)
        (onHeadParsed (c.setTable p.table) id p isEndStream env) :=
      acts_onHeadParsed trivial False.elim p isEndStream
    exact iff_of_false (not_failed_of_keepsState hr (beside_of_acts not_false ha).state) nofun

lemma onTrailers_failed (hs : c.streams id = some s) (hb : s.res = .body) :
    (settle (onTrailers c id s block env)).failed ↔
      (parseResponse c.headerTable true block).isOk = false := by
  unfold onTrailers
  cases parseResponse c.headerTable true block with
  | error e => exact iff_of_true (connectionError_failed c e) rfl
  | ok p =>
    have hs' : (c.setTable p.table).streams id = some s := hs
    have ha : Acts .handler (c.setTable p.table)
        (onTrailersParsed (c.setTable p.table) id s p env) :=
      acts_onTrailersParsed trivial hs' False.elim hb p
    exact iff_of_false (not_failed_of_keepsState hr (beside_of_acts not_false ha).state) nofun

/-- A block is a connection error exactly if it cannot be read. -/
theorem onHeaderBlock_failed : (settle (onHeaderBlock c id block isEndStream env)).failed ↔
      unreadable c id block = true := by
  unfold onHeaderBlock unreadable
  rw [Bool.not_eq_true']
  cases hs : c.streams id with
  | none => exact onHead_failed hr
  | some s =>
    dsimp only [Option.any_some]
    by_cases hb : s.res = .body
    · rw [if_pos hb, hb]
      exact onTrailers_failed hr hs hb
    · rw [if_neg hb, beq_false_of_ne hb]
      exact onHead_failed hr

omit hr

/-- A write is pending when `close_connection` is called after `enqueue_goaway`. -/
def Conn.goawayPending (c : Conn) : Bool :=
  c.bufInFlight.isSome || (c.deferTimeout || (c.state != .isClosing && !c.writing))

lemma closeConnection_outcome (c : Conn) : c.closeConnection.streams =
        (if c.bufInFlight.isSome || c.deferTimeout then c.streams else fun _ => none) ∧
      c.closeConnection.log = c.log ∧ c.closeConnection.state =
        (if c.bufInFlight.isSome || c.deferTimeout then .isClosing else .freed) := by
  unfold closeConnection
  split_ifs <;> exact ⟨rfl, rfl, rfl⟩

lemma enqueueGoaway_outcome (c : Conn) (code : Option ErrorCode) (desc : Option String) :
    (c.enqueueGoaway code desc).streams = c.streams ∧ (c.enqueueGoaway code desc).log = c.log ∧
      ((c.enqueueGoaway code desc).bufInFlight.isSome ||
        (c.enqueueGoaway code desc).deferTimeout) = c.goawayPending := by
  unfold enqueueGoaway goawayPending
  by_cases hs : c.state = .isClosing
  · rw [if_pos hs, hs]
    exact ⟨rfl, rfl, by simp⟩
  · rw [if_neg hs]
    exact ⟨rfl, rfl, rfl⟩

/-- What a connection error does to the streams does not depend on the error. -/
theorem connectionError_outcome {e : Err} (hc : e.code = .protocol ∨ e.code = .compression) :
    (c.connectionError e).streams =
        (if c.goawayPending then fun id => (c.streams id).map afterError else fun _ => none) ∧
      (c.connectionError e).log = (fun id => c.log id ++
        ((c.streams id).map (errorCallbacks · .protocolViolation)).getD []) ∧
      (c.connectionError e).state = (if c.goawayPending then .isClosing else .freed) := by
  have hne : e.code ≠ .protocolCloseImmediately := by
    rintro h
    rw [h] at hc
    rcases hc with hc | hc <;> cases hc
  obtain ⟨hs, hl, hp⟩ := enqueueGoaway_outcome c (some e.code) e.desc
  unfold connectionError
  rw [if_neg hne]
  obtain ⟨hs', hl', ht'⟩ := closeConnection_outcome
    ((c.enqueueGoaway (some e.code) e.desc).callStreamCallbacksWithError .protocolViolation)
  have hp' : (((c.enqueueGoaway (some e.code) e.desc).callStreamCallbacksWithError
      .protocolViolation).bufInFlight.isSome || ((c.enqueueGoaway (some e.code)
        e.desc).callStreamCallbacksWithError .protocolViolation).deferTimeout) =
      c.goawayPending := hp
  rw [hp'] at hs' ht'
  rw [hs', hl', ht']
  refine ⟨?_, ?_, rfl⟩
  · unfold callStreamCallbacksWithError
    rw [hs]
  · unfold callStreamCallbacksWithError
    dsimp only
    rw [hs, hl]

end Vhttp.Http2Client
