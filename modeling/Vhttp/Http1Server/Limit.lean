import Vhttp.Http1Server.Basic
import Vhttp.Http1Server.Framing
import Vhttp.Http2.Connection

/-!
# The limit on request bodies

The length of a body is checked in three places: when its length is announced, as its chunks are
decoded, and for each DATA frame of HTTP/2. The check of the decoded chunks also refuses a body
that has just the size of the limit.

* `limit_iff`: when a body is refused with 413 just if it is larger than the limit.
* `limit_exact`: a chunked body of the size of the limit.
-/

namespace Vhttp.Http1Server

open List Option Prod Conn
open Http1 (ChunkResult Decoder)
open Http1Client (Field)
open Incremental (feed)

variable {σ : Type} {env : Env σ} {c c' : Conn σ} {outcome : Outcome}

/-! ## Fragments -/

/-- What a part of a body leaves of the connection while there is no response: `size` octets of
data are taken. -/
structure Takes (c c' : Conn σ) (size used : ℕ) (complete : Bool) : Prop where
  input : c'.input = c.input.drop used
  received : c'.reqBodyBytesReceived = c.reqBodyBytesReceived + size
  reader : c'.reader = if complete then none else c.reader
  hasGenerator : c'.hasGenerator = c.hasGenerator
  ostreamState : c'.ostreamState = c.ostreamState
  errors : ∀ err, .error err ∈ c'.calls ↔ .error err ∈ c.calls

/-- Recording a call that is not an error. -/
lemma error_mem_call (c : Conn σ) {call : Call} (h : ∀ err, call ≠ .error err)
    (err : ErrorResponse) : .error err ∈ (c.call call).calls ↔ .error err ∈ c.calls := by
  unfold Conn.call
  rw [mem_append, mem_singleton]
  exact or_iff_left fun he => h err he.symm

/-- The callback leaves the input and the reader alone. -/
lemma takes_writeRequest {req : Request} {entity : Bytes} {isEndStream : Bool}
    (h : c.writeRequest env req entity isEndStream outcome = some (some c')) :
    Takes c c' 0 0 false := by
  unfold writeRequest at h
  split at h
  · cases h
  · obtain rfl := some.inj (some.inj h)
    unfold writeReqFirst writeReqNonStreaming
    split_ifs
    · exact ⟨rfl, rfl, rfl, rfl, rfl, error_mem_call _ nofun⟩
    · exact ⟨rfl, rfl, rfl, rfl, rfl, error_mem_call _ nofun⟩
    · exact ⟨rfl, rfl, rfl, rfl, rfl, fun _ => .rfl⟩
  · obtain rfl := some.inj (some.inj h)
    unfold writeReqNonStreaming
    split_ifs
    · exact ⟨rfl, rfl, rfl, rfl, rfl, error_mem_call _ nofun⟩
    · exact ⟨rfl, rfl, rfl, rfl, rfl, fun _ => .rfl⟩
  · obtain rfl := some.inj (some.inj h)
    exact ⟨rfl, rfl, rfl, rfl, rfl, fun _ => .rfl⟩
  · split_ifs at h
    · obtain rfl := some.inj (some.inj h)
      exact ⟨rfl, rfl, rfl, rfl, rfl, error_mem_call _ nofun⟩
    · cases some.inj h

/-- The environment does not fail. -/
def Outcome.Ok (outcome : Outcome) : Prop := outcome.appendOk ∧ outcome.writeOk

variable {body later rest : Bytes} {cleanup : Conn σ → Option (Conn σ)} {decoder : σ} {n : ℕ}

/-- A part of a body. -/
lemma takes_fragment {size extra : ℕ} {complete : Bool}
    (h : c.handleOneBodyFragment env cleanup size extra complete outcome = some c')
    (ho : outcome.Ok) (hh : c.ostreamState = .head) : Takes c c' size (size + extra) complete := by
  unfold handleOneBodyFragment at h
  by_cases he : size = 0 ∧ !complete
  · rw [if_pos he] at h
    obtain ⟨rfl, hc⟩ := he
    obtain rfl := some.inj h
    rw [Bool.not_eq_true'] at hc
    subst hc
    refine ⟨?_, rfl, rfl, rfl, rfl, fun _ => .rfl⟩
    rw [Nat.zero_add]
    rfl
  · rw [if_neg he, ho.1] at h
    dsimp only at h
    split at h
    · rename_i req body hr hb
      simp only [Bool.not_true, Bool.false_eq_true, if_false] at h
      cases hw : (c.readStop.takeFragment body size extra).writeRequest env req
          (body ++ c.readStop.input.take size) complete outcome with
      | none =>
        rw [hw] at h
        cases h
      | some written =>
        rw [hw] at h
        cases written with
        | none =>
          -- the callback fails only if the environment does
          unfold writeRequest at hw
          rw [ho.2] at hw
          split at hw <;> cases hw
        | some c2 =>
          have ht := takes_writeRequest hw
          cases complete with
          | false =>
            obtain rfl := some.inj h
            exact ⟨ht.input, ht.received, ht.reader, ht.hasGenerator, ht.ostreamState, ht.errors⟩
          | true =>
            have hs : c2.ostreamState ≠ .done := by
              rw [ht.ostreamState]
              change c.ostreamState ≠ .done
              rw [hh]
              decide
            have hf : c2.finishBody cleanup = some c2.endBody := if_neg hs
            obtain rfl := some.inj (hf.symm.trans h)
            exact ⟨ht.input, ht.received, rfl, ht.hasGenerator, ht.ostreamState, ht.errors⟩
    · cases h

/-! ## Progress of a chunked body -/

/-- How far a chunked body is: the decoder and the size of the data, or how it ended. -/
inductive Progress (σ : Type) where
  | reading (decoder : σ) (received : ℕ)
  | tooLarge
  | broken
  | complete

/-- A piece of the body has been decoded. -/
def Progress.decoded (env : Env σ) (received : ℕ) : σ × Bytes × ChunkResult → Progress σ
  | (decoder, data, ret) =>
    if ret ≠ .error ∧ data.length + received ≥ env.maxRequestEntitySize then .tooLarge
    else
      match ret with
      | .error => .broken
      | .incomplete => .reading decoder (received + data.length)
      | .complete _ => .complete

/-- A piece of the body arrives. -/
def Progress.piece (env : Env σ) : Progress σ → Bytes → Progress σ
  | .reading decoder received, data =>
    if data = [] then .reading decoder received
    else .decoded env received (env.decodeChunked decoder data)
  | p, _ => p

/-- The connection is as far as this. -/
def Tracks (c : Conn σ) : Progress σ → Prop
  | .reading decoder received =>
    c.reader = some (.chunked decoder) ∧ c.reqBodyBytesReceived = received ∧ c.input = [] ∧
      c.hasGenerator = false ∧ c.ostreamState = .head ∧ .error tooLarge ∉ c.calls
  | .tooLarge => c.reader = none ∧ .error tooLarge ∈ c.calls
  | _ => c.reader = none ∧ .error tooLarge ∉ c.calls

/-- The error response while there is no response. -/
lemma entityReadDoSendError_head {err : ErrorResponse}
    (h : c.entityReadDoSendError cleanup err = some c') (hg : c.hasGenerator = false)
    (hh : c.ostreamState = .head) : c'.reader = none ∧ c'.calls = c.calls ++ [.error err] := by
  unfold entityReadDoSendError at h
  dsimp only at h
  rw [show c.endBody.readStop.hasGenerator = c.hasGenerator from rfl,
    show c.endBody.readStop.ostreamState = c.ostreamState from rfl, hg, hh] at h
  obtain rfl := some.inj h
  exact ⟨rfl, rfl⟩

/-- What has been decoded is taken as the progress says. -/
lemma tracks_decoded {data : Bytes}
    {ret : ChunkResult} (h : c.handleDecoded env cleanup data ret outcome = some c')
    (ho : outcome.Ok) (hr : c.reader = some (.chunked decoder))
    (hg : c.hasGenerator = false) (hh : c.ostreamState = .head) (hc : .error tooLarge ∉ c.calls) :
    Tracks c' (.decoded env c.reqBodyBytesReceived (decoder, data, ret)) := by
  unfold handleDecoded at h
  unfold Progress.decoded
  dsimp only
  by_cases hlg : ret ≠ .error ∧ data.length + c.reqBodyBytesReceived ≥ env.maxRequestEntitySize
  · rw [if_pos hlg] at h ⊢
    obtain ⟨hn, hl⟩ := entityReadDoSendError_head h hg hh
    refine ⟨hn, ?_⟩
    rw [hl]
    exact mem_append_right _ (mem_singleton.2 rfl)
  · rw [if_neg hlg] at h ⊢
    cases ret with
    | error =>
      obtain ⟨hn, hl⟩ := entityReadDoSendError_head h hg hh
      refine ⟨hn, ?_⟩
      rw [hl, mem_append, mem_singleton, not_or]
      exact ⟨hc, by decide⟩
    | incomplete =>
      have ht := takes_fragment h ho hh
      refine ⟨ht.reader.trans hr, ht.received, ?_,
        ht.hasGenerator.trans hg, ht.ostreamState.trans hh,
        fun hmem => hc ((ht.errors _).1 hmem)⟩
      rw [ht.input]
      apply drop_eq_nil_of_le
      omega
    | complete left =>
      have ht := takes_fragment h ho hh
      exact ⟨ht.reader, fun hmem => hc ((ht.errors _).1 hmem)⟩

/-- `handle_chunked_entity_read` follows the progress. -/
lemma tracks_chunked
    (h : c.handleChunkedEntityRead env cleanup decoder outcome = some c') (ho : outcome.Ok)
    (hr : c.reader = some (.chunked decoder)) (hg : c.hasGenerator = false)
    (hh : c.ostreamState = .head) (hc : .error tooLarge ∉ c.calls) :
    Tracks c' (Progress.piece env (.reading decoder c.reqBodyBytesReceived) c.input) := by
  unfold handleChunkedEntityRead at h
  unfold Progress.piece
  dsimp only
  by_cases he : c.input = []
  · rw [if_pos he] at h ⊢
    obtain rfl := some.inj h
    exact ⟨hr, rfl, he, hg, hh, hc⟩
  · rw [if_neg he] at h ⊢
    exact tracks_decoded (c := c.setReader _) h ho rfl hg hh hc

/-! ## Runs over a body -/

/-- The body of a request is going to be read; no response to it has begun. -/
structure Starts (c : Conn σ) (reader : Reader σ) : Prop where
  reader : c.reader = some reader
  received : c.reqBodyBytesReceived = 0
  hasGenerator : c.hasGenerator = false
  ostreamState : c.ostreamState = .head
  errors : .error tooLarge ∉ c.calls

/-- The runs over a body: what came with the head is read, at once or in `on_continue_sent` (with
another `cleanup`), and then what the socket reads, as long as there is a reader. A handler may ask
to proceed, but does not respond, and nothing fails. The pieces are what was read. -/
inductive BodyRun (env : Env σ) (reader : Reader σ) : Conn σ → List Bytes → Prop
  | start {c c' : Conn σ} {outcome : Outcome} {cleanup : Conn σ → Option (Conn σ)}
    (h : Starts c reader) (hok : outcome.Ok)
    (hstep : c.handleIncomingEntity env cleanup reader outcome = some c') :
    BodyRun env reader c' [c.input]
  | read {c c' : Conn σ} {pieces : List Bytes} {data : Bytes} {outcome : Outcome}
    (h : BodyRun env reader c pieces) (hreader : c.reader.isSome) (hok : outcome.Ok)
    (hstep : c.reqreadOnRead env data outcome = some c') :
    BodyRun env reader c' (pieces ++ [data])
  | proceed {c c' : Conn σ} {pieces : List Bytes} {outcome : Outcome}
    (h : BodyRun env reader c pieces) (hreader : c.reader.isSome)
    (hstep : c.proceedRequest env false outcome = some c') :
    BodyRun env reader c' pieces

/-- `proceed_request` takes up reading. -/
lemma takes_proceedRequest (h : c.proceedRequest env false outcome = some c') :
    Takes c c' 0 0 false := by
  unfold proceedRequest at h
  rw [if_neg Bool.false_ne_true] at h
  split at h
  · split_ifs at h
    obtain rfl := some.inj h
    exact ⟨rfl, rfl, rfl, rfl, rfl, fun _ => .rfl⟩
  · cases h

lemma Tracks.proceed {p : Progress σ} (h : Tracks c p) (ht : Takes c c' 0 0 false) :
    Tracks c' p := by
  have hi := ht.input
  rw [drop_zero] at hi
  cases p with
  | reading decoder received =>
    obtain ⟨hr, hc, he, hg, hh, hs⟩ := h
    exact ⟨ht.reader.trans hr, ht.received.trans hc, hi.trans he,
      ht.hasGenerator.trans hg, ht.ostreamState.trans hh,
      fun hmem => hs ((ht.errors _).1 hmem)⟩
  | tooLarge => exact ⟨ht.reader.trans h.1, (ht.errors _).2 h.2⟩
  | broken | complete => exact ⟨ht.reader.trans h.1, fun hmem => h.2 ((ht.errors _).1 hmem)⟩

/-- The progress that the pieces make. -/
def progressOf (env : Env σ) (pieces : List Bytes) : Progress σ :=
  pieces.foldl (Progress.piece env) (.reading env.zeroDecoder 0)

lemma progressOf_concat (env : Env σ) (pieces : List Bytes) (data : Bytes) :
    progressOf env (pieces ++ [data]) = (progressOf env pieces).piece env data := by
  unfold progressOf
  rw [foldl_concat]

/-- A chunked body goes as its pieces say. -/
lemma tracks_of_bodyRun {pieces : List Bytes}
    (h : BodyRun env (.chunked env.zeroDecoder) c pieces) : Tracks c (progressOf env pieces) := by
  induction h with
  | start h ho hstep =>
    have ht := tracks_chunked hstep ho h.reader h.hasGenerator h.ostreamState h.errors
    rw [h.received] at ht
    exact ht
  | @read c c' pieces data outcome h hr ho hstep ih =>
    rw [progressOf_concat]
    cases hp : progressOf env pieces with
    | reading decoder received =>
      rw [hp] at ih
      obtain ⟨hd, hc, he, hg, hh, hs⟩ := ih
      rw [reqreadOnRead_body hd] at hstep
      have ht := tracks_chunked (c := c.setInput (c.input ++ data)) hstep ho hd hg hh hs
      rw [he] at ht
      rw [← hc]
      exact ht
    | tooLarge | broken | complete =>
      rw [hp] at ih
      rw [ih.1] at hr
      cases hr
  | proceed _ _ hstep ih => exact ih.proceed (takes_proceedRequest hstep)

/-- `handle_content_length_entity_read` does not look at the size. -/
lemma quiet_contentLength
    (h : c.handleContentLengthEntityRead env cleanup n outcome = some c') (ho : outcome.Ok)
    (hh : c.ostreamState = .head) (hc : .error tooLarge ∉ c.calls)
    (hr : c.reader = some (.contentLength n)) :
    .error tooLarge ∉ c'.calls ∧ c'.ostreamState = .head ∧
      (c'.reader = some (.contentLength n) ∨ c'.reader = none) := by
  unfold handleContentLengthEntityRead at h
  split_ifs at h
  · have ht := takes_fragment h ho hh
    exact ⟨fun hmem => hc ((ht.errors _).1 hmem), ht.ostreamState.trans hh, .inr ht.reader⟩
  · obtain rfl := some.inj h
    exact ⟨hc, hh, .inl hr⟩
  · have ht := takes_fragment h ho hh
    exact ⟨fun hmem => hc ((ht.errors _).1 hmem), ht.ostreamState.trans hh,
      .inl (ht.reader.trans hr)⟩

/-- A body whose length was announced is not refused for its size as it is read. -/
lemma not_tooLarge_of_bodyRun {pieces : List Bytes}
    (h : BodyRun env (.contentLength n) c pieces) :
    .error tooLarge ∉ c.calls ∧ c.ostreamState = .head ∧
      (c.reader = some (.contentLength n) ∨ c.reader = none) := by
  induction h with
  | start h ho hstep => exact quiet_contentLength hstep ho h.ostreamState h.errors h.reader
  | @read c c' pieces data outcome h hr ho hstep ih =>
    obtain ⟨hc, hh, hr' | hr'⟩ := ih
    · rw [reqreadOnRead_body hr'] at hstep
      exact quiet_contentLength hstep ho hh hc hr'
    · rw [hr'] at hr
      cases hr
  | proceed _ _ hstep ih =>
    have ht := takes_proceedRequest hstep
    refine ⟨fun hmem => ih.1 ((ht.errors _).1 hmem), ht.ostreamState.trans ih.2.1, ?_⟩
    rw [ht.reader]
    exact ih.2.2

/-! ## The decoder of picohttpparser -/

/-- The server uses `phr_decode_chunked`. -/
structure UsesPico (env : Env Decoder) : Prop where
  decodeChunked : env.decodeChunked = Http1.decodeChunked

section Pico

variable {env : Env Decoder} {pieces : List Bytes}

/-- The data of the pieces is that of the whole body. -/
lemma feed_of_reading (hn : UsesPico env) {decoder : Decoder} {received : ℕ}
    (h : progressOf env pieces = .reading decoder received) :
    ∃ data : Bytes, data.length = received ∧ ∀ rest,
      (feed Decoder.step env.zeroDecoder (pieces.flatten ++ rest)).2 =
        (data ++ (feed Decoder.step decoder rest).2.1, (feed Decoder.step decoder rest).2.2) := by
  induction pieces using reverseRecOn generalizing decoder received with
  | nil =>
    cases h
    exact ⟨[], rfl, fun rest => rfl⟩
  | append_singleton pieces piece ih =>
    rw [progressOf_concat] at h
    cases hp : progressOf env pieces with
    | reading decoder0 received0 =>
      rw [hp] at h
      obtain ⟨data0, hl0, hf0⟩ := ih hp
      unfold Progress.piece at h
      dsimp only at h
      by_cases he : piece = []
      · rw [if_pos he] at h
        cases h
        refine ⟨data0, hl0, fun rest => ?_⟩
        rw [he, flatten_concat, append_nil]
        exact hf0 rest
      · rw [if_neg he, hn.decodeChunked] at h
        generalize hd : Http1.decodeChunked decoder0 piece = decoded at h
        obtain ⟨decoder1, data, ret⟩ := decoded
        unfold Progress.decoded at h
        dsimp only at h
        split_ifs at h
        cases ret with
        | error | complete left => cases h
        | incomplete =>
          cases h
          refine ⟨data0 ++ data, by rw [length_append, hl0], fun rest => ?_⟩
          have hx := Http1.feed_of_incomplete hd rest
          rw [flatten_concat, append_assoc, hf0, hx, append_assoc]
    | tooLarge =>
      rw [hp] at h
      cases h
    | broken =>
      rw [hp] at h
      cases h
    | complete =>
      rw [hp] at h
      cases h

/-- The data of a piece is part of the body. -/
lemma exists_body_eq {decoder : Decoder} {piece : Bytes}
    (hr : (Http1.decodeChunked decoder piece).2.2 ≠ .error)
    (hb : (feed Decoder.step decoder (piece ++ later)).2 = (body, .done rest)) :
    ∃ tail, body = (Http1.decodeChunked decoder piece).2.1 ++ tail ∧
      ∀ left, (Http1.decodeChunked decoder piece).2.2 = .complete left → tail = [] := by
  generalize hd : Http1.decodeChunked decoder piece = decoded at hr ⊢
  obtain ⟨decoder', data, ret⟩ := decoded
  cases ret with
  | error => exact absurd rfl hr
  | incomplete =>
    rw [Http1.feed_of_incomplete hd] at hb
    exact ⟨_, (mk.inj hb).1.symm, nofun⟩
  | complete left =>
    obtain ⟨rest', -, hf⟩ := Http1.feed_of_complete hd
    have ho := Incremental.feed_append_done_output (congrArg snd hf) later
    rw [hb, hf] at ho
    exact ⟨[], by rw [append_nil]; exact ho, fun _ _ => rfl⟩

/-- A body that is too large has at least the size of the limit, and one that is complete is
smaller. -/
lemma size_of_finished (hn : UsesPico env)
    (hb : (feed Decoder.step env.zeroDecoder (pieces.flatten ++ later)).2 = (body, .done rest)) :
    (progressOf env pieces = .tooLarge → env.maxRequestEntitySize ≤ body.length) ∧
      (progressOf env pieces = .complete → body.length < env.maxRequestEntitySize) := by
  induction pieces using reverseRecOn generalizing later with
  | nil => exact ⟨nofun, nofun⟩
  | append_singleton pieces piece ih =>
    rw [flatten_concat, append_assoc] at hb
    rw [progressOf_concat]
    cases hp : progressOf env pieces with
    | tooLarge => exact ⟨fun _ => (ih hb).1 hp, nofun⟩
    | broken => exact ⟨nofun, nofun⟩
    | complete => exact ⟨nofun, fun _ => (ih hb).2 hp⟩
    | reading decoder received =>
      obtain ⟨data0, hl0, hf0⟩ := feed_of_reading hn hp
      unfold Progress.piece
      dsimp only
      split_ifs with hm
      · exact ⟨nofun, nofun⟩
      · rw [hf0] at hb
        obtain ⟨hd, hdn⟩ := mk.inj hb
        have hre : (feed Decoder.step decoder (piece ++ later)).2 =
            ((feed Decoder.step decoder (piece ++ later)).2.1, .done rest) := by
          rw [← hdn]
        have he := fun hr => exists_body_eq hr hre
        rw [hn.decodeChunked, ← hd, length_append, hl0]
        generalize Http1.decodeChunked decoder piece = decoded at he ⊢
        obtain ⟨decoder', data, ret⟩ := decoded
        unfold Progress.decoded
        dsimp only at he ⊢
        by_cases hl : ret ≠ .error ∧ data.length + received ≥ env.maxRequestEntitySize
        · rw [if_pos hl]
          obtain ⟨tail, ht, -⟩ := he hl.1
          refine ⟨fun _ => ?_, nofun⟩
          rw [ht, length_append]
          omega
        · rw [if_neg hl]
          cases ret with
          | error | incomplete => exact ⟨nofun, nofun⟩
          | complete left =>
            obtain ⟨tail, ht, hi⟩ := he nofun
            refine ⟨nofun, fun _ => ?_⟩
            have hs : ¬data.length + received ≥ env.maxRequestEntitySize :=
              fun hg => hl ⟨nofun, hg⟩
            rw [ht, hi left rfl, append_nil]
            omega

end Pico

/-! ## The limit -/

/-- HTTP/2 refuses a body just if it is larger than the limit. -/
lemma http2_limit_iff (srv : Http2.Server) (stream : Http2.Stream) (frames : List ℕ)
    (hlen : ∀ n, stream.contentLength = some n → n = frames.sum) :
    (∃ k ≤ frames.length, Http2.badLength srv
      { stream with bytesReceived := (frames.take k).sum } (k = frames.length)) ↔
        srv.maxRequestEntitySize < frames.sum := by
  have hl : ∀ k, (frames.take k).sum ≤ frames.sum := fun k =>
    (take_sublist k frames).sum_le_sum fun _ _ => Nat.zero_le _
  unfold Http2.badLength
  constructor
  · rintro ⟨k, -, hb⟩
    have hk := hl k
    rw [Bool.or_eq_true, decide_eq_true_iff] at hb
    rcases hb with hb | hb
    · exact hb.trans_le hk
    · -- the length that was announced is that of the body
      cases hc : stream.contentLength with
      | none =>
        rw [hc] at hb
        cases hb
      | some n =>
        rw [hc, hlen n hc] at hb
        split_ifs at hb with he
        · rw [of_decide_eq_true he, take_length] at hb
          exact absurd rfl (of_decide_eq_true hb)
        · exact absurd hk (not_le.2 (of_decide_eq_true hb))
  · intro h
    refine ⟨frames.length, le_rfl, ?_⟩
    rw [Bool.or_eq_true, decide_eq_true_iff, take_length]
    exact .inl h

/-- The decoder refuses a piece before the data has the size of the limit. -/
def Overloaded (env : Env σ) (pieces : List Bytes) : Prop := progressOf env pieces = .broken

/-- A chunked body that the decoder accepts is refused with 413 just if it is larger than the limit,
unless it has the size of the limit. -/
lemma chunked_limit_iff {env : Env Decoder} (hn : UsesPico env) {c : Conn Decoder}
    {pieces : List Bytes}
    (hr : BodyRun env (.chunked env.zeroDecoder) c pieces) (he : c.reader = none ∨ later = [])
    (hb : (feed Decoder.step env.zeroDecoder (pieces.flatten ++ later)).2 = (body, .done rest)) :
    (.error tooLarge ∈ c.calls ↔ env.maxRequestEntitySize < body.length) ↔
      (Overloaded env pieces → body.length ≤ env.maxRequestEntitySize) ∧
        (¬Overloaded env pieces → body.length ≠ env.maxRequestEntitySize) := by
  have ht := tracks_of_bodyRun hr
  obtain ⟨hg, hs⟩ := size_of_finished hn hb
  unfold Overloaded
  cases hp : progressOf env pieces with
  | reading decoder received =>
    rw [hp] at ht
    rcases he with he | rfl
    · rw [ht.1] at he
      cases he
    · -- the decoder is done with a whole body
      obtain ⟨_, -, hf⟩ := feed_of_reading hn hp
      rw [hf] at hb
      cases (mk.inj hb).2
  | tooLarge =>
    rw [hp] at ht
    have hge := hg hp
    rw [iff_true_left ht.2]
    constructor
    · exact fun hl => ⟨nofun, fun _ => hl.ne'⟩
    · exact fun h => lt_of_le_of_ne hge (h.2 nofun).symm
  | broken =>
    rw [hp] at ht
    rw [iff_false_left ht.2, not_lt]
    exact ⟨fun hle => ⟨fun _ => hle, fun hne => absurd rfl hne⟩, fun h => h.1 rfl⟩
  | complete =>
    rw [hp] at ht
    have hl := hs hp
    rw [iff_false_left ht.2, not_lt]
    exact ⟨fun _ => ⟨nofun, fun _ => hl.ne⟩, fun _ => hl.le⟩

/-- A length that is announced is refused with 413 just if it is larger than the limit, unless it
has so many digits that it is not read. -/
lemma contentLength_limit_iff {fixed : Fixed} {f : Field} (hf : isContentLength f)
    (he : fixed.expect.any (!lcstris · (ascii "100-continue")) = false)
    (hv : f.value ≠ []) (hd : f.value.all isDigit) :
    (decideBody env fixed f = .refuse tooLarge ↔ env.maxRequestEntitySize < decimal f.value) ↔
      f.value.length ≤ 19 ∨ decimal f.value ≤ env.maxRequestEntitySize := by
  unfold decideBody
  rw [if_neg (by rw [he]; exact Bool.false_ne_true), createEntityReader_length hf,
    strtosize_digits hv hd]
  by_cases hlen : f.value.length ≤ 19
  · rw [if_pos hlen]
    refine iff_of_true ?_ (.inl hlen)
    dsimp only
    by_cases hl : decimal f.value > env.maxRequestEntitySize
    · rw [if_pos hl]
      exact iff_of_true rfl hl
    · rw [if_neg hl]
      exact iff_of_false nofun hl
  · rw [if_neg hlen, or_iff_right hlen]
    have ho : (Decision.refuse ⟨400, "Invalid Request", "broken content-length header"⟩ :
        Decision σ) ≠ .refuse tooLarge := by
      intro h
      cases h
    rw [iff_false_left ho, not_lt]

/-- A body is refused with 413 just if it is larger than the limit: if its length is announced, as
long as the number is read; if it is chunked, as long as it does not have the size of the limit and
the decoder does not refuse it first; and over HTTP/2. -/
theorem limit_iff {env : Env Decoder} (henv : UsesPico env) :
    (∀ (fixed : Fixed) (f : Field), isContentLength f →
      fixed.expect.any (!lcstris · (ascii "100-continue")) = false →
      f.value ≠ [] → f.value.all isDigit →
      ((decideBody env fixed f = .refuse tooLarge ↔ env.maxRequestEntitySize < decimal f.value) ↔
        f.value.length ≤ 19 ∨ decimal f.value ≤ env.maxRequestEntitySize)) ∧
    (∀ (n : ℕ) (c : Conn Decoder) (pieces : List Bytes), BodyRun env (.contentLength n) c pieces →
      .error tooLarge ∉ c.calls) ∧
    (∀ (c : Conn Decoder) (pieces : List Bytes) (later body rest : Bytes),
      BodyRun env (.chunked env.zeroDecoder) c pieces → c.reader = none ∨ later = [] →
      (feed Decoder.step env.zeroDecoder (pieces.flatten ++ later)).2 = (body, .done rest) →
      ((.error tooLarge ∈ c.calls ↔ env.maxRequestEntitySize < body.length) ↔
        (Overloaded env pieces → body.length ≤ env.maxRequestEntitySize) ∧
          (¬Overloaded env pieces → body.length ≠ env.maxRequestEntitySize))) ∧
    ∀ (srv : Http2.Server) (stream : Http2.Stream) (frames : List ℕ),
      (∀ n, stream.contentLength = some n → n = frames.sum) →
      ((∃ k ≤ frames.length, Http2.badLength srv
          { stream with bytesReceived := (frames.take k).sum } (k = frames.length)) ↔
        srv.maxRequestEntitySize < frames.sum) :=
  ⟨fun _ _ hf he hv hd =>
      contentLength_limit_iff hf he hv hd,
    fun _ _ _ hr => (not_tooLarge_of_bodyRun hr).1,
    fun _ _ _ _ _ hr hn hb => chunked_limit_iff henv hr hn hb,
    http2_limit_iff⟩

/-- A server with this limit. -/
def limitedServer (maxRequestEntitySize : ℕ) : Env Decoder where
  parseRequest _ _ := .incomplete
  zeroDecoder := { Decoder.zero with consumeTrailer := true }
  decodeChunked := Http1.decodeChunked
  parseUrl _ := none
  canStreamRequest _ := false
  maxRequestEntitySize := maxRequestEntitySize
  isSsl := false
  upgradeToHttp2 := false
  shutdownRequested := false

/-- A connection that is going to read a chunked body, of which this has come. -/
def chunkedConn (input : Bytes) : Conn Decoder :=
  ((((accept Decoder).setRequest ⟨ascii "POST", ascii "/", .http, none, 0x101, [], none, false, true,
    none⟩ 0).startBody (.chunked { Decoder.zero with consumeTrailer := true }) 0 .first).setInput
      input)

/-- Nothing fails. -/
def allOk : Outcome := ⟨true, true, true⟩

/-- A body of five octets. -/
def fiveOctets : Bytes := ascii "5\r\nhello\r\n0\r\n\r\n"

lemma starts_chunkedConn (input : Bytes) (max : ℕ) :
    Starts (chunkedConn input) (.chunked (limitedServer max).zeroDecoder) :=
  ⟨rfl, rfl, rfl, rfl, not_mem_nil⟩

/-- Five octets where six are allowed. -/
theorem limit_iff_six : ∃ c, BodyRun (limitedServer 6)
    (.chunked (limitedServer 6).zeroDecoder) c [fiveOctets] ∧ c.reader = none ∧
      ((.error tooLarge ∈ c.calls ↔ 6 < (ascii "hello").length) ↔
        (Overloaded (limitedServer 6) [fiveOctets] → (ascii "hello").length ≤ 6) ∧
          (¬Overloaded (limitedServer 6) [fiveOctets] → (ascii "hello").length ≠ 6)) := by
  have hu : ((chunkedConn fiveOctets).handleIncomingEntity (limitedServer 6) some
      (.chunked (limitedServer 6).zeroDecoder) allOk).map reader = some none := by
    rfl
  obtain ⟨c, hc, hr⟩ := map_eq_some_iff.1 hu
  have hb : BodyRun (limitedServer 6) (.chunked (limitedServer 6).zeroDecoder) c [fiveOctets] :=
    .start (starts_chunkedConn fiveOctets 6) ⟨rfl, rfl⟩ hc
  have hf : (feed Decoder.step (limitedServer 6).zeroDecoder ([fiveOctets].flatten ++ [])).2 =
      (ascii "hello", .done []) := rfl
  exact ⟨c, hb, hr, (limit_iff ⟨rfl⟩).2.2.1 c [fiveOctets] [] (ascii "hello") [] hb (.inl hr) hf⟩

/-- Five octets where five are allowed are refused. -/
theorem limit_exact : ∃ c, BodyRun (limitedServer 5)
    (.chunked (limitedServer 5).zeroDecoder) c [fiveOctets] ∧ c.reader = none ∧
      (feed Decoder.step (limitedServer 5).zeroDecoder ([fiveOctets].flatten ++ [])).2 =
        (ascii "hello", .done []) ∧ .error tooLarge ∈ c.calls ∧ (ascii "hello").length ≤ 5 := by
  obtain ⟨c, hc, hr, hs⟩ : ∃ c, (chunkedConn fiveOctets).handleIncomingEntity
      (limitedServer 5) some (.chunked (limitedServer 5).zeroDecoder) allOk = some c ∧
      c.reader = none ∧ .error tooLarge ∈ c.calls := exists_of_any rfl
  exact ⟨c, .start (starts_chunkedConn fiveOctets 5) ⟨rfl, rfl⟩ hc, hr, rfl, hs, by decide⟩

end Vhttp.Http1Server
