import Vhttp.Http1Client.Heads

/-!
# Chunked bodies

The chunked decoder and the count of a body of known length share their memory, and a content-length
is written there whether or not the body is chunked.

* `chunkedBody_iff`: the heads with which the application gets what a decoder that is filled with
  zeros decodes.
* `chunkedBody_with_length`: a content-length changes the size of the first chunk.
-/

namespace Vhttp.Http1Client

open List Option Client Incremental
open Http1 (Decoder decodeChunked)

/-! ## The property -/

/-- The decoder for chunks, before the first one. -/
def zeroFilled : Decoder := { Decoder.zero with consumeTrailer := true }

/-- The client waits for a head, and this one is the head of a response with a body. -/
structure Client.AwaitsHead (c : Client) (h : Head) : Prop where
  reader : c.reader = none
  decoder : c.decoder = .zero
  tunnel : tunnelIsReady c.upgradeTo h.status = false
  body : c.hasNoBody h = false

/-- After the head, whatever happens, the application is called like that of a client which has
filled the decoder with zeros. -/
def DecodesBody (h : Head) : Prop :=
  ∀ (parse : Parser) (c : Client) (rlen : ℕ) (env : Env), c.AwaitsHead h → ∃ keep,
    ∀ events c₀, run parse (c.startBody h rlen ⟨keep, zeroFilled, .onBodyChunked⟩ env) events =
        some c₀ →
      ∃ c', run parse (c.onFinalHead h rlen env) events = some c' ∧ c'.calls = c₀.calls

/-! ## Clients with another decoder -/

/-- The client with another decoder. -/
def Client.setDecoder (c : Client) (d : Decoder) : Client := { c with decoder := d }

/-- The client reads a body only in chunks. -/
structure ReadsChunks (c : Client) : Prop where
  reading : ∀ cb, c.reading = some cb → cb = .onBodyChunked
  reader : ∀ cb, c.reader = some cb → cb = .onBodyChunked

/-- Two clients that read chunks, with decoders that decode alike. -/
structure Twin (c c' : Client) : Prop where
  same : ∃ d, c' = c.setDecoder d ∧ c.decoder.Alike d
  reads : ReadsChunks c

variable {parse : Parser} {c c' : Client} {d : Decoder} {data : Bytes} {env : Env}

lemma Twin.calls (h : Twin c c') : c'.calls = c.calls := by
  obtain ⟨d, rfl, -⟩ := h.same
  rfl

/-! ## Twins -/

variable (h : Twin c c')
include h

lemma Twin.updateReadState : Twin c.updateReadState c'.updateReadState := by
  obtain ⟨⟨d, rfl, ha⟩, hr⟩ := h
  have hd : ∀ cb, c.reading = some cb ∨ c.reader = some cb → cb = .onBodyChunked := by
    rintro cb (hc | hc)
    · exact hr.reading cb hc
    · exact hr.reader cb hc
  refine ⟨⟨d, ?_, ?_⟩, fun cb hc => ?_, fun cb hc => ?_⟩
  · unfold updateReadState setDecoder
    split
    · rfl
    · split <;> rfl
  · rw [c.updateReadState_fields.2.2.1]
    exact ha
  · exact hd cb ((c.updateReadState_readers cb).1 hc)
  · exact hd cb ((c.updateReadState_readers cb).2 hc)

lemma Twin.closeClient : Twin c.closeClient c'.closeClient := by
  obtain ⟨⟨d, rfl, ha⟩, hr⟩ := h
  exact ⟨⟨d, rfl, ha⟩, nofun, hr.reader⟩

lemma Twin.onError (err : Error) : Twin (c.onError err) (c'.onError err) := by
  obtain ⟨⟨d, rfl, ha⟩, hr⟩ := h
  exact ⟨⟨d, rfl, ha⟩, nofun, hr.reader⟩

lemma Twin.closeResponse : Twin c.closeResponse c'.closeResponse := by
  obtain ⟨⟨d, rfl, ha⟩, hd⟩ := h
  unfold closeResponse
  by_cases hr : c.req = .closed
  · have hr' : (c.setDecoder d).req = .closed := hr
    rw [if_pos hr, if_pos hr']
    exact ⟨⟨d, rfl, ha⟩, nofun, hd.reader⟩
  · have hr' : (c.setDecoder d).req ≠ .closed := hr
    rw [if_neg hr, if_neg hr']
    exact ⟨⟨d, rfl, ha⟩, nofun, hd.reader⟩

lemma Twin.onWholeRequestSent : Twin c.onWholeRequestSent c'.onWholeRequestSent := by
  obtain ⟨⟨d, rfl, ha⟩, hr⟩ := h
  unfold onWholeRequestSent
  dsimp only [setDecoder]
  split
  · exact ⟨⟨d, rfl, ha⟩, nofun, hr.reader⟩
  · cases c.res with
    | head | body => exact ⟨⟨d, rfl, ha⟩, hr.reading, hr.reader⟩
    | closed => exact ⟨⟨d, rfl, ha⟩, nofun, hr.reader⟩

/-- Both clients have decoded a piece of the body. -/
lemma Twin.afterDecode (decoded : Bytes) (result : Http1.ChunkResult) :
    Twin (c.afterDecode data decoded result env) (c'.afterDecode data decoded result env) := by
  obtain ⟨⟨d, rfl, ha⟩, hr⟩ := h
  unfold afterDecode
  cases result with
  | error => exact .closeClient ⟨⟨d, rfl, ha⟩, hr.reading, hr.reader⟩
  | incomplete =>
    dsimp only
    split
    · exact .updateReadState ⟨⟨d, rfl, ha⟩, hr.reading, hr.reader⟩
    · exact .closeClient ⟨⟨d, rfl, ha⟩, hr.reading, hr.reader⟩
  | complete left => exact .closeResponse ⟨⟨d, rfl, ha⟩, hr.reading, hr.reader⟩

/-- Both clients take a piece of the body. -/
lemma Twin.onBodyChunked : Twin (c.onBodyChunked data env) (c'.onBodyChunked data env) := by
  obtain ⟨⟨d, rfl, ha⟩, hr⟩ := h
  unfold onBodyChunked
  split
  · exact ⟨⟨d, rfl, ha⟩, hr.reading, hr.reader⟩
  · obtain ⟨hn, he⟩ := Http1.decodeChunked_alike ha data
    show Twin (Client.afterDecode { c.unlinkTimer with decoder := (decodeChunked c.decoder data).1 }
        data (decodeChunked c.decoder data).2.1 (decodeChunked c.decoder data).2.2 env)
      (Client.afterDecode { c.unlinkTimer with decoder := (decodeChunked d data).1 }
        data (decodeChunked d data).2.1 (decodeChunked d data).2.2 env)
    rw [← he]
    refine .afterDecode ?_ _ _
    exact ⟨⟨_, rfl, hn⟩, hr.reading, hr.reader⟩

lemma Twin.onReadError (isClosed : Bool) :
    Twin (c.onReadError .onBodyChunked isClosed) (c'.onReadError .onBodyChunked isClosed) := by
  obtain ⟨⟨d, rfl, ha⟩, hr⟩ := h
  have hd : d.isInData = c.decoder.isInData := by
    unfold Decoder.isInData
    rw [ha.state]
  unfold onReadError
  dsimp only [unlinkTimer, setDecoder]
  rw [hd]
  split
  · exact .closeResponse ⟨⟨d, rfl, ha⟩, hr.reading, hr.reader⟩
  · exact .onError ⟨⟨d, rfl, ha⟩, hr.reading, hr.reader⟩ _

lemma Twin.reqBodySendComplete (reply : Option (Bytes × Bool)) :
    Twin (c.reqBodySendComplete reply) (c'.reqBodySendComplete reply) := by
  obtain ⟨⟨d, rfl, ha⟩, hr⟩ := h
  have he : ∀ {c1 c1' : Client}, Twin c1 c1' →
      Twin (if c.isEndStream then c1.onWholeRequestSent else c1)
        (if c.isEndStream then c1'.onWholeRequestSent else c1') := by
    intro c1 c1' h
    split
    · exact h.onWholeRequestSent
    · exact h
  unfold reqBodySendComplete
  dsimp only [setDecoder]
  apply he
  split
  · cases reply <;> exact ⟨⟨d, rfl, ha⟩, hr.reading, hr.reader⟩
  · exact ⟨⟨d, rfl, ha⟩, hr.reading, hr.reader⟩

/-- The same happens to both clients. -/
lemma twin_step {e : Event} {c1 : Client} (hstep : step parse c e = some c1) :
    ∃ c1', step parse c' e = some c1' ∧ Twin c1 c1' := by
  obtain ⟨⟨d, rfl, ha⟩, hr⟩ := h
  unfold step at hstep ⊢
  by_cases hg : c.disposal.isSome = true
  · rw [if_pos hg] at hstep
    cases hstep
  have hg' : ¬ (c.setDecoder d).disposal.isSome = true := hg
  rw [if_neg hg] at hstep
  rw [if_neg hg']
  cases e with
  | read data env =>
    cases hd : c.reading with
    | none =>
      rw [hd] at hstep
      cases hstep
    | some cb =>
      obtain rfl := hr.reading cb hd
      have hr' : (c.setDecoder d).reading = some .onBodyChunked := hd
      rw [hd] at hstep
      rw [hr']
      cases hstep
      refine ⟨_, rfl, ?_⟩
      have hn : Twin { c with input := c.input ++ data, received := c.received ++ data }
          (setDecoder { c with input := c.input ++ data, received := c.received ++ data } d) :=
        ⟨⟨d, rfl, ha⟩, hr.reading, hr.reader⟩
      exact hn.onBodyChunked
  | readError isClosed =>
    obtain ⟨cb, hd, rfl⟩ := map_eq_some_iff.1 hstep
    obtain rfl := hr.reading cb hd
    refine ⟨_, map_eq_some_iff.2 ⟨_, hd, rfl⟩, ?_⟩
    exact .onReadError ⟨⟨d, rfl, ha⟩, hr⟩ isClosed
  | splice result env =>
    obtain ⟨⟨hrd, -⟩, -⟩ := ite_none_right_eq_some.1 hstep
    cases hr.reader _ hrd
  | writeComplete reply =>
    dsimp only at hstep ⊢
    split at hstep
    · cases hstep
    · next he =>
      have he' : ¬ (reply.isSome = true ∧ (c.setDecoder d).isEndStream = true) := he
      rw [if_neg he']
      obtain ⟨cb, hw, rfl⟩ := map_eq_some_iff.1 hstep
      refine ⟨_, map_eq_some_iff.2 ⟨_, hw, rfl⟩, ?_⟩
      cases cb with
      | onWholeRequestSent =>
        exact .onWholeRequestSent ⟨⟨d, rfl, ha⟩, hr.reading, hr.reader⟩
      | onHeaderSentWait100 =>
        unfold onWriteComplete onHeaderSentWait100
        dsimp only [setDecoder]
        split <;> exact ⟨⟨d, rfl, ha⟩, hr.reading, hr.reader⟩
      | reqBodySendComplete =>
        refine .reqBodySendComplete ?_ reply
        exact ⟨⟨d, rfl, ha⟩, hr.reading, hr.reader⟩
  | writeError =>
    obtain ⟨cb, hw, rfl⟩ := map_eq_some_iff.1 hstep
    refine ⟨_, map_eq_some_iff.2 ⟨_, hw, rfl⟩, ?_⟩
    cases cb <;> exact ⟨⟨d, rfl, ha⟩, nofun, hr.reader⟩
  | timeout =>
    obtain ⟨ht, ⟨⟩⟩ := ite_none_right_eq_some.1 hstep
    refine ⟨_, if_pos ht, ?_⟩
    unfold onTimeout
    dsimp only [unlinkTimer, setDecoder]
    cases c.timerCb <;> exact ⟨⟨d, rfl, ha⟩, nofun, hr.reader⟩
  | writeReq chunk isEndStream =>
    obtain ⟨hwr, ⟨⟩⟩ := ite_none_right_eq_some.1 hstep
    refine ⟨_, if_pos hwr, ?_⟩
    exact ⟨⟨d, rfl, ha⟩, hr.reading, hr.reader⟩
  | updateWindow =>
    obtain ⟨hi, ⟨⟩⟩ := ite_none_right_eq_some.1 hstep
    refine ⟨_, if_pos hi, ?_⟩
    exact .updateReadState ⟨⟨d, rfl, ha⟩, hr⟩
  | cancel =>
    cases hstep
    exact ⟨_, rfl, ⟨d, rfl, ha⟩, nofun, hr.reader⟩

lemma twin_run {events : List Event} {c1 : Client}
    (hr : run parse c events = some c1) : ∃ c1', run parse c' events = some c1' ∧ Twin c1 c1' := by
  induction events generalizing c c' with
  | nil =>
    cases hr
    exact ⟨c', rfl, h⟩
  | cons e events ih =>
    unfold run at hr ⊢
    rw [foldlM_cons] at hr
    obtain ⟨c2, hstep, hr⟩ := bind_eq_some_iff.1 hr
    obtain ⟨c2', hs', ht⟩ := twin_step h hstep
    rw [foldlM_cons, hs']
    exact ih ht hr

omit h

/-! ## The body after the head -/

variable {h : Head} {rlen : ℕ} {keep : Bool}

/-- The client after the head of a chunked response. -/
def Client.beginChunks (c : Client) (h : Head) (rlen : ℕ) : Client :=
  { c with
    calls := c.calls ++ [.onHead none (some h)]
    onBodyPiped := false
    input := c.input.drop rlen
    timerCb := .onBodyTimeout
    reading := some .onBodyChunked }

lemma deliverHead_chunked (hr : c.res = .body) : c.deliverHead h rlen .onBodyChunked env =
      if env.onHeadOk then (c.beginChunks h rlen).onBodyChunked (c.input.drop rlen) env
      else Client.closeClient
        { c with calls := c.calls ++ [.onHead none (some h)], doKeepalive := false } := by
  have hp : ∀ c : Client, c.offersPipe .onBodyChunked = false := by
    intro c
    unfold offersPipe
    rw [show (ReadCb.onBodyChunked == ReadCb.onBodyContentLength) = false from rfl, Bool.and_false,
      Bool.false_and]
  have hn : c.res ≠ .closed := by
    rw [hr]
    decide
  unfold deliverHead
  dsimp only [call]
  rw [if_neg hn, if_neg hn, hp, Bool.false_and]
  cases env.onHeadOk with
  | true | false => rfl

lemma startBody_chunked (hc : c.AwaitsHead h) : c.startBody h rlen ⟨keep, d, .onBodyChunked⟩ env =
      Client.deliverHead { c with decoder := d, doKeepalive := keep, res := .body } h rlen
        .onBodyChunked env := by
  unfold startBody
  rw [hc.body]
  rw [show (ReadCb.onBodyChunked != ReadCb.onBodyUntilClose) = true from rfl, Bool.or_true,
    Bool.and_true]
  rfl

lemma twin_startBody {e : Decoder} (hc : c.AwaitsHead h) (ha : d.Alike e) :
    Twin (c.startBody h rlen ⟨keep, d, .onBodyChunked⟩ env)
      (c.startBody h rlen ⟨keep, e, .onBodyChunked⟩ env) := by
  have hr : ∀ cb, c.reader = some cb → cb = .onBodyChunked := by
    rw [hc.reader]
    exact nofun
  rw [startBody_chunked hc, startBody_chunked hc, deliverHead_chunked rfl, deliverHead_chunked rfl]
  split
  · refine .onBodyChunked ⟨⟨e, rfl, ha⟩, ?_, hr⟩
    rintro cb ⟨⟩
    rfl
  · exact ⟨⟨e, rfl, ha⟩, nofun, hr⟩

/-- The call for the first piece of a chunked body. -/
def chunkCall (raw : Bytes) : Bytes × Http1.ChunkResult → Call
  | (_, .error) => .onBody (some .parseFailed) raw
  | (data, .incomplete) => .onBody none data
  | (data, .complete _) => .onBody (some .isEos) data

lemma onBodyChunked_calls (hd : data ≠ []) : (c.onBodyChunked data env).calls =
      c.calls ++ [chunkCall data (decodeChunked c.decoder data).2] := by
  have hc : ∀ c : Client, c.closeResponse.calls = c.calls := by
    intro c
    unfold closeResponse
    split
    · rfl
    · rfl
  unfold onBodyChunked
  rw [if_neg hd]
  show (afterDecode { c.unlinkTimer with decoder := (decodeChunked c.decoder data).1 }
    data (decodeChunked c.decoder data).2.1 (decodeChunked c.decoder data).2.2 env).calls = _
  unfold afterDecode chunkCall
  cases (decodeChunked c.decoder data).2 with
  | mk decoded result =>
    cases result with
    | error => rfl
    | incomplete =>
      dsimp only
      split
      · unfold updateReadState
        split
        · rfl
        · split
          · rfl
          · rfl
      · rfl
    | complete left =>
      rw [hc]
      rfl

lemma startBody_calls (hc : c.AwaitsHead h) (ho : env.onHeadOk = true)
    (hi : c.input.drop rlen ≠ []) : (c.startBody h rlen ⟨keep, d, .onBodyChunked⟩ env).calls =
      c.calls ++ [.onHead none (some h)] ++
        [chunkCall (c.input.drop rlen) (decodeChunked d (c.input.drop rlen)).2] := by
  rw [startBody_chunked hc, deliverHead_chunked rfl, if_pos ho, onBodyChunked_calls hi]
  rfl

/-! ## The size of the first chunk -/

/-- Octets of a chunk. -/
lemma feed_chunk (hs : d.state = .data) (hd : data.length < d.bytesLeftInChunk) :
    Incremental.feed Decoder.step d data =
      ({ d with bytesLeftInChunk := d.bytesLeftInChunk - data.length }, data, .more) := by
  induction data generalizing d with
  | nil => rfl
  | cons ch data ih =>
    rw [length_cons] at hd
    have hstep : d.step ch = .next { d with bytesLeftInChunk := d.bytesLeftInChunk - 1 } [ch] := by
      unfold Decoder.step
      rw [hs]
      dsimp only
      rw [if_neg (by omega), if_neg (by omega)]
    have hr := ih (d := { d with bytesLeftInChunk := d.bytesLeftInChunk - 1 }) hs
      (Nat.lt_sub_iff_add_lt.2 hd)
    rw [feed_next hstep, hr]
    rw [Nat.sub_sub, Nat.add_comm 1 data.length]
    rfl

/-- A body of one octet. -/
def oneOctet : Bytes := ascii "1\r\nA\r\n0\r\n\r\n"

/-- With a length left in the decoder, the first chunk does not end. -/
lemma decodeChunked_oneOctet {n : ℕ} (hn : n * 16 % 2 ^ 64 ≠ 0) :
    (decodeChunked { Decoder.zero with bytesLeftInChunk := n, consumeTrailer := true }
      oneOctet).2 = (ascii "A\r\n0\r\n\r\n", .incomplete) := by
  have hl : 17 ≤ (n * 16 + 1) % 2 ^ 64 := by omega
  generalize hf : (n * 16 + 1) % 2 ^ 64 = left at hl
  have hd : Decoder.step ⟨n, true, 0, .size, 11, 0⟩ 49 =
      .next ⟨left, true, 1, .size, 11, 0⟩ [] := by
    rw [← hf]
    rfl
  have hr : Decoder.step ⟨left, true, 1, .size, 11, 0⟩ 13 =
      .next ⟨left, true, 0, .ext, 11, 0⟩ [] := rfl
  have hi : Decoder.step ⟨left, true, 0, .ext, 11, 0⟩ 10 =
      .next ⟨left, true, 0, .data, 11, 0⟩ [] := by
    show Decoder.stepExt _ _ = _
    unfold Decoder.stepExt
    rw [if_pos rfl, if_neg (show left ≠ 0 by omega)]
  have ht : feed Decoder.step ⟨left, true, 0, .data, 11, 0⟩ (ascii "A\r\n0\r\n\r\n") =
        (⟨left - 8, true, 0, .data, 11, 0⟩, ascii "A\r\n0\r\n\r\n", .more) :=
    feed_chunk rfl (show 8 < left by omega)
  have he : feed Decoder.step ⟨n, true, 0, .size, 11, 0⟩ oneOctet =
      (⟨left - 8, true, 0, .data, 11, 0⟩, ascii "A\r\n0\r\n\r\n", .more) := by
    show feed Decoder.step _ (49 :: 13 :: 10 :: ascii "A\r\n0\r\n\r\n") = _
    rw [feed_next hd, feed_next hr, feed_next hi, ht]
    rfl
  unfold decodeChunked
  dsimp only [Decoder.zero]
  rw [show 0 + oneOctet.length = 11 from rfl, he]
  rfl

/-! ## The theorem -/

/-- A client that waits for the head, with these octets in the buffer. -/
def waiting (input : Bytes) : Client := { Client.new plainRequest with input }

lemma awaitsHead_waiting (input : Bytes) (hs : h.status ≠ 204 ∧ h.status ≠ 304) :
    (waiting input).AwaitsHead h := by
  refine ⟨rfl, rfl, rfl, ?_⟩
  show (false || h.status == 204 || h.status == 304) = false
  rw [beq_false_of_ne hs.1, beq_false_of_ne hs.2]
  rfl

/-- A head that is not accepted is not given to the application. -/
lemma isReadable_of_decodesBody (hs : h.status ≠ 204 ∧ h.status ≠ 304)
    (hd : DecodesBody h) : h.fields.all Field.isReadable = true := by
  have hc := awaitsHead_waiting [] hs
  obtain ⟨keep, hu⟩ := hd (fun _ => .error) (waiting []) 0 { acceptAll with onHeadOk := false } hc
  obtain ⟨c', hr, hcs⟩ := hu [] _ rfl
  cases hr
  rw [startBody_chunked hc, deliverHead_chunked rfl] at hcs
  rw [← recognize_isOk]
  cases he : recognize h .zero with
  | ok r => exact ⟨r, rfl⟩
  | error e =>
    unfold onFinalHead at hcs
    rw [if_neg (by rw [hc.tunnel]; decide), hc.decoder, he] at hcs
    cases hcs

/-- What the head leaves in the decoder. -/
lemma onFinalHead_chunked (hc : c.AwaitsHead h) (hh : h.isChunked = true)
    (he : h.fields.all Field.isReadable = true) :
    ∃ keep, ∀ rlen env, c.onFinalHead h rlen env = c.startBody h rlen
      ⟨keep, { zeroFilled with bytesLeftInChunk := h.contentLength.getD 0 }, .onBodyChunked⟩ env := by
  obtain ⟨r, hr⟩ := (recognize_isOk h).2 he
  have ha := agrees_recognize hr
  rw [hh] at ha
  obtain ⟨keep, decoder, reader⟩ := r
  obtain rfl : reader = .onBodyChunked := ha.reader
  obtain rfl : decoder = _ := ha.decoder
  refine ⟨keep, fun rlen env => ?_⟩
  unfold onFinalHead
  rw [if_neg (by rw [hc.tunnel]; decide), hc.decoder, hr]
  rfl

/-- The heads with which the application gets the chunks of the response. -/
theorem chunkedBody_iff (h : Head) (hchunked : h.isChunked = true)
    (hstatus : h.status ≠ 204 ∧ h.status ≠ 304) :
    DecodesBody h ↔ h.fields.all Field.isReadable = true ∧
      h.contentLength.getD 0 * 16 % 2 ^ 64 = 0 := by
  constructor
  · intro hd
    have hr := isReadable_of_decodesBody hstatus hd
    refine ⟨hr, ?_⟩
    by_contra hlen
    -- the body of one octet gives another piece
    have hc := awaitsHead_waiting oneOctet hstatus
    obtain ⟨keep, hru⟩ := hd (fun _ => .error) (waiting oneOctet) 0 acceptAll hc
    obtain ⟨c', hu, hs⟩ := hru [] _ rfl
    cases hu
    obtain ⟨keep', hf⟩ := onFinalHead_chunked hc hchunked hr
    have hi : (waiting oneOctet).input.drop 0 ≠ [] := by decide
    rw [hf, startBody_calls hc rfl hi, startBody_calls hc rfl hi] at hs
    have ha := append_cancel_left hs
    have hz : (decodeChunked zeroFilled oneOctet).2 = (ascii "A", .complete 0) := by
      rfl
    have ho := decodeChunked_oneOctet hlen
    have ha : [chunkCall oneOctet (decodeChunked
          { Decoder.zero with bytesLeftInChunk := h.contentLength.getD 0, consumeTrailer := true }
          oneOctet).2] = [chunkCall oneOctet (decodeChunked zeroFilled oneOctet).2] := ha
    rw [ho, hz] at ha
    cases ha
  · rintro ⟨hr, hlen⟩ parse c rlen env hc
    obtain ⟨keep, hf⟩ := onFinalHead_chunked hc hchunked hr
    refine ⟨keep, fun events c₀ hu => ?_⟩
    have hl : zeroFilled.Alike
        { zeroFilled with bytesLeftInChunk := h.contentLength.getD 0 } :=
      ⟨⟨rfl, rfl, rfl, .inr ⟨rfl, rfl, hlen.symm⟩⟩, rfl, rfl⟩
    obtain ⟨c', hr', ht⟩ := twin_run (twin_startBody hc hl) hu
    rw [hf]
    exact ⟨c', hr', ht.calls⟩

/-- A chunked response. -/
def chunkedHead : Head := ⟨1, 200, [⟨ascii "transfer-encoding", ascii "chunked"⟩]⟩

/-- Without a content-length the body is decoded. -/
theorem chunkedBody_iff_plain : DecodesBody chunkedHead :=
  (chunkedBody_iff chunkedHead rfl (by decide)).2 ⟨rfl, rfl⟩

/-- A chunked response with a content-length. -/
def chunkedHeadWithLength : Head :=
  ⟨1, 200, [⟨ascii "transfer-encoding", ascii "chunked"⟩, ⟨ascii "content-length", ascii "5"⟩]⟩

/-- The size of the first chunk is not 1, but 81. -/
theorem chunkedBody_with_length :
    ((waiting oneOctet).onFinalHead chunkedHeadWithLength 0 acceptAll).calls =
        [.onHead none (some chunkedHeadWithLength), .onBody none (ascii "A\r\n0\r\n\r\n")] ∧
      (decodeChunked zeroFilled oneOctet).2 = (ascii "A", .complete 0) ∧
      ¬ DecodesBody chunkedHeadWithLength := by
  have hc : ((waiting oneOctet).onFinalHead chunkedHeadWithLength 0 acceptAll).calls =
      [.onHead none (some chunkedHeadWithLength), .onBody none (ascii "A\r\n0\r\n\r\n")] := by
    rfl
  refine ⟨hc, rfl, ?_⟩
  intro hd
  obtain ⟨keep, hu⟩ := hd (fun _ => .error) (waiting oneOctet) 0 acceptAll
    (awaitsHead_waiting oneOctet (by decide))
  obtain ⟨c', hr, he⟩ := hu [] _ rfl
  cases hr
  rw [hc] at he
  revert he
  cases keep with
  | true | false => decide

end Vhttp.Http1Client
