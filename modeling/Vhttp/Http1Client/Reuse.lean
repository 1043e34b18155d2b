import Vhttp.Http1Client.Heads

/-!
# Reuse of connections

The client returns its socket to the pool if the flag for keep-alive is set when it is closed. The
flag comes from the head of the response.

* `reuse_of_reach`: if no request is given up after such a head, and the head can be read, then the
  socket is only returned after the whole request and exactly one response.
* `reuse_after_timeout`: a timeout in the body returns the socket.
-/

namespace Vhttp.Http1Client

open List Option Client Bool
open Http1 (Decoder decodeChunked)
open Incremental (feed)

/-! ## Responses -/

/-- One whole response: informational responses, a head and its body. `xs` is what was received
when the parser took the head. -/
inductive WholeResponse (parse : Parser) (isHead : Bool) : Bytes → Prop
  | informational {xs ys : Bytes} {h : Head} {n : ℕ} (hparse : parse xs = .head h n)
    (hstatus : h.isInformational = true) (hrest : WholeResponse parse isHead (xs.drop n ++ ys)) :
    WholeResponse parse isHead (xs ++ ys)
  | noBody {xs : Bytes} {h : Head} {n : ℕ} (hparse : parse xs = .head h n)
    (hstatus : h.isInformational = false)
    (hbody : (isHead || h.status == 204 || h.status == 304) = true) (hend : xs.drop n = []) :
    WholeResponse parse isHead xs
  | contentLength {xs ys : Bytes} {h : Head} {n : ℕ} (hparse : parse xs = .head h n)
    (hstatus : h.isInformational = false)
    (hbody : (isHead || h.status == 204 || h.status == 304) = false)
    (hchunked : h.isChunked = false) (hlength : h.contentLength = some (xs.drop n ++ ys).length) :
    WholeResponse parse isHead (xs ++ ys)
  | chunked {xs ys : Bytes} {h : Head} {n : ℕ} (hparse : parse xs = .head h n)
    (hstatus : h.isInformational = false)
    (hbody : (isHead || h.status == 204 || h.status == 304) = false)
    (hchunked : h.isChunked = true)
    (hend : (feed Decoder.step { Decoder.zero with consumeTrailer := true }
      (xs.drop n ++ ys)).2.2 = .done []) :
    WholeResponse parse isHead (xs ++ ys)

/-- The final head in the buffer, with what comes after it. -/
def finalHead (parse : Parser) : ℕ → Bytes → Option (Head × Bytes)
  | 0, _ => none
  | fuel + 1, xs =>
    match parse xs with
    | .head h n =>
      if h.isInformational then finalHead parse fuel (xs.drop n) else some (h, xs.drop n)
    | _ => none

/-- A head that can be read, or does not allow to keep the connection: nothing follows a response
without a body, and a content-length that comes with the chunked coding does no harm. -/
def Client.canKeep (c : Client) (h : Head) (rest : Bytes) : Prop :=
  tunnelIsReady c.upgradeTo h.status = false →
    match recognize h c.decoder with
    | .error (_, r) => r.doKeepalive = false
    | .ok r =>
      r.doKeepalive = true →
        if c.hasNoBody h then rest = []
        else r.reader = .onBodyChunked → r.decoder.bytesLeftInChunk * 16 % 2 ^ 64 = 0

/-- The request has been sent when this callback is called. -/
def Client.isLastWrite (c : Client) : WriteCb → Prop
  | .onWholeRequestSent => True
  | .reqBodySendComplete => c.isEndStream = true
  | .onHeaderSentWait100 => False

/-- Nothing goes wrong after the head of a response that allows to keep the connection. -/
def Clean (parse : Parser) (c : Client) : Event → Prop
  | .read data _ =>
    c.res = .head → ∀ h rest,
      finalHead parse ((c.input ++ data).length + 1) (c.input ++ data) = some (h, rest) →
        c.canKeep h rest
  | .readError isClosed =>
    c.doKeepalive = true → c.reading = some .onBodyChunked ∧ isClosed = true ∧
      c.decoder.isInData = false ∧ c.seenAtLeastOneChunk = true
  | .splice .failed _ => c.doKeepalive = false
  | .writeComplete _ => ∀ cb, c.writing = some cb → c.isLastWrite cb →
      c.upgradeTo.isSome = true → c.res = .body → c.doKeepalive = false
  | .writeError => c.doKeepalive = false
  | .timeout => c.doKeepalive = false
  | _ => True

/-! ## The invariant -/

/-- The callbacks that go on with a body, by the one that begins with it. -/
def ReadCb.continues : ReadCb → ReadCb → Prop
  | .onBodyContentLength, cb => cb = .onBodyContentLength ∨ cb = .onBodyToPipe
  | reader, cb => cb = reader

/-- These octets are the rest of the body. -/
def ReadCb.completes (reader : ReadCb) (d : Decoder) (ys : Bytes) : Prop :=
  match reader with
  | .onBodyContentLength => ys.length = d.bytesLeftInChunk
  | _ => (feed Decoder.step d ys).2.2 = .done []

/-- The body has an end, and the response is whole once what is missing has come; `data` has been
received before. -/
structure Misses (parse : Parser) (c : Client) (reader : ReadCb) (data : Bytes) : Prop where
  hasEnd : reader = .onBodyContentLength ∨ reader = .onBodyChunked
  whole : ∀ ys, reader.completes c.decoder (data ++ ys) →
    WholeResponse parse c.methodIsHead (c.received ++ ys)

/-- The client reads what is missing. -/
structure Awaits (parse : Parser) (c : Client) (reader : ReadCb) (data : Bytes) : Prop extends
    Misses parse c reader data where
  reading : ∀ cb, c.reading = some cb ∨ c.reader = some cb → reader.continues cb

/-- A client that waits for the head. A response in the buffer is the rest of what it has
received. -/
structure InHead (parse : Parser) (c : Client) : Prop where
  alive : c.disposal = none
  res : c.res = .head
  reading : c.reading = some .onHead
  reader : c.reader = none
  decoder : c.decoder = .zero
  keep : c.doKeepalive = false
  whole : ∀ ys, WholeResponse parse c.methodIsHead (c.input ++ ys) →
    WholeResponse parse c.methodIsHead (c.received ++ ys)

/-- A client that reads the body. -/
structure InBody (c : Client) : Prop where
  alive : c.disposal = none
  res : c.res = .body
  reading : c.reading ≠ some .onHead
  reader : c.reader ≠ some .onHead

/-- What the client knows about the response. -/
inductive Sound (parse : Parser) (c : Client) : Prop
  | head (h : InHead parse c)
  | body (h : InBody c)
    (hwhole : c.doKeepalive = true → ∃ reader, Awaits parse c reader [])
  | closed (alive : c.disposal = none) (hres : c.res = .closed) (hreading : c.reading = none)
    (hwhole : c.doKeepalive = true → WholeResponse parse c.methodIsHead c.received)
  | disposed (h : c.disposal = some .returned →
      c.req = .closed ∧ WholeResponse parse c.methodIsHead c.received)
    (hgone : c.disposal ≠ none)

/-- The parts of the client that the invariant is about are the same. -/
structure SameResponse (c c' : Client) : Prop where
  disposal : c'.disposal = c.disposal
  res : c'.res = c.res
  reading : c'.reading = c.reading
  reader : c'.reader = c.reader
  decoder : c'.decoder = c.decoder
  input : c'.input = c.input
  methodIsHead : c'.methodIsHead = c.methodIsHead
  received : c'.received = c.received
  upgradeTo : c'.upgradeTo = c.upgradeTo
  doKeepalive : c'.doKeepalive = true → c.doKeepalive = true

variable {parse : Parser} {c c' : Client} {data : Bytes} {env : Env}

variable {cb reader : ReadCb} {reply : Option (Bytes × Bool)}

/-- A change of the other parts. -/
lemma SameResponse.other (c : Client) (req useExpect writing timer timerCb bodyBuf calls) :
    SameResponse c { c with req, useExpect, writing, timer, timerCb, bodyBuf, calls } :=
  ⟨rfl, rfl, rfl, rfl, rfl, rfl, rfl, rfl, rfl, id⟩

lemma Awaits.of_same (h : Awaits parse c reader data) (hs : SameResponse c c') :
    Awaits parse c' reader data := by
  refine ⟨⟨h.hasEnd, ?_⟩, ?_⟩
  · rw [hs.decoder, hs.methodIsHead, hs.received]
    exact h.whole
  · rw [hs.reading, hs.reader]
    exact h.reading

lemma InHead.of_same (h : InHead parse c) (hs : SameResponse c c') : InHead parse c' := by
  refine ⟨hs.disposal.trans h.alive, hs.res.trans h.res, hs.reading.trans h.reading,
    hs.reader.trans h.reader, hs.decoder.trans h.decoder, ?_, ?_⟩
  · exact eq_false_iff.2 fun hk => eq_false_iff.1 h.keep (hs.doKeepalive hk)
  · rw [hs.methodIsHead, hs.received, hs.input]
    exact h.whole

lemma InBody.of_same (h : InBody c) (hs : SameResponse c c') : InBody c' := by
  refine ⟨hs.disposal.trans h.alive, hs.res.trans h.res, ?_, ?_⟩
  · rw [hs.reading]
    exact h.reading
  · rw [hs.reader]
    exact h.reader

lemma Sound.of_same (h : Sound parse c) (alive : c.disposal = none) (hs : SameResponse c c') :
    Sound parse c' := by
  cases h with
  | head h => exact .head (h.of_same hs)
  | body h hw =>
    refine .body (h.of_same hs) ?_
    intro hk
    obtain ⟨reader, h⟩ := hw (hs.doKeepalive hk)
    exact ⟨reader, h.of_same hs⟩
  | closed alive hr hd hw =>
    refine .closed (hs.disposal.trans alive) (hs.res.trans hr) (hs.reading.trans hd) ?_
    rw [hs.methodIsHead, hs.received]
    exact fun hk => hw (hs.doKeepalive hk)
  | disposed h hg => exact absurd alive hg

/-! ## The end of a request -/

lemma sound_closeClient
    (h : c.doKeepalive = true → c.req = .closed ∧ WholeResponse parse c.methodIsHead c.received) :
    Sound parse c.closeClient := by
  refine .disposed ?_ nofun
  intro hr
  apply h
  unfold closeClient at hr
  cases hk : c.doKeepalive with
  | true => rfl
  | false =>
    rw [hk, Bool.and_false] at hr
    cases hr

/-- Without keep-alive the socket is closed. -/
lemma sound_closeClient_of_not_keep (h : c.doKeepalive = false) : Sound parse c.closeClient :=
  sound_closeClient fun hk => absurd hk (eq_false_iff.1 h)

lemma sound_onError
    (h : c.doKeepalive = true → c.req = .closed ∧ WholeResponse parse c.methodIsHead c.received)
    (err : Error) : Sound parse (c.onError err) := by
  unfold onError
  exact sound_closeClient h

lemma sound_onError_of_not_keep (h : c.doKeepalive = false) (err : Error) :
    Sound parse (c.onError err) :=
  sound_onError (fun hk => absurd hk (eq_false_iff.1 h)) err

/-- After the last octet of the response. -/
lemma sound_closeResponse (alive : c.disposal = none) (hr : c.res = .closed)
    (h : c.doKeepalive = true → WholeResponse parse c.methodIsHead c.received) :
    Sound parse c.closeResponse := by
  unfold closeResponse
  split
  · next he => exact sound_closeClient fun hk => ⟨he, h hk⟩
  · exact .closed alive hr rfl h

/-! ## The body -/

lemma Awaits.updateReadState (h : Awaits parse c reader data) :
    Awaits parse c.updateReadState reader data := by
  obtain ⟨-, -, hd, hm, hr, -⟩ := c.updateReadState_fields
  refine ⟨⟨h.hasEnd, ?_⟩, ?_⟩
  · rw [hd, hm, hr]
    exact h.whole
  · rintro cb (hc | hc)
    · exact h.reading cb ((c.updateReadState_readers cb).1 hc)
    · exact h.reading cb ((c.updateReadState_readers cb).2 hc)

/-- The client goes on with the body. -/
lemma sound_updateReadState (hb : InBody c)
    (hw : c.doKeepalive = true → ∃ reader, Awaits parse c reader []) :
    Sound parse c.updateReadState := by
  obtain ⟨hd, hr, -, -, -, hk⟩ := c.updateReadState_fields
  refine .body ⟨hd.trans hb.alive, hr.trans hb.res, ?_, ?_⟩ ?_
  · intro h
    rcases (c.updateReadState_readers .onHead).1 h with h | h
    · exact hb.reading h
    · exact hb.reader h
  · intro h
    rcases (c.updateReadState_readers .onHead).2 h with h | h
    · exact hb.reading h
    · exact hb.reader h
  · rw [hk]
    intro hkp
    obtain ⟨reader, h⟩ := hw hkp
    exact ⟨reader, h.updateReadState⟩

lemma sound_onBodyUntilClose (h : InBody c) (hk : c.doKeepalive = false) :
    Sound parse (c.onBodyUntilClose data env) := by
  have hn : ∀ {p : Prop}, c.doKeepalive = true → p := fun h => absurd h (eq_false_iff.1 hk)
  unfold onBodyUntilClose
  split
  · exact .body ⟨h.alive, h.res, h.reading, h.reader⟩ hn
  · split
    · exact sound_updateReadState ⟨h.alive, h.res, h.reading, h.reader⟩ hn
    · exact sound_closeClient_of_not_keep hk

lemma sound_continueContentLength (h : InBody c)
    (hw : c.doKeepalive = true → Awaits parse c .onBodyContentLength []) :
    Sound parse c.continueContentLength := by
  unfold continueContentLength
  split
  · -- the rest goes to the pipe
    have hs : updateReadState { c with reader := some .onBodyToPipe } =
        { c with
          reader := some .onBodyToPipe
          reading := some .onBodyToPipe
          timer := true } := by
      unfold updateReadState
      rfl
    rw [hs]
    refine .body ⟨h.alive, h.res, nofun, nofun⟩ fun hk =>
      ⟨.onBodyContentLength, ⟨.inl rfl, (hw hk).whole⟩, ?_⟩
    rintro cb (hc | hc) <;> exact .inr (some.inj hc).symm
  · exact sound_updateReadState h fun hk => ⟨_, hw hk⟩

/-- A piece of a body of known length; what is missing includes it. -/
lemma sound_onBodyContentLength (h : InBody c)
    (hw : c.doKeepalive = true → Awaits parse c .onBodyContentLength data) :
    Sound parse (c.onBodyContentLength data env) := by
  unfold onBodyContentLength
  dsimp only [unlinkTimer]
  split
  · split
    · next hl =>
      -- the last piece, with nothing after it if the connection is kept
      unfold finishContentLength
      refine sound_closeResponse h.alive rfl ?_
      intro hk
      have hf : (c.doKeepalive && decide (data.length ≤ c.decoder.bytesLeftInChunk)) = true :=
        hk
      rw [and_eq_true, decide_eq_true_eq] at hf
      obtain ⟨hk, hle⟩ := hf
      have he := (hw hk).whole [] (by
        rw [append_nil]
        exact Nat.le_antisymm hle hl)
      rw [append_nil] at he
      exact he
    · next hm =>
      split
      · refine sound_continueContentLength ⟨h.alive, h.res, h.reading, h.reader⟩ fun hk =>
          ⟨⟨.inl rfl, fun ys hy => (hw hk).whole ys ?_⟩, (hw hk).reading⟩
        have hy : ys.length = c.decoder.bytesLeftInChunk - data.length := hy
        show (data ++ ys).length = c.decoder.bytesLeftInChunk
        rw [length_append, hy]
        omega
      · exact sound_closeClient_of_not_keep rfl
  · next hn =>
    obtain ⟨hd, -⟩ := not_or.1 hn
    have hd : data = [] := not_not.1 hd
    subst hd
    refine sound_continueContentLength ⟨h.alive, h.res, h.reading, h.reader⟩ fun hk => ?_
    exact (hw hk).of_same (.other ..)

/-- A piece of a chunked body has been decoded. -/
lemma sound_afterDecode {d : Decoder} {decoded : Bytes} {result : Http1.ChunkResult}
    (h : InBody c) (hd : decodeChunked d data = (c.decoder, decoded, result))
    (hw : c.doKeepalive = true → Awaits parse { c with decoder := d } .onBodyChunked data) :
    Sound parse (c.afterDecode data decoded result env) := by
  unfold afterDecode
  cases result with
  | error => exact sound_closeClient_of_not_keep rfl
  | incomplete =>
    dsimp only
    split
    · refine sound_updateReadState ⟨h.alive, h.res, h.reading, h.reader⟩ fun hk =>
        ⟨_, ⟨.inr rfl, fun ys hy => (hw hk).whole ys ?_⟩, (hw hk).reading⟩
      show (feed Decoder.step d (data ++ ys)).2.2 = .done []
      rw [Http1.feed_of_incomplete hd]
      exact hy
    · exact sound_closeClient_of_not_keep rfl
  | complete left =>
    refine sound_closeResponse h.alive rfl ?_
    intro hk
    have hf : (c.doKeepalive && left == 0) = true := hk
    rw [and_eq_true, beq_iff_eq] at hf
    obtain ⟨hk, hl⟩ := hf
    obtain ⟨rest, hr, hfe⟩ := Http1.feed_of_complete hd
    have hn : rest = [] := length_eq_zero_iff.1 (hr.trans hl)
    have he := (hw hk).whole [] (by
      show (feed Decoder.step d (data ++ [])).2.2 = .done []
      rw [append_nil, hfe, hn])
    rw [append_nil] at he
    exact he

/-- A piece of a chunked body. -/
lemma sound_onBodyChunked (h : InBody c)
    (hw : c.doKeepalive = true → Awaits parse c .onBodyChunked data) :
    Sound parse (c.onBodyChunked data env) := by
  unfold onBodyChunked
  dsimp only [unlinkTimer]
  split
  · next ht =>
    subst ht
    refine .body ⟨h.alive, h.res, h.reading, h.reader⟩ fun hk =>
      ⟨.onBodyChunked, ?_⟩
    exact (hw hk).of_same (.other ..)
  · generalize hd : decodeChunked c.decoder data = x
    obtain ⟨d, decoded, result⟩ := x
    refine sound_afterDecode ⟨h.alive, h.res, h.reading, h.reader⟩ hd fun hk => ?_
    exact (hw hk).of_same (.other ..)

/-- What the pipe has taken. -/
lemma sound_onBodyToPipe {splice : Client.Splice} (h : InBody c)
    (hs : c.canSplice splice = true) (hf : splice = .failed → c.doKeepalive = false)
    (hw : c.doKeepalive = true → Awaits parse c .onBodyContentLength []) :
    Sound parse (c.onBodyToPipe splice env) := by
  unfold onBodyToPipe
  cases splice with
  | again =>
    refine sound_updateReadState ⟨h.alive, h.res, nofun, h.reader⟩ fun hk =>
      ⟨_, ⟨.inl rfl, (hw hk).whole⟩, ?_⟩
    rintro cb (hc | hc)
    · cases hc
    · exact (hw hk).reading cb (.inr hc)
  | failed => exact sound_onError_of_not_keep (hf rfl) _
  | moved moved =>
    obtain ⟨-, hle⟩ : moved ≠ [] ∧ moved.length ≤ c.decoder.bytesLeftInChunk :=
      of_decide_eq_true hs
    -- what the pipe has taken is not missing any more
    have hr : c.doKeepalive = true → ∀ ys : Bytes,
        ys.length = c.decoder.bytesLeftInChunk - moved.length →
          WholeResponse parse c.methodIsHead (c.received ++ moved ++ ys) := by
      intro hk ys hy
      rw [append_assoc]
      apply (hw hk).whole
      show (moved ++ ys).length = c.decoder.bytesLeftInChunk
      rw [length_append]
      omega
    dsimp only
    by_cases hl : c.decoder.bytesLeftInChunk - moved.length = 0
    · rw [if_pos hl, if_pos hl, if_pos hl]
      refine sound_closeResponse h.alive rfl fun hk => ?_
      have he := hr hk [] hl.symm
      rw [append_nil] at he
      exact he
    · rw [if_neg hl, if_neg hl, if_neg hl]
      split
      · refine .body ⟨h.alive, h.res, nofun, h.reader⟩ fun hk => ⟨_, ⟨.inl rfl, hr hk⟩, ?_⟩
        rintro cb (hc | hc)
        · cases hc
        · exact (hw hk).reading cb (.inr hc)
      · exact sound_closeClient_of_not_keep rfl

/-- The callbacks for the body, but for the pipe. -/
lemma sound_onBody (h : InBody c) (hhd : cb ≠ .onHead) (hi : cb ≠ .onBodyToPipe)
    (hw : c.doKeepalive = true → Awaits parse c cb data) : Sound parse (c.onBody cb data env) := by
  unfold onBody
  cases cb with
  | onHead => exact absurd rfl hhd
  | onBodyToPipe => exact absurd rfl hi
  | onBodyUntilClose =>
    refine sound_onBodyUntilClose h (eq_false_iff.2 fun hk => ?_)
    rcases (hw hk).hasEnd with h | h
    · cases h
    · cases h
  | onBodyContentLength => exact sound_onBodyContentLength h hw
  | onBodyChunked => exact sound_onBodyChunked h hw

/-! ## The head -/

variable {h : Head} {rlen : ℕ} {r : Recognized}

/-- The body begins with what is in the buffer after the head. -/
lemma misses_body (hhd : InHead parse c) (hp : parse c.input = .head h rlen)
    (hs : h.isInformational = false) (hb : c.hasNoBody h = false)
    (hr : Agrees r h.isChunked h.contentLength) (hl : r.reader ≠ .onBodyUntilClose)
    (hf : r.reader = .onBodyChunked → r.decoder.bytesLeftInChunk * 16 % 2 ^ 64 = 0) :
    Misses parse { c with decoder := r.decoder } r.reader (c.input.drop rlen) := by
  have hc := hr.reader
  have hd := hr.decoder
  cases hh : h.isChunked with
  | true =>
    rw [hh] at hc hd
    refine ⟨.inr hc, fun ys hy => hhd.whole _ (.chunked hp hs hb hh ?_)⟩
    rw [hc] at hy
    -- the length that is left in the decoder is lost with the first digit
    have hi : Decoder.Similar { Decoder.zero with consumeTrailer := true } r.decoder := by
      refine ⟨?_, ?_, ?_, .inr ⟨rfl, rfl, (hf hc).symm⟩⟩
      · rw [hd]
      · rw [hd]
      · rw [hd]
    rw [(Http1.feed_similar hi _).2]
    exact hy
  | false =>
    rw [hh] at hc hd
    cases hlen : h.contentLength with
    | none =>
      rw [hlen] at hc
      exact absurd hc hl
    | some n =>
      rw [hlen] at hc hd
      refine ⟨.inl hc, fun ys hy =>
        hhd.whole _ (.contentLength hp hs hb hh ?_)⟩
      have hy : (c.input.drop rlen ++ ys).length = r.decoder.bytesLeftInChunk := by
        rw [hc] at hy
        exact hy
      rw [hy, hd, hlen]
      rfl

/-- A response with a body goes to the application. -/
lemma sound_deliverHead (alive : c.disposal = none) (hr : c.res = .body)
    (hd : c.reader = none) (hn : reader ≠ .onHead) (ho : reader ≠ .onBodyToPipe)
    (hw : c.doKeepalive = true → Misses parse c reader (c.input.drop rlen)) :
    Sound parse (c.deliverHead h rlen reader env) := by
  unfold deliverHead
  dsimp only [call]
  rw [if_neg (by rw [hr]; decide)]
  split
  · exact sound_closeClient_of_not_keep rfl
  · have hno : ∀ cb, c.reader ≠ some cb := by
      rw [hd]
      exact nofun
    refine sound_onBody ⟨alive, hr, ?_, hno _⟩ hn ho fun hk => ?_
    · exact fun h => hn (some.inj h)
    · refine ⟨⟨(hw hk).hasEnd, (hw hk).whole⟩, ?_⟩
      rintro cb (hc | hc)
      · obtain rfl := some.inj hc
        rcases (hw hk).hasEnd with rfl | rfl
        · exact .inl rfl
        · exact rfl
      · exact absurd hc (hno cb)

variable (hhd : InHead parse c) (hp : parse c.input = .head h rlen)
include hhd hp

lemma sound_startBody (hs : h.isInformational = false) (hn : r.reader ≠ .onHead)
    (ho : r.reader ≠ .onBodyToPipe)
    (hr : r.doKeepalive = true → Agrees r h.isChunked h.contentLength ∧
      if c.hasNoBody h then c.input.drop rlen = []
      else r.reader = .onBodyChunked → r.decoder.bytesLeftInChunk * 16 % 2 ^ 64 = 0) :
    Sound parse (c.startBody h rlen r env) := by
  unfold startBody
  cases hb : c.hasNoBody h with
  | true =>
    rw [hb] at hr
    refine sound_closeResponse hhd.alive rfl fun hk => ?_
    have hf : (r.doKeepalive && (true || r.reader != .onBodyUntilClose)) = true := hk
    rw [Bool.true_or, Bool.and_true] at hf
    have he := hhd.whole [] (by
      rw [append_nil]
      exact .noBody hp hs hb (hr hf).2)
    rw [append_nil] at he
    exact he
  | false =>
    rw [hb] at hr
    refine sound_deliverHead hhd.alive rfl hhd.reader hn ho ?_
    intro hk
    have hf : (r.doKeepalive && (false || r.reader != .onBodyUntilClose)) = true := hk
    rw [Bool.false_or, Bool.and_eq_true, bne_iff_ne] at hf
    obtain ⟨hk, hc⟩ := hf
    obtain ⟨he, hw⟩ := misses_body hhd hp hs hb (hr hk).1 hc (hr hk).2
    exact ⟨he, hw⟩

lemma sound_onFinalHead (hs : h.isInformational = false) (hg : c.canKeep h (c.input.drop rlen)) :
    Sound parse (c.onFinalHead h rlen env) := by
  unfold onFinalHead
  split
  · rw [hhd.keep]
    exact sound_startBody hhd hp hs nofun nofun nofun
  · next ht =>
    have hg := hg (eq_false_iff.2 ht)
    rw [hhd.decoder] at hg ⊢
    split
    · next err r hr =>
      rw [hr] at hg
      exact sound_onError_of_not_keep hg _
    · next r hr =>
      rw [hr] at hg
      have ha := agrees_recognize hr
      refine sound_startBody hhd hp hs ?_ ?_ fun hk => ⟨ha, hg hk⟩
      · rw [ha.reader]
        split
        · exact nofun
        · split <;> exact nofun
      · rw [ha.reader]
        split
        · exact nofun
        · split <;> exact nofun

/-- An informational response is taken from the buffer. -/
lemma InHead.consume (hs : h.isInformational = true) : InHead parse (c.consume rlen) := by
  refine ⟨hhd.alive, hhd.res, hhd.reading, hhd.reader, hhd.decoder, hhd.keep, ?_⟩
  intro ys hy
  apply hhd.whole
  exact .informational hp hs hy

omit hhd hp

lemma canKeep_of_same {rest : Bytes} (hg : c.canKeep h rest) (hs : SameResponse c c') :
    c'.canKeep h rest := by
  unfold canKeep hasNoBody at hg ⊢
  rw [hs.upgradeTo, hs.decoder, hs.methodIsHead]
  exact hg

/-- The loop over the responses in the buffer. -/
lemma sound_onHeadLoop (fuel n : ℕ) (hhd : InHead parse c)
    (hg : ∀ h rest, finalHead parse fuel c.input = some (h, rest) → c.canKeep h rest) :
    Sound parse (Client.onHeadLoop parse env fuel n c) := by
  induction fuel generalizing n c with
  | zero => exact .head hhd
  | succ fuel ih =>
    unfold onHeadLoop
    unfold finalHead at hg
    cases hp : parse c.input with
    | error => exact sound_onError_of_not_keep hhd.keep _
    | incomplete => exact .head (hhd.of_same (.other ..))
    | head h rlen =>
      rw [hp] at hg
      dsimp only at hg ⊢
      split
      · exact sound_onError_of_not_keep hhd.keep _
      split
      · next hs =>
        have hf : h.isInformational = false := decide_eq_false (fun h => h.2 hs)
        rw [hf] at hg
        split
        · exact sound_onError_of_not_keep hhd.keep _
        · exact sound_onFinalHead hhd hp hf (hg _ _ rfl)
      next hs =>
      -- the state after the request body has been released
      obtain ⟨c1, hc1⟩ : ∃ c1, c1 = if c.useExpect ∧ (h.status = 100 ∨ 200 ≤ h.status) then
        reqBodySend { c with useExpect := false } else c := ⟨_, rfl⟩
      have hm : SameResponse c c1 := by
        rw [hc1]
        split <;> exact .other ..
      rw [← hc1]
      split
      · next hf =>
        have hf : h.isInformational = false := decide_eq_false fun hi => by
          have := hi.1
          omega
        rw [hf] at hg
        refine sound_onFinalHead (hhd.of_same hm) (by rw [hm.input]; exact hp) hf ?_
        rw [hm.input]
        exact canKeep_of_same (hg _ _ rfl) hm
      · next hi =>
        have hi : h.isInformational = true := decide_eq_true ⟨by omega, hs⟩
        rw [hi] at hg
        obtain ⟨c2, hc2⟩ : ∃ c2, c2 = if c1.informationalCb then
          c1.call (.informational h.status h.fields) else c1 := ⟨_, rfl⟩
        have hs2 : SameResponse c c2 := by
          rw [hc2]
          split <;> exact { hm with }
        rw [← hc2]
        have hh2 := hhd.of_same hs2
        have hh3 := hh2.consume (by rw [hs2.input]; exact hp) hi
        split
        · exact sound_closeClient_of_not_keep hh2.keep
        split
        · exact .head (hh3.of_same (.other ..))
        · refine ih (n + 1) hh3 fun h' rest hr => ?_
          have hr : finalHead parse fuel (c2.input.drop rlen) = some (h', rest) := hr
          rw [hs2.input] at hr
          have hg2 : c2.canKeep h' rest := canKeep_of_same (hg h' rest hr) hs2
          exact hg2

/-! ## Runs -/

lemma sound_new (r : Request) : Sound parse (Client.new r) := by
  cases ha : r.accepted with
  | true =>
    refine .head ⟨?_, rfl, rfl, rfl, rfl, rfl, fun _ h => h⟩
    show (if r.accepted then none else some Disposal.closed) = none
    rw [ha]
    rfl
  | false =>
    have hc : (new r).disposal = some .closed := by
      show (if r.accepted then none else some Disposal.closed) = some .closed
      rw [ha]
      rfl
    refine .disposed ?_ ?_
    · rw [hc]
      exact nofun
    · rw [hc]
      exact nofun

/-- The connection is kept after the whole response, unless the body is being read. -/
lemma Sound.whole (h : Sound parse c) (alive : c.disposal = none)
    (hb : c.res = .body → c.doKeepalive = false) (hk : c.doKeepalive = true) :
    WholeResponse parse c.methodIsHead c.received := by
  cases h with
  | head h => exact absurd hk (eq_false_iff.1 h.keep)
  | body h hw => exact absurd hk (eq_false_iff.1 (hb h.res))
  | closed alive hr hd hw => exact hw hk
  | disposed h hg => exact absurd alive hg

lemma sound_onWholeRequestSent (h : Sound parse c) (alive : c.disposal = none)
    (hc : c.upgradeTo.isSome = true → c.res = .body → c.doKeepalive = false) :
    Sound parse c.onWholeRequestSent := by
  unfold onWholeRequestSent
  dsimp only
  split
  · next hu =>
    refine sound_onError ?_ _
    exact fun hk => ⟨rfl, h.whole alive (hc hu) hk⟩
  · split
    · exact h.of_same alive (.other ..)
    · exact h.of_same alive (.other ..)
    · next hr =>
      have hr : c.res = .closed := hr
      refine sound_closeClient fun hk => ⟨rfl, h.whole alive ?_ hk⟩
      rw [hr]
      exact nofun

lemma same_doWriteReq (c : Client) (chunk : Bytes) (isEndStream : Bool) :
    SameResponse c (c.doWriteReq chunk isEndStream) := by
  refine ⟨rfl, rfl, rfl, rfl, rfl, rfl, rfl, rfl, rfl, fun hk => ?_⟩
  have hf : (c.doKeepalive && c.res != .closed) = true := hk
  rw [and_eq_true] at hf
  exact hf.1

lemma sound_reqBodySendComplete (h : Sound parse c) (alive : c.disposal = none)
    (hc : c.isEndStream = true → c.upgradeTo.isSome = true → c.res = .body →
      c.doKeepalive = false) : Sound parse (c.reqBodySendComplete reply) := by
  have he : ∀ c1, SameResponse c c1 →
      Sound parse (if c.isEndStream then c1.onWholeRequestSent else c1) := by
    intro c1 hs
    have hs1 := h.of_same alive hs
    split
    · next hl =>
      refine sound_onWholeRequestSent hs1 (hs.disposal.trans alive) ?_
      rw [hs.upgradeTo, hs.res]
      intro hu hr
      exact eq_false_iff.2 fun hk =>
        eq_false_iff.1 (hc hl hu hr) (hs.doKeepalive hk)
    · exact hs1
  unfold reqBodySendComplete
  apply he
  split
  · cases reply with
    | none => exact .other ..
    | some write =>
      obtain ⟨chunk, isEndStream⟩ := write
      have hw := same_doWriteReq
        (call { c with bodyBuf := [] } (.proceedReq none)) chunk isEndStream
      exact { hw with }
  · exact .other ..

lemma sound_onWriteComplete {cb : WriteCb} (h : Sound parse c) (alive : c.disposal = none)
    (hc : c.isLastWrite cb → c.upgradeTo.isSome = true → c.res = .body →
      c.doKeepalive = false) : Sound parse (c.onWriteComplete cb reply) := by
  have hs : Sound parse { c with writing := none } :=
    h.of_same alive (.other ..)
  unfold onWriteComplete
  cases cb with
  | onWholeRequestSent => exact sound_onWholeRequestSent hs alive (hc trivial)
  | reqBodySendComplete => exact sound_reqBodySendComplete hs alive hc
  | onHeaderSentWait100 =>
    show Sound parse (onHeaderSentWait100 _)
    unfold onHeaderSentWait100
    split
    · exact h.of_same alive (.other ..)
    · exact h.of_same alive (.other ..)

/-- Data for the callback of the client. -/
lemma sound_onRead (h : Sound parse c) (alive : c.disposal = none)
    (hr : c.reading = some cb) (hi : cb ≠ .onBodyToPipe)
    (hc : Clean parse c (.read data env)) : Sound parse (c.onRead parse cb data env) := by
  unfold onRead
  cases h with
  | head h =>
    obtain rfl : cb = .onHead := some.inj (hr.symm.trans h.reading)
    refine sound_onHeadLoop _ _ ⟨alive, h.res, h.reading, h.reader, h.decoder, h.keep, ?_⟩
      (hc h.res)
    intro ys hy
    rw [append_assoc] at hy ⊢
    exact h.whole _ hy
  | body h hw =>
    have hhd : cb ≠ .onHead := by
      rintro rfl
      exact h.reading hr
    have hd : Sound parse (onBody
        { c with input := c.input ++ data, received := c.received ++ data } cb data env) := by
      refine sound_onBody ⟨h.alive, h.res, h.reading, h.reader⟩ hhd hi fun hk => ?_
      obtain ⟨reader, h⟩ := hw hk
      obtain rfl : cb = reader := by
        have hb := h.reading cb (.inl hr)
        rcases h.hasEnd with rfl | rfl
        · exact hb.resolve_right hi
        · exact hb
      refine ⟨⟨h.hasEnd, fun ys hy => ?_⟩, h.reading⟩
      show WholeResponse parse c.methodIsHead (c.received ++ data ++ ys)
      rw [append_assoc]
      exact h.whole _ hy
    cases cb with
    | onHead => exact absurd rfl hhd
    | onBodyUntilClose | onBodyContentLength | onBodyChunked => exact hd
    | onBodyToPipe => exact absurd rfl hi
  | closed alive he hn hw =>
    rw [hn] at hr
    cases hr
  | disposed h hg => exact absurd alive hg

/-- An error of the socket, where the response allows it. -/
lemma sound_onReadError {isClosed : Bool} (alive : c.disposal = none) (hr : c.reading = some cb)
    (hc : Clean parse c (.readError isClosed)) : Sound parse (c.onReadError cb isClosed) := by
  have hk : cb ≠ .onBodyChunked → c.doKeepalive = false := fun hb =>
    eq_false_iff.2 fun hk =>
      hb (some.inj (hr.symm.trans (hc hk).1))
  unfold onReadError
  dsimp only [unlinkTimer]
  cases cb with
  | onHead | onBodyContentLength | onBodyToPipe =>
    exact sound_onError_of_not_keep (hk (by decide)) _
  | onBodyUntilClose =>
    refine sound_closeResponse alive rfl fun h => ?_
    have h : c.doKeepalive = true := h
    rw [hk (by decide)] at h
    cases h
  | onBodyChunked =>
    dsimp only
    split
    · exact sound_closeResponse alive rfl nofun
    · next hn =>
      refine sound_onError_of_not_keep (eq_false_iff.2 fun hk => ?_) _
      obtain ⟨-, hl, hd, hs⟩ := hc hk
      exact hn ⟨hl, by rw [hd]; rfl, hs⟩

lemma Sound.inBody (h : Sound parse c) (alive : c.disposal = none) (hr : c.res = .body) :
    InBody c ∧ (c.doKeepalive = true → ∃ reader, Awaits parse c reader []) := by
  cases h with
  | head h => exact nomatch h.res.symm.trans hr
  | body h hw => exact ⟨h, hw⟩
  | closed alive hc => exact nomatch hc.symm.trans hr
  | disposed h hg => exact absurd alive hg

lemma sound_step {e : Event} (h : Sound parse c) (hc : Clean parse c e)
    (hstep : step parse c e = some c') : Sound parse c' := by
  unfold step at hstep
  by_cases hg : c.disposal.isSome = true
  · rw [if_pos hg] at hstep
    cases hstep
  rw [if_neg hg] at hstep
  have alive : c.disposal = none := not_isSome_iff_eq_none.1 hg
  cases e with
  | read data env =>
    dsimp only at hstep
    split at hstep
    · cases hstep
    · next cb hi hr =>
      cases hstep
      exact sound_onRead h alive hr hi hc
    · cases hstep
  | readError isClosed =>
    obtain ⟨cb, hr, rfl⟩ := map_eq_some_iff.1 hstep
    exact sound_onReadError alive hr hc
  | splice result env =>
    obtain ⟨⟨hd, he, hs⟩, ⟨⟩⟩ := ite_none_right_eq_some.1 hstep
    obtain ⟨h, hw⟩ := h.inBody alive he
    refine sound_onBodyToPipe h hs ?_ fun hk => ?_
    · rintro rfl
      exact hc
    · obtain ⟨reader, h⟩ := hw hk
      have hi := h.reading _ (.inr hd)
      rcases h.hasEnd with rfl | rfl
      · exact h
      · cases hi
  | writeComplete reply =>
    dsimp only at hstep
    split at hstep
    · cases hstep
    · obtain ⟨cb, hw, rfl⟩ := map_eq_some_iff.1 hstep
      exact sound_onWriteComplete h alive (hc cb hw)
  | writeError =>
    obtain ⟨cb, -, rfl⟩ := map_eq_some_iff.1 hstep
    unfold onWriteError
    cases cb with
    | onWholeRequestSent | onHeaderSentWait100 => exact sound_onError_of_not_keep hc _
    | reqBodySendComplete =>
      apply sound_onError_of_not_keep
      exact hc
  | timeout =>
    obtain ⟨-, ⟨⟩⟩ := ite_none_right_eq_some.1 hstep
    unfold onTimeout
    dsimp only
    split <;> exact sound_onError_of_not_keep hc _
  | writeReq chunk isEndStream =>
    obtain ⟨-, ⟨⟩⟩ := ite_none_right_eq_some.1 hstep
    exact h.of_same alive (same_doWriteReq c chunk isEndStream)
  | updateWindow =>
    obtain ⟨⟨he, -⟩, ⟨⟩⟩ := ite_none_right_eq_some.1 hstep
    obtain ⟨h, hw⟩ := h.inBody alive he
    exact sound_updateReadState h hw
  | cancel =>
    cases hstep
    exact sound_closeClient_of_not_keep rfl

lemma sound_of_reach (h : Reach parse (Clean parse) c) : Sound parse c := by
  induction h with
  | new r => exact sound_new r
  | step hc ho hstep ih => exact sound_step ih ho hstep

/-- The socket is returned after the whole request and exactly one response. -/
theorem reuse_of_reach (h : Reach parse (Clean parse) c) (hreturned : c.disposal = some .returned) :
    c.req = .closed ∧ WholeResponse parse c.methodIsHead c.received := by
  have hl : c.disposal ≠ none := by
    rw [hreturned]
    exact nofun
  cases sound_of_reach h with
  | head h | body h hw => exact absurd h.alive hl
  | closed alive hr hd hw => exact absurd alive hl
  | disposed h hg => exact h hreturned

/-- The socket is returned after a response with a body. -/
theorem reuse_of_reach_response : ∃ c : Client, c.disposal = some .returned ∧ c.req = .closed ∧
    WholeResponse (knows fiveText fiveHead) c.methodIsHead c.received := by
  have hs : (step (knows fiveText fiveHead) (new plainRequest) (.writeComplete none)).map
      (fun c => (c.input, c.decoder, c.hasNoBody fiveHead)) = some ([], .zero, false) := by
    rfl
  obtain ⟨c₂, hr, he⟩ : ∃ c, run (knows fiveText fiveHead) (new plainRequest)
      [.writeComplete none, .read (fiveText ++ ascii "hello") acceptAll] = some c ∧
      c.disposal = some .returned := exists_of_any rfl
  unfold run at hr
  rw [foldlM_cons] at hr
  obtain ⟨c₁, hc₁, hr⟩ := bind_eq_some_iff.1 hr
  rw [foldlM_cons] at hr
  obtain ⟨c, hc₂, ⟨⟩⟩ := bind_eq_some_iff.1 hr
  obtain ⟨hi, hd, hb⟩ : c₁.input = [] ∧ c₁.decoder = .zero ∧ c₁.hasNoBody fiveHead = false := by
    rw [hc₁] at hs
    simpa using hs
  refine ⟨c₂, he, reuse_of_reach (.step (.step (.new plainRequest) ?_ hc₁) ?_ hc₂) he⟩
  · exact fun _ _ _ => nofun
  · intro _ h rest hre _
    have hf : finalHead (knows fiveText fiveHead) ((fiveText ++ ascii "hello").length + 1)
        (fiveText ++ ascii "hello") = some (fiveHead, ascii "hello") := rfl
    have hfi : recognize fiveHead .zero =
        .ok ⟨true, { Decoder.zero with bytesLeftInChunk := 5 }, .onBodyContentLength⟩ := rfl
    rw [hi, nil_append, hf] at hre
    cases hre
    rw [hd, hfi]
    intro _
    rw [hb]
    exact nofun

/-- A timeout in the body: the socket is returned with half of the response unread. -/
theorem reuse_after_timeout : ∃ c, Reach (knows fiveText fiveHead) (fun _ _ => True) c ∧
    c.disposal = some .returned ∧
      ¬ WholeResponse (knows fiveText fiveHead) c.methodIsHead c.received := by
  obtain ⟨c, hc, hd, hm, hr⟩ : ∃ c, run (knows fiveText fiveHead)
      (new plainRequest) [.writeComplete none, .read (fiveText ++ ascii "he") acceptAll,
        .timeout] = some c ∧ c.disposal = some .returned ∧ c.methodIsHead = false ∧
      c.received = fiveText ++ ascii "he" := exists_of_any rfl
  refine ⟨c, reach_run (.new plainRequest) hc, hd, ?_⟩
  rw [hm, hr]
  -- the head says five octets, and there are two
  generalize hb : fiveText ++ ascii "he" = bytes
  intro hw
  cases hw with
  | informational hp hs hre =>
    obtain ⟨rfl, -⟩ := knows_head hp
    exact absurd hs (by decide)
  | noBody hp hs hbd he =>
    obtain ⟨rfl, -⟩ := knows_head hp
    exact absurd hbd (by decide)
  | contentLength hp hs hbd hh hlen =>
    obtain ⟨rfl, rfl, hl⟩ := knows_head hp
    have hf : fiveHead.contentLength = some 5 := rfl
    have ht := congrArg length hb
    rw [hf, some_inj, length_append, length_drop] at hlen
    rw [length_append, length_append, show (ascii "he").length = 2 from rfl] at ht
    omega
  | chunked hp hs hbd hh he =>
    obtain ⟨rfl, -⟩ := knows_head hp
    exact absurd hh (by decide)

end Vhttp.Http1Client
