import Vhttp.Http1Server.Limit
import Vhttp.Http1Server.Messages

/-!
# Pieces and pipelining

However the octets of a connection are cut into reads, and whenever the handlers respond, the
requests that are handed to the handlers with all of their body are those that are in the stream.

* `handed_unique`: two runs over the same octets hand over the same requests.
* `heads_differ`: a handler that streams is given the head of a request whose body turns out to be
  too large, if the body comes in pieces.
-/

namespace Vhttp.Http1Server

open List Option Bool Prod
open Incremental (Step feed)

/-! ## What has been handed over -/

/-- The requests that the handlers have all of, and the one they have a part of. -/
structure Handed where
  done : List Message
  current : Option (Request × Bytes)

/-- A call hands something over. -/
def Handed.add (h : Handed) : Call → Handed
  | .process req entity true => ⟨h.done ++ [⟨req, entity⟩], none⟩
  | .process req entity false => ⟨h.done, some (req, entity.getD [])⟩
  | .write entity isEndStream =>
    match h.current with
    | none => h
    | some (req, body) =>
      if isEndStream then ⟨h.done ++ [⟨req, some (body ++ entity)⟩], none⟩
      else ⟨h.done, some (req, body ++ entity)⟩
  | _ => h

/-- What the calls hand over. -/
def handed (calls : List Call) : Handed := calls.foldl Handed.add ⟨[], none⟩

lemma handed_concat (calls : List Call) (call : Call) :
    handed (calls ++ [call]) = (handed calls).add call := by
  unfold handed
  rw [foldl_concat]

variable {σ : Type} {env : Env σ} {step : σ → UInt8 → Step σ UInt8} {c c' : Conn σ}
  {outcome : Outcome} {stream rest : Bytes}

/-! ## States between events -/

/-- The connection is ready for the head of a request. -/
structure Fresh (c : Conn σ) : Prop where
  reader : c.reader = none
  entity : c.entity = none
  received : c.reqBodyBytesReceived = 0
  proceedReq : c.proceedReq = false
  processCalled : c.processCalled = false
  hasGenerator : c.hasGenerator = false
  ostreamState : c.ostreamState = .head
  continuing : c.continuing = false
  closed : c.closed = false
  reading : c.reading = true
  current : (handed c.calls).current = none
  persistent : AllPersistent (handed c.calls).done

/-- A reader has read `used`, which is `data`. -/
inductive Reads (step : σ → UInt8 → Step σ UInt8) : Reader σ → Bytes → Reader σ → Bytes → Prop
  | length (m : ℕ) (used : Bytes) : Reads step (.contentLength m) used (.contentLength m) used
  | chunked {decoder decoder' : σ} {used data : Bytes}
    (h : feed step decoder used = (decoder', data, .more)) :
    Reads step (.chunked decoder) used (.chunked decoder') data

/-- The length that was announced is not exceeded. -/
def Within : Reader σ → Bytes → Prop
  | .contentLength m, used => used.length ≤ m
  | .chunked _, _ => True

/-- The length that was announced has not been reached. -/
def More : Reader σ → Bytes → Prop
  | .contentLength m, used => used.length < m
  | .chunked _, _ => True

/-- The connection reads the body of the request at the start of `rest`. -/
structure Body (env : Env σ) (step : σ → UInt8 → Step σ UInt8) (c : Conn σ) (rest : Bytes)
    (req : Request) (reader₀ : Reader σ) (used data : Bytes) : Prop where
  head : ∃ n head expects, HasHead env rest n head ∧
    decideRequest env head = .readBody req expects reader₀ ∧ rest.drop n = used ++ c.input
  reads : ∃ reader, c.reader = some reader ∧ Reads step reader₀ used reader data
  request : c.req = some req
  isTunnelReq : req.isTunnelReq = false
  http1IsPersistent : c.http1IsPersistent = req.http1IsPersistent
  received : c.reqBodyBytesReceived = data.length
  unconsumed : c.unconsumedRequestSize = 0
  closed : c.closed = false
  persistent : AllPersistent (handed c.calls).done

/-- The body is collected, or given to the handler as it comes. -/
inductive Mode (c : Conn σ) (req : Request) (data : Bytes) : Prop
  | whole (writeReq : c.writeReq = some .first ∨ c.writeReq = some .nonStreaming)
    (reqBody : c.reqBody = some data) (current : (handed c.calls).current = none)
    (proceedReq : c.proceedReq = false) (hasGenerator : c.hasGenerator = false)
    (ostreamState : c.ostreamState = .head) (processCalled : c.processCalled = false)
  | streamed (writeReq : c.writeReq = some .handler) (reqBody : c.reqBody = some [])
    (current : (handed c.calls).current = some (req, data)) (proceedReq : c.proceedReq = true)

variable {err : ErrorResponse} {expects : Bool} {head : Head} {m : Message}
  {messages : List Message} {n : ℕ} {reader : Reader σ} {rest' text : Bytes}

/-- The mode does not depend on the input and the reader. -/
lemma Mode.congr {req : Request} {data : Bytes} (h : Mode c req data)
    (hs : handed c'.calls = handed c.calls)
    (hm : (c'.writeReq, c'.reqBody, c'.proceedReq, c'.hasGenerator, c'.ostreamState,
      c'.processCalled) = (c.writeReq, c.reqBody, c.proceedReq, c.hasGenerator, c.ostreamState,
      c.processCalled)) : Mode c' req data := by
  obtain ⟨h1, h2, h3, h4, h5, h6⟩ := by simpa only [mk.injEq] using hm
  cases h with
  | whole hw hb hc hpr hg ht hp =>
    exact .whole (by rwa [h1]) (by rwa [h2]) (by rwa [hs]) (by rwa [h3]) (by rwa [h4])
      (by rwa [h5]) (by rwa [h6])
  | streamed hw hb hc hpr =>
    exact .streamed (by rwa [h1]) (by rwa [h2]) (by rwa [hs]) (by rwa [h3])

/-- The handler has a part of the body that it has not asked to proceed from. -/
structure Pending (c : Conn σ) (req : Request) (data : Bytes) : Prop where
  reading : c.reading = false
  proceedReq : c.proceedReq = true
  current : (handed c.calls).current = some (req, data)

/-- The request is complete, and `rest` follows it. -/
structure Complete (c : Conn σ) (rest : Bytes) : Prop where
  input : c.input.drop c.unconsumedRequestSize = rest
  reader : c.reader = none
  proceedReq : c.proceedReq = false
  reading : c.reading = false
  continuing : c.continuing = false
  closed : c.closed = false
  current : (handed c.calls).current = none
  isTunnelReq : c.req.any Request.isTunnelReq = false
  persistent : c.http1IsPersistent ↔ AllPersistent (handed c.calls).done

/-- The request was refused. -/
structure Refused (c : Conn σ) : Prop where
  reader : c.reader = none
  proceedReq : c.proceedReq = false
  reading : c.reading = false
  continuing : c.continuing = false
  http1IsPersistent : c.http1IsPersistent = false

/-- The states of a connection between events; `rest` is the stream from the request on that is not
complete. -/
inductive State (env : Env σ) (step : σ → UInt8 → Step σ UInt8) (c : Conn σ) (rest : Bytes) : Prop
  | head (h : Fresh c) (input : c.input = rest)
    (waits : rest = [] ∧ c.prevReqlen = 0 ∨ c.prevReqlen = rest.length ∧
      rest.length < maxReqlen ∧ ∀ n head, env.parseRequest rest 0 ≠ .complete n head)
  | continuing {req : Request} {reader : Reader σ} (h : Body env step c rest req reader [] [])
    (mode : Mode c req []) (within : Within reader []) (continuing : c.continuing = true)
    (reading : c.reading = false) (proceedReq : c.proceedReq = false)
  | waiting {req : Request} {reader : Reader σ} {used data : Bytes}
    (h : Body env step c rest req reader used data) (mode : Mode c req data)
    (more : More reader used) (input : c.input = []) (continuing : c.continuing = false)
    (reading : c.reading = true)
  | pending {req : Request} {reader : Reader σ} {used data : Bytes}
    (h : Body env step c rest req reader used data) (pending : Pending c req data)
    (more : More reader used) (input : c.input = []) (continuing : c.continuing = false)
  | complete (h : Complete c rest) (sending : c.ostreamState ≠ .done)
  | refused (h : Refused c) (maximal : Maximal env step (handed c.calls).done rest)
  | closed (closed : c.closed = true) (reading : c.reading = false)
    (maximal : Maximal env step (handed c.calls).done rest)

/-- The requests handed over are those of the stream. -/
def Accounted (env : Env σ) (step : σ → UInt8 → Step σ UInt8) (stream : Bytes) (c : Conn σ) :
    Prop :=
  ∃ rest, Pipelined env step stream (handed c.calls).done rest ∧ State env step c rest

/-! ## Fragments -/

section Fragments

variable {cleanup : Conn σ → Option (Conn σ)} {req : Request} {data : Bytes} {size extra : ℕ}

/-- `handle_one_body_fragment` when there is something to hand over. -/
lemma handleOneBodyFragment_eq {body : Bytes} {complete : Bool} (ho : outcome.Ok)
    (hq : c.req = some req) (hb : c.reqBody = some body)
    (hs : ¬(size = 0 ∧ !complete)) :
    c.handleOneBodyFragment env cleanup size extra complete outcome =
      match (c.readStop.takeFragment body size extra).writeRequest env req
        (body ++ c.input.take size) complete outcome with
      | none => none
      | some none =>
        (c.readStop.takeFragment body size extra).entityReadDoSendError cleanup Conn.badGateway
      | some (some c) => if complete then c.finishBody cleanup else some c := by
  unfold Conn.handleOneBodyFragment
  rw [if_neg hs, ho.1]
  dsimp only
  rw [show c.readStop.req = c.req from rfl, show c.readStop.reqBody = c.reqBody from rfl, hq, hb]
  rfl

/-- What a fragment leaves alone. -/
structure Keeps (c c' : Conn σ) : Prop where
  req : c'.req = c.req
  http1IsPersistent : c'.http1IsPersistent = c.http1IsPersistent
  unconsumed : c'.unconsumedRequestSize = c.unconsumedRequestSize
  closed : c'.closed = c.closed
  continuing : c'.continuing = c.continuing
  ostreamState : c'.ostreamState = c.ostreamState

/-- A fragment is handed over to the handler. -/
lemma writeRequest_handler (hw : c.writeReq = some .handler) (ho : outcome.Ok) (last : Bool) :
    (c.readStop.takeFragment [] size extra).writeRequest env req ([] ++ c.input.take size) last
        outcome = some (some (((c.readStop.takeFragment [] size extra).setPending !last).call
      (.write (c.input.take size) last))) := by
  unfold Conn.writeRequest
  rw [show (c.readStop.takeFragment [] size extra).writeReq = c.writeReq from rfl, hw, ho.2]
  rfl

/-- A fragment that is not the last one is collected or handed over. -/
lemma fragment_more (hm : Mode c req data) (hq : c.req = some req) (ho : outcome.Ok)
    (hz : size ≠ 0) (h : c.handleOneBodyFragment env cleanup size extra false outcome = some c') :
    Keeps c c' ∧ c'.input = c.input.drop (size + extra) ∧
      c'.reqBodyBytesReceived = c.reqBodyBytesReceived + size ∧ c'.reader = c.reader ∧
      (handed c'.calls).done = (handed c.calls).done ∧
      (Mode c' req (data ++ c.input.take size) ∧ c'.reading = true ∨
        Pending c' req (data ++ c.input.take size)) := by
  have hne : ¬(size = 0 ∧ !false) := fun h => hz h.1
  cases hm with
  | whole hw hb hc hpr hg ht hp =>
    rw [handleOneBodyFragment_eq ho hq hb hne] at h
    generalize hc1 : c.readStop.takeFragment data size extra = c1 at h
    have hw1 : c1.writeReq = some .first ∨ c1.writeReq = some .nonStreaming := by
      rw [← hc1]
      exact hw
    have hf : c1.writeRequest env req (data ++ c.input.take size) false outcome =
          some (some (((c1.setWriteReq none).setProceedReq true).process req)) ∨
        c1.writeRequest env req (data ++ c.input.take size) false outcome =
          some (some (c1.setWriteReq (some .nonStreaming)).readStart) := by
      unfold Conn.writeRequest
      rcases hw1 with hw1 | hw1
      · rw [hw1]
        unfold Conn.writeReqFirst
        cases env.canStreamRequest req with
        | true => exact .inl rfl
        | false => exact .inr rfl
      · have hs : c1.setWriteReq (some .nonStreaming) = c1 := by
          rw [← hw1]
          rfl
        rw [hw1, hs]
        exact .inr rfl
    subst hc1
    rcases hf with hf | hf
    · rw [hf] at h
      obtain rfl := some.inj h
      have ha := handed_concat c.calls (.process req (some (data ++ c.input.take size)) false)
      exact ⟨⟨rfl, rfl, rfl, rfl, rfl, rfl⟩, rfl, rfl, rfl, (congrArg Handed.done ha).trans rfl,
        .inr ⟨rfl, rfl, (congrArg Handed.current ha).trans rfl⟩⟩
    · rw [hf] at h
      obtain rfl := some.inj h
      exact ⟨⟨rfl, rfl, rfl, rfl, rfl, rfl⟩, rfl, rfl, rfl, rfl,
        .inl ⟨.whole (.inr rfl) rfl hc hpr hg ht hp, rfl⟩⟩
  | streamed hw hb hc hpr =>
    rw [handleOneBodyFragment_eq ho hq hb hne, writeRequest_handler hw ho] at h
    obtain rfl := some.inj h
    have ha : handed (c.calls ++ [.write (c.input.take size) false]) =
        ⟨(handed c.calls).done, some (req, data ++ c.input.take size)⟩ := by
      rw [handed_concat]
      unfold Handed.add
      rw [hc]
      rfl
    exact ⟨⟨rfl, rfl, rfl, rfl, rfl, rfl⟩, rfl, rfl, rfl, (congrArg Handed.done ha).trans rfl,
      .inr ⟨rfl, hpr, (congrArg Handed.current ha).trans rfl⟩⟩

/-- The last fragment completes the request. -/
lemma fragment_complete (hm : Mode c req data) (hq : c.req = some req) (ho : outcome.Ok)
    (h : c.handleOneBodyFragment env cleanup size extra true outcome = some c') :
    ∃ c2, Keeps c c2 ∧ c2.input = c.input.drop (size + extra) ∧ c2.reader = none ∧
      c2.proceedReq = false ∧ c2.reading = false ∧ handed c2.calls =
        ⟨(handed c.calls).done ++ [⟨req, some (data ++ c.input.take size)⟩], none⟩ ∧
      (if c.ostreamState = .done then cleanup c2 else some c2) = some c' := by
  have hne : ¬(size = 0 ∧ !true) := fun h => Bool.false_ne_true h.2
  cases hm with
  | whole hw hb hc hpr hg hs hp =>
    rw [handleOneBodyFragment_eq ho hq hb hne] at h
    have ha : ∃ w, (c.readStop.takeFragment data size extra).writeRequest env req
        (data ++ c.input.take size) true outcome =
          some (some ((((c.readStop.takeFragment data size extra).setWriteReq w).setProceedReq
            false).process req)) := by
      unfold Conn.writeRequest
      rw [show (c.readStop.takeFragment data size extra).writeReq = c.writeReq from rfl]
      rcases hw with hw | hw
      · rw [hw]
        exact ⟨some .nonStreaming, rfl⟩
      · rw [hw]
        exact ⟨c.writeReq, rfl⟩
    obtain ⟨w, ha⟩ := ha
    rw [ha] at h
    refine ⟨((((c.readStop.takeFragment data size extra).setWriteReq w).setProceedReq
      false).process req).endBody, ⟨rfl, rfl, rfl, rfl, rfl, rfl⟩, rfl, rfl, rfl, rfl, ?_, h⟩
    exact handed_concat c.calls (.process req (some (data ++ c.input.take size)) true)
  | streamed hw hb hc hpr =>
    rw [handleOneBodyFragment_eq ho hq hb hne, writeRequest_handler hw ho] at h
    refine ⟨(((c.readStop.takeFragment [] size extra).setPending false).call
      (.write (c.input.take size) true)).endBody, ⟨rfl, rfl, rfl, rfl, rfl, rfl⟩, rfl, rfl, rfl, rfl,
      ?_, h⟩
    refine (handed_concat c.calls _).trans ?_
    unfold Handed.add
    rw [hc]
    rfl

end Fragments

/-! ## Requests that are not in the stream -/

/-- A request has a head that is accepted. -/
lemma Framed.exists_head (h : Framed env step rest m rest') :
    ∃ n head, HasHead env rest n head ∧ ((∃ req, decideRequest env head = .process req) ∨
      ∃ req expects reader, decideRequest env head = .readBody req expects reader) := by
  cases h with
  | plain hh hd => exact ⟨_, _, hh, .inl ⟨_, hd⟩⟩
  | length hh hd _ | chunked hh hd _ _ =>
    exact ⟨_, _, hh, .inr ⟨_, _, _, hd⟩⟩

lemma maximal_of_no_head
    (h : ∀ n head, env.parseRequest (rest.take maxReqlen) 0 ≠ .complete n head) :
    Maximal env step messages rest := by
  intro _ m rest' hf
  obtain ⟨n, head, hh, -⟩ := hf.exists_head
  exact h n head hh

lemma maximal_of_refuse
    (hh : HasHead env rest n head) (hd : decideRequest env head = .refuse err) :
    Maximal env step messages rest := by
  intro _ m rest' hf
  obtain ⟨n', he', hh', hd'⟩ := hf.exists_head
  cases hh.symm.trans hh'
  rw [hd] at hd'
  rcases hd' with ⟨_, hd'⟩ | ⟨_, _, _, hd'⟩
  · cases hd'
  · cases hd'

/-- A body that is too short, broken or too large. -/
lemma maximal_of_body {req : Request} (hh : HasHead env rest n head)
    (hd : decideRequest env head = .readBody req expects reader)
    (hb : match reader with
      | .contentLength m => (rest.drop n).length < m
      | .chunked decoder => ∀ body left, (feed step decoder (rest.drop n)).2 = (body, .done left) →
          env.maxRequestEntitySize ≤ body.length) :
    Maximal env step messages rest := by
  intro _ m rest' hf
  cases hf with
  | plain hh' hd' =>
    cases hh.symm.trans hh'
    cases hd.symm.trans hd'
  | length hh' hd' hm =>
    cases hh.symm.trans hh'
    cases hd.symm.trans hd'
    exact absurd hm (not_le.2 hb)
  | chunked hh' hd' hbd hs =>
    cases hh.symm.trans hh'
    cases hd.symm.trans hd'
    exact absurd hs (not_lt.2 (hb _ _ hbd))

lemma AllPersistent.concat_iff (h : AllPersistent messages)
    : AllPersistent (messages ++ [m]) ↔ m.req.http1IsPersistent := by
  simp only [AllPersistent, mem_append, mem_singleton]
  exact ⟨fun ha => ha m (.inr rfl), fun hm _ hmem => hmem.elim (h _) fun hq => hq ▸ hm⟩

/-! ## Reading a body -/

/-- What is needed of the cleanup of a connection. -/
structure CleansUp (env : Env σ) (step : σ → UInt8 → Step σ UInt8) (stream : Bytes)
    (cleanup : Conn σ → Option (Conn σ)) : Prop where
  next : ∀ c rest c', Complete c rest → Pipelined env step stream (handed c.calls).done rest →
    cleanup c = some c' → Accounted env step stream c'
  close : ∀ c, c.http1IsPersistent = false → cleanup c = some c.close

/-- A connection that is about to read more of the body of a request. -/
structure Receiving (env : Env σ) (step : σ → UInt8 → Step σ UInt8) (stream : Bytes)
    (cleanup : Conn σ → Option (Conn σ)) (c : Conn σ) (rest : Bytes) (req : Request)
    (reader₀ : Reader σ) (used data : Bytes) : Prop where
  pipe : Pipelined env step stream (handed c.calls).done rest
  body : Body env step c rest req reader₀ used data
  mode : Mode c req data
  continuing : c.continuing = false
  reading : c.reading = true
  cleanup : c.ostreamState = .done → CleansUp env step stream cleanup

section Reading

variable {cleanup : Conn σ → Option (Conn σ)} {req : Request} {reader₀ : Reader σ}
  {used data : Bytes}

/-- A body that is refused. -/
lemma accounted_sendError (hpi : Pipelined env step stream (handed c.calls).done rest)
    (hm : Maximal env step (handed c.calls).done rest) (ho : c.continuing = false)
    (hc : c.ostreamState = .done → CleansUp env step stream cleanup)
    (h : c.entityReadDoSendError cleanup err = some c') : Accounted env step stream c' := by
  unfold Conn.entityReadDoSendError at h
  dsimp only at h
  split_ifs at h with hh hd
  · cases h
    have hs : handed (c.endBody.readStop.sendError err).calls = handed c.calls :=
      handed_concat _ _
    exact ⟨rest, by rwa [hs], .refused ⟨rfl, rfl, rfl, ho, rfl⟩ (by rwa [hs])⟩
  · have hl := (hc hd).close c.endBody.readStop.setNotPersistent rfl
    cases hl.symm.trans h
    exact ⟨rest, hpi, .closed rfl rfl hm⟩
  · cases h
    exact ⟨rest, hpi, .refused ⟨rfl, rfl, rfl, ho, rfl⟩ hm⟩

variable (hr : Receiving env step stream cleanup c rest req reader₀ used data)
include hr

/-- The last part of a body. -/
lemma accounted_complete {e : Bytes} {c2 : Conn σ}
    (hf : Framed env step rest ⟨req, some (data ++ e)⟩ rest')
    (hk : Keeps c c2) (hin : c2.input = rest') (hd : c2.reader = none)
    (hp : c2.proceedReq = false) (hg : c2.reading = false)
    (hs : handed c2.calls = ⟨(handed c.calls).done ++ [⟨req, some (data ++ e)⟩], none⟩)
    (h : (if c.ostreamState = .done then cleanup c2 else some c2) = some c') :
    Accounted env step stream c' := by
  have hb := hr.body
  have hp2 : Pipelined env step stream (handed c2.calls).done rest' := by
    rw [hs]
    exact hr.pipe.concat hb.persistent hf
  have hc : Complete c2 rest' := by
    refine ⟨?_, hd, hp, hg, hk.continuing.trans hr.continuing,
      hk.closed.trans hb.closed, by rw [hs], ?_, ?_⟩
    · rwa [hk.unconsumed, hb.unconsumed, drop_zero]
    · rw [hk.req, hb.request]
      exact hb.isTunnelReq
    · rw [hs, hk.http1IsPersistent, hb.http1IsPersistent]
      exact (hb.persistent.concat_iff (m := ⟨req, some (data ++ e)⟩)).symm
  split_ifs at h with hn
  · exact (hr.cleanup hn).next c2 rest' c' hc hp2 h
  · cases h
    exact ⟨rest', hp2, .complete hc (by rwa [hk.ostreamState])⟩

/-- A part of a body that is not the last one. -/
lemma accounted_more {used' data' : Bytes} (hh : HasHead env rest n head)
    (hd : decideRequest env head = .readBody req expects reader₀)
    (hdr : rest.drop n = used') (hs : Reads step reader₀ used' reader data')
    (ho : More reader₀ used') (hk : Keeps c c') (hin : c'.input = [])
    (hc : c'.reqBodyBytesReceived = data'.length) (hrd : c'.reader = some reader)
    (hn : (handed c'.calls).done = (handed c.calls).done)
    (hm : Mode c' req data' ∧ c'.reading = true ∨ Pending c' req data') :
    Accounted env step stream c' := by
  have hb := hr.body
  have hco := hk.continuing.trans hr.continuing
  have hb' : Body env step c' rest req reader₀ used' data' := by
    refine ⟨⟨n, head, expects, hh, hd, ?_⟩, ⟨reader, hrd, hs⟩,
      hk.req.trans hb.request, hb.isTunnelReq,
      hk.http1IsPersistent.trans hb.http1IsPersistent, hc,
      hk.unconsumed.trans hb.unconsumed, hk.closed.trans hb.closed, ?_⟩
    · rwa [hin, append_nil]
    · rw [hn]
      exact hb.persistent
  refine ⟨rest, by rw [hn]; exact hr.pipe, ?_⟩
  rcases hm with ⟨hm, hg⟩ | hp
  · exact .waiting hb' hm ho hin hco hg
  · exact .pending hb' hp ho hin hco

omit hr

lemma accounted_length {m : ℕ}
    (hr : Receiving env step stream cleanup c rest req (.contentLength m) used data)
    (hw : used.length ≤ m) (hok : outcome.Ok)
    (h : c.handleContentLengthEntityRead env cleanup m outcome = some c') :
    Accounted env step stream c' := by
  obtain ⟨n, head, expects, hh, hd, hdr⟩ := hr.body.head
  obtain ⟨reader, hrd, hrs⟩ := hr.body.reads
  have hc := hr.body.received
  have hlen := congrArg List.length hdr
  rw [length_append] at hlen
  cases hrs
  unfold Conn.handleContentLengthEntityRead at h
  rw [hc] at h
  split_ifs at h with ha hm
  · obtain ⟨c2, hk, hin, hno, hp, hs, hcs, hn⟩ :=
      fragment_complete hr.mode hr.body.request hok h
    have ht : used ++ c.input.take (m - used.length) = (rest.drop n).take m := by
      rw [hdr, take_append, take_of_length_le hw]
    have hre : c2.input = (rest.drop n).drop m := by
      rw [hin, hdr, List.drop_append, drop_eq_nil_of_le hw]
      rfl
    refine accounted_complete hr ?_ hk hre hno hp hs hcs hn
    rw [ht]
    exact .length hh hd (by omega)
  · cases h
    have ho : used.length < m := by omega
    exact ⟨rest, hr.pipe, .waiting hr.body hr.mode ho (eq_nil_of_length_eq_zero hm)
      hr.continuing hr.reading⟩
  · obtain ⟨hk, hin, hr', hd', hdn, hm'⟩ :=
      fragment_more hr.mode hr.body.request hok hm h
    rw [take_length] at hm'
    have ho : (used ++ c.input).length < m := by
      rw [length_append]
      omega
    refine accounted_more hr hh hd hdr (.length m _) ho hk ?_ ?_ (hd'.trans hrd) hdn hm'
    · rw [hin, Nat.add_zero, drop_length]
    · rw [hr', hc, length_append]

/-- What has been decoded of a chunked body. -/
lemma accounted_decoded {decoder0 decoder : σ} {out : Bytes} {result : Incremental.Result UInt8}
    (hr : Receiving env step stream cleanup c rest req (.chunked decoder0) used data)
    (ho : outcome.Ok) (hh : HasHead env rest n head)
    (hd : decideRequest env head = .readBody req expects (.chunked decoder0))
    (hdr : rest.drop n = used ++ c.input)
    (hfe : feed step decoder0 (used ++ c.input) = (decoder, data ++ out, result))
    (hu : ∀ left, result = .done left → left <:+ c.input)
    (h : (c.setReader (.chunked decoder)).handleDecoded env cleanup out (chunkResult result)
      outcome = some c') : Accounted env step stream c' := by
  have hbd := hr.body
  have hmd : ∀ input, Mode ((c.setReader (.chunked decoder)).setInput input) req data :=
    fun _ => hr.mode.congr rfl rfl
  have hf {err} (hb : ∀ body left, (data ++ out, result) = (body, .done left) →
      env.maxRequestEntitySize ≤ body.length)
      (h : (c.setReader (.chunked decoder)).entityReadDoSendError cleanup err = some c') :
      Accounted env step stream c' := by
    refine accounted_sendError (c := c.setReader (.chunked decoder)) hr.pipe
      (maximal_of_body hh hd fun body left hdn => hb body left ?_) hr.continuing
      hr.cleanup h
    rwa [hdr, hfe] at hdn
  unfold Conn.handleDecoded at h
  rw [show (c.setReader (.chunked decoder)).reqBodyBytesReceived = data.length from
    hbd.received] at h
  split_ifs at h with hl
  · -- the data is too large, whether there is more of it or not
    refine hf (fun body left hdn => ?_) h
    have hg := hl.2
    rw [← (mk.inj hdn).1, length_append]
    omega
  · cases result with
    | fail => exact hf nofun h
    | more =>
      have hs : Reads step (.chunked decoder0) (used ++ c.input) (.chunked decoder)
          (data ++ out) := .chunked hfe
      by_cases hm : out.length = 0
      · have hsk : c' = ((c.setReader (.chunked decoder)).setInput
            (out ++ c.input.drop out.length)).consume
              ((out ++ c.input.drop out.length).length - out.length) := by
          change Conn.handleOneBodyFragment env cleanup _ _ _ false outcome = some c' at h
          unfold Conn.handleOneBodyFragment at h
          rw [if_pos ⟨hm, rfl⟩] at h
          exact (some.inj h).symm
        have hin : c'.input = [] := by
          rw [hsk]
          apply drop_eq_nil_of_le
          change (out ++ c.input.drop out.length).length ≤ _
          omega
        rw [eq_nil_of_length_eq_zero hm, append_nil] at hs
        subst hsk
        exact accounted_more hr hh hd hdr hs trivial ⟨rfl, rfl, rfl, rfl, rfl, rfl⟩
          hin hbd.received rfl rfl (.inl ⟨hr.mode.congr rfl rfl, hr.reading⟩)
      · obtain ⟨hk, hin, hc, hrd, hdn, hm'⟩ :=
          fragment_more (hmd (out ++ c.input.drop out.length)) hbd.request ho hm h
        have hta : ((c.setReader (.chunked decoder)).setInput
            (out ++ c.input.drop out.length)).input.take out.length = out := take_left
        rw [hta] at hm'
        refine accounted_more hr hh hd hdr hs trivial { hk with } ?_ ?_ hrd hdn hm'
        · rw [hin]
          apply drop_eq_nil_of_le
          change (out ++ c.input.drop out.length).length ≤
            out.length + ((out ++ c.input.drop out.length).length - out.length)
          omega
        · rw [hc, length_append]
          exact congrArg (· + out.length) hbd.received
    | done left =>
      obtain ⟨before, hbe⟩ := hu left rfl
      have hlf : c.input.drop (c.input.length - left.length) = left := by
        rw [← hbe, length_append, Nat.add_sub_cancel, drop_left]
      change Conn.handleOneBodyFragment env cleanup ((c.setReader (.chunked decoder)).setInput
        (out ++ c.input.drop (c.input.length - left.length))) out.length 0 true outcome =
          some c' at h
      rw [hlf] at h
      obtain ⟨c2, hk, hin, hno, hp, ht, hcs, hn⟩ :=
        fragment_complete (hmd _) hbd.request ho h
      have hta : ((c.setReader (.chunked decoder)).setInput (out ++ left)).input.take
          out.length = out := take_left
      rw [hta] at hcs
      have ha : ¬out.length + data.length ≥ env.maxRequestEntitySize :=
        fun hg => hl ⟨nofun, hg⟩
      have hfd : Framed env step rest ⟨req, some (data ++ out)⟩ left := by
        refine .chunked hh hd ?_ ?_
        · rw [hdr, hfe]
        · rw [length_append]
          omega
      exact accounted_complete hr hfd { hk with } (hin.trans drop_left) hno hp ht hcs hn

lemma accounted_entity (he : Correct env step)
    (hr : Receiving env step stream cleanup c rest req reader₀ used data)
    (hw : Within reader₀ used) (hd : c.reader = some reader) (ho : outcome.Ok)
    (h : c.handleIncomingEntity env cleanup reader outcome = some c') :
    Accounted env step stream c' := by
  obtain ⟨n, head, expects, hh, hc, hdr⟩ := hr.body.head
  obtain ⟨reader', hr', hs⟩ := hr.body.reads
  obtain rfl := some.inj (hd.symm.trans hr')
  cases hs with
  | length m used => exact accounted_length hr hw ho h
  | chunked hu =>
    change Conn.handleChunkedEntityRead env cleanup c _ outcome = some c' at h
    unfold Conn.handleChunkedEntityRead at h
    split_ifs at h with hm
    · cases h
      exact ⟨rest, hr.pipe, .waiting hr.body hr.mode trivial hm hr.continuing hr.reading⟩
    · have ha := Incremental.feed_append (by rw [hu]) c.input
      rw [hu] at ha
      rw [he.decode] at h
      exact accounted_decoded hr ho hh hc hdr ha (fun left hl => Incremental.feed_done_suffix hl) h

end Reading

/-! ## Reading a head -/

/-- A request that is not a tunnel, and is not upgraded to HTTP/2. -/
def Decision.Plain : Decision σ → Prop
  | .refuse _ => True
  | .readBody req _ _ => req.isTunnelReq = false
  | .process req => req.isTunnelReq = false
  | _ => False

instance (d : Decision σ) : Decidable d.Plain :=
  match d with
  | .refuse _ => isTrue trivial
  | .readBody req _ _ => inferInstanceAs (Decidable (req.isTunnelReq = false))
  | .process req => inferInstanceAs (Decidable (req.isTunnelReq = false))
  | .upgradeH2 _ => isFalse id
  | .methodNotAllowed _ => isFalse id
  | .tunnel _ => isFalse id

/-- None of the requests of the stream is a tunnel. -/
def NoTunnels (env : Env σ) (step : σ → UInt8 → Step σ UInt8) (stream : Bytes) : Prop :=
  ∀ messages rest n head, Pipelined env step stream messages rest → HasHead env rest n head →
    (decideRequest env head).Plain

lemma NoTunnels.of_append (he : Correct env step) {more : Bytes}
    (h : NoTunnels env step (stream ++ more)) : NoTunnels env step stream :=
  fun messages rest n head hpi hh =>
    h messages (rest ++ more) n head (hpi.append he more) (hh.append he more)

/-- A head that is refused. -/
lemma accounted_refuse (hpi : Pipelined env step stream (handed c.calls).done rest)
    (hfr : Fresh c) (hm : Maximal env step (handed c.calls).done rest) :
    Accounted env step stream (c.refuse err) := by
  have hc : handed (c.refuse err).calls = handed c.calls := handed_concat c.calls _
  exact ⟨rest, by rwa [hc], .refused ⟨hfr.reader, hfr.proceedReq, rfl,
    hfr.continuing, rfl⟩ (by rwa [hc])⟩

/-- A request without a body. -/
lemma accounted_process {req : Request}
    (hpi : Pipelined env step stream (handed c.calls).done rest) (hfr : Fresh c)
    (hin : c.input = rest) (hh : HasHead env rest n head)
    (hd : decideRequest env head = .process req) (ht : req.isTunnelReq = false) :
    Accounted env step stream ((c.setRequest req n).readStop.process req) := by
  have hc : handed ((c.setRequest req n).readStop.process req).calls =
      ⟨(handed c.calls).done ++ [⟨req, none⟩], none⟩ := by
    refine (handed_concat _ _).trans ?_
    rw [show (c.setRequest req n).readStop.entity = none from hfr.entity,
      show (c.setRequest req n).readStop.proceedReq = false from hfr.proceedReq]
    rfl
  refine ⟨rest.drop n, ?_, .complete ⟨by rw [← hin]; rfl, hfr.reader, hfr.proceedReq, rfl,
    hfr.continuing, hfr.closed, by rw [hc], ht, ?_⟩ ?_⟩
  · rw [hc]
    exact hpi.concat hfr.persistent (.plain hh hd)
  · rw [hc]
    exact (hfr.persistent.concat_iff (m := ⟨req, none⟩)).symm
  · change c.ostreamState ≠ .done
    rw [hfr.ostreamState]
    decide

variable (he : Correct env step) (hpl : NoTunnels env step stream)
  (hpi : Pipelined env step stream (handed c.calls).done rest) (hfr : Fresh c)
  (hin : c.input = rest)
include he hpl hpi hfr hin

/-- A head that is complete. -/
lemma accounted_onHeadComplete (hh : HasHead env rest n head) (ho : outcome.Ok)
    (h : c.onHeadComplete env n head outcome = some c') : Accounted env step stream c' := by
  have hd := hpl _ _ _ _ hpi hh
  unfold Conn.onHeadComplete at h
  cases hde : decideRequest env head with
  | upgradeH2 req | methodNotAllowed req | tunnel req =>
    rw [hde] at hd
    exact hd.elim
  | refuse err =>
    rw [hde] at h
    cases h
    exact accounted_refuse (c := { c with unconsumedRequestSize := n }) hpi { hfr with }
      (maximal_of_refuse hh hde)
  | process req =>
    rw [hde] at h hd
    cases h
    exact accounted_process hpi hfr hin hh hde hd
  | readBody req expects reader =>
    rw [hde] at h hd
    dsimp only at h
    generalize hc1 : (c.setRequest req n).startBody reader n .first = c1 at h
    have hs : Reads step reader [] reader [] ∧ Within reader [] := by
      cases reader with
      | contentLength m => exact ⟨.length m [], Nat.zero_le m⟩
      | chunked decoder => exact ⟨.chunked rfl, trivial⟩
    have hr : Receiving env step stream some c1 rest req reader [] [] := by
      subst hc1
      refine ⟨hpi, ⟨⟨n, head, expects, hh, hde, by rw [← hin]; rfl⟩,
        ⟨reader, rfl, hs.1⟩, rfl, hd, rfl, hfr.received, rfl, hfr.closed,
        hfr.persistent⟩, .whole (.inl rfl) rfl hfr.current hfr.proceedReq
        hfr.hasGenerator hfr.ostreamState hfr.processCalled, hfr.continuing,
        hfr.reading, fun hn => ?_⟩
      cases hfr.ostreamState.symm.trans hn
    split_ifs at h with hx
    · cases h
      have hc : handed ((c1.setContinuing true).readStop.call .continue100).calls =
          handed c1.calls := handed_concat c1.calls .continue100
      have hb : Body env step ((c1.setContinuing true).readStop.call .continue100) rest req
          reader [] [] := { hr.body with persistent := by rw [hc]; exact hr.body.persistent }
      exact ⟨rest, by rw [hc]; exact hr.pipe, .continuing hb (hr.mode.congr hc rfl)
        hs.2 rfl rfl (by rw [← hc1]; exact hfr.proceedReq)⟩
    · exact accounted_entity he hr hs.2 (by rw [← hc1]; rfl) ho h

lemma accounted_request (ha : ∀ n head, env.parseRequest (rest.take maxReqlen) c.prevReqlen =
      .complete n head ↔ HasHead env rest n head) (ho : outcome.Ok)
    (h : c.handleIncomingRequest env outcome = some c') : Accounted env step stream c' := by
  unfold Conn.handleIncomingRequest at h
  dsimp only at h
  rw [hin] at h
  have hf1 (n : ℕ) : Fresh (c.setPrevReqlen n) := { hfr with }
  cases hp : env.parseRequest (rest.take maxReqlen) c.prevReqlen with
  | complete n head =>
    rw [hp] at h
    exact accounted_onHeadComplete (c := c.setPrevReqlen (rest.take maxReqlen).length) he hpl
      hpi (hf1 _) hin ((ha n head).1 hp) ho h
  | incomplete =>
    rw [hp] at h ha
    have hn : ∀ n head, ¬ HasHead env rest n head := fun n head hh => nomatch (ha n head).2 hh
    dsimp only at h
    split_ifs at h with hf
    · cases h
      exact accounted_refuse hpi (hf1 _) (maximal_of_no_head hn)
    · cases h
      rw [length_take] at hf
      have hl : rest.length < maxReqlen := by omega
      unfold HasHead at hn
      rw [take_of_length_le hl.le] at hn ⊢
      exact ⟨rest, hpi, .head (hf1 _) hin (.inr ⟨rfl, hl, hn⟩)⟩
  | error =>
    rw [hp] at h ha
    have hm : Maximal env step (handed c.calls).done rest :=
      maximal_of_no_head fun n head hh => nomatch (ha n head).2 hh
    dsimp only at h
    split_ifs at h
    · cases h
      have hc : handed ((c.setPrevReqlen (rest.take maxReqlen).length).call
          .acceptHttp2).close.calls = handed c.calls := handed_concat c.calls .acceptHttp2
      exact ⟨rest, by rwa [hc], .closed rfl rfl (by rwa [hc])⟩
    · cases h
      exact ⟨rest, hpi, .closed rfl rfl hm⟩
    · cases h
      exact accounted_refuse hpi (hf1 _) hm

omit he hpl hpi hfr hin

/-- `cleanup_connection` goes on with the next request. -/
lemma cleansUp (he : Correct env step) (hpl : NoTunnels env step stream)
    (hk : outcome.Ok) : CleansUp env step stream (Conn.cleanupConnection env outcome) := by
  refine ⟨fun c rest c' ho hpi h => ?_, fun c hc => ?_⟩
  · unfold Conn.cleanupConnection at h
    cases hp : c.http1IsPersistent with
    | false =>
      rw [hp] at h
      cases h
      refine ⟨rest, hpi, .closed rfl rfl fun ha => ?_⟩
      cases hp.symm.trans (ho.persistent.2 ha)
    | true =>
      rw [hp, ho.proceedReq, ho.reader] at h
      change c.nextRequest.reqreadStart env outcome = some c' at h
      have hfr : Fresh c.nextRequest.readStart :=
        ⟨ho.reader, rfl, rfl, rfl, rfl, rfl, rfl, ho.continuing, ho.closed,
          rfl, ho.current, ho.persistent.1 hp⟩
      have hin : c.nextRequest.readStart.input = rest := ho.input
      unfold Conn.reqreadStart at h
      dsimp only at h
      split_ifs at h with hm
      · exact accounted_request (c := c.nextRequest.readStart) he hpl hpi hfr hin (fun _ _ => .rfl)
          hk h
      · cases h
        exact ⟨rest, hpi, .head hfr hin (.inl ⟨hin ▸ not_not.1 hm, rfl⟩)⟩
  · unfold Conn.cleanupConnection
    rw [hc]
    rfl

/-! ## Events -/

/-- Nothing fails, and the handlers do not close the connection. -/
def Calm (_ : Conn σ) : Event → Prop
  | .read _ outcome => outcome.Ok
  | .continueSent outcome => outcome.Ok
  | .proceed failed _ => failed = false
  | .startResponse closes => closes = false
  | .sendComplete failed outcome => failed = false ∧ outcome.Ok
  | .close => False

lemma Within.of_more {used : Bytes} (h : More reader used) : Within reader used := by
  cases reader with
  | contentLength m => exact Nat.le_of_lt h
  | chunked decoder => exact trivial

section Events

variable (h : Accounted env step stream c) (hop : c.closed = false)
include he h hop

/-- Octets are read. -/
lemma accounted_read {data : Bytes} (hpl : NoTunnels env step (stream ++ data))
    (hd : c.reading = true) (hk : outcome.Ok)
    (hstep : c.reqreadOnRead env data outcome = some c') :
    Accounted env step (stream ++ data) c' := by
  obtain ⟨rest, hpi, ht⟩ := h
  have hp1 := hpi.append he data
  cases ht with
  | head hfr hin hw =>
    rw [Conn.reqreadOnRead_head hfr.reader] at hstep
    refine accounted_request (c := c.setInput (c.input ++ data)) he hpl hp1
      { hfr with } (congrArg (· ++ data) hin) ?_ hk hstep
    intro n head
    change env.parseRequest ((rest ++ data).take maxReqlen) c.prevReqlen = _ ↔ _
    rcases hw with ⟨-, hpr⟩ | ⟨hpr, hl, hi⟩
    · rw [hpr]
      rfl
    · -- what was parsed before is not parsed again
      obtain ⟨zs, hz⟩ := take_append_eq rest data maxReqlen
      rw [take_of_length_le hl.le] at hz
      unfold HasHead
      rw [hpr, hz]
      exact he.resume hi zs n head
  | @waiting _ _ used _ hb hm hmo hin hco _ =>
    obtain ⟨n, head, expects, hh, hc, hdr⟩ := hb.head
    obtain ⟨reader, hrd, hrs⟩ := hb.reads
    rw [Conn.reqreadOnRead_body hrd] at hstep
    have hd1 : (rest ++ data).drop n = used ++ (c.input ++ data) := by
      rw [hh.drop_append he, hdr, append_assoc]
    exact accounted_entity (c := c.setInput (c.input ++ data)) he
      ⟨hp1, { hb with head := ⟨n, head, expects, hh.append he data, hc, hd1⟩ },
        hm.congr rfl rfl, hco, hd, fun _ => cleansUp he hpl hk⟩
      (.of_more hmo) hrd hk hstep
  | continuing _ _ _ _ hs _ => cases hs.symm.trans hd
  | pending _ hp _ _ _ => cases hp.reading.symm.trans hd
  | complete ho _ => cases ho.reading.symm.trans hd
  | refused hf _ => cases hf.reading.symm.trans hd
  | closed hcl _ _ => cases hcl.symm.trans hop

/-- The 100 response has been sent. -/
lemma accounted_continueSent (hpl : NoTunnels env step stream) (hc : c.continuing = true)
    (hk : outcome.Ok) (hstep : c.onContinueSent env outcome = some c') :
    Accounted env step stream c' := by
  obtain ⟨rest, hpi, ht⟩ := h
  cases ht with
  | continuing hb hm hw _ _ hpr =>
    obtain ⟨reader, hd, hs⟩ := hb.reads
    unfold Conn.onContinueSent at hstep
    dsimp only at hstep
    rw [show (c.setContinuing false).readStart.reader = c.reader from rfl, hd] at hstep
    exact accounted_entity (c := (c.setContinuing false).readStart) he
      ⟨hpi, { hb with }, hm.congr rfl rfl, rfl, rfl, fun _ => cleansUp he hpl hk⟩
      hw hd hk hstep
  | head hfr _ _ => cases hfr.continuing.symm.trans hc
  | waiting _ _ _ _ hco _ | pending _ _ _ _ hco =>
    cases hco.symm.trans hc
  | complete ho _ => cases ho.continuing.symm.trans hc
  | refused hf _ => cases hf.continuing.symm.trans hc
  | closed hl _ _ => cases hl.symm.trans hop

omit he

/-- A handler asks to proceed. -/
lemma accounted_proceed (hp : c.proceedReq = true)
    (hstep : c.proceedRequest env false outcome = some c') :
    Accounted env step stream c' := by
  obtain ⟨rest, hpi, ht⟩ := h
  have hs : c' = ((c.setWriteReq (some .handler)).setPending false).clearBody.readStart := by
    unfold Conn.proceedRequest at hstep
    rw [if_neg Bool.false_ne_true] at hstep
    split at hstep
    · split_ifs at hstep
      exact (some.inj hstep).symm
    · cases hstep
  subst hs
  cases ht with
  | waiting hb hmd hm hin hco hd =>
    cases hmd with
    | whole _ _ _ hpr _ _ _ => cases hpr.symm.trans hp
    | streamed hw hq hc hpr =>
      exact ⟨rest, hpi, .waiting { hb with } (.streamed rfl rfl hc hpr) hm hin hco rfl⟩
  | pending hb hn hm hin hco =>
    exact ⟨rest, hpi, .waiting { hb with }
      (.streamed rfl rfl hn.current hn.proceedReq) hm hin hco rfl⟩
  | continuing _ _ _ _ _ hpr => cases hpr.symm.trans hp
  | head hfr _ _ => cases hfr.proceedReq.symm.trans hp
  | complete ho _ => cases ho.proceedReq.symm.trans hp
  | refused hf _ => cases hf.proceedReq.symm.trans hp
  | closed hl _ _ => cases hl.symm.trans hop

/-- The state of the response. -/
def Conn.withResponse (c : Conn σ) (hasGenerator : Bool) (ostreamState : OstreamState) : Conn σ :=
  { c with hasGenerator, ostreamState }

omit h hop in
lemma startResponse_eq (c : Conn σ) : c.startResponse false = c.withResponse true .body := by
  unfold Conn.startResponse Conn.withResponse
  rw [Bool.not_false, Bool.and_true]

omit h hop in
lemma endResponse_eq (c : Conn σ) :
    c.endResponse false = c.withResponse c.hasGenerator .done := by
  unfold Conn.endResponse Conn.withResponse
  rw [Bool.not_false, Bool.and_true]

/-- A response starts. -/
lemma accounted_startResponse (hp : c.processCalled = true) :
    Accounted env step stream (c.startResponse false) := by
  obtain ⟨rest, hpi, hs⟩ := h
  rw [startResponse_eq]
  cases hs with
  | waiting hb hmd hmo hin hco hd =>
    cases hmd with
    | whole _ _ _ _ _ _ hn => cases hn.symm.trans hp
    | streamed hw hq hc hpr =>
      exact ⟨rest, hpi, .waiting { hb with } (.streamed hw hq hc hpr) hmo hin hco hd⟩
  | pending hb hpe hmo hin hco =>
    exact ⟨rest, hpi, .pending { hb with } { hpe with } hmo hin hco⟩
  | complete hm _ => exact ⟨rest, hpi, .complete { hm with } nofun⟩
  | refused hf ha => exact ⟨rest, hpi, .refused { hf with } ha⟩
  | head hfr _ _ => cases hfr.processCalled.symm.trans hp
  | continuing _ hmd _ _ _ hpr =>
    cases hmd with
    | whole _ _ _ _ _ _ hn => cases hn.symm.trans hp
    | streamed _ _ _ ho => cases hpr.symm.trans ho
  | closed hl _ _ => cases hl.symm.trans hop

include he

/-- A response has been sent. -/
lemma accounted_sendComplete (hpl : NoTunnels env step stream) (hg : c.hasGenerator = true)
    (hk : outcome.Ok)
    (hstep : c.onSendComplete env false outcome = some c') : Accounted env step stream c' := by
  obtain ⟨rest, hpi, hst⟩ := h
  have hl : CleansUp env step stream (Conn.cleanupConnection env outcome) :=
    cleansUp he hpl hk
  unfold Conn.onSendComplete at hstep
  rw [endResponse_eq] at hstep
  dsimp only at hstep
  rw [show (c.withResponse c.hasGenerator .done).req = c.req from rfl,
    show (c.withResponse c.hasGenerator .done).proceedReq = c.proceedReq from rfl,
    show (c.withResponse c.hasGenerator .done).http1IsPersistent = c.http1IsPersistent
      from rfl] at hstep
  -- while the body is read, the response only ends
  have hen {req reader₀ used data} (hb : Body env step c rest req reader₀ used data)
      (hpr : c.proceedReq = true) : c' = c.withResponse c.hasGenerator .done := by
    have ht : ¬c.req.any Request.isTunnelReq := by
      rw [hb.request]
      exact ne_true_of_eq_false hb.isTunnelReq
    rw [if_neg ht, hpr] at hstep
    exact (some.inj hstep).symm
  cases hst with
  | waiting hb hmd hmo hin hco hd =>
    cases hmd with
    | whole _ _ _ _ hn _ _ => cases hn.symm.trans hg
    | streamed hw hq hu hpr =>
      obtain rfl := hen hb hpr
      exact ⟨rest, hpi, .waiting { hb with } (.streamed hw hq hu hpr) hmo hin hco hd⟩
  | pending hb hp hmo hin hco =>
    obtain rfl := hen hb hp.proceedReq
    exact ⟨rest, hpi, .pending { hb with } { hp with } hmo hin hco⟩
  | complete hc _ =>
    rw [if_neg (ne_true_of_eq_false hc.isTunnelReq), hc.proceedReq] at hstep
    exact hl.next (c.withResponse c.hasGenerator .done) rest c' { hc with } hpi hstep
  | refused hf hm =>
    -- the connection is not kept
    have hs := hl.close (c.withResponse c.hasGenerator .done) hf.http1IsPersistent
    rw [hf.http1IsPersistent, hf.proceedReq, hs] at hstep
    obtain rfl : (c.withResponse c.hasGenerator .done).close = c' := by
      split at hstep <;> exact some.inj hstep
    exact ⟨rest, hpi, .closed rfl rfl hm⟩
  | head hfr _ _ => cases hfr.hasGenerator.symm.trans hg
  | continuing _ hmd _ _ _ hpr =>
    cases hmd with
    | whole _ _ _ _ hn _ _ => cases hn.symm.trans hg
    | streamed _ _ _ ho => cases hpr.symm.trans ho
  | closed hcl _ _ => cases hcl.symm.trans hop

lemma accounted_step {e : Event} (hpl : NoTunnels env step (stream ++ e.data))
    (hpo : possible c e) (ho : Calm c e)
    (hstep : Http1Server.step env c e = some c') : Accounted env step (stream ++ e.data) c' := by
  cases e with
  | read data outcome =>
    obtain ⟨hd, -⟩ := and_eq_true_iff.1 hpo
    exact accounted_read he h hop hpl hd ho hstep
  | continueSent outcome =>
    rw [show (Event.continueSent outcome).data = [] from rfl, append_nil] at hpl ⊢
    exact accounted_continueSent he h hop hpl hpo ho hstep
  | proceed failed outcome =>
    obtain rfl : failed = false := ho
    rw [show (Event.proceed false outcome).data = [] from rfl, append_nil]
    have hpr : c.proceedRequest env false outcome = some c' := hstep
    exact accounted_proceed h hop (and_eq_true_iff.1 hpo).1 hpr
  | startResponse closes =>
    obtain rfl : closes = false := ho
    rw [show (Event.startResponse false).data = [] from rfl, append_nil]
    obtain rfl := some.inj hstep
    exact accounted_startResponse h hop (and_eq_true_iff.1 hpo).1
  | sendComplete failed outcome =>
    obtain ⟨rfl, ho⟩ := ho
    rw [show (Event.sendComplete false outcome).data = [] from rfl, append_nil] at hpl ⊢
    exact accounted_sendComplete he h hop hpl (and_eq_true_iff.1 hpo).1 ho hstep
  | close => exact ho.elim

end Events

include he

/-- In every run the requests that were handed over are those of the stream. -/
lemma accounted_of_reach (h : Reach env Calm c stream)
    (hpl : NoTunnels env step stream) : Accounted env step stream c := by
  induction h with
  | accept =>
    exact ⟨[], .nil, .head ⟨rfl, rfl, rfl, rfl, rfl, rfl, rfl, rfl, rfl, rfl, rfl, nofun⟩ rfl
      (.inl ⟨rfl, rfl⟩)⟩
  | step _ ho hp hk hstep ih =>
    exact accounted_step he (ih (hpl.of_append he)) ho hpl hp hk hstep

/-- A connection that waits for octets, or is closed, has handed over all requests. -/
lemma State.maximal (h : State env step c rest) (hi : c.reading = true ∨ c.closed = true) :
    Maximal env step (handed c.calls).done rest := by
  have hu : c.reading = false → c.closed = false → False := by
    intro hd hl
    rw [hd, hl] at hi
    rcases hi with hi | hi <;> cases hi
  cases h with
  | head hfr hin hw =>
    apply maximal_of_no_head
    intro n head hh
    rcases hw with ⟨rfl, -⟩ | ⟨-, ht, hn⟩
    · obtain ⟨hpos, hle, -⟩ := he.complete hh
      exact absurd hle (not_le.2 hpos)
    · rw [take_of_length_le ht.le] at hh
      exact hn n head hh
  | waiting hb hmd ho hin hco hd =>
    obtain ⟨n, head, expects, hh, hde, hdr⟩ := hb.head
    obtain ⟨reader, -, hs⟩ := hb.reads
    rw [hin, append_nil] at hdr
    refine maximal_of_body hh hde ?_
    cases hs with
    | length m used =>
      rw [hdr]
      exact ho
    | chunked hfe =>
      intro body left hdn
      rw [hdr, hfe] at hdn
      cases (mk.inj hdn).2
  | refused hf hm | closed hl _ hm => exact hm
  | continuing hb _ _ _ hd _ => exact (hu hd hb.closed).elim
  | pending hb hp _ _ _ => exact (hu hp.reading hb.closed).elim
  | complete hc _ => exact (hu hc.reading hc.closed).elim

omit he

/-- A parser that knows one head. -/
def knowsHead (text : Bytes) (head : Head) (xs : Bytes) : ParseResult :=
  if text.isPrefixOf xs then .complete text.length head
  else if xs.isPrefixOf text then .incomplete
  else .error

/-- A server that knows one head and takes bodies that are smaller than this. -/
def knowingServer (text : Bytes) (head : Head) (maxRequestEntitySize : ℕ) :
    Env Http1.Decoder where
  parseRequest xs _ := knowsHead text head xs
  zeroDecoder := { Http1.Decoder.zero with consumeTrailer := true }
  decodeChunked decoder buf :=
    ((feed Http1.Decoder.step decoder buf).1, (feed Http1.Decoder.step decoder buf).2.1,
      chunkResult (feed Http1.Decoder.step decoder buf).2.2)
  parseUrl _ := none
  canStreamRequest _ := true
  maxRequestEntitySize := maxRequestEntitySize
  isSsl := false
  upgradeToHttp2 := false
  shutdownRequested := false

lemma correct_knowingServer (ht : text ≠ []) (head : Head) (max : ℕ) :
    Correct (knowingServer text head max) Http1.Decoder.step := by
  refine ⟨fun {xs n he'} h => ?_, fun _ _ _ _ => .rfl, fun _ _ => rfl⟩
  change knowsHead text head xs = _ at h
  unfold knowsHead at h
  split_ifs at h with hpr
  cases h
  rw [List.isPrefixOf_iff_prefix] at hpr
  refine ⟨length_pos_of_ne_nil ht, hpr.length_le, fun ys => ?_⟩
  have ha : text.isPrefixOf (xs ++ ys) := by
    rw [List.isPrefixOf_iff_prefix]
    exact hpr.trans (prefix_append xs ys)
  change knowsHead text head (xs ++ ys) = _
  unfold knowsHead
  rw [if_pos ha]

lemma noTunnels_knowingServer {max : ℕ}
    (h : (decideRequest (knowingServer text head max) head).Plain) (stream : Bytes) :
    NoTunnels (knowingServer text head max) Http1.Decoder.step stream := by
  intro messages rest n he' _ hh
  change knowsHead text head (rest.take maxReqlen) = _ at hh
  unfold knowsHead at hh
  split_ifs at hh
  cases hh
  exact h

/-- A request with a body of five octets. -/
def fiveText : Bytes := ascii "POST / HTTP/1.1\r\ncontent-length: 5\r\n\r\n"

/-- Two of them. -/
def twoRequests : Bytes := fiveText ++ ascii "hello" ++ fiveText ++ ascii "world"

/-- A server that knows the head. -/
def fiveServer : Env Http1.Decoder := knowingServer fiveText (post [("content-length", "5")]) 1000

/-- A response is sent. -/
def respond : List Event := [.startResponse false, .sendComplete false allOk]

/-- The heads that were handed over, whether the body is complete or not. -/
def heads (calls : List Call) : List Request :=
  calls.filterMap fun
    | .process req _ _ => some req
    | _ => none

/-- A request with a chunked body. -/
def chunkedText : Bytes := ascii "POST / HTTP/1.1\r\ntransfer-encoding: chunked\r\n\r\n"

/-- A body of six octets in two chunks. -/
def sixOctets : Bytes := ascii "3\r\nabc\r\n3\r\ndef\r\n0\r\n\r\n"

/-- A server that refuses bodies of five octets. -/
def chunkedServer : Env Http1.Decoder :=
  knowingServer chunkedText (post [("transfer-encoding", "chunked")]) 5

end Vhttp.Http1Server
