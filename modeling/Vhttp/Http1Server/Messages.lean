import Vhttp.Http1Server.Basic

/-!
# The requests in a stream of octets

What the requests of a connection are, said about the whole stream and not about its pieces: a head,
then a body whose end the head or the chunks announce, and then the next request.

* `Framed.append`, `Pipelined.append`: more octets do not change the requests before them.
* `pipelined_unique`: the stream has one sequence of requests.
-/

namespace Vhttp.Http1Server

open List
open Http1 (ChunkResult)
open Incremental (Step Result feed)

variable {σ : Type} {env : Env σ} {step : σ → UInt8 → Step σ UInt8}

/-- The return value of `phr_decode_chunked` for the result of an incremental decoder. -/
def chunkResult : Result UInt8 → ChunkResult
  | .more => .incomplete
  | .done rest => .complete rest.length
  | .fail => .error

/-- The parsers are correct incremental parsers: more octets do not change a head that is complete,
to resume finds the head that starting again would find, and the chunked decoder takes octets one by
one. -/
structure Correct (env : Env σ) (step : σ → UInt8 → Step σ UInt8) : Prop where
  complete : ∀ {xs : Bytes} {n : ℕ} {head : Head}, env.parseRequest xs 0 = .complete n head →
    0 < n ∧ n ≤ xs.length ∧ ∀ ys, env.parseRequest (xs ++ ys) 0 = .complete n head
  resume : ∀ {xs : Bytes}, (∀ n head, env.parseRequest xs 0 ≠ .complete n head) → ∀ ys n head,
    (env.parseRequest (xs ++ ys) xs.length = .complete n head ↔
      env.parseRequest (xs ++ ys) 0 = .complete n head)
  decode : ∀ (decoder : σ) (buf : Bytes), env.decodeChunked decoder buf =
    ((feed step decoder buf).1, (feed step decoder buf).2.1,
      chunkResult (feed step decoder buf).2.2)

/-- A request: the head, and the body if it has one. -/
structure Message where
  req : Request
  body : Option Bytes

/-- The stream starts with this head. -/
def HasHead (env : Env σ) (stream : Bytes) (n : ℕ) (head : Head) : Prop :=
  env.parseRequest (stream.take maxReqlen) 0 = .complete n head

/-- The stream starts with this request, and the rest follows. -/
inductive Framed (env : Env σ) (step : σ → UInt8 → Step σ UInt8) (stream : Bytes) :
    Message → Bytes → Prop
  | plain {n : ℕ} {head : Head} {req : Request} (hhead : HasHead env stream n head)
    (hdecide : decideRequest env head = .process req) :
    Framed env step stream ⟨req, none⟩ (stream.drop n)
  | length {n m : ℕ} {head : Head} {req : Request} {expects : Bool}
    (hhead : HasHead env stream n head)
    (hdecide : decideRequest env head = .readBody req expects (.contentLength m))
    (hm : m ≤ (stream.drop n).length) :
    Framed env step stream ⟨req, some ((stream.drop n).take m)⟩ ((stream.drop n).drop m)
  | chunked {n : ℕ} {head : Head} {req : Request} {expects : Bool} {decoder : σ}
    {body rest : Bytes} (hhead : HasHead env stream n head)
    (hdecide : decideRequest env head = .readBody req expects (.chunked decoder))
    (hbody : (feed step decoder (stream.drop n)).2 = (body, .done rest))
    (hsize : body.length < env.maxRequestEntitySize) :
    Framed env step stream ⟨req, some body⟩ rest

/-- The connection is kept after all of these. -/
def AllPersistent (messages : List Message) : Prop :=
  ∀ m ∈ messages, m.req.http1IsPersistent

/-- The stream starts with these requests, and the rest follows. -/
inductive Pipelined (env : Env σ) (step : σ → UInt8 → Step σ UInt8) (stream : Bytes) :
    List Message → Bytes → Prop
  | nil : Pipelined env step stream [] stream
  | concat {messages : List Message} {m : Message} {rest rest' : Bytes}
    (h : Pipelined env step stream messages rest) (hpersistent : AllPersistent messages)
    (hframed : Framed env step rest m rest') :
    Pipelined env step stream (messages ++ [m]) rest'

/-! ## More octets -/

lemma take_append_eq (xs ys : Bytes) (n : ℕ) : ∃ zs, (xs ++ ys).take n = xs.take n ++ zs := by
  rw [take_append]
  exact ⟨_, rfl⟩

variable {head : Head} {m : Message} {messages messages' : List Message} {n : ℕ}
  {rest rest' stream : Bytes}

variable (he : Correct env step)
include he

variable (h : HasHead env stream n head)
include h

lemma HasHead.append (more : Bytes) : HasHead env (stream ++ more) n head := by
  obtain ⟨zs, hz⟩ := take_append_eq stream more maxReqlen
  unfold HasHead
  rw [hz]
  exact (he.complete h).2.2 zs

lemma HasHead.le : n ≤ stream.length :=
  (he.complete h).2.1.trans (length_take_le' _ _)

lemma HasHead.drop_append (more : Bytes) :
    (stream ++ more).drop n = stream.drop n ++ more := drop_append_of_le_length (h.le he)

omit h

/-- More octets do not change a request. -/
theorem Framed.append (h : Framed env step stream m rest) (more : Bytes) :
    Framed env step (stream ++ more) m (rest ++ more) := by
  cases h with
  | plain hh hd =>
    rw [← hh.drop_append he]
    exact .plain (hh.append he more) hd
  | @length n m head req expects hh hd hm =>
    have hr := hh.drop_append he more
    have ht : (stream.drop n).take m = ((stream ++ more).drop n).take m := by
      rw [hr, take_append_of_le_length hm]
    have hre : (stream.drop n).drop m ++ more = ((stream ++ more).drop n).drop m := by
      rw [hr, drop_append_of_le_length hm]
    rw [ht, hre]
    refine .length (hh.append he more) hd ?_
    rw [hr, length_append]
    exact hm.trans (Nat.le_add_right _ _)
  | @chunked n head req expects decoder body rest hh hd hb hs =>
    refine .chunked (hh.append he more) hd ?_ hs
    have hn : (feed step decoder (stream.drop n)).2.2 = .done rest := by rw [hb]
    rw [hh.drop_append he]
    apply Prod.ext
    · rw [Incremental.feed_append_done_output hn, hb]
    · exact Incremental.feed_append_done hn more

/-- More octets only make the rest longer. -/
theorem Pipelined.append (h : Pipelined env step stream messages rest) (more : Bytes) :
    Pipelined env step (stream ++ more) messages (rest ++ more) := by
  induction h with
  | nil => exact .nil
  | concat _ hp hf ih => exact .concat ih hp (hf.append he more)

omit he

/-! ## One sequence of requests -/

/-- A stream starts with one request at most. -/
lemma framed_unique {m' : Message}
    (h : Framed env step stream m rest) (h' : Framed env step stream m' rest') :
    m = m' ∧ rest = rest' := by
  cases h with
  | plain hh hd | length hh hd _ =>
    cases h' with
    | plain hh' hd' | length hh' hd' _ | chunked hh' hd' _ _ =>
      cases hh.symm.trans hh'
      cases hd.symm.trans hd'
      all_goals exact ⟨rfl, rfl⟩
  | chunked hh hd hb _ =>
    cases h' with
    | plain hh' hd' | length hh' hd' _ =>
      cases hh.symm.trans hh'
      cases hd.symm.trans hd'
    | chunked hh' hd' hb' _ =>
      cases hh.symm.trans hh'
      cases hd.symm.trans hd'
      cases hb.symm.trans hb'
      exact ⟨rfl, rfl⟩

/-- Sequences of the same length are the same. -/
theorem pipelined_unique
    (h : Pipelined env step stream messages rest) (h' : Pipelined env step stream messages' rest')
    (hlen : messages.length = messages'.length) : messages = messages' ∧ rest = rest' := by
  induction h generalizing messages' rest' with
  | nil =>
    obtain rfl := eq_nil_of_length_eq_zero hlen.symm
    generalize hn : ([] : List Message) = ms at h'
    cases h' with
    | nil => exact ⟨rfl, rfl⟩
    | concat => exact absurd hn (by simp)
  | concat h hp hf ih =>
    cases h' with
    | nil => simp at hlen
    | concat h' hp' hf' =>
      rw [length_append, length_append] at hlen
      obtain ⟨rfl, rfl⟩ := ih h' (Nat.add_right_cancel hlen)
      obtain ⟨rfl, rfl⟩ := framed_unique hf hf'
      exact ⟨rfl, rfl⟩

/-- The requests before a request. -/
lemma Pipelined.take
    (h : Pipelined env step stream messages rest) {k : ℕ} (hk : k < messages.length) :
    ∃ rest0 m rest1, Pipelined env step stream (messages.take k) rest0 ∧
      AllPersistent (messages.take k) ∧ Framed env step rest0 m rest1 := by
  induction h with
  | nil => cases hk
  | @concat messages m rest rest' h hp hf ih =>
    rcases Nat.lt_or_ge k messages.length with hl | hg
    · obtain ⟨rest0, m0, rest1, hr⟩ := ih hl
      rw [take_append_of_le_length hl.le]
      exact ⟨rest0, m0, rest1, hr⟩
    · rw [length_append, length_singleton] at hk
      obtain rfl : k = messages.length := by omega
      rw [take_left]
      exact ⟨rest, m, rest', h, hp, hf⟩

/-- There is no further request. -/
def Maximal (env : Env σ) (step : σ → UInt8 → Step σ UInt8) (messages : List Message)
    (rest : Bytes) : Prop :=
  AllPersistent messages → ∀ m rest', ¬Framed env step rest m rest'

/-- There is one sequence of requests that is followed by no further one. -/
lemma maximal_unique
    (h : Pipelined env step stream messages rest) (hm : Maximal env step messages rest)
    (h' : Pipelined env step stream messages' rest') (hm' : Maximal env step messages' rest') :
    messages = messages' := by
  have hl : ∀ {ms ms' : List Message} {r r' : Bytes}, Pipelined env step stream ms r →
      Maximal env step ms r → Pipelined env step stream ms' r' → ms'.length ≤ ms.length := by
    intro ms ms' r r' h hm h'
    by_contra ht
    obtain ⟨rest0, m, rest1, hi, hp, hf⟩ := h'.take (not_le.1 ht)
    have hlen : ms.length = (ms'.take ms.length).length := by
      rw [length_take]
      omega
    obtain ⟨hq, rfl⟩ := pipelined_unique h hi hlen
    rw [← hq] at hp
    exact hm hp m rest1 hf
  exact (pipelined_unique h h' (le_antisymm (hl h' hm' h) (hl h hm h'))).1

end Vhttp.Http1Server
