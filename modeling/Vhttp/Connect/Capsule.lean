import Vhttp.Http3.PriorityUpdate
import Vhttp.Lib.Items

/-!
# The capsules of CONNECT-UDP

The model of `udp_get_next_chunk`, `udp_do_write_stream`, `udp_write_datagrams` and `udp_on_read` in
`lib/handler/connect.c`. The request body is a sequence of capsules, a type, a length and a payload
each; those of type zero have datagrams for the UDP socket, after a context id since RFC 9298. Over
HTTP/3 the payloads may also come and go as HTTP datagrams.

* `items_capsules`: the capsules are found one after the other.
* `writeAll_capsules`: in whatever pieces they come, and with whatever HTTP datagrams in between,
  their datagrams are written. What is read from the socket is sent as a capsule or as an HTTP
  datagram that is read back.
-/

namespace Vhttp.Connect

open Prod Http3 Incremental List

/-- `udp_get_next_chunk`: whether to skip the chunk, the chunk, and how much to consume. -/
def udpGetNextChunk (start : Bytes) : Option ((Bool × Bytes) × ℕ) := do
  let (type, bytes) ← decodev start
  let (length, bytes) ← decodev bytes
  if bytes.length < length then none
  else some ((decide (type ≠ 0), bytes.take length), start.length - bytes.length + length)

variable {rest src : Bytes} {v : ℕ}

lemma decodev_append (h : decodev src = some (v, rest)) (ys : Bytes) :
    decodev (src ++ ys) = some (v, rest ++ ys) := by
  cases src with
  | nil => cases h
  | cons b src =>
    rw [decodev] at h
    rw [cons_append, decodev]
    split at h
    · cases h
      rw [if_pos ‹_›]
    · obtain ⟨hlen, h⟩ := Option.ite_none_left_eq_some.1 h
      cases h
      rw [if_neg ‹_›, if_neg (by rw [length_append]; omega), take_append_of_le_length (by omega),
        drop_append_of_le_length (by omega)]

lemma decodev_length (h : decodev src = some (v, rest)) : rest.length < src.length := by
  obtain ⟨n, hpos, hl, rfl⟩ := decodev_rest h
  rw [length_drop]
  omega

lemma udpGetNextChunk_eq_some {r : (Bool × Bytes) × ℕ} : udpGetNextChunk src = some r ↔
    ∃ type bytes length rest, decodev src = some (type, bytes) ∧
      decodev bytes = some (length, rest) ∧ length ≤ rest.length ∧
      r = ((decide (type ≠ 0), rest.take length), src.length - rest.length + length) := by
  simp only [udpGetNextChunk, Option.bind_eq_bind, Option.bind_eq_some_iff, Prod.exists,
    Option.ite_none_left_eq_some, Nat.not_lt, Option.some.injEq, @eq_comm _ r, exists_and_left]

/-- The loop of `udp_do_write_stream` takes the chunks off the front. -/
def chunkParser : ItemParser UInt8 (Bool × Bytes) where
  next := udpGetNextChunk
  pos h := by
    obtain ⟨_, _, _, _, h₁, h₂, -, heq⟩ := udpGetNextChunk_eq_some.1 h
    have := decodev_length h₁
    have := decodev_length h₂
    rw [(mk.inj heq).2]
    omega
  le h := by
    obtain ⟨_, _, _, _, h₁, h₂, hle, heq⟩ := udpGetNextChunk_eq_some.1 h
    have := decodev_length h₁
    have := decodev_length h₂
    rw [(mk.inj heq).2]
    omega
  append ys h := by
    obtain ⟨type, _, length, rest, h₁, h₂, hle, heq⟩ := udpGetNextChunk_eq_some.1 h
    refine udpGetNextChunk_eq_some.2 ⟨type, _, length, _, decodev_append h₁ ys,
      decodev_append h₂ ys, ?_, ?_⟩
    · rw [length_append]
      omega
    · rw [heq, take_append_of_le_length hle, length_append, length_append, Nat.add_sub_add_right]

/-- `udp_write_core`: what is sent on the socket. -/
def udpWriteCore (isDraft03 : Bool) (datagram : Bytes) : Option Bytes :=
  if isDraft03 then some datagram
  else
    match decodev datagram with
    | some (0, src) => some src
    | _ => none

/-- `udp_do_write_stream`, with what is in `udp.egress.buf` before and after it. -/
def udpDoWriteStream (isDraft03 : Bool) (buf chunk : Bytes) : List Bytes × Bytes :=
  let r := chunkParser.items (if buf ≠ [] then buf ++ chunk else chunk)
  (r.1.filterMap fun c => if c.1 then none else udpWriteCore isDraft03 c.2, r.2)

/-- `udp_write_datagrams`. -/
def udpWriteDatagrams (isDraft03 : Bool) (datagrams : List Bytes) : List Bytes :=
  datagrams.filterMap (udpWriteCore isDraft03)

/-- What comes from the client: a chunk of the request body, or HTTP datagrams. -/
inductive Egress where
  | chunk (bytes : Bytes)
  | datagrams (payloads : List Bytes)

def Egress.body : Egress → Bytes
  | .chunk bytes => bytes
  | .datagrams _ => []

def Egress.http : Egress → List Bytes
  | .chunk _ => []
  | .datagrams payloads => payloads

/-- What is written to the socket, with a mark on what is from the request body, and what is in the
buffer in the end. -/
def writeAll (isDraft03 : Bool) : Bytes → List Egress → List (Bool × Bytes) × Bytes
  | buf, [] => ([], buf)
  | buf, .chunk bytes :: es =>
    let r := udpDoWriteStream isDraft03 buf bytes
    let rest := writeAll isDraft03 r.2 es
    (r.1.map (true, ·) ++ rest.1, rest.2)
  | buf, .datagrams payloads :: es =>
    let rest := writeAll isDraft03 buf es
    ((udpWriteDatagrams isDraft03 payloads).map (false, ·) ++ rest.1, rest.2)

/-- What is done with a datagram from the socket. -/
inductive Ingress where
  /-- `vhttp_send` -/
  | send (chunk : Bytes)
  /-- `forward_datagram.read_` -/
  | forward (payload : Bytes)

/-- `udp_on_read`: the context id is put before a datagram; without `forward_datagram.read_`, the
length and the type are put before it too. -/
def udpOnRead (isDraft03 forwards : Bool) (datagram : Bytes) : Ingress :=
  let payload := if isDraft03 then datagram else 0 :: datagram
  if forwards then .forward payload else .send (0 :: (encodev payload.length ++ payload))

/-! ## Capsules -/

structure Capsule where
  type : ℕ
  payload : Bytes

/-- The type and the length may be written with more octets than they need. -/
def Capsule.IsEncoding (c : Capsule) (src : Bytes) : Prop :=
  ∃ type length, decodev type = some (c.type, []) ∧ decodev length = some (c.payload.length, []) ∧
    src = type ++ (length ++ c.payload)

/-- The rule of RFC 9298: a payload is a datagram behind the context id zero. The draft has no
context ids. -/
def udpPayload (isDraft03 : Bool) (payload : Bytes) : Option Bytes :=
  if isDraft03 then some payload else ((decodev payload).filter (·.1 = 0)).map snd

/-- The datagram in a capsule. -/
def Capsule.datagram (isDraft03 : Bool) (c : Capsule) : Option Bytes :=
  if c.type = 0 then udpPayload isDraft03 c.payload else none

lemma udpWriteCore_eq (isDraft03 : Bool) : udpWriteCore isDraft03 = udpPayload isDraft03 := by
  funext payload
  unfold udpWriteCore udpPayload
  split
  · rfl
  · split
    · next h => simp [h, Option.filter]
    · next hn =>
      cases h : decodev payload with
      | none => rfl
      | some r =>
        have hr : r.1 ≠ 0 := by
          intro h0
          exact hn r.2 (by rw [h, ← h0])
        simp [Option.filter, hr]

variable {c : Capsule} {cs : List Capsule} {es : List Bytes} {tail : Bytes}

lemma udpGetNextChunk_capsule (h : c.IsEncoding src) (more : Bytes) :
    udpGetNextChunk (src ++ more) = some ((decide (c.type ≠ 0), c.payload), src.length) := by
  obtain ⟨type, length, h1, h2, rfl⟩ := h
  refine udpGetNextChunk_eq_some.2 ⟨c.type, _, _, _, ?_, decodev_append h2 (c.payload ++ more), ?_,
    ?_⟩
  · rw [append_assoc, append_assoc]
    exact decodev_append h1 _
  · simp
  · have hlen : (type ++ (length ++ c.payload) ++ more).length - ([] ++ (c.payload ++ more)).length +
        c.payload.length = (type ++ (length ++ c.payload)).length := by
      simp only [length_append, length_nil]
      omega
    rw [hlen, nil_append, take_left]

/-- The chunks are the capsules; a part of one more is left. -/
theorem items_capsules (h : Forall₂ Capsule.IsEncoding cs es) (ht : udpGetNextChunk tail = none) :
    chunkParser.items (es.flatten ++ tail) =
      (cs.map fun c => (decide (c.type ≠ 0), c.payload), tail) := by
  induction h with
  | nil => exact ItemParser.items_of_none ht
  | cons hc _ ih =>
    rw [flatten_cons, append_assoc, ItemParser.items_of_some (udpGetNextChunk_capsule hc _),
      drop_left, ih, map_cons]

lemma udpDoWriteStream_eq (isDraft03 : Bool) (buf chunk : Bytes) :
    udpDoWriteStream isDraft03 buf chunk =
      ((chunkParser.items (buf ++ chunk)).1.filterMap fun c =>
        if c.1 then none else udpPayload isDraft03 c.2, (chunkParser.items (buf ++ chunk)).2) := by
  have hu : (if buf ≠ [] then buf ++ chunk else chunk) = buf ++ chunk := by
    split
    · rfl
    · next h => rw [not_not.1 h, nil_append]
  rw [udpDoWriteStream, hu, udpWriteCore_eq]

/-- The body and the HTTP datagrams do not get in each other's way. -/
lemma writeAll_eq (isDraft03 : Bool) {buf : Bytes} (hb : chunkParser.items buf = ([], buf))
    (es : List Egress) :
    let r := writeAll isDraft03 buf es
    let items := chunkParser.items (buf ++ es.flatMap Egress.body)
    (r.1.filter (·.1)).map snd =
        items.1.filterMap (fun c => if c.1 then none else udpPayload isDraft03 c.2) ∧
      (r.1.filter (!·.1)).map snd =
        (es.flatMap Egress.http).filterMap (udpPayload isDraft03) ∧ r.2 = items.2 := by
  induction es generalizing buf with
  | nil => simp [writeAll, hb]
  | cons e es ih =>
    cases e with
    | chunk bytes =>
      obtain ⟨h1, h2, h3⟩ := @ih (chunkParser.items (buf ++ bytes)).2 ItemParser.items_rest
      have hi := ItemParser.items_append chunkParser (buf ++ bytes) (es.flatMap Egress.body)
      simp only [writeAll, udpDoWriteStream_eq, flatMap_cons, Egress.body, Egress.http, nil_append,
        filter_append, map_append, ← append_assoc, hi, filterMap_append, h1, h2, h3]
      simp [filter_map, Function.comp_def]
    | datagrams payloads =>
      obtain ⟨h1, h2, h3⟩ := ih hb
      simp only [writeAll, udpWriteDatagrams, flatMap_cons, Egress.body, Egress.http, nil_append,
        filter_append, map_append, filterMap_append, h1, h2, h3]
      simp [filter_map, Function.comp_def, udpWriteCore_eq]

lemma isEncoding_send {payload : Bytes} (h : payload.length ≤ 1501) :
    Capsule.IsEncoding ⟨0, payload⟩ (0 :: (encodev payload.length ++ payload)) := by
  refine ⟨[0], _, rfl, ?_, rfl⟩
  simpa using decodev_encodev (v := payload.length) (by omega) []

/-- A capsule that comes in one chunk. -/
lemma writeAll_capsule (isDraft03 : Bool) {d : Bytes} (h : c.IsEncoding src)
    (hd : c.datagram isDraft03 = some d) :
    writeAll isDraft03 [] [.chunk src] = ([(true, d)], []) := by
  have hi := items_capsules (.cons h .nil) (show udpGetNextChunk [] = none from rfl)
  rw [flatten_singleton, append_nil] at hi
  unfold Capsule.datagram at hd
  split at hd
  · next hz => simp [writeAll, udpDoWriteStream_eq, hi, hz, hd]
  · cases hd

/-- Whatever the pieces in which the capsules come, with whatever HTTP datagrams in between, and if
there is only a part of one more: what is written from the body is the datagrams of the capsules,
and what is written besides is those of the HTTP datagrams, both in order. A datagram that is read
is sent as a capsule from which it is got back, or forwarded as it is in one. -/
theorem writeAll_capsules (isDraft03 : Bool) (h : Forall₂ Capsule.IsEncoding cs es)
    (ht : udpGetNextChunk tail = none) {inputs : List Egress}
    (hc : inputs.flatMap Egress.body = es.flatten ++ tail) :
    let r := writeAll isDraft03 [] inputs
    (r.1.filter (·.1)).map snd = cs.filterMap (·.datagram isDraft03) ∧
    (r.1.filter (!·.1)).map snd =
      (inputs.flatMap Egress.http).filterMap (udpPayload isDraft03) ∧
    r.2 = tail ∧
    ∀ d : Bytes, d.length ≤ 1500 →
      (∃ chunk, udpOnRead isDraft03 false d = .send chunk ∧
        writeAll isDraft03 [] [.chunk chunk] = ([(true, d)], [])) ∧
      ∃ payload, udpOnRead isDraft03 true d = .forward payload ∧
        udpPayload isDraft03 payload = some d := by
  obtain ⟨h1, h2, h3⟩ := @writeAll_eq isDraft03 [] rfl inputs
  rw [nil_append, hc, items_capsules h ht] at h1 h3
  refine ⟨?_, h2, h3, fun d hd => ?_⟩
  · rw [h1, filterMap_map]
    exact filterMap_congr fun c _ => by simp [Capsule.datagram]
  have hp : udpPayload isDraft03 (if isDraft03 then d else 0 :: d) = some d := by
    cases isDraft03 <;> rfl
  refine ⟨⟨_, rfl, writeAll_capsule isDraft03 (isEncoding_send ?_) hp⟩, _, rfl, hp⟩
  split
  · omega
  · rw [length_cons]
    omega

/-- A body with a datagram, one of another context, a capsule of another type, an empty datagram and
the begin of a capsule, and HTTP datagrams in between. -/
def mixed : List Egress :=
  [.chunk [0, 2, 0], .datagrams [[0, 5], [1, 6]], .chunk [7, 0, 2, 2, 8, 64],
    .chunk [5, 1, 9, 0, 1, 0, 0]]

/-- Only the datagrams of the context id zero are written. -/
theorem writeAll_capsules_mixed :
    let r := writeAll false [] mixed
    (r.1.filter (·.1)).map snd = [[7], []] ∧ (r.1.filter (!·.1)).map snd = [[5]] ∧
      r.2 = [0] := by
  have h : Forall₂ Capsule.IsEncoding [⟨0, [0, 7]⟩, ⟨0, [2, 8]⟩, ⟨5, [9]⟩, ⟨0, [0]⟩]
      [[0, 2, 0, 7], [0, 2, 2, 8], [64, 5, 1, 9], [0, 1, 0]] :=
    .cons ⟨[0], [2], rfl, rfl, rfl⟩ (.cons ⟨[0], [2], rfl, rfl, rfl⟩
      (.cons ⟨[64, 5], [1], rfl, rfl, rfl⟩ (.cons ⟨[0], [1], rfl, rfl, rfl⟩ .nil)))
  obtain ⟨h1, h2, h3, -⟩ := writeAll_capsules false h (show udpGetNextChunk [0] = none from rfl)
    (show mixed.flatMap Egress.body = _ from rfl)
  exact ⟨h1, h2, h3⟩

/-- With HTTP datagrams, a datagram is written that is in no capsule, and what is read is not sent
in one. -/
theorem writeAll_forwarded : (writeAll true [] [.datagrams [[7]]]).1 = [(false, [7])] ∧
    ∀ chunk, udpOnRead true true [7] ≠ .send chunk :=
  ⟨rfl, fun _ h => by cases h⟩

end Vhttp.Connect
