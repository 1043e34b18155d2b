import Vhttp.Hpack.HeaderTable
import Vhttp.Hpack.Huffman
import Vhttp.Hpack.Integer

/-!
# Decoding of HPACK headers

`decode_string` and `vhttp_hpack_decode_header` of `lib/http2/hpack.c`. An error ends the
connection, so that the table is not used after one; a soft error is part of the entry that is
returned.
-/

namespace Vhttp.Hpack

open Http2 (Err)

/-- `SIZE_MAX`. -/
def sizeMax : ℕ := 2 ^ 64 - 1

/-- `decode_string`: the string, the soft errors and what is left of the input; a failure comes
with `err_desc`. -/
def decodeString (src : Bytes) (isHeaderName : Bool) (soft : SoftErrors) :
    Except (Option String) (Bytes × SoftErrors × Bytes) :=
  match decodeInt src 7 with
  | .error _ => .error none
  | .ok (len, rest) =>
    if rest.length < len then .error none
    else
      let s := rest.take len
      if src.head?.any (fun octet => octet &&& 0x80 != 0) then do
        let (out, soft) ← decodeHuffman s isHeaderName soft
        let soft := if !isHeaderName && !headerValueValidAsWhole out then
            { soft with invalidValue := true } else soft
        .ok (out, soft, rest.drop len)
      else if isHeaderName then
        -- pseudo-headers are checked later
        if s.head? = some (ofChar ':') then .ok (s, soft, rest.drop len)
        else
          match validateHeaderName soft s with
          | .error desc => .error (some desc)
          | .ok soft => .ok (s, soft, rest.drop len)
      else .ok (s, validateHeaderValue soft s, rest.drop len)

/-- The capacity that a size update sets, and the entries that it evicts. -/
def HeaderTable.resize (t : HeaderTable) (newCapacity : ℕ) : HeaderTable :=
  HeaderTable.shrink { t with hpackCapacity := newCapacity } 0

/-- The rounds of `Redo` that read a size update; each takes an octet at least. -/
def decodeSizeUpdates : ℕ → HeaderTable → Bytes → Except Err (HeaderTable × Bytes)
  | 0, _, _ => .error ⟨.compression, none⟩
  | n + 1, t, src =>
    match src with
    | [] => .error ⟨.compression, none⟩
    | octet :: _ =>
      if 32 ≤ octet.toNat ∧ octet.toNat < 64 then
        match decodeInt src 5 with
        | .error _ => .error ⟨.compression, none⟩
        | .ok (newCapacity, src) =>
          if newCapacity > t.hpackMaxCapacity then .error ⟨.compression, none⟩
          else decodeSizeUpdates n (t.resize newCapacity) src
      else .ok (t, src)

/-- How a header is represented; the index is 0 if the name follows. -/
structure Representation where
  index : ℕ
  valueIsIndexed : Bool
  doIndex : Bool

variable (t : HeaderTable) (r : Representation) (src : Bytes)

/-- `vhttp_hpack_decode_int`, where 0 is not valid. -/
def decodeIndex (prefixBits : ℕ) : Except Err (ℕ × Bytes) :=
  match decodeInt src prefixBits with
  | .ok (index + 1, src) => .ok (index + 1, src)
  | _ => .error ⟨.compression, none⟩

/-- The mode of a header that is not a size update. -/
def decodeRepresentation : Bytes → Except Err (Representation × Bytes)
  | [] => .error ⟨.compression, none⟩
  | octet :: src =>
    if 128 ≤ octet.toNat then do
      let (index, src) ← decodeIndex (octet :: src) 7
      .ok (⟨index, true, false⟩, src)
    else if 64 ≤ octet.toNat then
      if octet.toNat = 64 then .ok (⟨0, false, true⟩, src)
      else do
        let (index, src) ← decodeIndex (octet :: src) 6
        .ok (⟨index, false, true⟩, src)
    else if octet &&& 0xf = 0 then .ok (⟨0, false, false⟩, src)
    else do
      let (index, src) ← decodeIndex (octet :: src) 4
      .ok (⟨index, false, false⟩, src)

/-- The entry with an index, in the static or in the dynamic table. -/
def HeaderTable.lookup (index : ℕ) : Except Err Entry :=
  if index < headerTableOffset then
    match staticTable[index - 1]? with
    | some (name, value) => .ok ⟨.token name, ascii value, .none⟩
    | none => .error ⟨.compression, none⟩
  else
    match t.get? (index - headerTableOffset) with
    | some e => .ok e
    | none => .error ⟨.compression, none⟩

/-- The name of a header and the value, if that is indexed too. -/
def decodeName : Except Err (Entry × Bytes) :=
  if 0 < r.index then do
    let e ← t.lookup r.index
    .ok (e, src)
  else
    match decodeString src true .none with
    | .error desc =>
      if desc = some errFoundUpperCase then .error ⟨.protocol, desc⟩
      else .error ⟨.compression, desc⟩
    | .ok (name, soft, src) => .ok (⟨.intern name, [], soft⟩, src)

/-- The value of a header. -/
def decodeValue (e : Entry) (src : Bytes) : Except Err (Entry × Bytes) :=
  if r.valueIsIndexed then .ok (e, src)
  else
    match decodeString src false { e.softErrors with invalidValue := false } with
    | .error desc => .error ⟨.compression, desc⟩
    | .ok (value, soft, src) => .ok (⟨e.name, value, soft⟩, src)

/-- `vhttp_hpack_decode_header`: the header, the table and what is left of the input. -/
def decodeHeader : Except Err (Entry × HeaderTable × Bytes) := do
  let (t, src) ← decodeSizeUpdates (src.length + 1) t src
  let (r, src) ← decodeRepresentation src
  let (e, src) ← decodeName t r src
  let (e, src) ← decodeValue r e src
  .ok (e, if r.doIndex then t.add e sizeMax else t, src)

/-- The `err_desc` of a header with soft errors, which is returned as `INVALID_HEADER_CHAR`. -/
def SoftErrors.desc (soft : SoftErrors) : Option String :=
  if soft.invalidName then some softErrInvalidName
  else if soft.invalidValue then some softErrInvalidValue
  else Option.none

end Vhttp.Hpack
