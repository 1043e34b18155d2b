import Vhttp.Hpack.HuffmanTable
import Vhttp.Hpack.Validate

/-!
# Huffman coded strings

`vhttp_hpack_decode_huffman` of `lib/http2/hpack.c`: an automaton that reads four bits at a time and
may emit one octet for them.
-/

namespace Vhttp.Hpack

/-- The variables of `vhttp_hpack_decode_huffman`. -/
structure HuffDec where
  out : Bytes
  state : ℕ
  maybeEos : Bool
  seenCharTypes : ℕ

/-- `huffdecode4`; `none` is `NULL`. -/
def huffdecode4 (d : HuffDec) (nibble : ℕ) : Option HuffDec :=
  let entry := huffDecodeEntry d.state nibble
  if entry.flags &&& huffFail ≠ 0 then none
  else
    let emitted := entry.flags &&& huffSym ≠ 0
    some {
      out := if emitted then d.out ++ [UInt8.ofNat entry.sym] else d.out
      state := entry.state
      maybeEos := entry.flags &&& huffAccepted ≠ 0
      seenCharTypes :=
        if emitted then d.seenCharTypes ||| entry.flags &&& huffInvalidChars
        else d.seenCharTypes }

/-- One round of the loop of `vhttp_hpack_decode_huffman`. -/
def decodeOctet (d : HuffDec) (octet : UInt8) : Option HuffDec :=
  (huffdecode4 d (octet.toNat >>> 4)).bind fun d => huffdecode4 d (octet.toNat &&& 0xf)

/-- The loop of `vhttp_hpack_decode_huffman`. -/
def runHuffman (src : Bytes) : Option HuffDec := src.foldlM decodeOctet ⟨[], 0, true, 0⟩

/-- The checks at the end of `vhttp_hpack_decode_huffman`. -/
def checkHuffman (d : HuffDec) (isName : Bool) (soft : SoftErrors) :
    Except (Option String) (Bytes × SoftErrors) :=
  if isName then
    match d.out with
    | [] => .ok (d.out, { soft with invalidName := true })
    | first :: _ =>
      -- pseudo-headers are checked later
      if d.seenCharTypes &&& huffInvalidForHeaderName ≠ 0 ∧ first ≠ ofChar ':' then
        if d.seenCharTypes &&& huffUpperCaseChar ≠ 0 then .error (some errFoundUpperCase)
        else .ok (d.out, { soft with invalidName := true })
      else .ok (d.out, soft)
  else if d.seenCharTypes &&& huffInvalidForHeaderValue ≠ 0 then
    .ok (d.out, { soft with invalidValue := true })
  else .ok (d.out, soft)

/-- `vhttp_hpack_decode_huffman`; an error is `SIZE_MAX`, with the `err_desc` if it is
set. -/
def decodeHuffman (src : Bytes) (isName : Bool) (soft : SoftErrors) :
    Except (Option String) (Bytes × SoftErrors) :=
  match runHuffman src with
  | none => .error none
  | some d => if d.maybeEos then checkHuffman d isName soft else .error none

end Vhttp.Hpack
