import Vhttp.Bytes
import Vhttp.Lib.DotSegments

/-!
# URL paths: the normaliser and its reference

The path part of `lib/common/url.c`: `handle_special_paths`, `rebuild_path` and
`vhttp_url_normalize_path`, and the reference function they are compared with.

`rebuild_path` works in one pass over the source. It decodes `%xx`, appends to the
output buffer `dst`, and rewinds `dst` when a `.` or `..` segment is closed. The
buffer is the list of the octets written so far, so that `dst_off` is its length;
`norm_indexes` has one entry per octet of `dst`. `query_at` is an `Option`, with
`none` for `SIZE_MAX`.
-/

namespace Vhttp.Url

/-- `'/'`. -/
def slash : UInt8 := ofChar '/'

/-- `'.'`. -/
def dot : UInt8 := ofChar '.'

/-- `'%'`. -/
def percent : UInt8 := ofChar '%'

/-- `'?'`. -/
def question : UInt8 := ofChar '?'

/-- `decode_hex`, with `none` for `-1`. -/
def decodeHex (ch : UInt8) : Option UInt8 :=
  if ofChar '0' ≤ ch ∧ ch ≤ ofChar '9' then some (ch - ofChar '0')
  else if ofChar 'A' ≤ ch ∧ ch ≤ ofChar 'F' then some (ch - ofChar 'A' + 0xa)
  else if ofChar 'a' ≤ ch ∧ ch ≤ ofChar 'f' then some (ch - ofChar 'a' + 0xa)
  else none

/-- `(hi << 4) | lo` for two hexadecimal digits. -/
def decodePair (h l : UInt8) : Option UInt8 :=
  match decodeHex h, decodeHex l with
  | some hi, some lo => some ((hi <<< 4) ||| lo)
  | _, _ => none

/-! ## `rebuild_path` -/

/-- The loop `for (; path[off - 1] != '/'; --off)`. -/
def backToSlash (path : Bytes) : Nat → Nat
  | 0 => 0
  | off + 1 => if path[off]? = some slash then off + 1 else backToSlash path off

/-- `handle_special_paths`: how many octets the segment behind `last_slash` takes back. -/
def handleSpecialPaths (path : Bytes) (off lastSlash : Nat) : Nat :=
  let partSize := off - lastSlash
  if partSize = 2 ∧ path[off - 1]? = some dot then 1
  else if partSize = 3 ∧ path[off - 2]? = some dot ∧ path[off - 1]? = some dot then
    if off - 2 > 1 then off - backToSlash path (off - 2 - 1) else 2
  else 0

/-- The local variables of `rebuild_path`. -/
structure Rebuild where
  dst : Bytes
  normIndexes : List Nat
  lastSlash : Nat

namespace Rebuild

/-- `dst_off -= rewind`. -/
def rewind (st : Rebuild) (n : Nat) : Rebuild :=
  { dst := st.dst.take (st.dst.length - n)
    normIndexes := st.normIndexes.take (st.dst.length - n)
    lastSlash := st.dst.length - n - 1 }

/-- `dst[dst_off] = decoded; (*norm_indexes)[dst_off] = src_off; dst_off++`. -/
def write (st : Rebuild) (decoded : UInt8) (srcOff : Nat) : Rebuild :=
  { st with dst := st.dst ++ [decoded], normIndexes := st.normIndexes ++ [srcOff] }

/-- The loop body of `rebuild_path` behind the decoding of one octet. -/
def put (st : Rebuild) (decoded : UInt8) (srcOff : Nat) : Rebuild :=
  if decoded = slash then
    let n := handleSpecialPaths st.dst st.dst.length st.lastSlash
    if n > 0 then st.rewind n
    else write { st with lastSlash := st.dst.length } decoded srcOff
  else st.write decoded srcOff

/-- The `while` loop of `rebuild_path`; the first argument is the rest of the source,
which starts at `src_off`. -/
def loop : Bytes → Nat → Rebuild → Rebuild
  | [], _, st => st
  | c :: h :: l :: rest, srcOff, st =>
    match if c = percent then decodePair h l else none with
    | some decoded => loop rest (srcOff + 3) (st.put decoded (srcOff + 3))
    | none => loop (h :: l :: rest) (srcOff + 1) (st.put c (srcOff + 1))
  | c :: rest, srcOff, st => loop rest (srcOff + 1) (st.put c (srcOff + 1))

/-- The buffer before the loop: a slash, and the offset behind it. -/
def init (srcOff : Nat) : Rebuild := ⟨[slash], [srcOff], 0⟩

end Rebuild

/-- The source up to the first `'?'` (`memchr`). -/
def pathPart (src : Bytes) : Bytes := src.takeWhile (· ≠ question)

/-- The offset of the first `'?'`. -/
def queryOffset (src : Bytes) : Option Nat :=
  if question ∈ src then some (pathPart src).length else none

/-- `rebuild_path`: the buffer after the last rewind. -/
def rebuildPath (src : Bytes) : Rebuild :=
  let path := pathPart src
  let srcOff := if path.head? = some slash then 1 else 0
  let st := Rebuild.loop (path.drop srcOff) srcOff (.init srcOff)
  st.rewind (handleSpecialPaths st.dst st.dst.length st.lastSlash)

/-! ## `vhttp_url_normalize_path` -/

/-- How `vhttp_url_normalize_path` was left. -/
inductive Exit where
  /-- the input itself was returned -/
  | asIs
  /-- the output of `rebuild_path` was returned -/
  | rebuilt
  /-- `RewriteError` -/
  | rewriteError

/-- The results of `vhttp_url_normalize_path`; `normIndexes` is `none` for `NULL`. -/
structure Normalized where
  path : Bytes
  queryAt : Option Nat
  normIndexes : Option (List Nat)
  exit : Exit

/-- The scan of the input: `none` is `goto Rewrite`, otherwise the end of the path and
the offset of the `'?'` found there. -/
def scan : Bytes → Nat → Option (Nat × Option Nat)
  | [], p => some (p, none)
  | [c], p => if c = question then some (p, some p) else some (p + 1, none)
  | c :: d :: rest, p =>
    if (c = slash ∧ d = dot) ∨ c = percent then none
    else if c = question then some (p, some p)
    else scan (d :: rest) (p + 1)

/-- `vhttp_strstr`, with `none` for `SIZE_MAX`. -/
def strstr (haystack needle : Bytes) : Option Nat :=
  (List.range (haystack.length + 1)).find? fun off => needle.isPrefixOf (haystack.drop off)

/-- The part of `vhttp_url_normalize_path` behind the label `Rewrite`. -/
def rewrite (path : Bytes) : Normalized :=
  let ret := rebuildPath path
  if ret.dst = [] ∨ ret.dst.head? ≠ some slash ∨ (strstr ret.dst (ascii "/../")).isSome ∨
      (ret.dst.length ≥ 3 ∧ ret.dst.drop (ret.dst.length - 3) = ascii "/..") then
    ⟨[slash], queryOffset path, some ret.normIndexes, .rewriteError⟩
  else ⟨ret.dst, queryOffset path, some ret.normIndexes, .rebuilt⟩

/-- `vhttp_url_normalize_path`. -/
def normalizePath (path : Bytes) : Normalized :=
  if path = [] then ⟨[slash], none, none, .asIs⟩
  else if path.head? ≠ some slash then rewrite path
  else match scan path 0 with
    | none => rewrite path
    | some (p, queryAt) => ⟨path.take p, queryAt, none, .asIs⟩

/-! ## The reference -/

/-- A hexadecimal digit stands for its place among the digits, which have two cases. -/
def hexValue (ch : UInt8) : Option UInt8 :=
  ((ascii "0123456789ABCDEF").idxOf? ch <|> (ascii "0123456789abcdef").idxOf? ch).map .ofNat

lemma hexValue_eq : ∀ ch, hexValue ch = decodeHex ch := by decide +kernel

/-- The octet that two digits stand for. -/
def hexOctet (h l : UInt8) : Option UInt8 := do some (((← hexValue h) <<< 4) ||| (← hexValue l))

lemma hexOctet_eq (h l : UInt8) : hexOctet h l = decodePair h l := by
  unfold hexOctet decodePair
  rw [hexValue_eq, hexValue_eq]
  cases decodeHex h <;> cases decodeHex l <;> rfl

/-- Decode every `%xx`, from left to right and once; other octets stand for themselves. -/
def percentDecode : Bytes → Bytes
  | [] => []
  | c :: h :: l :: rest =>
    match if c = percent then hexOctet h l else none with
    | some decoded => decoded :: percentDecode rest
    | none => c :: percentDecode (h :: l :: rest)
  | c :: rest => c :: percentDecode rest

/-- Prepend a slash if it is missing. -/
def withSlash (path : Bytes) : Bytes := if path.head? = some slash then path else slash :: path

/-- Remove the dot segments of a path that starts with a slash, with a stack of segments. -/
def removeDotSegments (path : Bytes) : Bytes :=
  slash :: [slash].intercalate (Segments.resolve dot [] (path.tail.splitOn slash))

/-- The reference: cut at the first `'?'`, prepend the slash if it is missing, decode,
remove the dot segments. -/
def referencePath (path : Bytes) : Bytes :=
  removeDotSegments (percentDecode (withSlash (pathPart path)))

end Vhttp.Url
