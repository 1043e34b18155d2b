import Vhttp.Bytes

/-!
# Valid header names and values

The checks of `lib/http2/hpack.c` on decoded strings. An invalid character is a soft error:
decoding goes on, and the header is reported together with the error. An upper-case letter
in a name is a hard one.
-/

namespace Vhttp.Hpack

/-- The bits `vhttp_HPACK_SOFT_ERROR_BIT_INVALID_NAME` and `..._INVALID_VALUE`. -/
structure SoftErrors where
  invalidName : Bool
  invalidValue : Bool

/-- No bit is set. -/
def SoftErrors.none : SoftErrors := ⟨false, false⟩

/-- `vhttp_hpack_err_found_upper_case_in_header_name`. -/
def errFoundUpperCase : String := "found an upper-case letter in header name"
/-- `vhttp_hpack_soft_err_found_invalid_char_in_header_name`. -/
def softErrInvalidName : String := "found an invalid character in header name"
/-- `vhttp_hpack_soft_err_found_invalid_char_in_header_value`. -/
def softErrInvalidValue : String := "found an invalid character in header value"

/-- `valid_h2_header_name_char`, a row of 32 characters in each number. -/
def validH2HeaderNameChars : ℕ := packTable 32 [
  0b00000000000000000000000000000000,
  0b01011111001101101111111111000000,
  0b00000000000000000000000000000011,
  0b11111111111111111111111111101010,
  0b00000000000000000000000000000000,
  0b00000000000000000000000000000000,
  0b00000000000000000000000000000000,
  0b00000000000000000000000000000000]

/-- `valid_h2_field_value_char`. -/
def validH2FieldValueChars : ℕ := packTable 32 [
  0b00000000010000000000000000000000,
  0b11111111111111111111111111111111,
  0b11111111111111111111111111111111,
  0b11111111111111111111111111111110,
  0b11111111111111111111111111111111,
  0b11111111111111111111111111111111,
  0b11111111111111111111111111111111,
  0b11111111111111111111111111111111]

/-- The entry of a character in one of the two tables. -/
def charFlag (table ch : ℕ) : Bool := (tableEntry 32 table (ch / 32)).testBit (31 - ch % 32)

/-- `valid_h2_header_name_char[ch]`. -/
def validNameChar (ch : UInt8) : Bool := charFlag validH2HeaderNameChars ch.toNat

/-- `valid_h2_field_value_char[ch]`. -/
def validValueChar (ch : UInt8) : Bool := charFlag validH2FieldValueChars ch.toNat

/-- One round of the loop of `vhttp_hpack_validate_header_name`. -/
def validateNameChar (soft : SoftErrors) (ch : UInt8) : Except String SoftErrors :=
  if validNameChar ch then .ok soft
  else if 65 ≤ ch.toNat ∧ ch.toNat < 91 then .error errFoundUpperCase
  else .ok { soft with invalidName := true }

/-- `vhttp_hpack_validate_header_name`: the soft errors, or the `err_desc` it fails with. -/
def validateHeaderName (soft : SoftErrors) (s : Bytes) : Except String SoftErrors :=
  if s = [] then .ok { soft with invalidName := true }
  else s.foldlM validateNameChar soft

/-- A space or a horizontal tab. -/
def isSpaceOrTab (ch : UInt8) : Bool := ch == 0x20 || ch == 0x09

/-- `header_value_valid_as_whole`. -/
def headerValueValidAsWhole (s : Bytes) : Bool :=
  !(s.head?.any isSpaceOrTab || s.getLast?.any isSpaceOrTab)

/-- `vhttp_hpack_validate_header_value`. -/
def validateHeaderValue (soft : SoftErrors) (s : Bytes) : SoftErrors :=
  if headerValueValidAsWhole s && s.all validValueChar then soft
  else { soft with invalidValue := true }

end Vhttp.Hpack
