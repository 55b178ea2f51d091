import CallData.CodecError
import CallData.Hex
import CallData.Word

/-!
# Addresses

An account has an address of twenty bytes. As a value it is written as forty hexadecimal digits,
with or without `0x` in front and in letters of any case; whether their case is a checksum is not
looked at here.

## Main definitions

* `Address` — twenty bytes
* `Address.ofText` — the address that a text spells
* `Word.ofAddress` — an address behind twelve zeros
-/

namespace CallData

open CallData.Text

/-- Twenty bytes. -/
structure Address where
  bytes : List UInt8
  length_bytes : bytes.length = 20
  deriving DecidableEq

/-- A text of the right length with a character that is no hexadecimal digit. -/
def CodecError.badAddressDigit (text : String) (flaw : Hex.Flaw) : CodecError :=
  .invalidAddress (text ++ ": " ++ flaw.message)

namespace Address

/-- The number of digits in an address. -/
def digitCount : Nat := 40

/-- What is wrong with a text of some length other than the forty digits of an address. -/
def lengthDetail (length : Nat) : String :=
  "expected 40 hex characters, got " ++ toString length

theorem length_of_decode {digits : List Char} {bytes : List UInt8}
    (hcount : utf8Length digits = digitCount) (h : Hex.decode digits = .ok bytes) :
    bytes.length = 20 := by
  rw [Hex.length_of_decode h, ← Hex.utf8Length_of_decode h, hcount]
  rfl

/-- The address that a text spells. The length of the text counts bytes and is looked at first; a
character that is no digit is then named as a small letter. -/
def ofText (text : String) : Except CodecError Address :=
  let digits := dropHexMark text.toList
  if hcount : utf8Length digits = digitCount then
    match h : Hex.decode digits with
    | .ok bytes => .ok ⟨bytes, length_of_decode hcount h⟩
    | .error flaw => .error (.badAddressDigit text flaw.lowered)
  else
    .error (.invalidAddress (lengthDetail (utf8Length digits)))

end Address

/-- An address behind twelve zeros. -/
def Word.ofAddress (address : Address) : Word :=
  .padLeft address.bytes (by rw [address.length_bytes]; decide)

end CallData
