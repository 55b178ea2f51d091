import CallData.Address
import CallData.Contract.ProxyError
import CallData.Keccak

/-!
# Checksums of addresses

The address of a contract is written as `0x` or `0X` and forty hexadecimal digits. The case of the
letters may carry a checksum: a letter is a capital where the digest of the small letters has a
digit of eight or more. An address in letters of one case carries no checksum.

The functions take the hash as a parameter, since nothing about them depends on which one it is;
`Checksum.apply` and `Checksum.validate` use Keccak-256.

## Main definitions

* `Checksum.digits` — the forty digits of an address
* `Checksum.capitalize` — digits with the capitals that a digest asks for
* `Checksum.applyWith`, `Checksum.apply` — an address with its checksum
* `Checksum.validateWith`, `Checksum.validate` — whether an address carries no wrong checksum
* `Checksum.check` — an address that does not fail its checksum
-/

namespace CallData.Checksum

open CallData.Text

/-- The forty digits of an address. The mark is looked at first, then the length in bytes, then the
digits. -/
def digits (text : String) : Except ProxyError (List Char) :=
  match afterHexMark? text.toList with
  | none => .error (.invalidAddress "address must start with 0x")
  | some body =>
    if utf8Length body ≠ Address.digitCount then
      .error (.invalidAddress (Address.lengthDetail (utf8Length body)))
    else if body.all fun character => (digit? character).isSome then .ok body
    else .error (.invalidAddress "address contains non-hex characters")

/-- Small letters, with a capital in each place where the digest has a digit of eight or more. -/
def capitalize (digest : Word) (body : List Char) : List Char :=
  List.zipWith (fun character digit => if 8 ≤ digit then character.toUpper else character)
    body (Hex.digitValues digest.bytes)

/-- The digits of an address with the checksum that a hash gives. -/
def bodyWith (hash : List UInt8 → Word) (body : List Char) : List Char :=
  let lower := body.map Char.toLower
  capitalize (hash (utf8 (String.ofList lower))) lower

/-- An address with the checksum that a hash gives. -/
def applyWith (hash : List UInt8 → Word) (text : String) : Except ProxyError String :=
  (digits text).map fun body => "0x" ++ String.ofList (bodyWith hash body)

/-- Whether the letters are all of one case. -/
def isOneCase (body : List Char) : Bool :=
  body.all (fun character => !character.isUpper) || body.all fun character => !character.isLower

/-- Whether an address has letters of one case or the checksum that a hash gives. -/
def validateWith (hash : List UInt8 → Word) (text : String) : Except ProxyError Bool :=
  (digits text).map fun body => isOneCase body || bodyWith hash body == body

/-- An address with its checksum. -/
def apply (text : String) : Except ProxyError String :=
  applyWith Keccak.hash text

/-- Whether an address carries no wrong checksum. -/
def validate (text : String) : Except ProxyError Bool :=
  validateWith Keccak.hash text

/-- An address that does not fail its checksum. -/
def check (text : String) : Except ProxyError Unit :=
  match validate text with
  | .ok true => .ok ()
  | .ok false => .error (.invalidAddress (text ++ " fails its EIP-55 checksum"))
  | .error error => .error error

theorem check_eq_ok_iff {text : String} : check text = .ok () ↔ validate text = .ok true := by
  unfold check
  split <;> simp_all

end CallData.Checksum
