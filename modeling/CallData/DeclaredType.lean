import CallData.CodecError
import CallData.ParamType
import CallData.Text.Blank

/-!
# Declared types

A type as an interface writes it. The text is `address`, `bool`, `bytes`, `string`, or `uint`
followed by any digits, with `[]` behind it for an array, and blanks around it do not count.
Integers of every width are encoded alike, but the width stays in the canonical text, which is what
a signature holds.

## Main definitions

* `DeclaredType` — a parameter type and its canonical text
* `DeclaredType.parse` — the type that a text declares
-/

namespace CallData

/-- A parameter type and the text that stands for it in a signature. -/
structure DeclaredType where
  type : ParamType
  canonical : String
  deriving DecidableEq, Repr

/-- The width behind `uint`, when a text begins so. -/
def uintWidth? : List Char → Option (List Char)
  | 'u' :: 'i' :: 'n' :: 't' :: width => some width
  | _ => none

/-- The base type that a text declares, and its canonical text. -/
def BaseType.parse? (text : String) : Option (BaseType × String) :=
  match text with
  | "address" => some (.address, text)
  | "bool" => some (.bool, text)
  | "bytes" => some (.bytes, text)
  | "string" => some (.string, text)
  | _ =>
    match uintWidth? text.toList with
    | none => none
    | some [] => some (.uint, BaseType.uint.name)
    | some width => if width.all Char.isDigit then some (.uint, text) else none

/-- A text without the brackets of an array, when it ends in them. -/
def elementText? (text : String) : Option String :=
  match text.toList.reverse with
  | ']' :: '[' :: element => some (String.ofList element.reverse)
  | _ => none

namespace DeclaredType

/-- The type that a text without blanks around it declares. -/
def parse? (text : String) : Option DeclaredType :=
  match elementText? text with
  | some element =>
    (BaseType.parse? element).map fun (type, canonical) => ⟨.array type, canonical ++ "[]"⟩
  | none => (BaseType.parse? text).map fun (type, canonical) => ⟨.base type, canonical⟩

/-- The type that a text declares. -/
def parse (text : String) : Except CodecError DeclaredType :=
  match parse? (Text.trim text) with
  | some declared => .ok declared
  | none => .error (.unsupportedType (Text.trim text))

theorem parse_eq_ok_iff {text : String} {declared : DeclaredType} :
    parse text = .ok declared ↔ parse? (Text.trim text) = some declared := by
  cases h : parse? (Text.trim text) <;> simp [parse, h]

theorem parse_eq_error_iff {text : String} {error : CodecError} :
    parse text = .error error ↔
      parse? (Text.trim text) = none ∧ error = .unsupportedType (Text.trim text) := by
  cases h : parse? (Text.trim text) <;> simp [parse, h, eq_comm]

/-- The width is dropped in encoding and kept in the canonical text. -/
example : parse? "uint8[]" = some ⟨.array .uint, "uint8[]"⟩ := by decide

/-- An integer without a width has the widest. -/
example : parse? "uint" = some ⟨.base .uint, "uint256"⟩ := by decide

/-- Arrays do not nest. -/
example : parse? "string[][]" = none := by decide

end DeclaredType

end CallData
