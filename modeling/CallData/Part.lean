import CallData.ParamType
import CallData.Value
import CallData.ValueText

/-!
# Parts

What one value contributes to a layout: its own word, or a payload that a word in the head points
at. A table lays out parts one after another in two passes: first a word for each part, where the
offset of a payload is rounded up to a whole word, and then the payloads.

## Main definitions

* `Part` — a word, or a payload
* `Part.table` — the words of parts, followed by their payloads
* `BaseType.partOf`, `BaseType.arrayPayload`, `ParamType.partOf` — the parts of values
-/

namespace CallData

/-- What one value contributes to a layout. -/
inductive Part
  | static (word : Word)
  | dynamic (payload : List UInt8)
  deriving DecidableEq

namespace Part

/-- The bytes that stand behind the head. -/
def payload : Part → List UInt8
  | .static _ => []
  | .dynamic payload => payload

/-- The words of the head, when the next payload stands at the given offset. -/
def headWords (offset : Nat) : List Part → List Word
  | [] => []
  | .static word :: rest => word :: headWords offset rest
  | .dynamic payload :: rest =>
    .ofNat offset :: headWords (roundUp (offset + payload.length)) rest

/-- The words of parts, followed by their payloads. Offsets count from the first word. -/
def table (parts : List Part) : List UInt8 :=
  (headWords (wordSize * parts.length) parts).flatMap Word.bytes ++ parts.flatMap payload

@[simp] theorem payload_static (word : Word) : (static word).payload = [] := rfl

@[simp] theorem payload_dynamic (bytes : List UInt8) : (dynamic bytes).payload = bytes := rfl

@[simp] theorem length_headWords (offset : Nat) (parts : List Part) :
    (headWords offset parts).length = parts.length := by
  induction parts generalizing offset with
  | nil => rfl
  | cons part rest ih => cases part <;> simp [headWords, ih]

@[simp] theorem table_nil : table [] = [] := rfl

end Part

/-- A value whose tag is not the one that its type asks for. -/
def CodecError.tagMismatch (expected : String) (value : Value) : CodecError :=
  .typeMismatch ("expected " ++ expected ++ ", got " ++ value.tag ++ " value")

/-- The part of a value of a base type. -/
def BaseType.partOf (type : BaseType) (value : Value) : Except CodecError Part :=
  match type, value with
  | .uint, .uint text => (ValueText.uintWord text).map .static
  | .address, .address text => (ValueText.addressWord text).map .static
  | .bool, .bool text => (ValueText.boolWord text).map .static
  | .bytes, .bytes text => (ValueText.bytesChunk text).map fun chunk => .dynamic chunk.bytes
  | .string, .string text => .ok (.dynamic (ValueText.stringChunk text).bytes)
  | type, value => .error (.tagMismatch type.name value)

/-- The payload of an array: the number of its elements as a word, and then the table of their
parts. The first element that cannot be encoded decides the error. -/
def BaseType.arrayPayload (element : BaseType) (items : List Value) :
    Except CodecError (List UInt8) :=
  (items.mapM element.partOf).map fun parts =>
    (Word.ofNat items.length).bytes ++ Part.table parts

/-- The part of a value of a parameter type. -/
def ParamType.partOf (type : ParamType) (value : Value) : Except CodecError Part :=
  match type, value with
  | .base type, value => type.partOf value
  | .array element, .array items => (element.arrayPayload items).map .dynamic
  | .array element, value => .error (.tagMismatch (ParamType.array element).name value)

@[simp] theorem ParamType.partOf_base (type : BaseType) (value : Value) :
    (ParamType.base type).partOf value = type.partOf value := rfl

@[simp] theorem ParamType.partOf_array (element : BaseType) (items : List Value) :
    (ParamType.array element).partOf (.array items) =
      (element.arrayPayload items).map .dynamic := rfl

end CallData
