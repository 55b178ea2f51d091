import CallData.Json.Basic
import CallData.Method

/-!
# JSON values as values

Which value a JSON value stands for depends on the type of the parameter. Strings are taken as they
are; a number may stand for an integer or a truth value. An argument is converted only when it is
its turn to be encoded, but all elements of an array are converted before any of them is encoded.

## Main definitions

* `BaseType.valueOf`, `Value.ofJson` — the value of a JSON value
* `Block.ofJson` — the block of JSON values
* `Method.callJson` — a call with JSON values
-/

namespace CallData

/-- A JSON value of a kind that its type does not allow. -/
def CodecError.kindMismatch (expected : String) (json : Json) : CodecError :=
  .typeMismatch ("expected " ++ expected ++ ", got JSON " ++ json.kind)

/-- A JSON number that is no unsigned integer of sixty-four bits. -/
def CodecError.numberMismatch (number : Json.Number) : CodecError :=
  .invalidNumber
    ("JSON number " ++ number.text ++ " is not a u64; pass larger values as a string")

/-- The value of a JSON value for a base type. -/
def BaseType.valueOf (type : BaseType) (json : Json) : Except CodecError Value :=
  match type, json with
  | .uint, .string text => .ok (.uint text)
  | .uint, .number number =>
    match number.natural? with
    | some natural => .ok (.uint (toString natural))
    | none => .error (.numberMismatch number)
  | .address, .string text => .ok (.address text)
  | .bool, .bool truth => .ok (.ofBool truth)
  | .bool, .string text => .ok (.bool text)
  | .bool, .number number => .ok (.bool number.text)
  | .bytes, .string text => .ok (.bytes text)
  | .string, .string text => .ok (.string text)
  | type, json => .error (.kindMismatch type.name json)

/-- The value of a JSON value for a parameter type. -/
def Value.ofJson (type : ParamType) (json : Json) : Except CodecError Value :=
  match type, json with
  | .base type, json => type.valueOf json
  | .array element, .array items => (items.mapM element.valueOf).map .array
  | .array element, json => .error (.kindMismatch (ParamType.array element).name json)

/-- The block of JSON values, each of which is converted when it is its turn. -/
def Block.ofJson (types : List ParamType) (arguments : List Json) :
    Logged CodecError (List UInt8) :=
  ofSources types (List.zipWith Value.ofJson types arguments)

/-- A call with JSON values, as a text. -/
def Method.callJson (method : Method) (arguments : List Json) : Logged CodecError String := do
  Logged.ofExcept (Block.requireCount method.types.length arguments.length)
  Block.text (some method.selector) <$> Block.ofJson method.types arguments

@[simp] theorem Value.ofJson_base (type : BaseType) (json : Json) :
    Value.ofJson (.base type) json = type.valueOf json := rfl

@[simp] theorem Value.ofJson_array (element : BaseType) (items : List Json) :
    Value.ofJson (.array element) (.array items) = (items.mapM element.valueOf).map .array := rfl

end CallData
