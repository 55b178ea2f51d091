import CallData.Conversion
import CallData.Json.Source

/-!
# Arguments that say their types

Such an argument is a record of a type text and a value. Together with a name, arguments of this
kind make up the method that they are for; without one they make up only a block.

## Main definitions

* `TypedArgument` — a type text and a JSON value
* `TypedArgument.read?`, `TypedArgument.ofText?`, `TypedArgument.listOfText?` — the record in JSON
* `TypedArgument.call` — a call with arguments of this kind
-/

namespace CallData

/-- A type text and a JSON value. -/
structure TypedArgument where
  type : String
  value : Json
  deriving Repr

namespace TypedArgument

/-- A type and a value, each under a long or a short name. The value has room for some depth of
containers. -/
def read? {σ : Type} [Json.Source σ] (room : Nat) (source : σ) : Option TypedArgument :=
  match Json.Source.fields? [["type", "t"], ["value", "v"]] source with
  | some [type, value] => do
    let type ← Json.Source.required Json.Source.text? type
    let value ← Json.Source.required (Json.Source.value? room) value
    return ⟨type, value⟩
  | _ => none

/-- The argument in a text, whose record is one container around the value. -/
def ofText? (text : String) : Option TypedArgument :=
  (Json.Literal.parse? text).bind (read? (Json.depthLimit - 1))

/-- The arguments in a text, whose list and records are two containers around each value. -/
def listOfText? (text : String) : Option (List TypedArgument) :=
  (Json.Literal.parse? text).bind (Json.Source.list? (read? (Json.depthLimit - 2)))

/-- The parameters that arguments declare. The first type that is not supported decides the error.
-/
def parameters (arguments : List TypedArgument) : Except CodecError (List DeclaredType) :=
  arguments.mapM fun argument => DeclaredType.parse argument.type

/-- A call with arguments of this kind, as a text. With a name it is a call of the method that the
name and the types declare; without one it is only the block. All types are looked at before any
value. -/
def call (name : Option String) (arguments : List TypedArgument) : Logged CodecError String :=
  let values := arguments.map value
  match name with
  | some name => do
    let method ← Logged.ofExcept (Method.declare name (arguments.map type))
    Block.text (some method.selector) <$> Block.ofJson method.types values
  | none => do
    let declared ← Logged.ofExcept (parameters arguments)
    Block.text none <$> Block.ofJson (declared.map DeclaredType.type) values

end TypedArgument

end CallData
