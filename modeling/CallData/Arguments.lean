import CallData.Interface.Basic
import CallData.TypedArgument

/-!
# Arguments of a call

The arguments of a call come as a JSON array of one of two shapes. Positional arguments are plain
values, whose types are those of a method of an interface. Typed arguments say their own types, and
no interface is asked about them.

## Main definitions

* `Arguments` — arguments of either shape
* `Arguments.ofJson`, `Arguments.ofText` — which shape an array has
* `Arguments.call` — a call of a method by its name
-/

namespace CallData

/-- The arguments of a call, in one of two shapes. -/
inductive Arguments
  | positional (values : List Json)
  | typed (arguments : List TypedArgument)
  deriving Repr

namespace Arguments

/-- Whether a JSON value names a type, as a typed argument does. -/
def namesType : Json → Bool
  | .object members => members.any fun member => member.1 == "t" || member.1 == "type"
  | _ => false

/-- Whether an array has the shape of typed arguments: it is not empty and all of its items name a
type. -/
def namesTypes (items : List Json) : Bool :=
  !items.isEmpty && items.all namesType

/-- The arguments that a JSON value holds. What has the shape of typed arguments has to be made of
them. -/
def ofJson (json : Json) : Except CodecError Arguments :=
  match json with
  | .array items =>
    if namesTypes items then
      match items.mapM (TypedArgument.read? 0) with
      | some arguments => .ok (.typed arguments)
      | none => .error .unreadable
    else .ok (.positional items)
  | _ => .error (.invalidAbi "call arguments must be a JSON array")

/-- The arguments that a text holds. -/
def ofText (text : String) : Except CodecError Arguments :=
  match Json.parse? text with
  | some json => ofJson json
  | none => .error .unreadable

/-- A call of a method by its name, as a text. Positional arguments are for the method of an
interface; typed ones make up their own. -/
def call (arguments : Arguments) (interface : Interface) (name : String) :
    Logged CodecError String :=
  match arguments with
  | .positional values => do
    let method ← Logged.ofExcept (interface.find name)
    method.callJson values
  | .typed arguments => TypedArgument.call (some name) arguments

theorem ofJson_of_not_namesTypes {items : List Json} (h : namesTypes items = false) :
    ofJson (.array items) = .ok (.positional items) := by
  simp [ofJson, h]

end Arguments

end CallData
