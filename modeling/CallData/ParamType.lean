/-!
# Parameter types

The types a method's parameters may have: five base types, and unbounded arrays of one of them.
Arrays do not nest.

## Main definitions

* `BaseType`, `ParamType` — the types
* `BaseType.isDynamic`, `ParamType.isDynamic` — whether a value takes more than its head word
* `BaseType.name`, `ParamType.name` — the types as texts
-/

namespace CallData

/-- A type whose values are not made of other values. -/
inductive BaseType
  | uint
  | address
  | bool
  | bytes
  | string
  deriving DecidableEq, Repr

namespace BaseType

/-- The types with values of any length; a value of any other type fills one word. -/
def isDynamic : BaseType → Bool
  | .uint | .address | .bool => false
  | .bytes | .string => true

/-- The name of a base type. An unsigned integer of any width is known by the widest. -/
def name : BaseType → String
  | .uint => "uint256"
  | .address => "address"
  | .bool => "bool"
  | .bytes => "bytes"
  | .string => "string"

end BaseType

/-- The type of a parameter. -/
inductive ParamType
  | base (type : BaseType)
  | array (element : BaseType)
  deriving DecidableEq, Repr

namespace ParamType

/-- The base type of a parameter or of its elements. -/
def core : ParamType → BaseType
  | .base type => type
  | .array element => element

/-- Every array is dynamic, whatever its elements. -/
def isDynamic : ParamType → Bool
  | .base type => type.isDynamic
  | .array _ => true

/-- The name of a parameter type. -/
def name : ParamType → String
  | .base type => type.name
  | .array element => element.name ++ "[]"

@[simp] theorem isDynamic_base (type : BaseType) : (base type).isDynamic = type.isDynamic := rfl

@[simp] theorem isDynamic_array (element : BaseType) : (array element).isDynamic = true := rfl

end ParamType

end CallData
