/-!
# Values

What a caller supplies for one parameter. A value says what it claims to be and carries the
caller's text, which is read only when the value is encoded.

## Main definitions

* `Value` — a tagged text, or a list of values
* `Value.tag` — the tag as a word of a message
-/

namespace CallData

/-- A value for one parameter of one call. -/
inductive Value
  | uint (text : String)
  | address (text : String)
  | bool (text : String)
  | bytes (text : String)
  | string (text : String)
  | array (items : List Value)
  deriving Repr

namespace Value

/-- The value of a truth value. -/
def ofBool (truth : Bool) : Value :=
  .bool (if truth then "true" else "false")

/-- The tag of a value. -/
def tag : Value → String
  | .uint _ => "uint"
  | .address _ => "address"
  | .bool _ => "bool"
  | .bytes _ => "bytes"
  | .string _ => "string"
  | .array _ => "array"

end Value

end CallData
