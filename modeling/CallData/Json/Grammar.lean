import CallData.Json.Token

/-!
# The grammar of JSON

Tokens are put together by a machine with a stack of the containers that are still open. A text has
one value and nothing behind it; separators stand between values and nowhere else.

## Main definitions

* `Json.Frame` — an open container in which a value is due
* `Json.Reading`, `Json.Reading.step` — where the machine is, and one token
* `Json.Literal.ofTokens?`, `Json.Literal.parse?` — the tree of tokens, and of a text
-/

namespace CallData.Json

/-- An open container in which a value is due. What it holds so far is held last first. -/
inductive Frame
  | array (items : List Literal)
  | object (members : List (Written × Literal)) (key : Written)
  deriving Repr

/-- Where the machine is, with the containers around it, the innermost first. -/
inductive Reading
  | value (around : List Frame)
  | firstItem (around : List Frame)
  | afterItem (items : List Literal) (around : List Frame)
  | firstKey (around : List Frame)
  | nextKey (members : List (Written × Literal)) (around : List Frame)
  | afterKey (members : List (Written × Literal)) (key : Written) (around : List Frame)
  | afterMember (members : List (Written × Literal)) (around : List Frame)
  | done (tree : Literal)
  deriving Repr

namespace Reading

/-- A value that has ended takes its place in the container around it. -/
def complete (tree : Literal) : List Frame → Reading
  | [] => .done tree
  | .array items :: around => .afterItem (tree :: items) around
  | .object members key :: around => .afterMember ((key, tree) :: members) around

/-- The first token of a value. -/
def begin? (around : List Frame) : Token → Option Reading
  | .null => some (complete .null around)
  | .bool truth => some (complete (.bool truth) around)
  | .number numeral => some (complete (.number numeral) around)
  | .string written => some (complete (.string written) around)
  | .openArray => some (.firstItem around)
  | .openObject => some (.firstKey around)
  | _ => none

/-- One token. -/
def step : Reading → Token → Option Reading
  | .value around, token => begin? around token
  | .firstItem around, .closeArray => some (complete (.array []) around)
  | .firstItem around, token => begin? (.array [] :: around) token
  | .afterItem items around, .comma => some (.value (.array items :: around))
  | .afterItem items around, .closeArray => some (complete (.array items.reverse) around)
  | .firstKey around, .closeObject => some (complete (.object []) around)
  | .firstKey around, .string written => some (.afterKey [] written around)
  | .nextKey members around, .string written => some (.afterKey members written around)
  | .afterKey members key around, .colon => some (.value (.object members key :: around))
  | .afterMember members around, .comma => some (.nextKey members around)
  | .afterMember members around, .closeObject =>
    some (complete (.object members.reverse) around)
  | _, _ => none

/-- The tree, when the machine has come to the end of one. -/
def tree? : Reading → Option Literal
  | .done tree => some tree
  | _ => none

end Reading

namespace Literal

/-- The tree of tokens. -/
def ofTokens? (tokens : List Token) : Option Literal :=
  (tokens.foldlM Reading.step (.value [])).bind Reading.tree?

/-- The tree of a text. -/
def parse? (text : String) : Option Literal :=
  (Token.scan? text.toList).bind ofTokens?

/-- A separator needs a value behind it. -/
example : (parse? "[1,]").isNone := by decide

/-- Nothing stands behind a value. -/
example : (parse? "null null").isNone := by decide

end Literal

end CallData.Json
