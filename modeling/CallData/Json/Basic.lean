import CallData.Json.Grammar
import CallData.Json.Number
import CallData.Keyed

/-!
# JSON values

What a JSON text means. Strings are texts, numbers are in range, and an object has each key once,
in ascending order; of members with one key the last counts. Containers nest to a limited depth.

## Main definitions

* `Json` — the values
* `Json.Literal.value?` — the value of a tree as written, with room for some depth of containers
* `Json.parse?` — the value of a text
* `Json.text` — the text of a value, without blanks
-/

namespace CallData

/-- A JSON value. The members of an object stand in ascending order of their keys. -/
inductive Json
  | null
  | bool (truth : Bool)
  | number (value : Json.Number)
  | string (text : String)
  | array (items : List Json)
  | object (members : List (String × Json))
  deriving Repr

namespace Json

/-! ### The value of a tree -/

mutual

/-- The value of a tree, in which containers may nest as deep as the room says. There is none when
a number is too large, a string is not well formed or a container is too deep. -/
def Literal.value? (room : Nat) : Literal → Option Json
  | .null => some .null
  | .bool truth => some (.bool truth)
  | .number numeral => numeral.toNumber?.map .number
  | .string written => written.text?.map .string
  | .array items =>
    match room with
    | 0 => none
    | inner + 1 => (Literal.values? inner items).map .array
  | .object members =>
    match room with
    | 0 => none
    | inner + 1 =>
      (Literal.memberValues? inner members).map fun entries => .object (Keyed.ofList entries)

/-- The values of the items of an array. -/
def Literal.values? (room : Nat) : List Literal → Option (List Json)
  | [] => some []
  | first :: rest => do
    let value ← Literal.value? room first
    let others ← Literal.values? room rest
    return value :: others

/-- The keys and values of the members of an object, as they stand. -/
def Literal.memberValues? (room : Nat) : List (Written × Literal) → Option (List (String × Json))
  | [] => some []
  | (key, first) :: rest => do
    let text ← key.text?
    let value ← Literal.value? room first
    let others ← Literal.memberValues? room rest
    return (text, value) :: others

end

/-- How deep containers may nest in a text. -/
def depthLimit : Nat := 127

/-- The value of a text. -/
def parse? (text : String) : Option Json :=
  (Literal.parse? text).bind (Literal.value? depthLimit)

/-- What kind of value it is, as a word of a message. -/
def kind : Json → String
  | .null => "null"
  | .bool _ => "boolean"
  | .number _ => "number"
  | .string _ => "string"
  | .array _ => "array"
  | .object _ => "object"

/-! ### The text of a value -/

/-- A character inside quotes. -/
def escape (character : Char) : List Char :=
  match character with
  | '"' => ['\\', '"']
  | '\\' => ['\\', '\\']
  | '\x08' => ['\\', 'b']
  | '\x0c' => ['\\', 'f']
  | '\n' => ['\\', 'n']
  | '\r' => ['\\', 'r']
  | '\t' => ['\\', 't']
  | other =>
    if other.toNat < 0x20 then
      ['\\', 'u', '0', '0', Nat.digitChar (other.toNat / 16), Nat.digitChar (other.toNat % 16)]
    else [other]

/-- A text in quotes. -/
def quote (text : String) : String :=
  String.ofList ('"' :: (text.toList.flatMap escape ++ ['"']))

/-- Texts of items between brackets. -/
def bracket (items : List String) : String :=
  "[" ++ ",".intercalate items ++ "]"

/-- Keys and texts of values between braces. -/
def brace (members : List (String × String)) : String :=
  "\x7b" ++ ",".intercalate (members.map fun member => quote member.1 ++ ":" ++ member.2) ++ "\x7d"

mutual

/-- The text of a value, without blanks. -/
def text : Json → String
  | .null => "null"
  | .bool truth => if truth then "true" else "false"
  | .number value => value.text
  | .string content => quote content
  | .array items => bracket (texts items)
  | .object members => brace (memberTexts members)

/-- The texts of items. -/
def texts : List Json → List String
  | [] => []
  | first :: rest => text first :: texts rest

/-- The texts of the values of members. -/
def memberTexts : List (String × Json) → List (String × String)
  | [] => []
  | (key, first) :: rest => (key, text first) :: memberTexts rest

end

theorem Literal.values?_eq_mapM (room : Nat) (items : List Literal) :
    Literal.values? room items = items.mapM (Literal.value? room) := by
  induction items with
  | nil => rfl
  | cons first rest ih => simp [Literal.values?, ih]

theorem Literal.memberValues?_eq_mapM (room : Nat) (members : List (Written × Literal)) :
    Literal.memberValues? room members = members.mapM fun member =>
      member.1.text?.bind fun key => (Literal.value? room member.2).map (key, ·) := by
  induction members with
  | nil => rfl
  | cons member rest ih =>
    obtain ⟨key, first⟩ := member
    rw [Literal.memberValues?, List.mapM_cons, ih]
    cases key.text? <;> cases Literal.value? room first <;> simp

end Json

end CallData
