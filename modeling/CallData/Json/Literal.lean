/-!
# JSON as it is written

The tree of a JSON text before anything is made of it: numbers as their digits, strings as the
characters and code units that stand in the text, and every member of an object in its place,
repeated names included. Whether a number is in range or a string is well formed is a question for
whoever needs its value.

## Main definitions

* `Json.Numeral` — a number as written
* `Json.Piece`, `Json.Written` — a string as written
* `Json.Written.text?` — the text that a written string denotes
* `Json.Literal` — a tree as written
-/

namespace CallData.Json

/-- A number as written. A missing fraction has no digits. -/
structure Numeral where
  negative : Bool
  whole : List Nat
  fraction : List Nat
  exponent : Option Int
  deriving DecidableEq, Repr

/-- One element of a string as written: a character, or a code unit of sixteen bits that stands as
four hexadecimal digits. -/
inductive Piece
  | char (character : Char)
  | unit (code : Nat)
  deriving DecidableEq, Repr

/-- A string as written. -/
abbrev Written := List Piece

/-- Whether a code unit is the first of a pair. -/
def isLeadingUnit (code : Nat) : Bool := 0xD800 ≤ code && code < 0xDC00

/-- Whether a code unit is the second of a pair. -/
def isTrailingUnit (code : Nat) : Bool := 0xDC00 ≤ code && code < 0xE000

/-- The character that a pair of code units denotes. -/
def pairedChar (leading trailing : Nat) : Char :=
  Char.ofNat (0x10000 + (leading - 0xD800) * 0x400 + (trailing - 0xDC00))

/-- The characters that a written string denotes. Units of a pair have to stand side by side, and
neither stands alone. -/
def Written.characters? : Written → Option (List Char)
  | [] => some []
  | .char character :: rest => (Written.characters? rest).map (character :: ·)
  | .unit leading :: .unit trailing :: rest =>
    if isLeadingUnit leading then
      if isTrailingUnit trailing then
        (Written.characters? rest).map (pairedChar leading trailing :: ·)
      else none
    else if isTrailingUnit leading then none
    else (Written.characters? (.unit trailing :: rest)).map (Char.ofNat leading :: ·)
  | .unit code :: rest =>
    if isLeadingUnit code || isTrailingUnit code then none
    else (Written.characters? rest).map (Char.ofNat code :: ·)

/-- The text that a written string denotes. -/
def Written.text? (written : Written) : Option String :=
  written.characters?.map String.ofList

/-- A tree as written. -/
inductive Literal
  | null
  | bool (truth : Bool)
  | number (numeral : Numeral)
  | string (written : Written)
  | array (items : List Literal)
  | object (members : List (Written × Literal))
  deriving Repr

end CallData.Json
