import CallData.Json.Literal
import CallData.Text.Numeral

/-!
# The tokens of a JSON text

A text is read one character at a time by a machine that is between two tokens or inside one. Words
and numbers are taken as far as their characters go and are checked when they end.

## Main definitions

* `Json.Token` — brackets, separators, words, numbers and strings
* `Json.Numeral.ofChars?` — a number from its characters
* `Json.Scan.step`, `Json.Token.scan?` — one character, and the tokens of a text
-/

namespace CallData.Json

open CallData.Text

/-- The tokens of a JSON text. -/
inductive Token
  | openArray
  | closeArray
  | openObject
  | closeObject
  | comma
  | colon
  | null
  | bool (truth : Bool)
  | number (numeral : Numeral)
  | string (written : Written)
  deriving DecidableEq, Repr

/-! ### Numbers -/

/-- The values of the decimal digits that characters begin with, and the characters behind them. -/
def leadingDigits (characters : List Char) : List Nat × List Char :=
  ((characters.takeWhile Char.isDigit).map fun digit => digit.toNat - 48,
    characters.dropWhile Char.isDigit)

/-- A whole part has a digit, and no zero in front of another one. -/
def isWholePart : List Nat → Bool
  | [] => false
  | [_] => true
  | first :: _ => first != 0

/-- The sign in front of an exponent: whether it is negative, and what follows. -/
def exponentSign : List Char → Bool × List Char
  | '-' :: rest => (true, rest)
  | '+' :: rest => (false, rest)
  | rest => (false, rest)

/-- The exponent that stands at the end of a number. -/
def exponentOf? (characters : List Char) : Option (Option Int) :=
  match characters with
  | [] => some none
  | mark :: rest =>
    if mark = 'e' ∨ mark = 'E' then
      let (negative, digits) := exponentSign rest
      match leadingDigits digits with
      | ([], _) => none
      | (values, []) =>
        let size : Int := valueOf 10 values
        some (some (if negative then -size else size))
      | _ => none
    else none

/-- The fraction and the exponent that follow a whole part. -/
def fractionOf? (characters : List Char) : Option (List Nat × Option Int) :=
  match characters with
  | '.' :: rest =>
    match leadingDigits rest with
    | ([], _) => none
    | (values, behind) => (exponentOf? behind).map (values, ·)
  | behind => (exponentOf? behind).map ([], ·)

/-- A number without its sign. -/
def unsignedOf? (negative : Bool) (characters : List Char) : Option Numeral :=
  let (whole, behind) := leadingDigits characters
  if isWholePart whole then
    (fractionOf? behind).map fun (fraction, exponent) => ⟨negative, whole, fraction, exponent⟩
  else none

/-- A number from its characters. -/
def Numeral.ofChars? (characters : List Char) : Option Numeral :=
  match characters with
  | '-' :: rest => unsignedOf? true rest
  | rest => unsignedOf? false rest

/-! ### The machine -/

/-- Where the machine is. Characters and pieces are held last first. -/
inductive Scan.Mode
  | between
  | word (letters : List Char)
  | number (characters : List Char)
  | string (pieces : List Piece)
  | escape (pieces : List Piece)
  | unicode (pieces : List Piece) (digits : List Nat)
  deriving DecidableEq, Repr

/-- The machine: where it is, and the tokens behind it, last first. -/
structure Scan where
  mode : Scan.Mode
  tokens : List Token
  deriving DecidableEq, Repr

namespace Scan

/-- Nothing read yet. -/
def start : Scan := ⟨.between, []⟩

/-- Blanks that may stand between tokens. -/
def isSpace (character : Char) : Bool :=
  character == ' ' || character == '\t' || character == '\n' || character == '\r'

/-- The characters of numbers. -/
def isNumberPart (character : Char) : Bool :=
  character.isDigit || character == '-' || character == '+' || character == '.'
    || character == 'e' || character == 'E'

/-- The words. -/
def wordToken? (letters : List Char) : Option Token :=
  match letters with
  | ['n', 'u', 'l', 'l'] => some .null
  | ['t', 'r', 'u', 'e'] => some (.bool true)
  | ['f', 'a', 'l', 's', 'e'] => some (.bool false)
  | _ => none

/-- Brackets and separators. -/
def markToken? (character : Char) : Option Token :=
  match character with
  | '[' => some .openArray
  | ']' => some .closeArray
  | '\x7b' => some .openObject
  | '\x7d' => some .closeObject
  | ',' => some .comma
  | ':' => some .colon
  | _ => none

/-- What an escaped character stands for; `u` begins a code unit and is not among them. -/
def escapedChar? (character : Char) : Option Char :=
  match character with
  | '"' => some '"'
  | '\\' => some '\\'
  | '/' => some '/'
  | 'b' => some '\x08'
  | 'f' => some '\x0c'
  | 'n' => some '\n'
  | 'r' => some '\r'
  | 't' => some '\t'
  | _ => none

/-- The first character of a token, or a blank. -/
def begin? (tokens : List Token) (character : Char) : Option Scan :=
  if isSpace character then some ⟨.between, tokens⟩
  else if character = '"' then some ⟨.string [], tokens⟩
  else if character.isDigit || character == '-' then some ⟨.number [character], tokens⟩
  else if character.isLower then some ⟨.word [character], tokens⟩
  else (markToken? character).map fun token => ⟨.between, token :: tokens⟩

/-- The machine after the word or number it was in has ended. -/
def settle? (scan : Scan) : Option (List Token) :=
  match scan.mode with
  | .between => some scan.tokens
  | .word letters => (wordToken? letters.reverse).map (· :: scan.tokens)
  | .number characters => (Numeral.ofChars? characters.reverse).map (.number · :: scan.tokens)
  | _ => none

/-- One more digit of a code unit; the fourth completes it. -/
def unitDigit (pieces : List Piece) (digits : List Nat) (digit : Nat) : Mode :=
  match digits with
  | [third, second, first] =>
    .string (.unit (valueOf 16 [first, second, third, digit]) :: pieces)
  | _ => .unicode pieces (digit :: digits)

/-- One character. -/
def step (scan : Scan) (character : Char) : Option Scan :=
  match scan.mode with
  | .between => begin? scan.tokens character
  | .word letters =>
    if character.isLower then some { scan with mode := .word (character :: letters) }
    else scan.settle?.bind (begin? · character)
  | .number characters =>
    if isNumberPart character then some { scan with mode := .number (character :: characters) }
    else scan.settle?.bind (begin? · character)
  | .string pieces =>
    if character = '"' then some ⟨.between, .string pieces.reverse :: scan.tokens⟩
    else if character = '\\' then some { scan with mode := .escape pieces }
    else if character.toNat < 0x20 then none
    else some { scan with mode := .string (.char character :: pieces) }
  | .escape pieces =>
    if character = 'u' then some { scan with mode := .unicode pieces [] }
    else (escapedChar? character).map fun meant =>
      { scan with mode := .string (.char meant :: pieces) }
  | .unicode pieces digits =>
    (digit? character).map fun digit => { scan with mode := unitDigit pieces digits digit }

end Scan

/-- The tokens of a text, if it is made of tokens. -/
def Token.scan? (characters : List Char) : Option (List Token) :=
  ((characters.foldlM Scan.step Scan.start).bind Scan.settle?).map List.reverse

/-- A word ends where its letters end. -/
example : Token.scan? "[null]".toList = some [.openArray, .null, .closeArray] := by decide

/-- A whole part has no zero in front. -/
example : Numeral.ofChars? "01".toList = none := by decide

/-- All parts of a number. -/
example : Numeral.ofChars? "-10.5e+2".toList = some ⟨true, [1, 0], [5], some 2⟩ := by decide

end CallData.Json
