/-!
# Numerals

Digits, and the numbers that texts of digits denote. A numeral has at least one digit, and any
number of leading zeros. Only the digits of ASCII count.

## Main definitions

* `Text.digit?` — the value of a digit, up to sixteen
* `Text.readNumeral?` — the number that a text of digits denotes in a base
* `Text.afterHexMark?` — what follows the mark of a hexadecimal text
-/

namespace CallData.Text

/-- The value of a hexadecimal digit, in either case. -/
def digit? (character : Char) : Option Nat :=
  if '0' ≤ character ∧ character ≤ '9' then some (character.toNat - 48)
  else if 'a' ≤ character ∧ character ≤ 'f' then some (character.toNat - 87)
  else if 'A' ≤ character ∧ character ≤ 'F' then some (character.toNat - 55)
  else none

/-- The value of a digit of a base. -/
def digitOf? (base : Nat) (character : Char) : Option Nat :=
  (digit? character).filter (· < base)

/-- The number that digits denote, the most significant digit first. -/
def valueOf (base : Nat) (digits : List Nat) : Nat :=
  digits.foldl (fun total digit => base * total + digit) 0

/-- The number that a text denotes, if it is made of one digit or more of the base. -/
def readNumeral? (base : Nat) (characters : List Char) : Option Nat :=
  if characters.isEmpty then none
  else (characters.mapM (digitOf? base)).map (valueOf base)

/-- What follows the mark `0x` or `0X`, when the text begins with one. -/
def afterHexMark? : List Char → Option (List Char)
  | '0' :: 'x' :: rest => some rest
  | '0' :: 'X' :: rest => some rest
  | _ => none

/-- A text without its mark, if it has one. -/
def dropHexMark (characters : List Char) : List Char :=
  (afterHexMark? characters).getD characters

@[simp] theorem afterHexMark?_lower (rest : List Char) :
    afterHexMark? ('0' :: 'x' :: rest) = some rest := rfl

@[simp] theorem afterHexMark?_upper (rest : List Char) :
    afterHexMark? ('0' :: 'X' :: rest) = some rest := rfl

theorem afterHexMark?_eq_some_iff {characters rest : List Char} :
    afterHexMark? characters = some rest ↔
      characters = '0' :: 'x' :: rest ∨ characters = '0' :: 'X' :: rest := by
  constructor
  · intro h
    unfold afterHexMark? at h
    split at h
    · rw [Option.some_inj] at h
      exact Or.inl (h ▸ rfl)
    · rw [Option.some_inj] at h
      exact Or.inr (h ▸ rfl)
    · exact absurd h (by simp)
  · rintro (rfl | rfl) <;> rfl

@[simp] theorem readNumeral?_nil (base : Nat) : readNumeral? base [] = none := rfl

end CallData.Text
