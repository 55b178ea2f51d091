import CallData.Decimal.Shortest

/-!
# The text of a decimal

A decimal is written plainly when its first digit stands near the point, and with an exponent
otherwise. How near is up to the format that it is written in.

## Main definitions

* `Decimal.Layout` — what a format decides
* `Decimal.text` — the text of a decimal in a format
-/

namespace CallData.Decimal

/-- Which powers of ten the first digit of a decimal that is written plainly may stand for. -/
structure Layout where
  leastPlain : Int
  greatestPlain : Int
  deriving DecidableEq, Repr

/-- The digits of a decimal around a point, with at least one digit on either side. The power of
ten of the first digit is given. -/
def plain (decimal : Decimal) (leading : Int) : List Char :=
  let digits := Nat.toDigits 10 decimal.digits
  if 0 ≤ decimal.exponent then
    digits ++ List.replicate decimal.exponent.toNat '0' ++ ['.', '0']
  else if 0 ≤ leading then
    digits.take (leading + 1).toNat ++ ['.'] ++ digits.drop (leading + 1).toNat
  else
    ['0', '.'] ++ List.replicate (-leading - 1).toNat '0' ++ digits

/-- The first digit of a decimal, the others behind a point, and the power of ten of the first one
with its sign. -/
def scientific (decimal : Decimal) (leading : Int) : List Char :=
  let mantissa :=
    match Nat.toDigits 10 decimal.digits with
    | first :: second :: rest => first :: '.' :: second :: rest
    | short => short
  let sign := if leading < 0 then '-' else '+'
  mantissa ++ 'e' :: sign :: Nat.toDigits 10 leading.natAbs

/-- The text of a decimal in a format. -/
def text (layout : Layout) (decimal : Decimal) : String :=
  let leading : Int := (Nat.toDigits 10 decimal.digits).length - 1 + decimal.exponent
  String.ofList <|
    if layout.leastPlain ≤ leading ∧ leading ≤ layout.greatestPlain then decimal.plain leading
    else decimal.scientific leading

end CallData.Decimal
