import CallData.Decimal.Layout
import CallData.Json.Literal

/-!
# JSON numbers

A number is an integer when it is written without fraction and exponent and fits into sixty-four
bits, signed or unsigned, and a double otherwise. Negative zero is a double.

A double is read from at most as many digits as fit into sixty-four unsigned bits, which are scaled
by one power of ten; digits of the whole part that do not fit only count as places.

## Main definitions

* `Json.Number` — an integer or a double
* `Json.Numeral.toNumber?` — the number that a numeral denotes, unless it is too large
* `Json.Number.text` — the text of a number
-/

namespace CallData.Json

/-- An integer or a double. -/
inductive Number
  | integer (value : Int)
  | double (value : Float)
  deriving Repr

/-! ### Reading -/

namespace Numeral

/-- The greatest significand. -/
def largestSignificand : Nat := 0xFFFFFFFFFFFFFFFF

/-- A significand with as many more digits as fit, and the digits that do not. -/
def gather (significand : Nat) : List Nat → Nat × List Nat
  | [] => (significand, [])
  | digit :: rest =>
    if 10 * significand + digit ≤ largestSignificand then gather (10 * significand + digit) rest
    else (significand, digit :: rest)

/-- A power of ten as a double. -/
def powerOfTen (exponent : Nat) : Float := Float.ofScientific 1 false exponent

/-- A double divided by a power of ten, in steps that a double can hold. -/
def divideByPower (value : Float) (exponent : Nat) : Float :=
  if exponent ≤ 308 then value / powerOfTen exponent
  else if value == 0 then value
  else divideByPower (value / powerOfTen 308) (exponent - 308)
termination_by exponent

/-- A double times a power of ten, unless it is too large for a double. -/
def timesPower? (value : Float) (exponent : Nat) : Option Float :=
  if exponent ≤ 308 then
    let product := value * powerOfTen exponent
    if product.isInf then none else some product
  else if value == 0 then some value
  else none

/-- A significand times a power of ten, of either sign. -/
def scale? (significand : Nat) (exponent : Int) : Option Float :=
  let value := (UInt64.ofNat significand).toFloat
  match exponent with
  | .ofNat size => timesPower? value size
  | .negSucc size => some (divideByPower value (size + 1))

/-- The double that a numeral denotes, whatever its form. -/
def toDouble? (numeral : Numeral) : Option Float :=
  let (whole, wholeLeft) := gather 0 numeral.whole
  let (significand, fractionLeft) := gather whole numeral.fraction
  let taken := numeral.fraction.length - fractionLeft.length
  let exponent := (wholeLeft.length : Int) - taken + numeral.exponent.getD 0
  (scale? significand exponent).map fun value => if numeral.negative then -value else value

/-- The integer that a numeral denotes, if it is one that a number keeps as an integer. -/
def toInteger? (numeral : Numeral) : Option Int :=
  if numeral.fraction.isEmpty && numeral.exponent.isNone then
    match gather 0 numeral.whole with
    | (size, []) =>
      if numeral.negative then
        if 0 < size ∧ size ≤ 0x8000000000000000 then some (-(size : Int)) else none
      else some size
    | _ => none
  else none

/-- The number that a numeral denotes, unless it is too large. -/
def toNumber? (numeral : Numeral) : Option Number :=
  match numeral.toInteger? with
  | some value => some (.integer value)
  | none => numeral.toDouble?.map .double

end Numeral

/-! ### Writing -/

namespace Number

/-- Doubles are written plainly from five places behind the point to sixteen before it. -/
def layout : Decimal.Layout := ⟨-5, 15⟩

/-- A plain text always has a digit behind the point, and an exponent always a sign. -/
example : Decimal.text layout ⟨15, -1⟩ = "1.5" ∧ Decimal.text layout ⟨1, -5⟩ = "0.00001" ∧
    Decimal.text layout ⟨12, 4⟩ = "120000.0" ∧ Decimal.text layout ⟨1, 16⟩ = "1e+16" := by
  decide

/-- The text of a double that is finite. -/
def doubleText (value : Float) : String :=
  let sign := if 0x8000000000000000 ≤ value.toBits then "-" else ""
  let size :=
    if value == 0 then "0.0"
    else (Binary.ofFloat value).shortest.text layout
  sign ++ size

/-- The text of a number. -/
def text : Number → String
  | .integer value => toString value
  | .double value => doubleText value

/-- The value of a number that is kept as an integer and is not negative. -/
def natural? : Number → Option Nat
  | .integer (.ofNat value) => some value
  | _ => none

end Number

end CallData.Json
