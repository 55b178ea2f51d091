/-!
# The shortest decimal that reads back

A floating-point number stands for all reals that round to it. Of the decimals among those, the one
on the coarsest grid of powers of ten has the fewest digits; of two on one grid the nearer is
taken, and the even one at equal distance. All comparisons are exact, by multiplying out the powers
of two and ten.

## Main definitions

* `Binary`, `Binary.ofFloat` — a positive number in binary, and the one that a float holds
* `Decimal` — digits and a power of ten
* `Binary.readsBack` — the decimals that round to a binary number
* `Binary.shortest` — the shortest of them
-/

namespace CallData

/-- The positive number `significand * 2 ^ exponent`. The gap below it is half as wide as the one
above when `narrowBelow` holds. -/
structure Binary where
  significand : Nat
  exponent : Int
  narrowBelow : Bool
  deriving DecidableEq, Repr

/-- The number `digits * 10 ^ exponent`. -/
structure Decimal where
  digits : Nat
  exponent : Int
  deriving DecidableEq, Repr

namespace Decimal

/-- A decimal as a multiple of a power of two, both scaled to natural numbers. -/
def scaled (decimal : Decimal) (binaryExponent : Int) : Nat :=
  decimal.digits * Nat.pow 10 decimal.exponent.toNat * Nat.pow 2 (-binaryExponent).toNat

end Decimal

namespace Binary

/-- A multiple of a power of two, scaled like a decimal of some exponent. -/
def scaled (multiple : Nat) (binaryExponent decimalExponent : Int) : Nat :=
  multiple * Nat.pow 2 binaryExponent.toNat * Nat.pow 10 (-decimalExponent).toNat

/-- A quarter of the gap above a number is the unit in which the halves of both gaps are whole. -/
def quarterExponent (binary : Binary) : Int :=
  binary.exponent - 2

/-- The least real that may round to a number, in quarters. -/
def lowest (binary : Binary) : Nat :=
  4 * binary.significand - (if binary.narrowBelow then 1 else 2)

/-- The greatest real that may round to a number, in quarters. -/
def highest (binary : Binary) : Nat :=
  4 * binary.significand + 2

/-- A decimal rounds to a binary number when it lies between the two ends; the ends themselves
round to it when the significand is even. -/
def readsBack (binary : Binary) (decimal : Decimal) : Bool :=
  let position := decimal.scaled binary.quarterExponent
  let low := scaled binary.lowest binary.quarterExponent decimal.exponent
  let high := scaled binary.highest binary.quarterExponent decimal.exponent
  if binary.significand % 2 = 0 then low ≤ position && position ≤ high
  else low < position && position < high

/-- How a number compares with a decimal. -/
def compareTo (binary : Binary) (decimal : Decimal) : Ordering :=
  compare (scaled binary.significand binary.exponent decimal.exponent)
    (decimal.scaled binary.exponent)

/-- The greatest decimal of some exponent that is not above a number. -/
def floorOn (binary : Binary) (exponent : Int) : Decimal :=
  ⟨scaled binary.significand binary.exponent exponent
    / (Decimal.mk 1 exponent).scaled binary.exponent, exponent⟩

/-- The nearer of two neighbouring decimals, and the even one at equal distance. Twice the number
is compared with their sum. -/
def nearer (binary : Binary) (below above : Decimal) : Decimal :=
  match compareTo ⟨2 * binary.significand, binary.exponent, false⟩
      ⟨below.digits + above.digits, below.exponent⟩ with
  | .lt => below
  | .gt => above
  | .eq => if below.digits % 2 = 0 then below else above

/-- The decimal of some exponent that reads back, the nearest if there are two. -/
def onGrid? (binary : Binary) (exponent : Int) : Option Decimal :=
  let below := binary.floorOn exponent
  let above : Decimal := ⟨below.digits + 1, exponent⟩
  if binary.readsBack below then
    if binary.readsBack above then some (binary.nearer below above) else some below
  else if binary.readsBack above then some above
  else none

/-- The exponents of the grids that a double can need, the coarsest first. -/
def gridExponents : List Int :=
  (List.range 633).map fun index : Nat => (308 - index : Int)

/-- A binary number as a decimal of the same value. -/
def exact (binary : Binary) : Decimal :=
  ⟨binary.significand * Nat.pow 2 binary.exponent.toNat * Nat.pow 5 (-binary.exponent).toNat,
    min binary.exponent 0⟩

/-- The shortest decimal that reads back; the number itself, should no grid have one. -/
def shortest (binary : Binary) : Decimal :=
  (gridExponents.findSome? binary.onGrid?).getD binary.exact

/-- The size of a finite float that is not zero. -/
def ofFloat (x : Float) : Binary :=
  let bits := x.toBits.toNat
  let fraction := bits % 0x10000000000000
  let biased := bits / 0x10000000000000 % 0x800
  if biased = 0 then ⟨fraction, -1074, false⟩
  else ⟨0x10000000000000 + fraction, Int.ofNat biased - 1075, fraction == 0 && 1 < biased⟩

/-- The least number has neighbours at three and seven, and five is the nearest. -/
example : (Binary.mk 1 (-1074) false).onGrid? (-324) = some ⟨5, -324⟩ := by decide +kernel

/-- What is selected reads back. -/
theorem readsBack_of_onGrid? {binary : Binary} {exponent : Int} {decimal : Decimal}
    (h : binary.onGrid? exponent = some decimal) : binary.readsBack decimal := by
  simp only [onGrid?] at h
  split at h
  · rename_i hbelow
    split at h
    · rename_i habove
      rw [Option.some_inj] at h
      subst h
      unfold nearer
      split
      · exact hbelow
      · exact habove
      · split
        · exact hbelow
        · exact habove
    · exact Option.some_inj.mp h ▸ hbelow
  · split at h
    · rename_i habove
      exact Option.some_inj.mp h ▸ habove
    · exact absurd h (by simp)

end Binary

end CallData
