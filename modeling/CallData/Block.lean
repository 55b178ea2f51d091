import CallData.Assembly
import CallData.Hex

/-!
# Parameter blocks

The arguments of a call in bytes, with or without the selector of a method in front. The number of
arguments is compared with the number of parameters before any argument is looked at.

## Main definitions

* `Selector` — the four bytes that name a method in a call
* `Block.requireCount` — as many arguments as parameters
* `Block.ofSources`, `Block.ofValues` — the block of arguments made one at a time, and of values
* `Block.behind`, `Block.text` — a block behind a selector, in bytes and as a text
-/

namespace CallData

/-- The four bytes that name a method in a call. -/
structure Selector where
  bytes : List UInt8
  length_bytes : bytes.length = 4
  deriving DecidableEq

/-- A selector in hexadecimal. -/
def Selector.text (selector : Selector) : String :=
  Hex.text selector.bytes

namespace Block

/-- As many arguments as parameters. -/
def requireCount (expected actual : Nat) : Except CodecError Unit :=
  if expected = actual then .ok () else .error (.argumentCountMismatch expected actual)

/-- The block of arguments that are made one at a time. -/
def ofSources (types : List ParamType) (sources : List (Except CodecError Value)) :
    Logged CodecError (List UInt8) :=
  Assembly.bytes <$> (Assembly.empty types.length).pushAll 0 (types.zip sources)

/-- The block of values. -/
def ofValues (types : List ParamType) (values : List Value) : Logged CodecError (List UInt8) := do
  Logged.ofExcept (requireCount types.length values.length)
  ofSources types (values.map .ok)

/-- A block behind a selector, if there is one. -/
def behind (selector : Option Selector) (block : List UInt8) : List UInt8 :=
  match selector with
  | some selector => selector.bytes ++ block
  | none => block

/-- A block behind a selector, if there is one, as a text. -/
def text (selector : Option Selector) (block : List UInt8) : String :=
  Hex.markedText (behind selector block)

@[simp] theorem requireCount_self (count : Nat) : requireCount count count = .ok () := by
  simp [requireCount]

theorem requireCount_of_ne {expected actual : Nat} (h : expected ≠ actual) :
    requireCount expected actual = .error (.argumentCountMismatch expected actual) := by
  simp [requireCount, h]

@[simp] theorem behind_none (block : List UInt8) : behind none block = block := rfl

@[simp] theorem behind_some (selector : Selector) (block : List UInt8) :
    behind (some selector) block = selector.bytes ++ block := rfl

end Block

end CallData
