import CallData.Word

/-!
# Keccak-256

The sponge over a state of twenty-five lanes of sixty-four bits with a rate of 136 bytes, padded by
a single one bit at each end of the padding. A lane is addressed by two coordinates that wrap at
five, and its bytes stand with the least significant one first.

## Main definitions

* `Keccak.State`, `Keccak.permute` — the state and its permutation, in twenty-four rounds
* `Keccak.pad` — a message filled up to whole blocks
* `Keccak.hash` — the digest of a message
-/

namespace CallData.Keccak

/-- Twenty-five lanes; the lane at `x` and `y` has the index `5 * y + x`. -/
abbrev State := Vector UInt64 25

/-- The index of a lane. -/
def laneIndex (x y : Nat) : Fin 25 :=
  ⟨5 * (y % 5) + x % 5, by omega⟩

/-- The lane at two coordinates. -/
def lane (state : State) (x y : Nat) : UInt64 :=
  state.get (laneIndex x y)

/-- A state from the lanes at all coordinates. -/
def ofLanes (lanes : Nat → Nat → UInt64) : State :=
  .ofFn fun index => lanes (index.val % 5) (index.val / 5)

/-- A state with a word added to one lane. -/
def addAt (state : State) (index : Fin 25) (word : UInt64) : State :=
  state.set index.val (state.get index ^^^ word) index.isLt

/-- A lane turned left by a number of bits below sixty-four. -/
def rotateLeft (word : UInt64) (count : Nat) : UInt64 :=
  if count = 0 then word
  else (word <<< UInt64.ofNat count) ||| (word >>> UInt64.ofNat (64 - count))

/-! ### The five steps of a round -/

/-- How far each lane is turned. -/
def rotations : Vector Nat 25 :=
  #v[0, 1, 62, 28, 27, 36, 44, 6, 55, 20, 3, 10, 43, 25, 39, 41, 45, 15, 21, 8, 18, 2, 61, 56, 14]

/-- The constants that tell the rounds apart. -/
def roundConstants : List UInt64 :=
  [0x0000000000000001, 0x0000000000008082, 0x800000000000808A, 0x8000000080008000,
    0x000000000000808B, 0x0000000080000001, 0x8000000080008081, 0x8000000000008009,
    0x000000000000008A, 0x0000000000000088, 0x0000000080008009, 0x000000008000000A,
    0x000000008000808B, 0x800000000000008B, 0x8000000000008089, 0x8000000000008003,
    0x8000000000008002, 0x8000000000000080, 0x000000000000800A, 0x800000008000000A,
    0x8000000080008081, 0x8000000000008080, 0x0000000080000001, 0x8000000080008008]

/-- The sum of a column of lanes. -/
def parity (state : State) (x : Nat) : UInt64 :=
  lane state x 0 ^^^ lane state x 1 ^^^ lane state x 2 ^^^ lane state x 3 ^^^ lane state x 4

/-- Each lane takes in the sums of two columns beside its own. -/
def theta (state : State) : State :=
  let parities : Vector UInt64 5 := .ofFn fun x => parity state x.val
  let column (x : Nat) : UInt64 := parities.get ⟨x % 5, by omega⟩
  ofLanes fun x y => lane state x y ^^^ (column (x + 4) ^^^ rotateLeft (column (x + 1)) 1)

/-- Each lane is turned. -/
def rho (state : State) : State :=
  .zipWith rotateLeft state rotations

/-- The lanes change places. -/
def pi (state : State) : State :=
  ofLanes fun x y => lane state (x + 3 * y) x

/-- Each lane is combined with the two that follow it in its row. -/
def chi (state : State) : State :=
  ofLanes fun x y => lane state x y ^^^ (~~~ lane state (x + 1) y &&& lane state (x + 2) y)

/-- The first lane takes in the constant of the round. -/
def iota (constant : UInt64) (state : State) : State :=
  addAt state (laneIndex 0 0) constant

/-- One round. -/
def round (state : State) (constant : UInt64) : State :=
  iota constant (chi (pi (rho (theta state))))

/-- The permutation. -/
def permute (state : State) : State :=
  roundConstants.foldl round state

/-! ### The sponge -/

/-- The number of bytes that a block takes in. -/
def rate : Nat := 136

/-- The bytes that fill up a message of a given length. -/
def padding (length : Nat) : List UInt8 :=
  let missing := rate - length % rate
  if missing = 1 then [0x81] else 0x01 :: (List.replicate (missing - 2) 0 ++ [0x80])

/-- A message filled up to whole blocks. -/
def pad (message : List UInt8) : List UInt8 :=
  message ++ padding message.length

/-- The lanes that bytes spell, eight bytes to a lane. -/
def lanesOf : List UInt8 → List UInt64
  | b₀ :: b₁ :: b₂ :: b₃ :: b₄ :: b₅ :: b₆ :: b₇ :: rest =>
    UInt64.ofNat (fromBigEndian [b₇, b₆, b₅, b₄, b₃, b₂, b₁, b₀]) :: lanesOf rest
  | _ => []

/-- The bytes of a lane. -/
def laneBytes (word : UInt64) : List UInt8 :=
  (bigEndian 8 word.toNat).reverse

/-- One more lane of a block, of which some were taken in before; the last one of a block is
followed by the permutation. -/
def absorbLane (progress : State × Fin 17) (word : UInt64) : State × Fin 17 :=
  let (state, position) := progress
  let mixed := addAt state ⟨position.val, by omega⟩ word
  if position.val = 16 then (permute mixed, 0) else (mixed, position + 1)

/-- The state after a message. -/
def absorb (message : List UInt8) : State :=
  ((lanesOf (pad message)).foldl absorbLane (.replicate 25 0, 0)).1

/-- The digest of a message: the first four lanes of the state. -/
def hash (message : List UInt8) : Word :=
  let state := absorb message
  ⟨laneBytes (lane state 0 0) ++ laneBytes (lane state 1 0) ++
      laneBytes (lane state 2 0) ++ laneBytes (lane state 3 0), by
    simp [laneBytes, wordSize]⟩

/-- Every block is whole. -/
theorem rate_dvd_length_pad (message : List UInt8) : rate ∣ (pad message).length := by
  rw [pad, List.length_append, padding, rate]
  by_cases h : 136 - message.length % 136 = 1
  · rw [if_pos h, List.length_singleton]
    omega
  · rw [if_neg h, List.length_cons, List.length_append, List.length_replicate,
      List.length_singleton]
    omega

end CallData.Keccak
