import CallData.Word

/-!
# Chunks

The encoded form of bytes of any length: a word that holds their number, then the bytes themselves,
then zeros up to the next multiple of thirty-two.

## Main definitions

* `padRight` — zeros behind bytes up to a whole number of words
* `Chunk` — a length word and padded data
* `Chunk.ofBytes` — the chunk of bytes
* `Chunk.bytes` — the length word followed by the data
-/

namespace CallData

/-- The least multiple of a word's size that is not below a length. -/
def roundUp (length : Nat) : Nat :=
  (length + (wordSize - 1)) / wordSize * wordSize

/-- Bytes with zeros behind them up to a whole number of words. -/
def padRight (bytes : List UInt8) : List UInt8 :=
  bytes ++ List.replicate (roundUp bytes.length - bytes.length) 0

theorem le_roundUp (length : Nat) : length ≤ roundUp length := by
  simp only [roundUp, wordSize]
  omega

theorem dvd_roundUp (length : Nat) : wordSize ∣ roundUp length :=
  ⟨_, Nat.mul_comm _ _⟩

/-- A whole number of words is left as it is. -/
theorem roundUp_of_dvd {length : Nat} (h : wordSize ∣ length) : roundUp length = length := by
  obtain ⟨count, rfl⟩ := h
  simp only [roundUp, wordSize]
  omega

@[simp] theorem length_padRight (bytes : List UInt8) :
    (padRight bytes).length = roundUp bytes.length := by
  have := le_roundUp bytes.length
  simp [padRight]
  omega

/-- The number of payload bytes as a word, and the payload padded to whole words. -/
structure Chunk where
  length : Word
  data : List UInt8
  deriving DecidableEq

namespace Chunk

/-- The chunk that carries some bytes. -/
def ofBytes (payload : List UInt8) : Chunk where
  length := .ofNat payload.length
  data := padRight payload

/-- The number of bytes that a chunk takes. -/
def size (chunk : Chunk) : Nat :=
  wordSize + chunk.data.length

/-- The length word followed by the data. -/
def bytes (chunk : Chunk) : List UInt8 :=
  chunk.length.bytes ++ chunk.data

@[simp] theorem length_bytes (chunk : Chunk) : chunk.bytes.length = chunk.size := by
  simp [bytes, size, chunk.length.length_bytes]

@[simp] theorem size_ofBytes (payload : List UInt8) :
    (ofBytes payload).size = wordSize + roundUp payload.length := by
  simp [size, ofBytes]

end Chunk

end CallData
