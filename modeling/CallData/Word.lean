/-!
# Words

A word is thirty-two bytes. A number fills it from the right, the most significant byte first.

## Main definitions

* `bigEndian`, `fromBigEndian` — a number as a fixed count of bytes, and the number that bytes
  denote
* `Word` — thirty-two bytes
* `Word.ofNat`, `Word.toNat` — numbers as words and back
* `Word.padLeft` — zeros in front of at most thirty-two bytes
-/

namespace CallData

/-- The last bytes of a number, the most significant first. -/
def bigEndian : Nat → Nat → List UInt8
  | 0, _ => []
  | count + 1, number => bigEndian count (number / 256) ++ [UInt8.ofNat number]

/-- The number that bytes denote, the most significant first. -/
def fromBigEndian (bytes : List UInt8) : Nat :=
  bytes.foldl (fun total byte => 256 * total + byte.toNat) 0

@[simp] theorem length_bigEndian (count number : Nat) :
    (bigEndian count number).length = count := by
  induction count generalizing number with
  | zero => rfl
  | succ count ih => simp [bigEndian, ih]

@[simp] theorem fromBigEndian_nil : fromBigEndian [] = 0 := rfl

theorem fromBigEndian_append_singleton (bytes : List UInt8) (byte : UInt8) :
    fromBigEndian (bytes ++ [byte]) = 256 * fromBigEndian bytes + byte.toNat := by
  simp [fromBigEndian]

/-- A number is read back from its last bytes up to what they can hold. -/
theorem fromBigEndian_bigEndian (count number : Nat) :
    fromBigEndian (bigEndian count number) = number % Nat.pow 256 count := by
  induction count generalizing number with
  | zero => simp [bigEndian, Nat.mod_one]
  | succ count ih =>
    have hpow : Nat.pow 256 (count + 1) = 256 * Nat.pow 256 count := Nat.mul_comm _ _
    rw [bigEndian, fromBigEndian_append_singleton, ih, UInt8.toNat_ofNat', hpow, Nat.mod_mul]
    omega

/-- Bytes are read back from their number and their count. -/
theorem bigEndian_fromBigEndian (bytes : List UInt8) :
    bigEndian bytes.length (fromBigEndian bytes) = bytes := by
  generalize hcount : bytes.length = count
  induction count generalizing bytes with
  | zero => exact (List.eq_nil_of_length_eq_zero hcount).symm
  | succ count ih =>
    have hne : bytes ≠ [] := List.ne_nil_of_length_eq_add_one hcount
    obtain ⟨init, last, rfl⟩ : ∃ init last, bytes = init ++ [last] :=
      ⟨_, _, (List.dropLast_concat_getLast hne).symm⟩
    have hlast := last.toNat_lt
    have hdiv : (256 * fromBigEndian init + last.toNat) / 256 = fromBigEndian init := by omega
    have hmod : UInt8.ofNat (256 * fromBigEndian init + last.toNat) = last := by
      apply UInt8.toNat_inj.mp
      rw [UInt8.toNat_ofNat']
      omega
    rw [bigEndian, fromBigEndian_append_singleton, hdiv, hmod, ih init (by simpa using hcount)]

/-- Bytes denote a number below what their count can hold. -/
theorem fromBigEndian_lt (bytes : List UInt8) :
    fromBigEndian bytes < Nat.pow 256 bytes.length := by
  have h := fromBigEndian_bigEndian bytes.length (fromBigEndian bytes)
  rw [bigEndian_fromBigEndian] at h
  rw [h]
  exact Nat.mod_lt _ (Nat.pow_pos (by decide))

/-- The number of bytes in a word. -/
def wordSize : Nat := 32

/-- Thirty-two bytes. -/
structure Word where
  bytes : List UInt8
  length_bytes : bytes.length = wordSize
  deriving DecidableEq

namespace Word

@[ext] theorem ext {first second : Word} (h : first.bytes = second.bytes) : first = second := by
  cases first
  cases second
  cases h
  rfl

/-- The least number that does not fit into a word. -/
def limit : Nat := Nat.pow 256 wordSize

/-- The word of a number below the limit. -/
def ofNat (number : Nat) : Word :=
  ⟨bigEndian wordSize number, length_bigEndian wordSize number⟩

/-- The number that a word denotes. -/
def toNat (word : Word) : Nat :=
  fromBigEndian word.bytes

/-- At most thirty-two bytes with zeros in front. -/
def padLeft (bytes : List UInt8) (h : bytes.length ≤ wordSize) : Word :=
  ⟨List.replicate (wordSize - bytes.length) 0 ++ bytes, by simp; omega⟩

theorem toNat_lt (word : Word) : word.toNat < limit := by
  have h := fromBigEndian_lt word.bytes
  rwa [word.length_bytes] at h

/-- A number below the limit is read back from its word. -/
theorem toNat_ofNat {number : Nat} (h : number < limit) : (ofNat number).toNat = number := by
  rw [toNat, ofNat, fromBigEndian_bigEndian]
  exact Nat.mod_eq_of_lt h

/-- A word is read back from its number. -/
theorem ofNat_toNat (word : Word) : ofNat word.toNat = word := by
  apply Word.ext
  have h := bigEndian_fromBigEndian word.bytes
  rwa [word.length_bytes] at h

/-- A word is known by its number. -/
theorem toNat_inj {first second : Word} : first.toNat = second.toNat ↔ first = second := by
  constructor
  · intro h
    rw [← ofNat_toNat first, h, ofNat_toNat]
  · rintro rfl
    rfl

@[simp] theorem bytes_padLeft (bytes : List UInt8) (h : bytes.length ≤ wordSize) :
    (padLeft bytes h).bytes = List.replicate (wordSize - bytes.length) 0 ++ bytes := rfl

end Word

end CallData
