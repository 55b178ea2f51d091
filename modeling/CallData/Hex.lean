import CallData.Text.Numeral
import CallData.Text.Utf8

/-!
# Bytes in hexadecimal

Two digits to a byte, the high one first. Writing uses small letters; reading takes letters of
either case and names the first character that is no digit.

## Main definitions

* `Hex.encode`, `Hex.text`, `Hex.markedText` — the digits of bytes, alone and after `0x`
* `Hex.decode` — the bytes that digits denote, or the first flaw
* `Hex.Flaw.message` — the wording of a flaw
-/

namespace CallData.Hex

open CallData.Text

/-- The values of the digits of bytes. -/
def digitValues (bytes : List UInt8) : List Nat :=
  bytes.flatMap fun byte => [byte.toNat / 16, byte.toNat % 16]

/-- The digits of bytes. -/
def encode (bytes : List UInt8) : List Char :=
  (digitValues bytes).map Nat.digitChar

/-- The digits of bytes as a text. -/
def text (bytes : List UInt8) : String :=
  String.ofList (encode bytes)

/-- The digits of bytes as a text, after the mark `0x`. -/
def markedText (bytes : List UInt8) : String :=
  "0x" ++ text bytes

/-- A character that is no digit, and how many digits stand before it. -/
structure Flaw where
  found : Char
  position : Nat
  deriving DecidableEq, Repr

/-- The values of digits, the first of which stands at the given position. -/
def digitsFrom (position : Nat) : List Char → Except Flaw (List Nat)
  | [] => .ok []
  | character :: rest =>
    match digit? character with
    | none => .error ⟨character, position⟩
    | some value => (digitsFrom (position + 1) rest).map (value :: ·)

/-- The bytes of digit values, two values to a byte. -/
def joinPairs : List Nat → List UInt8
  | high :: low :: rest => UInt8.ofNat (16 * high + low) :: joinPairs rest
  | _ => []

/-- The bytes that an even number of digits denotes, or the first character that is no digit. -/
def decode (characters : List Char) : Except Flaw (List UInt8) :=
  (digitsFrom 0 characters).map joinPairs

/-- An even number of digits: an odd number, counted in bytes, gets a zero in front. -/
def evenDigits (characters : List Char) : List Char :=
  if utf8Length characters % 2 = 1 then '0' :: characters else characters

/-! ### The wording of a flaw -/

/-- The character whose code is the first byte of a character in UTF-8. -/
def leadingByte (character : Char) : Char :=
  Char.ofNat ((String.utf8EncodeChar character).headD 0).toNat

/-- A character below `U+0100` as it stands between apostrophes: controls, the apostrophe and the
backslash are escaped. -/
def escaped (character : Char) : List Char :=
  match character with
  | '\x00' => ['\\', '0']
  | '\t' => ['\\', 't']
  | '\n' => ['\\', 'n']
  | '\r' => ['\\', 'r']
  | '\'' => ['\\', '\'']
  | '\\' => ['\\', '\\']
  | other =>
    if other.toNat < 32 ∨ other.toNat = 127 then
      ['\\', 'u', '\x7b'] ++ Nat.toDigits 16 other.toNat ++ ['\x7d']
    else [other]

/-- A flaw whose character is shown as a small letter. -/
def Flaw.lowered (flaw : Flaw) : Flaw :=
  { flaw with found := flaw.found.toLower }

/-- The wording of a flaw. The offending character is shown by its first byte. -/
def Flaw.message (flaw : Flaw) : String :=
  "Invalid character '" ++ String.ofList (escaped (leadingByte flaw.found)) ++ "' at position "
    ++ toString flaw.position

/-! ### Lengths of what is read -/

theorem length_of_digitsFrom {position : Nat} {characters : List Char} {values : List Nat}
    (h : digitsFrom position characters = .ok values) : values.length = characters.length := by
  induction characters generalizing position values with
  | nil =>
    cases h
    rfl
  | cons character rest ih =>
    rw [digitsFrom] at h
    split at h
    · exact absurd h (by simp)
    · cases hrest : digitsFrom (position + 1) rest with
      | error flaw => simp [hrest, Except.map] at h
      | ok others =>
        simp only [hrest, Except.map, Except.ok.injEq] at h
        simp [← h, ih hrest]

theorem length_joinPairs : (values : List Nat) → (joinPairs values).length = values.length / 2
  | [] => rfl
  | [_] => by simp [joinPairs]
  | _ :: _ :: rest => by
    simp only [joinPairs, List.length_cons, length_joinPairs rest]
    omega

theorem length_of_decode {characters : List Char} {bytes : List UInt8}
    (h : decode characters = .ok bytes) : bytes.length = characters.length / 2 := by
  rw [decode] at h
  cases hvalues : digitsFrom 0 characters with
  | error flaw => simp [hvalues, Except.map] at h
  | ok values =>
    simp only [hvalues, Except.map, Except.ok.injEq] at h
    rw [← h, length_joinPairs, length_of_digitsFrom hvalues]

/-- A digit takes one byte. -/
theorem utf8Size_of_digit? {character : Char} {value : Nat} (h : digit? character = some value) :
    character.utf8Size = 1 := by
  have hcode : character.val ≤ 127 := by
    unfold digit? at h
    simp only [Char.le_def] at h
    split at h
    · exact UInt32.le_trans (by assumption : _ ∧ _).2 (by decide)
    · split at h
      · exact UInt32.le_trans (by assumption : _ ∧ _).2 (by decide)
      · split at h
        · exact UInt32.le_trans (by assumption : _ ∧ _).2 (by decide)
        · exact absurd h (by simp)
  simp [Char.utf8Size, hcode]

theorem utf8Length_of_digitsFrom {position : Nat} {characters : List Char} {values : List Nat}
    (h : digitsFrom position characters = .ok values) :
    utf8Length characters = characters.length := by
  induction characters generalizing position values with
  | nil => rfl
  | cons character rest ih =>
    rw [digitsFrom] at h
    split at h
    · exact absurd h (by simp)
    · rename_i value hvalue
      cases hrest : digitsFrom (position + 1) rest with
      | error flaw => simp [hrest, Except.map] at h
      | ok others =>
        have hlength := ih hrest
        rw [utf8Length_cons, hlength, utf8Size_of_digit? hvalue, List.length_cons]
        omega

/-- Text that is all digits has as many bytes in UTF-8 as characters. -/
theorem utf8Length_of_decode {characters : List Char} {bytes : List UInt8}
    (h : decode characters = .ok bytes) : utf8Length characters = characters.length := by
  rw [decode] at h
  cases hvalues : digitsFrom 0 characters with
  | error flaw => simp [hvalues, Except.map] at h
  | ok values => exact utf8Length_of_digitsFrom hvalues

/-! ### Reading back what was written -/

@[simp] theorem digitValues_nil : digitValues [] = [] := rfl

theorem digitValues_cons (byte : UInt8) (rest : List UInt8) :
    digitValues (byte :: rest) = byte.toNat / 16 :: byte.toNat % 16 :: digitValues rest := rfl

@[simp] theorem length_digitValues (bytes : List UInt8) :
    (digitValues bytes).length = 2 * bytes.length := by
  induction bytes with
  | nil => rfl
  | cons byte rest ih =>
    simp only [digitValues_cons, List.length_cons, ih]
    omega

theorem lt_of_mem_digitValues {bytes : List UInt8} {value : Nat} (h : value ∈ digitValues bytes) :
    value < 16 := by
  obtain ⟨byte, -, hvalue⟩ := List.mem_flatMap.mp h
  have := byte.toNat_lt
  simp only [List.mem_cons, List.not_mem_nil, or_false] at hvalue
  omega

@[simp] theorem encode_nil : encode [] = [] := rfl

@[simp] theorem length_encode (bytes : List UInt8) : (encode bytes).length = 2 * bytes.length := by
  simp [encode]

theorem digit?_digitChar {value : Nat} (h : value < 16) :
    digit? (Nat.digitChar value) = some value := by
  revert value
  decide

theorem digitsFrom_map_digitChar {values : List Nat} (h : ∀ value ∈ values, value < 16)
    (position : Nat) : digitsFrom position (values.map Nat.digitChar) = .ok values := by
  induction values generalizing position with
  | nil => rfl
  | cons value rest ih =>
    obtain ⟨hfirst, hrest⟩ := List.forall_mem_cons.mp h
    simp [digitsFrom, digit?_digitChar hfirst, ih hrest, Except.map]

theorem joinPairs_digitValues (bytes : List UInt8) : joinPairs (digitValues bytes) = bytes := by
  induction bytes with
  | nil => rfl
  | cons byte rest ih =>
    have hjoin : 16 * (byte.toNat / 16) + byte.toNat % 16 = byte.toNat := by omega
    simp [digitValues_cons, joinPairs, hjoin, ih]

/-- Bytes written in hexadecimal are read back. -/
theorem decode_encode (bytes : List UInt8) : decode (encode bytes) = .ok bytes := by
  rw [decode, encode, digitsFrom_map_digitChar fun _ => lt_of_mem_digitValues, Except.map,
    joinPairs_digitValues]

end CallData.Hex
