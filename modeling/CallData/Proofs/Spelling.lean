import CallData.Proofs.Traversal
import CallData.ValueText
import Mathlib.Data.Nat.Digits.Defs

/-!
# Spellings

Which texts spell a number, an address, a truth value or bytes, and what they spell. The rules are
stated about characters alone; the readers of texts are shown to follow them.

## Main definitions

* `Text.IsDecimal`, `Text.IsHex` — texts made of digits
* `Text.Marked`, `Text.MaybeMarked` — digits behind a mark
* `Text.numeralValue` — the number that digits denote
* `Text.Spells` — the bytes that digits denote, two digits to a byte

## Main results

* `ValueText.number?_eq_some_iff` — the texts of numbers
* `ValueText.bytes_eq_ok_iff_spells`, `Address.ofText_eq_ok_iff` — the texts of bytes and addresses
-/

namespace CallData

namespace Text

/-- A decimal digit. -/
def IsDecimalDigit (character : Char) : Prop := '0' ≤ character ∧ character ≤ '9'

/-- A hexadecimal digit, in either case. -/
def IsHexDigit (character : Char) : Prop :=
  IsDecimalDigit character ∨ ('a' ≤ character ∧ character ≤ 'f') ∨
    ('A' ≤ character ∧ character ≤ 'F')

/-- A hexadecimal digit without capital letters. -/
def IsSmallHexDigit (character : Char) : Prop :=
  IsDecimalDigit character ∨ ('a' ≤ character ∧ character ≤ 'f')

/-- A text of one decimal digit or more. -/
def IsDecimal (characters : List Char) : Prop :=
  characters ≠ [] ∧ ∀ character ∈ characters, IsDecimalDigit character

/-- A text of hexadecimal digits. -/
def IsHex (characters : List Char) : Prop :=
  ∀ character ∈ characters, IsHexDigit character

/-- Digits behind a mark. -/
def Marked (characters digits : List Char) : Prop :=
  characters = '0' :: 'x' :: digits ∨ characters = '0' :: 'X' :: digits

/-- Digits behind a mark or without one. -/
def MaybeMarked (characters digits : List Char) : Prop :=
  characters = digits ∨ Marked characters digits

/-- The number that digits of a base denote, the most significant digit first. -/
def numeralValue (base : Nat) (characters : List Char) : Nat :=
  Nat.ofDigits base (characters.reverse.map fun character => (digit? character).getD 0)

/-- A text that denotes a number: in decimal digits, or in hexadecimal ones behind a mark. -/
def Denotes (characters : List Char) (number : Nat) : Prop :=
  (IsDecimal characters ∧ numeralValue 10 characters = number) ∨
    ∃ digits, Marked characters digits ∧ (digits ≠ [] ∧ IsHex digits) ∧
      numeralValue 16 digits = number

/-- The texts of a truth value. -/
def truthTexts : Bool → List String
  | true => ["1", "true"]
  | false => ["0", "false"]

/-- Digits that spell bytes, two digits to a byte and the high one first. -/
def Spells (digits : List Char) (bytes : List UInt8) : Prop :=
  digits.map digit? = (Hex.digitValues bytes).map some

/-! ### Digits -/

theorem lt_of_digit? {character : Char} {value : Nat} (h : digit? character = some value) :
    value < 16 := by
  unfold digit? at h
  simp only [Char.le_def, UInt32.le_iff_toNat_le] at h
  have hcode : character.toNat = character.val.toNat := rfl
  split_ifs at h with hdecimal hsmall hlarge
  all_goals
    simp only [Option.some.injEq] at h
    subst h
    simp at *
    omega

theorem isSome_digit?_iff {character : Char} :
    (digit? character).isSome ↔ IsHexDigit character := by
  unfold digit? IsHexDigit IsDecimalDigit
  split_ifs <;> simp_all

theorem digitOf?_sixteen (character : Char) : digitOf? 16 character = digit? character := by
  unfold digitOf?
  cases h : digit? character with
  | none => rfl
  | some value => simp [Option.filter, lt_of_digit? h]

/-- Of the hexadecimal digits the decimal ones have the values below ten. -/
theorem isSome_digitOf?_ten_iff {character : Char} :
    (digitOf? 10 character).isSome ↔ IsDecimalDigit character := by
  unfold digitOf? digit? IsDecimalDigit
  simp only [Char.le_def, UInt32.le_iff_toNat_le]
  have hcode : character.toNat = character.val.toNat := rfl
  split_ifs with hdecimal hsmall hlarge <;> simp [Option.filter] at * <;> omega

/-- A digit of some base has the value that it has in base sixteen. -/
theorem getD_digit?_of_digitOf? {base : Nat} {character : Char} {value : Nat}
    (h : digitOf? base character = some value) : (digit? character).getD 0 = value := by
  rw [(Option.filter_eq_some_iff.mp h).1, Option.getD_some]

/-! ### Numbers -/

theorem valueOf_eq_ofDigits (base : Nat) (digits : List Nat) :
    valueOf base digits = Nat.ofDigits base digits.reverse := by
  rw [Nat.ofDigits_eq_foldr, List.foldr_reverse, valueOf]
  simp only [Nat.add_comm, Nat.cast_id]

theorem valueOf_eq_numeralValue {base : Nat} {characters : List Char} {digits : List Nat}
    (h : characters.map (digitOf? base) = digits.map some) :
    valueOf base digits = numeralValue base characters := by
  have hdigits : digits = characters.map fun character => (digit? character).getD 0 := by
    induction characters generalizing digits with
    | nil => simpa using h.symm
    | cons character rest ih =>
      cases digits with
      | nil => exact absurd h (by simp)
      | cons value others =>
        obtain ⟨hvalue, hothers⟩ := List.cons.inj h
        rw [List.map_cons, getD_digit?_of_digitOf? hvalue, ih hothers]
  rw [valueOf_eq_ofDigits, numeralValue, hdigits, List.map_reverse]

/-- Reading a numeral succeeds on one digit or more, with the number that they denote. -/
theorem readNumeral?_eq_some_iff {base : Nat} {characters : List Char} {number : Nat} :
    readNumeral? base characters = some number ↔
      (characters ≠ [] ∧ ∀ character ∈ characters, (digitOf? base character).isSome) ∧
        numeralValue base characters = number := by
  unfold readNumeral?
  split_ifs with hempty
  · simp [List.isEmpty_iff.mp hempty]
  · have hne : characters ≠ [] := fun h => hempty (List.isEmpty_iff.mpr h)
    simp only [Option.map_eq_some_iff, Traversal.mapM_eq_some_iff]
    constructor
    · rintro ⟨digits, hdigits, rfl⟩
      exact ⟨⟨hne, Traversal.exists_map_eq_map_some_iff.mp ⟨digits, hdigits⟩⟩,
        (valueOf_eq_numeralValue hdigits).symm⟩
    · rintro ⟨⟨-, hall⟩, rfl⟩
      obtain ⟨digits, hdigits⟩ := Traversal.exists_map_eq_map_some_iff.mpr hall
      exact ⟨digits, hdigits, valueOf_eq_numeralValue hdigits⟩

theorem readNumeral?_ten_eq_some_iff {characters : List Char} {number : Nat} :
    readNumeral? 10 characters = some number ↔
      IsDecimal characters ∧ numeralValue 10 characters = number := by
  simp only [readNumeral?_eq_some_iff, isSome_digitOf?_ten_iff, IsDecimal]

theorem readNumeral?_sixteen_eq_some_iff {characters : List Char} {number : Nat} :
    readNumeral? 16 characters = some number ↔
      (characters ≠ [] ∧ IsHex characters) ∧ numeralValue 16 characters = number := by
  simp only [readNumeral?_eq_some_iff, digitOf?_sixteen, isSome_digit?_iff, IsHex]

/-! ### Marks -/

theorem not_isHexDigit_mark {character : Char} (h : character = 'x' ∨ character = 'X') :
    ¬ IsHexDigit character := by
  rcases h with rfl | rfl <;> simp [IsHexDigit, IsDecimalDigit]

theorem IsDecimalDigit.isHexDigit {character : Char} (h : IsDecimalDigit character) :
    IsHexDigit character := Or.inl h

/-- Digits have no mark. -/
theorem afterHexMark?_of_isHex {characters : List Char} (h : IsHex characters) :
    afterHexMark? characters = none := by
  cases hmark : afterHexMark? characters with
  | none => rfl
  | some rest =>
    rcases afterHexMark?_eq_some_iff.mp hmark with rfl | rfl
    · exact absurd (h 'x' (by simp)) (not_isHexDigit_mark (Or.inl rfl))
    · exact absurd (h 'X' (by simp)) (not_isHexDigit_mark (Or.inr rfl))

/-- Dropping a mark leaves the digits that may stand behind one. -/
theorem dropHexMark_eq_iff {characters digits : List Char} (h : IsHex digits) :
    dropHexMark characters = digits ↔ MaybeMarked characters digits := by
  unfold dropHexMark
  constructor
  · cases hmark : afterHexMark? characters with
    | none => exact fun hsame => Or.inl hsame
    | some rest =>
      rintro rfl
      exact Or.inr (afterHexMark?_eq_some_iff.mp hmark)
  · rintro (rfl | hmarked)
    · rw [afterHexMark?_of_isHex h, Option.getD_none]
    · rw [afterHexMark?_eq_some_iff.mpr hmarked, Option.getD_some]

/-! ### Bytes -/

theorem Spells.isHex {digits : List Char} {bytes : List UInt8} (h : Spells digits bytes) :
    IsHex digits := fun character hmem =>
  isSome_digit?_iff.mp (Traversal.exists_map_eq_map_some_iff.mp ⟨_, h⟩ character hmem)

theorem Spells.length_eq {digits : List Char} {bytes : List UInt8} (h : Spells digits bytes) :
    digits.length = 2 * bytes.length := by
  have hlength := congrArg List.length h
  simpa using hlength

/-- Bytes are spelled as they are written. -/
theorem spells_encode (bytes : List UInt8) : Spells (Hex.encode bytes) bytes := by
  rw [Spells, Hex.encode, List.map_map]
  exact List.map_congr_left fun value hmem =>
    Hex.digit?_digitChar (Hex.lt_of_mem_digitValues hmem)

theorem isSmallHexDigit_digitChar {value : Nat} (h : value < 16) :
    IsSmallHexDigit (Nat.digitChar value) := by
  unfold IsSmallHexDigit IsDecimalDigit
  revert value
  decide

theorem isSmallHexDigit_of_mem_encode {bytes : List UInt8} {character : Char}
    (h : character ∈ Hex.encode bytes) : IsSmallHexDigit character := by
  obtain ⟨value, hmem, rfl⟩ := List.mem_map.mp h
  exact isSmallHexDigit_digitChar (Hex.lt_of_mem_digitValues hmem)

theorem utf8Length_of_isHex {characters : List Char} (h : IsHex characters) :
    utf8Length characters = characters.length := by
  induction characters with
  | nil => rfl
  | cons character rest ih =>
    obtain ⟨hfirst, hrest⟩ := List.forall_mem_cons.mp h
    obtain ⟨value, hvalue⟩ := Option.isSome_iff_exists.mp (isSome_digit?_iff.mpr hfirst)
    rw [utf8Length_cons, Hex.utf8Size_of_digit? hvalue, ih hrest, List.length_cons, Nat.add_comm]

theorem digitsFrom_eq_ok_iff {position : Nat} {characters : List Char} {values : List Nat} :
    Hex.digitsFrom position characters = .ok values ↔ characters.map digit? = values.map some := by
  induction characters generalizing position values with
  | nil => cases values <;> simp [Hex.digitsFrom]
  | cons character rest ih =>
    cases hdigit : digit? character with
    | none => cases values <;> simp [Hex.digitsFrom, hdigit]
    | some value =>
      cases values with
      | nil => simp [Hex.digitsFrom, hdigit]
      | cons first others => simp [Hex.digitsFrom, hdigit, ih, and_comm]

/-- An even number of digit values is read back from its bytes. -/
theorem digitValues_joinPairs : {values : List Nat} → values.length % 2 = 0 →
    (∀ value ∈ values, value < 16) → Hex.digitValues (Hex.joinPairs values) = values
  | [], _, _ => rfl
  | [_], heven, _ => absurd heven (by simp)
  | high :: low :: rest, heven, hlt => by
    have hhigh := hlt high (by simp)
    have hlow := hlt low (by simp)
    have hbyte : (UInt8.ofNat (16 * high + low)).toNat = 16 * high + low := by
      rw [UInt8.toNat_ofNat']
      omega
    have hrest : Hex.digitValues (Hex.joinPairs rest) = rest :=
      digitValues_joinPairs (by simp at heven; omega)
        fun value hvalue => hlt value (by simp [hvalue])
    rw [Hex.joinPairs, Hex.digitValues_cons, hbyte, hrest]
    congr 1
    · omega
    · congr 1
      omega

/-- Decoding an even number of digits gives the bytes that they spell. -/
theorem decode_eq_ok_iff {digits : List Char} {bytes : List UInt8}
    (heven : digits.length % 2 = 0) : Hex.decode digits = .ok bytes ↔ Spells digits bytes := by
  rw [Hex.decode, Traversal.map_eq_ok_iff]
  simp only [digitsFrom_eq_ok_iff]
  constructor
  · rintro ⟨values, hvalues, rfl⟩
    have hlength : values.length = digits.length := by
      simpa using (congrArg List.length hvalues).symm
    have hlt : ∀ value ∈ values, value < 16 := by
      intro value hvalue
      have hmem := List.mem_map_of_mem (f := some) hvalue
      rw [← hvalues, List.mem_map] at hmem
      obtain ⟨character, -, hdigit⟩ := hmem
      exact lt_of_digit? hdigit
    rw [Spells, hvalues, digitValues_joinPairs (hlength ▸ heven) hlt]
  · intro h
    exact ⟨_, h, Hex.joinPairs_digitValues bytes⟩

theorem isHex_of_decode {digits : List Char} {bytes : List UInt8}
    (h : Hex.decode digits = .ok bytes) : IsHex digits := by
  obtain ⟨values, hvalues, -⟩ := Traversal.map_eq_ok_iff.mp h
  have hsome := Traversal.exists_map_eq_map_some_iff.mp ⟨_, digitsFrom_eq_ok_iff.mp hvalues⟩
  exact fun character hmem => isSome_digit?_iff.mp (hsome character hmem)

/-- An even number of hexadecimal digits spells some bytes. -/
theorem exists_spells_of_isHex {digits : List Char} (h : IsHex digits)
    (heven : digits.length % 2 = 0) : ∃ bytes, Spells digits bytes := by
  obtain ⟨values, hvalues⟩ := Traversal.exists_map_eq_map_some_iff.mpr
    fun character hmem => isSome_digit?_iff.mpr (h character hmem)
  refine ⟨Hex.joinPairs values, (decode_eq_ok_iff heven).mp ?_⟩
  rw [Hex.decode, digitsFrom_eq_ok_iff.mpr hvalues]
  rfl

theorem isHex_zero_cons_iff {digits : List Char} : IsHex ('0' :: digits) ↔ IsHex digits := by
  simp [IsHex, IsHexDigit, IsDecimalDigit]

/-- A zero in front makes an odd number of digits even. -/
theorem evenDigits_of_isHex {digits : List Char} (h : IsHex digits) :
    Hex.evenDigits digits = if digits.length % 2 = 1 then '0' :: digits else digits := by
  rw [Hex.evenDigits, utf8Length_of_isHex h]

/-- Decoding digits that were made even gives the bytes that they spell, alone or behind a zero. -/
theorem decode_evenDigits_eq_ok_iff {digits : List Char} {bytes : List UInt8} :
    Hex.decode (Hex.evenDigits digits) = .ok bytes ↔
      Spells digits bytes ∨ Spells ('0' :: digits) bytes := by
  constructor
  · intro h
    have hhex : IsHex digits := by
      have hall := isHex_of_decode h
      unfold Hex.evenDigits at hall
      split_ifs at hall
      · exact isHex_zero_cons_iff.mp hall
      · exact hall
    rw [evenDigits_of_isHex hhex] at h
    split_ifs at h with hodd
    · exact Or.inr ((decode_eq_ok_iff (by simp; omega)).mp h)
    · exact Or.inl ((decode_eq_ok_iff (by omega)).mp h)
  · rintro (h | h)
    · have hlength := h.length_eq
      rw [evenDigits_of_isHex h.isHex, if_neg (by omega)]
      exact (decode_eq_ok_iff (by omega)).mpr h
    · have hlength := h.length_eq
      rw [List.length_cons] at hlength
      rw [evenDigits_of_isHex (isHex_zero_cons_iff.mp h.isHex), if_pos (by omega)]
      exact (decode_eq_ok_iff (by simp; omega)).mpr h

end Text

open Text

/-! ### Readers of texts -/

theorem Word.limit_eq : Word.limit = 2 ^ 256 := by decide

namespace ValueText

theorem number?_eq_some_iff {characters : List Char} {number : Nat} :
    number? characters = some number ↔ Denotes characters number := by
  unfold number? Denotes
  cases hmark : afterHexMark? characters with
  | some digits =>
    -- a text behind a mark is not made of decimal digits
    have hdecimal : ¬ IsDecimal characters := fun h =>
      absurd (afterHexMark?_of_isHex fun character hmem => (h.2 character hmem).isHexDigit)
        (by simp [hmark])
    have hdigits : ∀ others, Marked characters others ↔ digits = others := fun others => by
      rw [Marked, ← afterHexMark?_eq_some_iff, hmark, Option.some_inj]
    simp only [readNumeral?_sixteen_eq_some_iff, hdecimal, hdigits, false_and, false_or,
      exists_eq_left']
  | none =>
    have hdigits : ∀ others, ¬ Marked characters others := fun others => by
      rw [Marked, ← afterHexMark?_eq_some_iff, hmark]
      simp
    simp only [readNumeral?_ten_eq_some_iff, hdigits, false_and, exists_false, or_false]

theorem uint_eq_ok_iff_denotes {text : String} {number : Nat} :
    uint text = .ok number ↔ Denotes text.toList number ∧ number < Word.limit := by
  rw [uint_eq_ok_iff, number?_eq_some_iff]

theorem bool_eq_ok_iff {text : String} {truth : Bool} :
    bool text = .ok truth ↔ text ∈ truthTexts truth := by
  unfold bool
  split <;> cases truth <;> simp_all [truthTexts]

theorem bytes_eq_ok_iff_spells {text : String} {bytes : List UInt8} :
    ValueText.bytes text = .ok bytes ↔
      ∃ digits, MaybeMarked text.toList digits ∧
        (Spells digits bytes ∨ Spells ('0' :: digits) bytes) := by
  rw [bytes_eq_ok_iff, decode_evenDigits_eq_ok_iff]
  have hhex : ∀ digits, Spells digits bytes ∨ Spells ('0' :: digits) bytes → IsHex digits :=
    fun digits h => h.elim (·.isHex) fun h => isHex_zero_cons_iff.mp h.isHex
  constructor
  · intro h
    exact ⟨_, (dropHexMark_eq_iff (hhex _ h)).mp rfl, h⟩
  · rintro ⟨digits, hmarked, h⟩
    rwa [(dropHexMark_eq_iff (hhex _ h)).mpr hmarked]

end ValueText

namespace Address

/-- The length of a text is looked at first, and then its digits. -/
theorem ofText_eq_ok_iff_decode {text : String} {address : Address} :
    ofText text = .ok address ↔
      utf8Length (dropHexMark text.toList) = digitCount ∧
        Hex.decode (dropHexMark text.toList) = .ok address.bytes := by
  unfold ofText
  dsimp only
  split_ifs with hcount
  · split
    · rename_i bytes hbytes
      constructor
      · intro h
        exact ⟨hcount, Except.ok.inj h ▸ hbytes⟩
      · rintro ⟨-, h⟩
        obtain rfl := Except.ok.inj (hbytes.symm.trans h)
        rfl
    · rename_i flaw hflaw
      simp [hflaw]
  · simp [hcount]

theorem ofText_eq_ok_iff {text : String} {address : Address} :
    ofText text = .ok address ↔
      ∃ digits, MaybeMarked text.toList digits ∧ Spells digits address.bytes := by
  rw [ofText_eq_ok_iff_decode]
  constructor
  · rintro ⟨hcount, h⟩
    have hhex := isHex_of_decode h
    rw [utf8Length_of_isHex hhex] at hcount
    exact ⟨_, (dropHexMark_eq_iff hhex).mp rfl, (decode_eq_ok_iff (by rw [hcount]; rfl)).mp h⟩
  · rintro ⟨digits, hmarked, h⟩
    have hlength := h.length_eq
    rw [address.length_bytes] at hlength
    rw [(dropHexMark_eq_iff h.isHex).mpr hmarked, utf8Length_of_isHex h.isHex]
    exact ⟨hlength, (decode_eq_ok_iff (by omega)).mpr h⟩

/-- Forty digits spell an address. -/
theorem exists_spells_iff {digits : List Char} :
    (∃ address : Address, Spells digits address.bytes) ↔
      IsHex digits ∧ digits.length = digitCount := by
  constructor
  · rintro ⟨address, hspells⟩
    refine ⟨hspells.isHex, ?_⟩
    rw [hspells.length_eq, address.length_bytes]
    rfl
  · rintro ⟨hhex, hcount⟩
    obtain ⟨bytes, hspells⟩ := exists_spells_of_isHex hhex (by rw [hcount]; rfl)
    have hlength : bytes.length = 20 := by
      have h := hspells.length_eq
      rw [hcount, digitCount] at h
      omega
    exact ⟨⟨bytes, hlength⟩, hspells⟩

end Address

end CallData
