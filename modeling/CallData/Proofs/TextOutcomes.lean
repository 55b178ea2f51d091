import CallData.Proofs.ChecksumAddress
import Mathlib.Algebra.Order.Floor.Div

/-!
# What texts of numbers and bytes come to

A text is a word when the number that it denotes fits into one, and the word then is that number;
it is never cut down to fit. A text of bytes is read behind its mark and with an even number of
digits. When all of it is digits it is a chunk that holds the bytes they spell, and otherwise the
first byte that is no digit is named together with its place.

## Main definitions

* `Text.IsHexByte` — the codes of hexadecimal digits
* `Text.Unmarked`, `Text.ReadAs` — the digits that a text of bytes is read as
* `Chunk.Holds` — a chunk of a payload

## Main results

* `ValueText.uintWord_outcome` — the words of numbers, and what is wrong with any other text
* `Text.exists_firstFailure_of_decode` — a flaw is the first byte that is no digit
* `ValueText.bytesChunk_outcome` — the chunks of bytes, and what is wrong with any other text
-/

namespace CallData

open Text Traversal

/-! ### Numbers -/

/-- A text denotes one number at most. -/
theorem Text.Denotes.unique {characters : List Char} {first second : Nat}
    (h : Denotes characters first) (h' : Denotes characters second) : first = second :=
  Option.some.inj ((ValueText.number?_eq_some_iff.mpr h).symm.trans
    (ValueText.number?_eq_some_iff.mpr h'))

namespace ValueText

variable {text : String} {word : Word} {error : CodecError}

/-- The word of a text is the number that the text denotes. -/
theorem uintWord_eq_ok_iff : uintWord text = .ok word ↔ Denotes text.toList word.toNat := by
  rw [uintWord, map_eq_ok_iff]
  constructor
  · rintro ⟨number, hnumber, rfl⟩
    -- a number that fits is read back from its word, so that nothing is cut off
    obtain ⟨hdenotes, hfits⟩ := uint_eq_ok_iff_denotes.mp hnumber
    rwa [Word.toNat_ofNat hfits]
  · intro h
    exact ⟨word.toNat, uint_eq_ok_iff_denotes.mpr ⟨h, word.toNat_lt⟩, word.ofNat_toNat⟩

theorem exists_uintWord_iff :
    (∃ word, uintWord text = .ok word) ↔
      ∃ number, Denotes text.toList number ∧ number < 2 ^ 256 := by
  simp only [uintWord_eq_ok_iff]
  constructor
  · rintro ⟨word, h⟩
    exact ⟨word.toNat, h, Word.limit_eq ▸ word.toNat_lt⟩
  · rintro ⟨number, h, hfits⟩
    exact ⟨.ofNat number, by rwa [Word.toNat_ofNat (Word.limit_eq ▸ hfits)]⟩

/-- A text is refused for a number that is too wide, or for denoting none. -/
theorem uintWord_eq_error_iff :
    uintWord text = .error error ↔
      (∃ number, Denotes text.toList number ∧ 2 ^ 256 ≤ number ∧
        error = .invalidNumber (text ++ " exceeds 256 bits")) ∨
      ((∀ number, ¬ Denotes text.toList number) ∧ error = .invalidNumber text) := by
  rw [uintWord, map_eq_error_iff, uint, ← Word.limit_eq]
  simp only [← number?_eq_some_iff]
  -- only a text without a number is refused as it is
  cases number? text.toList with
  | none => simp [eq_comm]
  | some number =>
    by_cases hfits : number < Word.limit
    · simp [hfits]
    · have hwide : Word.limit ≤ number := Nat.le_of_not_lt hfits
      simp [hfits, hwide, CodecError.tooWide, eq_comm]

/-- Texts that have a word have the same one when they denote the same number. -/
theorem word_eq_iff_of_uintWord {first second : String} {word' : Word}
    (hfirst : uintWord first = .ok word) (hsecond : uintWord second = .ok word') :
    word = word' ↔ ∃ number, Denotes first.toList number ∧ Denotes second.toList number := by
  rw [uintWord_eq_ok_iff] at hfirst hsecond
  constructor
  · rintro rfl
    exact ⟨word.toNat, hfirst, hsecond⟩
  · rintro ⟨number, hnumber, hnumber'⟩
    -- a text denotes one number at most, and a word is known by its number
    rw [← Word.toNat_inj, hfirst.unique hnumber, hsecond.unique hnumber']

/-- Texts are the words of the numbers that they denote. A text has a word exactly when it denotes
a number below two to the power of 256, and the number of its word is that number. Any other text
is refused, and a number that is too wide is told from a text that denotes none. Two texts with a
word have the same one when they denote the same number. -/
theorem uintWord_outcome :
    (∀ text, (∃ word, uintWord text = .ok word) ↔
      ∃ number, Denotes text.toList number ∧ number < 2 ^ 256) ∧
    (∀ text word, uintWord text = .ok word ↔ Denotes text.toList word.toNat) ∧
    (∀ text error, uintWord text = .error error ↔
      (∃ number, Denotes text.toList number ∧ 2 ^ 256 ≤ number ∧
        error = .invalidNumber (text ++ " exceeds 256 bits")) ∨
      ((∀ number, ¬ Denotes text.toList number) ∧ error = .invalidNumber text)) ∧
    ∀ first second word word', uintWord first = .ok word → uintWord second = .ok word' →
      (word = word' ↔ ∃ number, Denotes first.toList number ∧ Denotes second.toList number) :=
  ⟨fun _ => exists_uintWord_iff, fun _ _ => uintWord_eq_ok_iff, fun _ _ => uintWord_eq_error_iff,
    fun _ _ _ _ => word_eq_iff_of_uintWord⟩

/-- The least number that is too wide, behind a mark and a zero that does not count. -/
example :
    uintWord "0x010000000000000000000000000000000000000000000000000000000000000000" =
      .error (.invalidNumber
        ("0x010000000000000000000000000000000000000000000000000000000000000000"
          ++ " exceeds 256 bits")) := by
  decide

end ValueText

/-! ### Digits as bytes -/

namespace Text

/-- The code of a hexadecimal digit, in either case. -/
def IsHexByte (byte : UInt8) : Prop :=
  (48 ≤ byte.toNat ∧ byte.toNat ≤ 57) ∨ (97 ≤ byte.toNat ∧ byte.toNat ≤ 102) ∨
    (65 ≤ byte.toNat ∧ byte.toNat ≤ 70)

/-- What characters are without the mark in front of them, if there is one. -/
def Unmarked (characters rest : List Char) : Prop :=
  Marked characters rest ∨ (characters = rest ∧ ∀ digits, ¬ Marked characters digits)

/-- The digits that a text of bytes is read as: what it is without its mark, and with a zero in
front of an odd number of bytes. -/
def ReadAs (text : String) (digits : List Char) : Prop :=
  ∃ rest, Unmarked text.toList rest ∧
    digits = if (utf8 (String.ofList rest)).length % 2 = 1 then '0' :: rest else rest

variable {character : Char} {characters rest digits : List Char} {payload : List UInt8}

/-- The first byte of a character is the code of a digit when the character is a digit. -/
theorem isHexByte_headD_iff :
    IsHexByte ((String.utf8EncodeChar character).headD 0) ↔ IsHexDigit character := by
  have hcode : character.toNat = character.val.toNat := rfl
  unfold String.utf8EncodeChar IsHexByte IsHexDigit IsDecimalDigit
  simp only [Char.le_def, UInt32.le_iff_toNat_le]
  -- only the first of the four forms begins with a byte below 128
  split_ifs <;> simp only [List.headD_cons, UInt8.toNat_ofNat'] <;> simp <;> omega

theorem utf8EncodeChar_of_isHexDigit (h : IsHexDigit character) :
    String.utf8EncodeChar character = [(String.utf8EncodeChar character).headD 0] := by
  obtain ⟨value, hvalue⟩ := Option.isSome_iff_exists.mp (isSome_digit?_iff.mpr h)
  rw [String.utf8EncodeChar_eq_singleton (Hex.utf8Size_of_digit? hvalue)]
  rfl

theorem utf8_ofList (characters : List Char) :
    utf8 (String.ofList characters) = characters.flatMap String.utf8EncodeChar := by
  rw [utf8, String.toList_ofList]

theorem isHexByte_of_mem_utf8 (h : IsHex characters) {byte : UInt8}
    (hbyte : byte ∈ utf8 (String.ofList characters)) : IsHexByte byte := by
  rw [utf8_ofList, List.mem_flatMap] at hbyte
  obtain ⟨character, hmem, hbyte⟩ := hbyte
  have hdigit := h character hmem
  rw [utf8EncodeChar_of_isHexDigit hdigit, List.mem_singleton] at hbyte
  rw [hbyte]
  exact isHexByte_headD_iff.mpr hdigit

/-- The flaw of digits is the first byte that is no digit, at its place. -/
theorem exists_firstFailure_of_digitsFrom {position : Nat} {flaw : Hex.Flaw}
    (h : Hex.digitsFrom position characters = .error flaw) :
    ∃ index, flaw.position = position + index ∧
      FirstFailure IsHexByte (characters.flatMap String.utf8EncodeChar) index
        ((String.utf8EncodeChar flaw.found).headD 0) := by
  induction characters generalizing position with
  | nil => exact absurd h (by simp [Hex.digitsFrom])
  | cons character rest ih =>
    cases hdigit : digit? character with
    | none =>
      simp only [Hex.digitsFrom, hdigit, Except.error.injEq] at h
      subst h
      have hbad : ¬ IsHexByte ((String.utf8EncodeChar character).headD 0) := by
        rw [isHexByte_headD_iff, ← isSome_digit?_iff, hdigit]
        exact Bool.false_ne_true
      obtain ⟨byte, others, hbytes⟩ :=
        List.exists_cons_of_ne_nil (String.utf8EncodeChar_ne_nil (c := character))
      refine ⟨0, rfl, ?_⟩
      rw [hbytes, List.headD_cons] at hbad
      rw [List.flatMap_cons, hbytes, List.cons_append, List.headD_cons]
      exact .head hbad
    | some value =>
      simp only [Hex.digitsFrom, hdigit, map_eq_error_iff] at h
      obtain ⟨index, hposition, hfirst⟩ := ih h
      have hgood : IsHexDigit character :=
        isSome_digit?_iff.mp (by rw [hdigit, Option.isSome_some])
      -- a digit is one byte, so that characters before the flaw are counted like bytes
      refine ⟨index + 1, by omega, ?_⟩
      rw [List.flatMap_cons, utf8EncodeChar_of_isHexDigit hgood, List.singleton_append]
      exact hfirst.cons (isHexByte_headD_iff.mpr hgood)

/-- A flaw in decoding is the first byte that is no digit. -/
theorem exists_firstFailure_of_decode {flaw : Hex.Flaw} (h : Hex.decode digits = .error flaw) :
    FirstFailure IsHexByte (utf8 (String.ofList digits)) flaw.position
      ((String.utf8EncodeChar flaw.found).headD 0) := by
  obtain ⟨index, hposition, hfirst⟩ :=
    exists_firstFailure_of_digitsFrom (map_eq_error_iff.mp h)
  rwa [utf8_ofList, hposition, Nat.zero_add]

/-! ### The digits of a text -/

theorem dropHexMark_eq_iff_unmarked :
    dropHexMark characters = rest ↔ Unmarked characters rest := by
  unfold dropHexMark Unmarked Marked
  simp only [← afterHexMark?_eq_some_iff]
  cases afterHexMark? characters <;> simp

theorem readAs_iff {text : String} :
    ReadAs text digits ↔ digits = Hex.evenDigits (dropHexMark text.toList) := by
  simp only [ReadAs, ← dropHexMark_eq_iff_unmarked, exists_eq_left', length_utf8,
    String.toList_ofList, Hex.evenDigits]

theorem utf8Length_evenDigits (characters : List Char) :
    utf8Length (Hex.evenDigits characters) % 2 = 0 := by
  unfold Hex.evenDigits
  split_ifs with hodd
  · have hzero : Char.utf8Size '0' = 1 := rfl
    rw [utf8Length_cons, hzero]
    omega
  · omega

/-- Digits of an even number of bytes are decoded to the bytes that they spell. -/
theorem spells_of_decode (heven : utf8Length digits % 2 = 0)
    (h : Hex.decode digits = .ok payload) : Spells digits payload := by
  rw [utf8Length_of_isHex (isHex_of_decode h)] at heven
  exact (decode_eq_ok_iff heven).mp h

theorem Spells.map_toUpper (h : Spells digits payload) :
    Spells (digits.map Char.toUpper) payload := by
  rw [Spells, List.map_map, ← h]
  exact List.map_congr_left fun character hmem => digit?_toUpper (h.isHex character hmem)

end Text

/-! ### Chunks of bytes -/

/-- A chunk of a payload: its number of bytes, the bytes, and zeros up to whole words. -/
structure Chunk.Holds (chunk : Chunk) (payload : List UInt8) : Prop where
  /-- The length word has the number of bytes. -/
  word : chunk.length = .ofNat payload.length
  /-- The length word denotes the number of bytes, when that fits into a word. -/
  count : payload.length < 2 ^ 256 → chunk.length.toNat = payload.length
  /-- The data begins with the payload. -/
  begins : chunk.data.take payload.length = payload
  /-- Behind the payload there are zeros only. -/
  zeros : ∀ byte ∈ chunk.data.drop payload.length, byte = 0
  /-- The data are the fewest words that have room for the payload. -/
  rounded : chunk.data.length = 32 * (payload.length ⌈/⌉ 32)
  /-- A chunk takes one word more than its data. -/
  total : chunk.size = chunk.data.length + 32

theorem Chunk.holds_ofBytes (payload : List UInt8) : (ofBytes payload).Holds payload where
  word := rfl
  count hfits := Word.toNat_ofNat (Word.limit_eq ▸ hfits)
  begins := List.take_left
  zeros := by
    intro byte hbyte
    rw [ofBytes, padRight, List.drop_left] at hbyte
    exact List.eq_of_mem_replicate hbyte
  rounded := by
    rw [ofBytes, length_padRight, roundUp, wordSize, Nat.ceilDiv_eq_add_pred_div, Nat.mul_comm]
    rfl
  total := Nat.add_comm _ _

namespace ValueText

variable {text : String} {digits : List Char} {payload : List UInt8} {error : CodecError}

theorem bytesChunk_eq_ok_iff {chunk : Chunk} :
    bytesChunk text = .ok chunk ↔ ∃ payload,
      Hex.decode (Hex.evenDigits (dropHexMark text.toList)) = .ok payload ∧
        Chunk.ofBytes payload = chunk := by
  simp only [bytesChunk, map_eq_ok_iff, bytes_eq_ok_iff]

theorem bytesChunk_eq_error_iff :
    bytesChunk text = .error error ↔ ∃ flaw,
      Hex.decode (Hex.evenDigits (dropHexMark text.toList)) = .error flaw ∧
        error = .badHex text flaw := by
  rw [bytesChunk, map_eq_error_iff, ValueText.bytes]
  cases Hex.decode (Hex.evenDigits (dropHexMark text.toList)) <;> simp [eq_comm]

theorem bytesChunk_of_spells (hmarked : MaybeMarked text.toList digits)
    (hspells : Spells digits payload) : bytesChunk text = .ok (Chunk.ofBytes payload) := by
  rw [bytesChunk, bytes_eq_ok_iff_spells.mpr ⟨digits, hmarked, Or.inl hspells⟩]
  rfl

/-- A text of bytes that is read as digits only is a chunk of the bytes that they spell. -/
theorem holds_of_bytesChunk {chunk : Chunk} (hread : ReadAs text digits)
    (h : bytesChunk text = .ok chunk) :
    ∃ payload, Spells digits payload ∧
      payload.length = (utf8 (String.ofList digits)).length / 2 ∧ chunk.Holds payload := by
  obtain ⟨payload, hdecode, rfl⟩ := bytesChunk_eq_ok_iff.mp h
  obtain rfl := readAs_iff.mp hread
  have hspells := spells_of_decode (utf8Length_evenDigits _) hdecode
  refine ⟨payload, hspells, ?_, Chunk.holds_ofBytes payload⟩
  rw [length_utf8, String.toList_ofList, utf8Length_of_isHex hspells.isHex, hspells.length_eq]
  omega

/-- A text of bytes with a flaw is refused for the first byte that is no digit. -/
theorem exists_firstFailure_of_bytesChunk (hread : ReadAs text digits)
    (h : bytesChunk text = .error error) :
    ∃ index byte, FirstFailure IsHexByte (utf8 (String.ofList digits)) index byte ∧
      error = .invalidHex (text ++ ": " ++ ("Invalid character '" ++
        String.ofList (Hex.escaped (Char.ofNat byte.toNat)) ++ "' at position " ++
          toString index)) := by
  obtain ⟨flaw, hdecode, rfl⟩ := bytesChunk_eq_error_iff.mp h
  obtain rfl := readAs_iff.mp hread
  exact ⟨flaw.position, _, exists_firstFailure_of_decode hdecode, rfl⟩

theorem exists_bytesChunk_iff (hread : ReadAs text digits) :
    (∃ chunk, bytesChunk text = .ok chunk) ↔
      ∀ byte ∈ utf8 (String.ofList digits), IsHexByte byte := by
  constructor
  · rintro ⟨chunk, h⟩ byte hbyte
    obtain ⟨payload, hspells, -⟩ := holds_of_bytesChunk hread h
    exact isHexByte_of_mem_utf8 hspells.isHex hbyte
  · intro hall
    cases h : bytesChunk text with
    | ok chunk => exact ⟨chunk, rfl⟩
    | error error =>
      obtain ⟨index, byte, hfirst, -⟩ := exists_firstFailure_of_bytesChunk hread h
      exact absurd hall hfirst.not_forall

/-- What a text of bytes is refused for is the first byte that is no digit, and it is refused
whenever there is one. -/
theorem bytesChunk_eq_error_iff_firstFailure (hread : ReadAs text digits) :
    bytesChunk text = .error error ↔
      ∃ index byte, FirstFailure IsHexByte (utf8 (String.ofList digits)) index byte ∧
        error = .invalidHex (text ++ ": " ++ ("Invalid character '" ++
          String.ofList (Hex.escaped (Char.ofNat byte.toNat)) ++ "' at position " ++
            toString index)) := by
  constructor
  · exact exists_firstFailure_of_bytesChunk hread
  · rintro ⟨index, byte, hfirst, rfl⟩
    -- there is no chunk, and what the text is refused for is the one first failure
    cases h : bytesChunk text with
    | ok chunk =>
      have hall := (exists_bytesChunk_iff hread).mp ⟨chunk, h⟩
      exact absurd hall hfirst.not_forall
    | error error =>
      obtain ⟨index', byte', hfirst', rfl⟩ := exists_firstFailure_of_bytesChunk hread h
      obtain ⟨rfl, rfl⟩ := hfirst.unique hfirst'
      rfl

/-- Texts of bytes are the chunks of what they spell. A text is read as digits in one way. It is a
chunk exactly when all bytes of what it is read as are digits, and the chunk then holds the bytes
that they spell, two digits to a byte. Any other text is refused with the first byte that is no
digit and its place. Bytes in hexadecimal, with or without a mark and in small or capital letters,
are chunks of these bytes. -/
theorem bytesChunk_outcome :
    (∀ text, ∃ digits, (∀ others, ReadAs text others ↔ others = digits) ∧
      ((∃ chunk, bytesChunk text = .ok chunk) ↔
        ∀ byte ∈ utf8 (String.ofList digits), IsHexByte byte) ∧
      (∀ chunk, bytesChunk text = .ok chunk → ∃ payload, Spells digits payload ∧
        payload.length = (utf8 (String.ofList digits)).length / 2 ∧ chunk.Holds payload) ∧
      ∀ error, bytesChunk text = .error error ↔
        ∃ index byte, FirstFailure IsHexByte (utf8 (String.ofList digits)) index byte ∧
          error = .invalidHex (text ++ ": " ++ ("Invalid character '" ++
            String.ofList (Hex.escaped (Char.ofNat byte.toNat)) ++ "' at position " ++
              toString index))) ∧
    ∀ bytes, ∀ text ∈ [Hex.markedText bytes, Hex.text bytes, (Hex.markedText bytes).toUpper,
        "0x" ++ (Hex.text bytes).toUpper, (Hex.text bytes).toUpper],
      ∃ chunk, bytesChunk text = .ok chunk ∧ chunk.Holds bytes := by
  constructor
  · intro text
    refine ⟨Hex.evenDigits (dropHexMark text.toList), fun others => readAs_iff, ?_⟩
    have hread : ReadAs text (Hex.evenDigits (dropHexMark text.toList)) := readAs_iff.mpr rfl
    exact ⟨exists_bytesChunk_iff hread, fun chunk => holds_of_bytesChunk hread,
      fun error => bytesChunk_eq_error_iff_firstFailure hread⟩
  · intro bytes text htext
    have hsmall := spells_encode bytes
    have hcapital := hsmall.map_toUpper
    refine ⟨_, ?_, Chunk.holds_ofBytes bytes⟩
    simp only [List.mem_cons, List.not_mem_nil, or_false] at htext
    -- the texts differ in their mark and in the case of all their letters
    rcases htext with rfl | rfl | rfl | rfl | rfl
    · exact bytesChunk_of_spells (Or.inr (Or.inl (by simp [Hex.markedText, Hex.text]))) hsmall
    · exact bytesChunk_of_spells (Or.inl (by simp [Hex.text])) hsmall
    · exact bytesChunk_of_spells
        (Or.inr (Or.inr (by simp [Hex.markedText, Hex.text, String.toUpper]))) hcapital
    · exact bytesChunk_of_spells
        (Or.inr (Or.inl (by simp [Hex.text, String.toUpper]))) hcapital
    · exact bytesChunk_of_spells (Or.inl (by simp [Hex.text, String.toUpper])) hcapital

/-- A mark that has lost its zero is no mark again behind the zero that is put in front. -/
example : bytesChunk "xab" = .error (.invalidHex "xab: Invalid character 'x' at position 1") := by
  decide

end ValueText

end CallData
