import CallData.Contract.Checksum
import CallData.Proofs.Spelling
import CallData.ValueText

/-!
# Addresses with and without a checksum

The address of a contract and the address that a value holds are read by different rules: only the
first needs a mark, and only its letters may carry a checksum. Both rules accept the same digits.
The case of a letter never counts for the twenty bytes that digits spell, and small letters are
determined by them. So an address has one form with a checksum, which is encoded as the address
itself is.

## Main results

* `Checksum.digits_eq_ok_iff` — the texts of addresses with a mark
* `Text.Spells.map_toLower` — digits in small letters are those that the bytes are written with
* `Checksum.spells_bodyWith` — digits with a checksum spell the same bytes
* `Checksum.markedText_bodyWith_inj` — forms with a checksum are the same when the bytes are
* `Checksum.addressWord_agrees` — both readings of addresses agree
-/

namespace CallData

open Text Traversal

/-! ### The case of digits -/

namespace Text

/-- The small form of a digit is the one it is written in, and its capital form has the same value.
-/
theorem case_of_digit? {character : Char} {value : Nat} (h : digit? character = some value) :
    character.toLower = Nat.digitChar value ∧ digit? character.toUpper = some value := by
  have hcode : character.toNat < 128 := by
    have hval := Char.utf8Size_eq_one_iff.mp (Hex.utf8Size_of_digit? h)
    exact Nat.lt_succ_of_le (UInt32.le_iff_toNat_le.mp hval)
  -- what is claimed can be looked up for each character of this range
  have hall : ∀ code < 128, ∀ value ∈ digit? (Char.ofNat code),
      (Char.ofNat code).toLower = Nat.digitChar value ∧
        digit? (Char.ofNat code).toUpper = some value := by
    decide +kernel
  have hcharacter := hall character.toNat hcode value
  rw [Char.ofNat_toNat] at hcharacter
  exact hcharacter h

theorem digit?_toUpper {character : Char} (h : IsHexDigit character) :
    digit? character.toUpper = digit? character := by
  obtain ⟨value, hvalue⟩ := Option.isSome_iff_exists.mp (isSome_digit?_iff.mpr h)
  rw [hvalue, (case_of_digit? hvalue).2]

variable {digits : List Char} {bytes others : List UInt8}

/-- Digits in small letters are those that the bytes they spell are written with. -/
theorem Spells.map_toLower (h : Spells digits bytes) :
    digits.map Char.toLower = Hex.encode bytes := by
  have hvalues : List.Forall₂ (fun character value => digit? character = some value) digits
      (Hex.digitValues bytes) := by
    rwa [Spells, ← List.forall₂_eq_eq_eq, List.forall₂_map_left_iff,
      List.forall₂_map_right_iff] at h
  rw [Hex.encode, ← List.forall₂_eq_eq_eq, List.forall₂_map_left_iff, List.forall₂_map_right_iff]
  exact hvalues.imp fun _ _ hvalue => (case_of_digit? hvalue).1

/-- Digits spell one list of bytes at most. -/
theorem Spells.unique (h : Spells digits bytes) (h' : Spells digits others) : bytes = others := by
  have hvalues : Hex.digitValues bytes = Hex.digitValues others :=
    List.map_injective_iff.mpr (Option.some_injective _) (h.symm.trans h')
  rw [← Hex.joinPairs_digitValues bytes, hvalues, Hex.joinPairs_digitValues]

end Text

/-! ### Words of addresses -/

theorem Address.eq_of_bytes_eq {first second : Address} (h : first.bytes = second.bytes) :
    first = second := by
  cases first
  cases second
  cases h
  rfl

theorem Word.bytes_ofAddress (address : Address) :
    (ofAddress address).bytes = List.replicate 12 0 ++ address.bytes := by
  rw [ofAddress, bytes_padLeft, address.length_bytes]
  rfl

theorem Word.ofAddress_inj {first second : Address} :
    ofAddress first = ofAddress second ↔ first = second := by
  constructor
  · intro h
    have hbytes := congrArg Word.bytes h
    rw [bytes_ofAddress, bytes_ofAddress] at hbytes
    exact Address.eq_of_bytes_eq (List.append_cancel_left hbytes)
  · rintro rfl
    rfl

theorem ValueText.addressWord_eq_ok_iff {text : String} {word : Word} :
    addressWord text = .ok word ↔ ∃ digits address, MaybeMarked text.toList digits ∧
      Spells digits (Address.bytes address) ∧ Word.ofAddress address = word := by
  simp only [addressWord, map_eq_ok_iff, Address.ofText_eq_ok_iff]
  constructor
  · rintro ⟨address, ⟨digits, hmarked, hspells⟩, hword⟩
    exact ⟨digits, address, hmarked, hspells, hword⟩
  · rintro ⟨digits, address, hmarked, hspells, hword⟩
    exact ⟨address, ⟨digits, hmarked, hspells⟩, hword⟩

/-! ### Checksums -/

namespace Checksum

variable {text : String} {body : List Char} {address : Address} {hash : List UInt8 → Word}

/-- The address of a contract is a mark and forty digits behind it. -/
theorem digits_eq_ok_iff :
    digits text = .ok body ↔
      Marked text.toList body ∧ IsHex body ∧ body.length = Address.digitCount := by
  unfold digits
  split
  · rename_i hmark
    constructor
    · intro h
      cases h
    · rintro ⟨hmarked, -⟩
      rw [Marked, ← afterHexMark?_eq_some_iff, hmark] at hmarked
      cases hmarked
  · rename_i behind hmark
    have hall : (behind.all fun character => (digit? character).isSome) = true ↔ IsHex behind := by
      simp only [List.all_eq_true, isSome_digit?_iff, IsHex]
    rw [Marked, ← afterHexMark?_eq_some_iff, hmark, Option.some_inj]
    split_ifs with hcount hdigits
    · constructor
      · intro h
        cases h
      · rintro ⟨rfl, hhex, hlength⟩
        exact absurd (utf8Length_of_isHex hhex) (hlength ▸ hcount)
    · rw [hall] at hdigits
      constructor
      · intro h
        cases h
        exact ⟨rfl, hdigits, by rwa [utf8Length_of_isHex hdigits, not_not] at hcount⟩
      · rintro ⟨rfl, -⟩
        rfl
    · rw [hall] at hdigits
      constructor
      · intro h
        cases h
      · rintro ⟨rfl, hhex, -⟩
        exact absurd hhex hdigits

/-- The digits of an address spell one. -/
theorem exists_spells_of_digits (h : digits text = .ok body) :
    ∃ address : Address, Spells body address.bytes := by
  obtain ⟨-, hhex, hlength⟩ := digits_eq_ok_iff.mp h
  exact Address.exists_spells_iff.mpr ⟨hhex, hlength⟩

/-- Capitals change no digit. -/
theorem map_digit?_capitalize {digest : Word} (hhex : IsHex body)
    (hlength : body.length ≤ 2 * wordSize) :
    (capitalize digest body).map digit? = body.map digit? := by
  rw [← digest.length_bytes, ← Hex.length_digitValues] at hlength
  -- there is a digit of the digest for every character, so that none is cut off
  unfold capitalize
  generalize Hex.digitValues digest.bytes = values at hlength ⊢
  induction body generalizing values with
  | nil => rfl
  | cons character rest ih =>
    obtain ⟨hcharacter, hrest⟩ := List.forall_mem_cons.mp hhex
    cases values with
    | nil => exact absurd hlength (by simp)
    | cons value values =>
      have hsame : digit? (if 8 ≤ value then character.toUpper else character) =
          digit? character := by
        split_ifs
        · exact digit?_toUpper hcharacter
        · rfl
      rw [List.zipWith_cons_cons, List.map_cons, List.map_cons, hsame,
        ih hrest values (Nat.le_of_succ_le_succ hlength)]

/-- The digits with a checksum depend on the bytes alone. -/
theorem bodyWith_eq (h : Spells body address.bytes) :
    bodyWith hash body = capitalize
      (hash (utf8 (String.ofList (Hex.encode address.bytes)))) (Hex.encode address.bytes) := by
  simp only [bodyWith, h.map_toLower]

/-- Digits with a checksum spell the bytes that the digits without it spell. -/
theorem spells_bodyWith (hash : List UInt8 → Word) (h : Spells body address.bytes) :
    Spells (bodyWith hash body) address.bytes := by
  have hencode := spells_encode address.bytes
  have hlength : (Hex.encode address.bytes).length ≤ 2 * wordSize := by
    rw [Hex.length_encode, address.length_bytes, wordSize]
    omega
  rw [bodyWith_eq h, Spells, map_digit?_capitalize hencode.isHex hlength]
  exact hencode

theorem applyWith_eq_ok_iff {checksummed : String} :
    applyWith hash text = .ok checksummed ↔
      ∃ body, digits text = .ok body ∧ "0x" ++ String.ofList (bodyWith hash body) = checksummed :=
  map_eq_ok_iff

theorem validateWith_eq_ok_iff {verdict : Bool} :
    validateWith hash text = .ok verdict ↔
      ∃ body, digits text = .ok body ∧ (isOneCase body || bodyWith hash body == body) = verdict :=
  map_eq_ok_iff

/-- Forms with a checksum are the same when the bytes are. -/
theorem markedText_bodyWith_inj {other : List Char} {others : Address}
    (h : Spells body address.bytes) (h' : Spells other others.bytes) :
    "0x" ++ String.ofList (bodyWith hash body) = "0x" ++ String.ofList (bodyWith hash other) ↔
      address = others := by
  constructor
  · intro hsame
    rw [← String.toList_inj, String.toList_append, String.toList_append,
      List.append_cancel_left_eq, String.toList_inj, String.ofList_inj] at hsame
    have hspells := spells_bodyWith hash h
    rw [hsame] at hspells
    exact Address.eq_of_bytes_eq (hspells.unique (spells_bodyWith hash h'))
  · rintro rfl
    rw [bodyWith_eq h, bodyWith_eq h']

/-- A text behind a mark, its digits and its form with a checksum are encoded as the address that
the digits spell. -/
theorem addressWord_of_digits (hash : List UInt8 → Word) (hdigits : digits text = .ok body)
    (h : Spells body address.bytes) :
    ValueText.addressWord text = .ok (Word.ofAddress address) ∧
      ValueText.addressWord (String.ofList body) = .ok (Word.ofAddress address) ∧
      ValueText.addressWord ("0x" ++ String.ofList (bodyWith hash body)) =
        .ok (Word.ofAddress address) := by
  have hmarked := (digits_eq_ok_iff.mp hdigits).1
  refine ⟨ValueText.addressWord_eq_ok_iff.mpr ⟨body, address, Or.inr hmarked, h, rfl⟩,
    ValueText.addressWord_eq_ok_iff.mpr ⟨body, address, Or.inl String.toList_ofList, h, rfl⟩, ?_⟩
  apply ValueText.addressWord_eq_ok_iff.mpr
  exact ⟨bodyWith hash body, address, Or.inr (Or.inl (by simp)), spells_bodyWith hash h, rfl⟩

/-- The digits of an encoded address, with or without a mark before, are those of an address behind
a mark. -/
theorem digits_of_addressWord {word : Word} (h : ValueText.addressWord text = .ok word) :
    digits ("0x" ++ String.ofList (dropHexMark text.toList)) = .ok (dropHexMark text.toList) := by
  obtain ⟨digits, address, hmarked, hspells, -⟩ := ValueText.addressWord_eq_ok_iff.mp h
  rw [(dropHexMark_eq_iff hspells.isHex).mpr hmarked, digits_eq_ok_iff]
  refine ⟨Or.inl (by simp), hspells.isHex, ?_⟩
  rw [hspells.length_eq, address.length_bytes]
  rfl

/-- Both readings of addresses agree. A text that is accepted for a contract, its digits alone and
its form with a checksum are encoded as one word, twelve zeros and the twenty bytes that the digits
spell. The digits of a text that is encoded are accepted behind a mark. And two texts that have a
form with a checksum are encoded alike when these forms are the same. -/
theorem addressWord_agrees :
    (∀ text verdict, validate text = .ok verdict → ∃ digits bytes word checksummed,
      Marked text.toList digits ∧ digits.length = 40 ∧ Spells digits bytes ∧
      word.bytes = List.replicate 12 0 ++ bytes ∧ apply text = .ok checksummed ∧
      ValueText.addressWord text = .ok word ∧
      ValueText.addressWord (String.ofList digits) = .ok word ∧
      ValueText.addressWord checksummed = .ok word) ∧
    (∀ text word, ValueText.addressWord text = .ok word →
      (∃ verdict, validate ("0x" ++ String.ofList (dropHexMark text.toList)) = .ok verdict) ∧
      ∃ checksummed, apply ("0x" ++ String.ofList (dropHexMark text.toList)) = .ok checksummed) ∧
    (∀ first second checksummed checksummed', apply first = .ok checksummed →
      apply second = .ok checksummed' →
      (ValueText.addressWord first = ValueText.addressWord second ↔
        apply first = apply second)) := by
  refine ⟨?_, ?_, ?_⟩
  · intro text verdict hvalid
    obtain ⟨body, hdigits, -⟩ := validateWith_eq_ok_iff.mp hvalid
    obtain ⟨hmarked, -, hlength⟩ := digits_eq_ok_iff.mp hdigits
    obtain ⟨address, hspells⟩ := exists_spells_of_digits hdigits
    exact ⟨body, address.bytes, .ofAddress address, _, hmarked, hlength, hspells,
      Word.bytes_ofAddress address, applyWith_eq_ok_iff.mpr ⟨body, hdigits, rfl⟩,
      addressWord_of_digits Keccak.hash hdigits hspells⟩
  · intro text word hword
    have hdigits := digits_of_addressWord hword
    exact ⟨⟨_, validateWith_eq_ok_iff.mpr ⟨_, hdigits, rfl⟩⟩,
      ⟨_, applyWith_eq_ok_iff.mpr ⟨_, hdigits, rfl⟩⟩⟩
  · intro first second checksummed checksummed' hfirst hsecond
    obtain ⟨body, hdigits, rfl⟩ := applyWith_eq_ok_iff.mp hfirst
    obtain ⟨other, hdigits', rfl⟩ := applyWith_eq_ok_iff.mp hsecond
    obtain ⟨address, hspells⟩ := exists_spells_of_digits hdigits
    obtain ⟨others, hspells'⟩ := exists_spells_of_digits hdigits'
    -- both sides say that the two texts spell one address
    rw [hfirst, hsecond, (addressWord_of_digits Keccak.hash hdigits hspells).1,
      (addressWord_of_digits Keccak.hash hdigits' hspells').1, Except.ok.injEq,
      Except.ok.injEq, Word.ofAddress_inj, markedText_bodyWith_inj hspells hspells']

end Checksum

end CallData
