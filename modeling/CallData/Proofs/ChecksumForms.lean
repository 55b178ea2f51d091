import CallData.Proofs.ChecksumAddress
import Mathlib

/-!
# Forms of an address with a checksum

Whatever hash is taken, an address has one form with a checksum. It is spelled by the same digits,
and each of its letters is a capital exactly when the hash of the small letters has a digit of
eight or more in the same place. Since the small letters are the same for all spellings of one
address, so is the form; the form of the form is the form itself. An address is valid when its
letters are all of one case or when it is its own form, so that there is one valid spelling in
letters of both cases at most.

## Main definitions

* `Word.hexDigit` — the hexadecimal digit of a word at a place
* `Checksum.Written` — a text that is an address, and its digits
* `Checksum.Form` — digits with a checksum
* `Checksum.Valid` — digits that carry no wrong checksum

## Main results

* `Word.getElem?_digitValues` — the digits of the bytes of a word are those of its number
* `Checksum.form_bodyWith`, `Checksum.Form.unique` — there is one form with a checksum
* `Checksum.form_outcome` — what an address comes to, with and without a checksum
-/

namespace CallData

open Text Traversal

/-! ### The digits of a word -/

/-- The hexadecimal digit of a word at a place, counted from the most significant one. -/
def Word.hexDigit (word : Word) (place : Nat) : Nat :=
  word.toNat / 16 ^ (2 * wordSize - 1 - place) % 16

/-- Bytes denote the number that their hexadecimal digits denote. -/
theorem fromBigEndian_eq_ofDigits (bytes : List UInt8) :
    fromBigEndian bytes = Nat.ofDigits 16 (Hex.digitValues bytes).reverse := by
  rw [← valueOf_eq_ofDigits, fromBigEndian, valueOf, Hex.digitValues, List.foldl_flatMap]
  congr 1
  funext total byte
  simp only [List.foldl_cons, List.foldl_nil]
  omega

/-- The digits of the bytes of a word are those of its number. -/
theorem Word.getElem?_digitValues (word : Word) {place : Nat} (h : place < 2 * wordSize) :
    (Hex.digitValues word.bytes)[place]? = some (word.hexDigit place) := by
  have hlength : (Hex.digitValues word.bytes).length = 2 * wordSize := by
    rw [Hex.length_digitValues, word.length_bytes]
  have hplace : place < (Hex.digitValues word.bytes).length := hlength ▸ h
  have hdigits : ∀ digit ∈ (Hex.digitValues word.bytes).reverse, digit < 16 := fun digit hmem =>
    Hex.lt_of_mem_digitValues (List.mem_reverse.mp hmem)
  have hdigit := Hex.lt_of_mem_digitValues (List.getElem_mem hplace)
  -- behind the digit there are as many digits as its weight has zeros
  have hdrop : (Hex.digitValues word.bytes).reverse.drop (2 * wordSize - 1 - place) =
      (Hex.digitValues word.bytes)[place] ::
        ((Hex.digitValues word.bytes).take place).reverse := by
    have hrest : (Hex.digitValues word.bytes).length - (2 * wordSize - 1 - place) = place + 1 := by
      omega
    rw [List.drop_reverse, hrest, List.take_succ_eq_append_getElem hplace, List.reverse_append,
      List.reverse_singleton, List.singleton_append]
  rw [List.getElem?_eq_getElem hplace, Option.some_inj, hexDigit, toNat, fromBigEndian_eq_ofDigits,
    Nat.ofDigits_div_pow_eq_ofDigits_drop _ (by decide) _ hdigits, hdrop, Nat.ofDigits_cons,
    Nat.add_mul_mod_self_left, Nat.mod_eq_of_lt hdigit]

/-! ### The case of letters -/

theorem Text.isUpper_of_not_isAlpha {character : Char} (h : ¬ character.isAlpha = true) :
    character.isUpper = false := by
  rw [Char.isAlpha, Bool.or_eq_true, not_or] at h
  exact Bool.eq_false_iff.mpr h.1

theorem Text.isAlpha_eq_of_toLower_eq {first second : Char} (h : first.toLower = second.toLower) :
    first.isAlpha = second.isAlpha := by
  rw [← Char.isAlpha_toLower_eq_isAlpha, h, Char.isAlpha_toLower_eq_isAlpha]

/-- A character is known by its small form and its case. -/
theorem Text.eq_of_toLower_eq {first second : Char} (h : first.toLower = second.toLower)
    (hcase : first.isUpper = second.isUpper) : first = second := by
  by_cases hupper : first.isUpper = true
  · have hupper' : second.isUpper = true := hcase ▸ hupper
    rw [← Char.toUpper_eq_of_not_isLower (Char.not_isLower_of_isUpper hupper),
      ← Char.toUpper_eq_of_not_isLower (Char.not_isLower_of_isUpper hupper'),
      ← Char.toUpper_toLower_eq_toUpper, h, Char.toUpper_toLower_eq_toUpper]
  · have hupper' : ¬ second.isUpper = true := hcase ▸ hupper
    rw [← Char.toLower_eq_of_not_isUpper hupper, h, Char.toLower_eq_of_not_isUpper hupper']

/-- Only of letters the case has to be known. -/
theorem Text.eq_of_toLower_eq_of_isAlpha {first second : Char} (h : first.toLower = second.toLower)
    (hcase : first.isAlpha = true → second.isAlpha = true →
      (first.isUpper = true ↔ second.isUpper = true)) : first = second := by
  have halike := isAlpha_eq_of_toLower_eq h
  apply eq_of_toLower_eq h
  by_cases halpha : second.isAlpha = true
  · exact Bool.eq_iff_iff.mpr (hcase (halike.trans halpha) halpha)
  · rw [isUpper_of_not_isAlpha halpha, isUpper_of_not_isAlpha (halike ▸ halpha)]

namespace Checksum

variable {hash : List UInt8 → Word} {text : String} {body checked other : List Char}

/-- A text that is an address: forty digits behind a mark. -/
def Written (text : String) (body : List Char) : Prop :=
  Marked text.toList body ∧ IsHex body ∧ body.length = 40

/-- Digits with a checksum: the same digits, with the capitals that the hash of the small letters
asks for. -/
structure Form (hash : List UInt8 → Word) (body checked : List Char) : Prop where
  /-- But for the case of letters nothing is changed. -/
  lower : checked.map Char.toLower = body.map Char.toLower
  /-- A letter is a capital when the hash of the small letters has a digit of eight or more there.
  -/
  capital : ∀ place character, checked[place]? = some character → character.isAlpha = true →
    (character.isUpper = true ↔
      8 ≤ (hash (utf8 (String.ofList (body.map Char.toLower)))).hexDigit place)

/-- Digits without a wrong checksum: without capitals, without small letters, or with a checksum
that is right. -/
def Valid (body checked : List Char) : Prop :=
  (∀ character ∈ body, character.isUpper = false) ∨
    (∀ character ∈ body, character.isLower = false) ∨ body = checked

/-- With letters of both cases only the form itself is valid. -/
theorem Valid.eq_of_mixed (h : Valid body checked)
    (hupper : ∃ character ∈ body, character.isUpper = true)
    (hlow : ∃ character ∈ body, character.isLower = true) : body = checked := by
  obtain ⟨capital, hcapital, hisUpper⟩ := hupper
  obtain ⟨small, hsmall, hisLower⟩ := hlow
  rcases h with hnone | hnone | hown
  · exact absurd hisUpper (Bool.eq_false_iff.mp (hnone capital hcapital))
  · exact absurd hisLower (Bool.eq_false_iff.mp (hnone small hsmall))
  · exact hown

theorem digits_eq_ok_iff_written : digits text = .ok body ↔ Written text body :=
  digits_eq_ok_iff

/-! ### One form -/

/-- Each character is capitalized as the digit of the digest in its place says. -/
theorem getElem?_capitalize (digest : Word) (hlength : body.length ≤ 2 * wordSize) (place : Nat) :
    (capitalize digest body)[place]? = body[place]?.map fun character =>
      if 8 ≤ digest.hexDigit place then character.toUpper else character := by
  rw [capitalize, List.getElem?_zipWith]
  by_cases hplace : place < body.length
  · rw [digest.getElem?_digitValues (Nat.lt_of_lt_of_le hplace hlength),
      List.getElem?_eq_getElem hplace]
    rfl
  · rw [List.getElem?_eq_none (Nat.le_of_not_lt hplace)]
    rfl

/-- The capitals that are put in are those of the form. -/
theorem form_bodyWith (hash : List UInt8 → Word) (hlength : body.length = 40) :
    Form hash body (bodyWith hash body) := by
  have hle : (body.map Char.toLower).length ≤ 2 * wordSize := by
    rw [List.length_map, hlength, wordSize]
    omega
  constructor
  · -- whether a character is capitalized or not, its small form is the same
    apply List.ext_getElem?
    intro place
    simp only [bodyWith, List.getElem?_map, getElem?_capitalize _ hle, Option.map_map]
    congr 1
    funext character
    simp only [Function.comp_apply]
    split_ifs
    · rw [Char.toLower_toUpper_eq_toLower, Char.toLower_toLower_eq_toLower]
    · rw [Char.toLower_toLower_eq_toLower]
  · intro place character hcharacter halpha
    simp only [bodyWith, getElem?_capitalize _ hle, List.getElem?_map, Option.map_map,
      Option.map_eq_some_iff, Function.comp_apply] at hcharacter
    obtain ⟨plain, -, rfl⟩ := hcharacter
    by_cases hcapital : 8 ≤ (hash (utf8 (String.ofList (body.map Char.toLower)))).hexDigit place
    · rw [if_pos hcapital, Char.isAlpha_toUpper_eq_isAlpha] at halpha
      rw [if_pos hcapital, Char.isUpper_toUpper_eq_isAlpha]
      exact iff_of_true halpha hcapital
    · rw [if_neg hcapital, Char.isUpper_toLower_eq_false]
      exact iff_of_false Bool.false_ne_true hcapital

/-- The form depends on the small letters alone. -/
theorem Form.unique {others : List Char} (h : Form hash body checked) (h' : Form hash other others)
    (hlower : other.map Char.toLower = body.map Char.toLower) : others = checked := by
  have hsmall : others.map Char.toLower = checked.map Char.toLower := by
    rw [h.lower, h'.lower, hlower]
  have hlength : others.length = checked.length := by
    simpa using congrArg List.length hsmall
  apply List.ext_getElem hlength
  intro place hplace hplace'
  have hcharacter : others[place].toLower = checked[place].toLower := by
    have hget := List.getElem_of_eq hsmall (by simpa using hplace)
    simpa using hget
  apply eq_of_toLower_eq_of_isAlpha hcharacter
  intro halpha' halpha
  -- a letter has its case from the digit of the hash, and the hash is of the same small letters
  have hcase := h.capital place _ (List.getElem?_eq_getElem hplace') halpha
  have hcase' := h'.capital place _ (List.getElem?_eq_getElem hplace) halpha'
  rw [hlower] at hcase'
  exact hcase'.trans hcase.symm

theorem bodyWith_eq_of_form (hlength : other.length = 40) (h : Form hash body checked)
    (hlower : other.map Char.toLower = body.map Char.toLower) : bodyWith hash other = checked :=
  h.unique (form_bodyWith hash hlength) hlower

/-! ### Addresses with and without a checksum -/

theorem written_bodyWith (hash : List UInt8 → Word) (h : Written text body) :
    Written ("0x" ++ String.ofList (bodyWith hash body)) (bodyWith hash body) := by
  obtain ⟨address, hspells⟩ := Address.exists_spells_iff.mpr h.2
  exact ⟨Or.inl (by simp), Address.exists_spells_iff.mp ⟨address, spells_bodyWith hash hspells⟩⟩

theorem applyWith_of_written (hash : List UInt8 → Word) (h : Written text body) :
    applyWith hash text = .ok ("0x" ++ String.ofList (bodyWith hash body)) :=
  applyWith_eq_ok_iff.mpr ⟨body, digits_eq_ok_iff_written.mpr h, rfl⟩

theorem isOneCase_or_eq_iff {checked : List Char} :
    (isOneCase body || checked == body) = true ↔ Valid body checked := by
  simp only [isOneCase, Valid, Bool.or_eq_true, List.all_eq_true, Bool.not_eq_true',
    beq_iff_eq, or_assoc]
  simp only [eq_comm]

theorem validateWith_of_written (hash : List UInt8 → Word) (h : Written text body) :
    validateWith hash text = .ok (isOneCase body || bodyWith hash body == body) :=
  validateWith_eq_ok_iff.mpr ⟨body, digits_eq_ok_iff_written.mpr h, rfl⟩

theorem validateWith_eq_true_iff (h : Written text body) :
    validateWith hash text = .ok true ↔ Valid body (bodyWith hash body) := by
  rw [validateWith_of_written hash h, Except.ok.injEq, isOneCase_or_eq_iff]

theorem validateWith_eq_false_iff (h : Written text body) :
    validateWith hash text = .ok false ↔ ¬ Valid body (bodyWith hash body) := by
  rw [validateWith_of_written hash h, Except.ok.injEq, ← isOneCase_or_eq_iff, Bool.not_eq_true]

/-- What an address comes to under any hash. Giving it a checksum and looking for one fail
together, with the same error, on the texts that are no addresses. An address has one form with a
checksum, which is its own form and is valid. The address is valid when its letters are of one case
or when it is its form, and has a wrong checksum otherwise. All spellings of the address in other
cases have the same form, and those of them that are valid and have letters of both cases are the
form. -/
theorem form_outcome (hash : List UInt8 → Word) (text : String) :
    (∀ error, applyWith hash text = .error error ↔ validateWith hash text = .error error) ∧
    ((∃ error, applyWith hash text = .error error) ↔ ∀ body, ¬ Written text body) ∧
    ∀ body, Written text body → ∃ checked form, form = "0x" ++ String.ofList checked ∧
      Written form checked ∧ Form hash body checked ∧
      applyWith hash text = .ok form ∧ applyWith hash form = .ok form ∧
      validateWith hash form = .ok true ∧
      (validateWith hash text = .ok true ↔ Valid body checked) ∧
      (validateWith hash text = .ok false ↔ ¬ Valid body checked) ∧
      ∀ variant other, Written variant other → other.map Char.toLower = body.map Char.toLower →
        applyWith hash variant = .ok form ∧
        (validateWith hash variant = .ok true → (∃ character ∈ other, character.isUpper = true) →
          (∃ character ∈ other, character.isLower = true) → other = checked) := by
  refine ⟨fun error => ?_, ?_, fun body hwritten => ?_⟩
  · rw [applyWith, validateWith, map_eq_error_iff, map_eq_error_iff]
  · simp only [← digits_eq_ok_iff_written, applyWith, map_eq_error_iff]
    cases digits text <;> simp
  · have hform := form_bodyWith hash hwritten.2.2
    have hchecked := written_bodyWith hash hwritten
    -- the form has the small letters of the address, and so has every other spelling
    have hself := bodyWith_eq_of_form hchecked.2.2 hform hform.lower
    refine ⟨bodyWith hash body, _, rfl, hchecked, hform, applyWith_of_written hash hwritten, ?_,
      ?_, validateWith_eq_true_iff hwritten, validateWith_eq_false_iff hwritten, ?_⟩
    · rw [applyWith_of_written hash hchecked, hself]
    · rw [validateWith_eq_true_iff hchecked, hself]
      exact Or.inr (Or.inr rfl)
    · intro variant other hvariant hlower
      have hsame := bodyWith_eq_of_form hvariant.2.2 hform hlower
      refine ⟨by rw [applyWith_of_written hash hvariant, hsame], ?_⟩
      intro hvalid hupper hlow
      rw [validateWith_eq_true_iff hvariant, hsame] at hvalid
      exact hvalid.eq_of_mixed hupper hlow

/-- A digest that begins with an eight and is zero otherwise asks for a capital in front only. -/
example :
    applyWith (fun _ => .ofNat (8 * 16 ^ 63)) "0XABCDEF7890ABCDEF7890ABCDEF7890ABCDEF7890" =
      .ok "0xAbcdef7890abcdef7890abcdef7890abcdef7890" := by
  decide +kernel

end Checksum

end CallData
