import CallData.Proofs.Spelling
import CallData.DeclaredType

/-!
# Texts of types

Which texts declare a type, and the canonical text of each. The rules are stated about texts alone:
a base type has its own name or is `uint` before any decimal digits, an array has two brackets
behind the text of its elements, and blanks at the ends do not count. A canonical text declares its
own type, is canonical, and holds only small letters, digits and the brackets of an array.

## Main definitions

* `BaseType.NamedBy`, `DeclaredType.NamedBy` — the texts of types
* `DeclaredType.IsSupported` — texts that declare some type

## Main results

* `DeclaredType.parse_eq_ok_iff_namedBy` — what texts declare
* `DeclaredType.parse_canonical` — a canonical text declares the type that it was made from
* `DeclaredType.isTypeCharacter_of_mem_canonical` — the characters of canonical texts
-/

namespace CallData

/-- The texts of base types, each before its canonical text. Only an integer without a width has
another text than its canonical one. -/
inductive BaseType.NamedBy : BaseType → String → String → Prop
  | address : NamedBy .address "address" "address"
  | bool : NamedBy .bool "bool" "bool"
  | bytes : NamedBy .bytes "bytes" "bytes"
  | string : NamedBy .string "string" "string"
  | plain : NamedBy .uint "uint" "uint256"
  | wide {width : List Char} (decimal : Text.IsDecimal width) :
      NamedBy .uint ("uint" ++ String.ofList width) ("uint" ++ String.ofList width)

/-- The texts of types without blanks around them. -/
inductive DeclaredType.NamedBy : DeclaredType → String → Prop
  | base {type : BaseType} {text canonical : String} (named : type.NamedBy text canonical) :
      NamedBy ⟨.base type, canonical⟩ text
  | array {element : BaseType} {text canonical : String} (named : element.NamedBy text canonical) :
      NamedBy ⟨.array element, canonical ++ "[]"⟩ (text ++ "[]")

/-- A text that declares some type, with or without blanks around it. -/
def DeclaredType.IsSupported (text : String) : Prop :=
  ∃ declared : DeclaredType, declared.NamedBy (Text.trim text)

/-- The characters in the texts of base types. -/
def IsWordCharacter (character : Char) : Prop :=
  ('a' ≤ character ∧ character ≤ 'z') ∨ Text.IsDecimalDigit character

/-- The characters in the texts of types. -/
def IsTypeCharacter (character : Char) : Prop :=
  IsWordCharacter character ∨ character = '[' ∨ character = ']'

/-! ### Base types -/

theorem isDigit_iff_isDecimalDigit {character : Char} :
    character.isDigit = true ↔ Text.IsDecimalDigit character := by
  simp [Char.isDigit, Text.IsDecimalDigit, Char.le_def]

theorem uintWidth?_eq_some_iff {characters width : List Char} :
    uintWidth? characters = some width ↔ characters = "uint".toList ++ width := by
  constructor
  · intro h
    unfold uintWidth? at h
    split at h
    · rw [Option.some_inj] at h
      rw [← h]
      rfl
    · exact absurd h (by simp)
  · rintro rfl
    rfl

@[simp] theorem toList_uint_append (width : List Char) :
    ("uint" ++ String.ofList width).toList = "uint".toList ++ width := by
  simp

/-- A text that begins as an integer does is one when its width has digits only. -/
theorem BaseType.parse?_uint_append (width : List Char) :
    parse? ("uint" ++ String.ofList width) =
      if width = [] then some (.uint, "uint256")
      else if width.all Char.isDigit then some (.uint, "uint" ++ String.ofList width)
      else none := by
  unfold parse?
  split
  case h_5 =>
    rw [uintWidth?_eq_some_iff.mpr (toList_uint_append width)]
    cases width <;> rfl
  all_goals
    -- the other names do not begin so
    rename_i hname
    exact absurd (congrArg String.toList hname) (by simp)

theorem all_isDigit_iff {width : List Char} (hne : width ≠ []) :
    width.all Char.isDigit = true ↔ Text.IsDecimal width := by
  simp only [List.all_eq_true, isDigit_iff_isDecimalDigit, Text.IsDecimal]
  exact ⟨fun hdigits => ⟨hne, hdigits⟩, fun hdecimal => hdecimal.2⟩

theorem BaseType.parse?_eq_some_iff {type : BaseType} {text canonical : String} :
    parse? text = some (type, canonical) ↔ type.NamedBy text canonical := by
  constructor
  · intro h
    cases huint : uintWidth? text.toList with
    | none =>
      unfold parse? at h
      split at h
      case h_1 => cases h; exact .address
      case h_2 => cases h; exact .bool
      case h_3 => cases h; exact .bytes
      case h_4 => cases h; exact .string
      case h_5 => exact absurd h (by simp [huint])
    | some width =>
      obtain rfl : text = "uint" ++ String.ofList width := by
        rw [← String.toList_inj, toList_uint_append]
        exact uintWidth?_eq_some_iff.mp huint
      rw [parse?_uint_append] at h
      split_ifs at h with hempty hdigits
      · cases h
        subst hempty
        exact .plain
      · cases h
        exact .wide ((all_isDigit_iff hempty).mp hdigits)
  · rintro (_ | _ | _ | _ | _ | hdecimal)
    · rfl
    · rfl
    · rfl
    · rfl
    · rfl
    · rw [parse?_uint_append, if_neg hdecimal.1,
        if_pos ((all_isDigit_iff hdecimal.1).mpr hdecimal)]

/-! ### Characters -/

theorem not_isWordCharacter_bracket : ¬ IsWordCharacter ']' := by
  simp [IsWordCharacter, Text.IsDecimalDigit]

namespace BaseType.NamedBy

variable {type : BaseType} {text canonical : String}

/-- A canonical text is the canonical text of itself. -/
theorem canonical_self (h : type.NamedBy text canonical) : type.NamedBy canonical canonical := by
  cases h with
  | address => exact .address
  | bool => exact .bool
  | bytes => exact .bytes
  | string => exact .string
  | plain =>
    have hwidth : Text.IsDecimal ['2', '5', '6'] := by
      simp [Text.IsDecimal, Text.IsDecimalDigit]
    exact .wide hwidth
  | wide hdecimal => exact .wide hdecimal

theorem isWordCharacter_of_mem (h : type.NamedBy text canonical) {character : Char}
    (hmem : character ∈ text.toList) : IsWordCharacter character := by
  have hword : ∀ name ∈ ["address", "bool", "bytes", "string", "uint"],
      ∀ character ∈ name.toList, IsWordCharacter character := by
    simp [IsWordCharacter, Text.IsDecimalDigit]
  cases h with
  | address => exact hword "address" (by simp) character hmem
  | bool => exact hword "bool" (by simp) character hmem
  | bytes => exact hword "bytes" (by simp) character hmem
  | string => exact hword "string" (by simp) character hmem
  | plain => exact hword "uint" (by simp) character hmem
  | wide hdecimal =>
    rw [toList_uint_append] at hmem
    rcases List.mem_append.mp hmem with huint | hwidth
    · exact hword "uint" (by simp) character huint
    · exact Or.inr (hdecimal.2 character hwidth)

theorem ne_empty (h : type.NamedBy text canonical) : text ≠ "" := by
  cases h with
  | wide => exact fun hempty => absurd (congrArg String.toList hempty) (by simp)
  | _ => decide

end BaseType.NamedBy

/-! ### Arrays -/

theorem elementText?_eq_some_iff {text element : String} :
    elementText? text = some element ↔ text = element ++ "[]" := by
  constructor
  · intro h
    unfold elementText? at h
    split at h
    · rename_i inner hreverse
      rw [Option.some_inj] at h
      rw [List.reverse_eq_iff] at hreverse
      rw [← h, ← String.toList_inj, hreverse]
      simp
    · exact absurd h (by simp)
  · rintro rfl
    simp [elementText?]

/-- A text that ends in brackets is none of a base type. -/
theorem elementText?_of_namedBy {type : BaseType} {text canonical : String}
    (h : type.NamedBy text canonical) : elementText? text = none := by
  cases helement : elementText? text with
  | none => rfl
  | some element =>
    obtain rfl := elementText?_eq_some_iff.mp helement
    exact absurd (h.isWordCharacter_of_mem (by simp)) not_isWordCharacter_bracket

namespace DeclaredType

variable {text : String} {declared : DeclaredType}

theorem parse?_eq_some_iff : parse? text = some declared ↔ declared.NamedBy text := by
  unfold parse?
  constructor
  · intro h
    split at h
    · -- the text ends in brackets, and the rest names the elements
      rename_i element helement
      obtain ⟨⟨type, canonical⟩, hbase, rfl⟩ := Option.map_eq_some_iff.mp h
      obtain rfl := elementText?_eq_some_iff.mp helement
      exact .array (BaseType.parse?_eq_some_iff.mp hbase)
    · obtain ⟨⟨type, canonical⟩, hbase, rfl⟩ := Option.map_eq_some_iff.mp h
      exact .base (BaseType.parse?_eq_some_iff.mp hbase)
  · rintro (hnamed | hnamed)
    · rw [elementText?_of_namedBy hnamed]
      exact Option.map_eq_some_iff.mpr ⟨_, BaseType.parse?_eq_some_iff.mpr hnamed, rfl⟩
    · rw [elementText?_eq_some_iff.mpr rfl]
      exact Option.map_eq_some_iff.mpr ⟨_, BaseType.parse?_eq_some_iff.mpr hnamed, rfl⟩

/-- A text declares the type that it names when the blanks around it are gone. -/
theorem parse_eq_ok_iff_namedBy :
    parse text = .ok declared ↔ declared.NamedBy (Text.trim text) := by
  rw [parse_eq_ok_iff, parse?_eq_some_iff]

/-- A text that declares no type is named without the blanks around it. -/
theorem parse_eq_error_iff_not_isSupported {error : CodecError} :
    parse text = .error error ↔
      ¬ IsSupported text ∧ error = .unsupportedType (Text.trim text) := by
  rw [parse_eq_error_iff, IsSupported, Option.eq_none_iff_forall_ne_some]
  simp only [ne_eq, parse?_eq_some_iff, not_exists]

theorem exists_parse_iff : (∃ declared, parse text = .ok declared) ↔ IsSupported text := by
  simp only [parse_eq_ok_iff_namedBy, IsSupported]

/-! ### Canonical texts -/

theorem NamedBy.isTypeCharacter_of_mem (h : declared.NamedBy text) {character : Char}
    (hmem : character ∈ text.toList) : IsTypeCharacter character := by
  cases h with
  | base hnamed => exact Or.inl (hnamed.isWordCharacter_of_mem hmem)
  | array hnamed =>
    rw [String.toList_append, List.mem_append] at hmem
    rcases hmem with helement | hbracket
    · exact Or.inl (hnamed.isWordCharacter_of_mem helement)
    · exact Or.inr (by simpa using hbracket)

theorem NamedBy.ne_empty (h : declared.NamedBy text) : text ≠ "" := by
  cases h with
  | base hnamed => exact hnamed.ne_empty
  | array => exact fun hempty => absurd (congrArg String.toList hempty) (by simp)

/-- A canonical text names the type that it was made from. -/
theorem NamedBy.canonical_self (h : declared.NamedBy text) :
    declared.NamedBy declared.canonical := by
  cases h with
  | base hnamed => exact .base hnamed.canonical_self
  | array hnamed => exact .array hnamed.canonical_self

theorem isBlank_of_isTypeCharacter {character : Char} (h : IsTypeCharacter character) :
    Text.isBlank character = false := by
  have hcode : 0x30 ≤ character.toNat ∧ character.toNat ≤ 0x7A := by
    unfold IsTypeCharacter IsWordCharacter Text.IsDecimalDigit at h
    simp only [Char.le_def, UInt32.le_iff_toNat_le] at h
    have hval : character.toNat = character.val.toNat := rfl
    rcases h with (hletter | hdigit) | rfl | rfl
    · simp at hletter
      omega
    · simp at hdigit
      omega
    · decide
    · decide
  -- no blank has a code between those of the digits and those of the small letters
  rw [Bool.eq_false_iff, ne_eq, Text.isBlank_iff]
  intro hmem
  simp only [Text.blankCodes, List.mem_cons, List.not_mem_nil, or_false] at hmem
  omega

theorem NamedBy.trim_eq_self (h : declared.NamedBy text) : Text.trim text = text :=
  Text.trim_eq_self fun _ hmem => isBlank_of_isTypeCharacter (h.isTypeCharacter_of_mem hmem)

/-- A canonical text declares the type that it was made from. -/
theorem parse_canonical (h : parse text = .ok declared) :
    parse declared.canonical = .ok declared := by
  have hself := (parse_eq_ok_iff_namedBy.mp h).canonical_self
  rwa [parse_eq_ok_iff_namedBy, hself.trim_eq_self]

theorem isTypeCharacter_of_mem_canonical (h : parse text = .ok declared) {character : Char}
    (hmem : character ∈ declared.canonical.toList) : IsTypeCharacter character :=
  (parse_eq_ok_iff_namedBy.mp h).canonical_self.isTypeCharacter_of_mem hmem

theorem canonical_ne_empty (h : parse text = .ok declared) : declared.canonical ≠ "" :=
  (parse_eq_ok_iff_namedBy.mp h).canonical_self.ne_empty

end DeclaredType

end CallData
