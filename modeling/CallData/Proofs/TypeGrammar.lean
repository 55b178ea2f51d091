import CallData.Proofs.TypeTexts
import Mathlib.Data.List.DropRight

/-!
# What a text of a type comes to

Blanks around the text of a type do not count, and what stands between them decides everything. It
declares the one type that it names, or it is refused as it stands. Canonical texts and the names
of types are texts of types again, and reading them changes nothing.

## Main definitions

* `Text.Trimmed` — what a text is without the blanks around it

## Main results

* `Text.trimmed_iff` — trimming leaves exactly that
* `ParamType.parse_name` — the name of a type declares it
* `DeclaredType.parse_outcome` — the type that a text declares, and what is wrong with any other
  text
-/

namespace CallData

/-- What a text is without the blanks around it: it stands between blanks, and no blank stands at
its own ends. -/
structure Text.Trimmed (text core : String) : Prop where
  /-- Whatever else is in the text is blank. -/
  between : ∃ before behind : List Char, text.toList = before ++ (core.toList ++ behind) ∧
    ∀ character ∈ before ++ behind, isBlank character = true
  /-- What is left does not begin with a blank. -/
  first : ∀ character, core.toList.head? = some character → isBlank character = false
  /-- What is left does not end with a blank. -/
  last : ∀ character, core.toList.getLast? = some character → isBlank character = false

/-! ### Blanks around a text -/

namespace Text

variable {text core : String} {characters : List Char}

theorem trimList_eq_rdropWhile (characters : List Char) :
    trimList characters = (characters.dropWhile isBlank).rdropWhile isBlank := rfl

/-- Without the blanks in front of it a text is what they stand before. -/
theorem dropWhile_isBlank_append {before rest : List Char}
    (hbefore : ∀ character ∈ before, isBlank character = true)
    (hfirst : ∀ character, rest.head? = some character → isBlank character = false) :
    (before ++ rest).dropWhile isBlank = rest := by
  rw [List.dropWhile_append_of_pos hbefore]
  cases rest with
  | nil => rfl
  | cons character rest => exact List.dropWhile_cons_of_neg (by simp [hfirst character rfl])

theorem isBlank_of_head?_dropWhile {character : Char}
    (h : (characters.dropWhile isBlank).head? = some character) : isBlank character = false := by
  have hnot := List.head?_dropWhile_not isBlank characters
  rwa [h] at hnot

/-- A trimmed text begins as it does with the blanks at its end. -/
theorem head?_dropWhile_of_trimList {character : Char}
    (h : (trimList characters).head? = some character) :
    (characters.dropWhile isBlank).head? = some character := by
  obtain ⟨behind, hbehind⟩ := List.rdropWhile_prefix isBlank (characters.dropWhile isBlank)
  rw [← hbehind, List.head?_append, ← trimList_eq_rdropWhile, h, Option.some_or]

theorem trimmed_trim (text : String) : Trimmed text (trim text) where
  between := by
    refine ⟨text.toList.takeWhile isBlank,
      (text.toList.dropWhile isBlank).rtakeWhile isBlank, ?_, ?_⟩
    · rw [toList_trim, trimList_eq_rdropWhile, List.rdropWhile_append_rtakeWhile,
        List.takeWhile_append_dropWhile]
    · intro character hmem
      rcases List.mem_append.mp hmem with hbefore | hbehind
      · exact List.mem_takeWhile_imp hbefore
      · exact List.mem_rtakeWhile_imp hbehind
  first := by
    intro character h
    rw [toList_trim] at h
    exact isBlank_of_head?_dropWhile (head?_dropWhile_of_trimList h)
  last := by
    intro character h
    rw [toList_trim, trimList, List.getLast?_reverse] at h
    exact isBlank_of_head?_dropWhile h

/-- What stands between blanks, with no blank at its own ends, is all that trimming leaves. -/
theorem Trimmed.eq_trim (h : Trimmed text core) : core = trim text := by
  obtain ⟨before, behind, htext, hblank⟩ := h.between
  have hbefore : ∀ character ∈ before, isBlank character = true := fun character hmem =>
    hblank character (List.mem_append_left _ hmem)
  rw [← String.toList_inj, toList_trim, trimList, htext]
  by_cases hempty : core.toList = []
  · -- then the whole text is blank
    rw [hempty, List.nil_append, List.dropWhile_eq_nil_iff.mpr hblank]
    rfl
  · have hfirst : ∀ character, (core.toList ++ behind).head? = some character →
        isBlank character = false := by
      rw [List.head?_append_of_ne_nil _ hempty]
      exact h.first
    have hreverse : ∀ character ∈ behind.reverse, isBlank character = true := fun character hmem =>
      hblank character (List.mem_append_right _ (List.mem_reverse.mp hmem))
    have hlast : ∀ character, core.toList.reverse.head? = some character →
        isBlank character = false := by
      rw [List.head?_reverse]
      exact h.last
    rw [dropWhile_isBlank_append hbefore hfirst, List.reverse_append,
      dropWhile_isBlank_append hreverse hlast, List.reverse_reverse]

theorem trimmed_iff : Trimmed text core ↔ core = trim text := by
  constructor
  · exact Trimmed.eq_trim
  · intro h
    rw [h]
    exact trimmed_trim text

end Text

/-! ### Names of types -/

theorem BaseType.namedBy_name (type : BaseType) : type.NamedBy type.name type.name := by
  cases type with
  | uint => exact BaseType.NamedBy.plain.canonical_self
  | address => exact .address
  | bool => exact .bool
  | bytes => exact .bytes
  | string => exact .string

/-- The name of a type is a canonical text that names the type. -/
theorem ParamType.namedBy_name (type : ParamType) :
    DeclaredType.NamedBy ⟨type, type.name⟩ type.name := by
  cases type with
  | base type => exact .base type.namedBy_name
  | array element => exact .array element.namedBy_name

/-- The name of a type declares it. -/
theorem ParamType.parse_name (type : ParamType) :
    DeclaredType.parse type.name = .ok ⟨type, type.name⟩ := by
  have hnamed := type.namedBy_name
  rwa [DeclaredType.parse_eq_ok_iff_namedBy, hnamed.trim_eq_self]

namespace DeclaredType

/-- The text of a type is small letters and digits, with the brackets of an array behind them or
with nothing behind them. -/
theorem NamedBy.exists_word {text : String} {declared : DeclaredType} (h : declared.NamedBy text) :
    ∃ word ending : String, text = word ++ ending ∧ (ending = "" ∨ ending = "[]") ∧
      ∀ character ∈ word.toList, IsWordCharacter character := by
  cases h with
  | @base type text canonical hnamed =>
    exact ⟨text, "", by simp, Or.inl rfl, fun _ => hnamed.isWordCharacter_of_mem⟩
  | @array element text canonical hnamed =>
    exact ⟨text, "[]", rfl, Or.inr rfl, fun _ => hnamed.isWordCharacter_of_mem⟩

/-- What a text of a type comes to. What it is without the blanks around it decides: when that
names a type, the text declares this type with its canonical text, and otherwise the text is
refused for it. The canonical text of a type that is declared declares the same, the name of the
type declares the type, and the canonical text holds small letters and digits only, but for the
brackets of an array at its end. -/
theorem parse_outcome (text : String) :
    ∃ core, (∀ other, Text.Trimmed text other ↔ other = core) ∧
      (∀ declared, parse text = .ok declared ↔ declared.NamedBy core) ∧
      (∀ error, parse text = .error error ↔
        (∀ declared : DeclaredType, ¬ declared.NamedBy core) ∧ error = .unsupportedType core) ∧
      ∀ declared, parse text = .ok declared →
        parse declared.canonical = .ok declared ∧
        (∃ shown, parse declared.type.name = .ok shown ∧ shown.type = declared.type) ∧
        ∃ word ending : String, declared.canonical = word ++ ending ∧
          (ending = "" ∨ ending = "[]") ∧
            ∀ character ∈ word.toList, IsWordCharacter character := by
  refine ⟨Text.trim text, fun other => Text.trimmed_iff, fun declared => parse_eq_ok_iff_namedBy,
    fun error => ?_, fun declared h => ⟨parse_canonical h, ?_, ?_⟩⟩
  · rw [parse_eq_error_iff_not_isSupported, IsSupported, not_exists]
  · exact ⟨_, declared.type.parse_name, rfl⟩
  · exact (parse_eq_ok_iff_namedBy.mp h).canonical_self.exists_word

/-- Blanks of every kind do not count, but digits are those of ASCII only. -/
example : parse "\u2003 uint[]\n" = .ok ⟨.array .uint, "uint256[]"⟩ ∧
    parse "\u00a0uint\uff18" = .error (.unsupportedType "uint\uff18") := by
  decide

end DeclaredType

end CallData
