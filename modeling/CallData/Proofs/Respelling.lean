import CallData.Proofs.ArgumentShapes
import CallData.Proofs.TextOutcomes
import CallData.Proofs.TypeTexts

/-!
# The spellings of a JSON value

An unsigned integer is the same argument as a JSON number, in decimal digits and in hexadecimal
ones behind a mark, and a truth value is the same argument as a literal, a number and either of its
texts. Such a value always has a part, and the part is that of the integer or of the truth value
and not of its spelling. So a call does not change when some of its arguments, or some elements of
its arrays, are spelled another way: it comes to the same text, or is refused in the same place and
for the same reason, which then is not one of these values.

## Main definitions

* `Json.SpellsInteger`, `Json.SpellsTruth` — the spellings of an integer and of a truth value
* `BaseType.Spellings` — two spellings of what a base type expects
* `BaseType.Respelled`, `ParamType.Respelled`, `Json.AllRespelled`, `TypedArgument.Respelled` —
  values of which any are spelled another way

## Main results

* `Text.numeralValue_toDigits` — the digits of a number denote it
* `Json.SpellsInteger.exists_word`, `Json.SpellsTruth.exists_word` — every spelling has the word of
  what it spells
* `ParamType.Respelled.alike` — values spelled another way have the same parts, or lack a value
  alike
* `Json.calls_respelled` — calls with values spelled another way
-/

namespace CallData

open Text Traversal

/-! ### Numbers as texts -/

namespace Text

variable {characters others : List Char} {base number : Nat}

theorem digit?_toLower (character : Char) : digit? character.toLower = digit? character := by
  by_cases hupper : character.isUpper = true
  · -- the capital letters can be looked up
    have hall : ∀ code < 128, digit? (Char.ofNat code).toLower = digit? (Char.ofNat code) := by
      decide +kernel
    have hlast := UInt32.le_iff_toNat_le.mp (of_decide_eq_true hupper).2
    have hcharacter := hall character.toNat (Nat.lt_of_le_of_lt hlast (by decide))
    rwa [Char.ofNat_toNat] at hcharacter
  · have hsame : character.toLower = character :=
      dif_neg fun hletter => hupper (decide_eq_true hletter)
    rw [hsame]

/-- What digits denote depends on their values only. -/
theorem numeralValue_congr (h : characters.map digit? = others.map digit?) :
    numeralValue base characters = numeralValue base others := by
  have hvalues := congrArg (List.map fun value => value.getD 0) h
  rw [List.map_map, List.map_map] at hvalues
  rw [numeralValue, numeralValue, List.map_reverse, List.map_reverse]
  exact congrArg (fun values => Nat.ofDigits base values.reverse) hvalues

theorem isHex_congr (h : characters.map digit? = others.map digit?) (hothers : IsHex others) :
    IsHex characters := by
  intro character hmem
  have hvalue := List.mem_map_of_mem (f := digit?) hmem
  rw [h, List.mem_map] at hvalue
  obtain ⟨other, hother, hvalue⟩ := hvalue
  rw [← isSome_digit?_iff, ← hvalue, isSome_digit?_iff]
  exact hothers other hother

theorem numeralValue_append_singleton (base : Nat) (characters : List Char) (last : Char) :
    numeralValue base (characters ++ [last]) =
      base * numeralValue base characters + (digit? last).getD 0 := by
  rw [numeralValue, List.reverse_append, List.reverse_singleton, List.singleton_append,
    List.map_cons, Nat.ofDigits_cons, Nat.add_comm]
  rfl

theorem numeralValue_digitChar {value : Nat} (h : value < 16) :
    numeralValue base [Nat.digitChar value] = value := by
  simp [numeralValue, Hex.digit?_digitChar h]

/-- The digits of a number denote it. -/
theorem numeralValue_toDigits (hbase : 1 < base) (hsixteen : base ≤ 16) (number : Nat) :
    numeralValue base (Nat.toDigits base number) = number := by
  induction number using Nat.base_induction base hbase with
  | single value hvalue =>
    rw [Nat.toDigits_of_lt_base hvalue]
    exact numeralValue_digitChar (Nat.lt_of_lt_of_le hvalue hsixteen)
  | digit leading last hlast hleading ih =>
    -- the last digit comes off at the end
    rw [← Nat.toDigits_append_toDigits hbase hleading hlast, Nat.toDigits_of_lt_base hlast,
      numeralValue_append_singleton, ih,
      Hex.digit?_digitChar (Nat.lt_of_lt_of_le hlast hsixteen), Option.getD_some]

theorem isHex_toDigits (hbase : 1 < base) (hsixteen : base ≤ 16) (number : Nat) :
    IsHex (Nat.toDigits base number) := by
  have hdigit : ∀ value < base, IsHexDigit (Nat.digitChar value) := fun value hvalue => by
    rw [← isSome_digit?_iff, Hex.digit?_digitChar (Nat.lt_of_lt_of_le hvalue hsixteen),
      Option.isSome_some]
  induction number using Nat.base_induction base hbase with
  | single value hvalue =>
    rw [Nat.toDigits_of_lt_base hvalue]
    exact List.forall_mem_singleton.mpr (hdigit value hvalue)
  | digit leading last hlast hleading ih =>
    rw [← Nat.toDigits_append_toDigits hbase hleading hlast, Nat.toDigits_of_lt_base hlast]
    exact List.forall_mem_append.mpr ⟨ih, List.forall_mem_singleton.mpr (hdigit last hlast)⟩

theorem denotes_toString (number : Nat) : Denotes (toString number).toList number := by
  rw [Nat.toString_eq_repr, Nat.toList_repr]
  refine Or.inl ⟨⟨Nat.toDigits_ne_nil, fun character hmem => ?_⟩,
    numeralValue_toDigits (by decide) (by decide) number⟩
  exact isDigit_iff_isDecimalDigit.mp
    (Nat.isDigit_of_mem_toDigits (by decide) (by decide) hmem)

/-- The hexadecimal digits of a number denote it behind a mark, in whatever case they are. -/
theorem denotes_marked {digits : List Char}
    (h : digits.map Char.toLower = Nat.toDigits 16 number) :
    Denotes ("0x" ++ String.ofList digits).toList number := by
  have hvalues : digits.map digit? = (Nat.toDigits 16 number).map digit? := by
    rw [← h, List.map_map]
    exact List.map_congr_left fun character _ => (digit?_toLower character).symm
  have hne : digits ≠ [] := by
    rintro rfl
    exact Nat.toDigits_ne_nil h.symm
  have hhex := isHex_congr hvalues (isHex_toDigits (by decide) (by decide) number)
  have hmarked : Marked ("0x" ++ String.ofList digits).toList digits := Or.inl (by simp)
  refine Or.inr ⟨digits, hmarked, ⟨hne, hhex⟩, ?_⟩
  rw [numeralValue_congr hvalues, numeralValue_toDigits (by decide) (by decide)]

end Text

/-! ### Spellings -/

/-- The JSON values that spell an unsigned integer: a number, its decimal digits, or its
hexadecimal digits behind a mark and in either case. -/
inductive Json.SpellsInteger (number : Nat) : Json → Prop
  | plain : SpellsInteger number (.number (.integer number))
  | decimal : SpellsInteger number (.string (toString number))
  | hexadecimal {digits : List Char} (small : digits.map Char.toLower = Nat.toDigits 16 number) :
      SpellsInteger number (.string ("0x" ++ String.ofList digits))

/-- The JSON values that spell a truth value: a literal, the number one or zero, or one of its
texts. -/
inductive Json.SpellsTruth (truth : Bool) : Json → Prop
  | plain : SpellsTruth truth (.bool truth)
  | number : SpellsTruth truth (.number (.integer truth.toNat))
  | text {text : String} (mem : text ∈ truthTexts truth) : SpellsTruth truth (.string text)

/-- Two spellings of what a base type expects: of one unsigned integer of sixty-four bits, or of
one truth value. -/
inductive BaseType.Spellings : BaseType → Json → Json → Prop
  | uint {number : Nat} {json other : Json} (fits : number < 2 ^ 64)
      (first : json.SpellsInteger number) (second : other.SpellsInteger number) :
      Spellings .uint json other
  | bool {truth : Bool} {json other : Json} (first : json.SpellsTruth truth)
      (second : other.SpellsTruth truth) : Spellings .bool json other

/-- A value of a base type that is left as it is or spelled another way. -/
inductive BaseType.Respelled (type : BaseType) : Json → Json → Prop
  | same (json : Json) : Respelled type json json
  | changed {json other : Json} (spellings : type.Spellings json other) : Respelled type json other

/-- A value of a parameter type that is left as it is or spelled another way. Any elements of an
array may be spelled another way. -/
inductive ParamType.Respelled : ParamType → Json → Json → Prop
  | same (type : ParamType) (json : Json) : Respelled type json json
  | base {type : BaseType} {json other : Json} (value : type.Respelled json other) :
      Respelled (.base type) json other
  | array {element : BaseType} {items others : List Json}
      (elements : List.Forall₂ element.Respelled items others) :
      Respelled (.array element) (.array items) (.array others)

/-- Arguments of which any are spelled another way. Arguments without a parameter stay as they are,
and parameters may be left without an argument. -/
inductive Json.AllRespelled : List ParamType → List Json → List Json → Prop
  | none (types : List ParamType) : AllRespelled types [] []
  | rest (arguments : List Json) : AllRespelled [] arguments arguments
  | cons {type : ParamType} {types : List ParamType} {json other : Json}
      {arguments others : List Json} (value : type.Respelled json other)
      (later : AllRespelled types arguments others) :
      AllRespelled (type :: types) (json :: arguments) (other :: others)

/-- An argument whose value is left as it is or spelled another way, under the type that it
declares. -/
structure TypedArgument.Respelled (argument other : TypedArgument) : Prop where
  type : argument.type = other.type
  value : ∀ declared, DeclaredType.parse argument.type = .ok declared →
    declared.type.Respelled argument.value other.value

/-! ### The words of spellings -/

/-- Every spelling of an integer that fits into a word has the word of the integer. -/
theorem Json.SpellsInteger.exists_word {number : Nat} {json : Json} (h : json.SpellsInteger number)
    (hfits : number < Word.limit) :
    ∃ text, BaseType.uint.valueOf json = .ok (.uint text) ∧
      ValueText.uintWord text = .ok (.ofNat number) := by
  have hword : ∀ text : String, Denotes text.toList number →
      ValueText.uintWord text = .ok (.ofNat number) := fun text hdenotes => by
    rwa [ValueText.uintWord_eq_ok_iff, Word.toNat_ofNat hfits]
  cases h with
  | plain => exact ⟨toString number, rfl, hword _ (denotes_toString number)⟩
  | decimal => exact ⟨toString number, rfl, hword _ (denotes_toString number)⟩
  | hexadecimal small => exact ⟨_, rfl, hword _ (denotes_marked small)⟩

/-- Every spelling of a truth value has the word of the truth value. -/
theorem Json.SpellsTruth.exists_word {truth : Bool} {json : Json} (h : json.SpellsTruth truth) :
    ∃ text, BaseType.bool.valueOf json = .ok (.bool text) ∧
      ValueText.boolWord text = .ok (.ofNat truth.toNat) := by
  have hword : ∀ text ∈ truthTexts truth, ValueText.boolWord text = .ok (.ofNat truth.toNat) :=
    fun text hmem => map_eq_ok_iff.mpr ⟨truth, ValueText.bool_eq_ok_iff.mpr hmem, rfl⟩
  cases h with
  | plain => exact ⟨_, rfl, hword _ (by cases truth <;> decide)⟩
  | number => exact ⟨_, rfl, hword _ (by cases truth <;> decide)⟩
  | text mem => exact ⟨_, rfl, hword _ mem⟩

namespace BaseType

variable {type element : BaseType} {json other : Json}

/-- Two spellings of what a base type expects have a value each, and one part. -/
theorem Spellings.exists_part (h : type.Spellings json other) :
    ∃ value value' part, type.valueOf json = .ok value ∧ type.valueOf other = .ok value' ∧
      type.partOf value = .ok part ∧ type.partOf value' = .ok part := by
  cases h with
  | @uint number _ _ fits first second =>
    have hfits : number < Word.limit := by
      rw [Word.limit_eq]
      exact fits.trans (by decide)
    obtain ⟨text, hvalue, hword⟩ := first.exists_word hfits
    obtain ⟨text', hvalue', hword'⟩ := second.exists_word hfits
    exact ⟨.uint text, .uint text', .static (.ofNat number), hvalue, hvalue',
      map_eq_ok_iff.mpr ⟨_, hword, rfl⟩, map_eq_ok_iff.mpr ⟨_, hword', rfl⟩⟩
  | @bool truth _ _ first second =>
    obtain ⟨text, hvalue, hword⟩ := first.exists_word
    obtain ⟨text', hvalue', hword'⟩ := second.exists_word
    exact ⟨.bool text, .bool text', .static (.ofNat truth.toNat), hvalue, hvalue',
      map_eq_ok_iff.mpr ⟨_, hword, rfl⟩, map_eq_ok_iff.mpr ⟨_, hword', rfl⟩⟩

/-! ### The parts of values spelled another way -/

/-- A value of a base type that is spelled another way has the same part, or is missing for the
same reason. -/
theorem Respelled.alike (h : type.Respelled json other) :
    Alike (fun value value' => type.partOf value = type.partOf value') (type.valueOf json)
      (type.valueOf other) := by
  cases h with
  | same =>
    apply Alike.refl
    intro value
    rfl
  | changed spellings =>
    obtain ⟨value, value', part, hvalue, hvalue', hpart, hpart'⟩ := spellings.exists_part
    rw [hvalue, hvalue']
    exact .ok (hpart.trans hpart'.symm)

/-- Items with the same parts have the same payload. -/
theorem arrayPayload_congr {items others : List Value}
    (h : List.Forall₂ (fun value value' => element.partOf value = element.partOf value') items
      others) :
    element.arrayPayload items = element.arrayPayload others := by
  rw [arrayPayload, arrayPayload, mapM_congr_of_forall₂ h fun _ _ hpart => hpart, h.length_eq]

end BaseType

/-- A value that is spelled another way has the same part, or is missing for the same reason. -/
theorem ParamType.Respelled.alike {type : ParamType} {json other : Json}
    (h : type.Respelled json other) :
    Alike (fun value value' => type.partOf value = type.partOf value') (Value.ofJson type json)
      (Value.ofJson type other) := by
  cases h with
  | same =>
    apply Alike.refl
    intro value
    rfl
  | base value => exact value.alike
  | array elements =>
    -- the payload of an array depends on the parts of its elements only
    apply (alike_mapM elements fun _ _ element => element.alike).map
    intro items others hparts
    rw [partOf_array, partOf_array, BaseType.arrayPayload_congr hparts]

theorem ParamType.Respelled.sourcePart_eq {type : ParamType} {json other : Json}
    (h : type.Respelled json other) :
    sourcePart (type, Value.ofJson type json) = sourcePart (type, Value.ofJson type other) :=
  h.alike.bind_eq fun _ _ hpart => hpart

/-! ### Calls -/

namespace Json.AllRespelled

variable {types : List ParamType} {arguments others : List Json}

theorem length_eq (h : AllRespelled types arguments others) :
    arguments.length = others.length := by
  induction h with
  | none types => rfl
  | rest arguments => rfl
  | cons _ _ ih => rw [List.length_cons, List.length_cons, ih]

/-- Arguments that are spelled another way have the same block and the same reports. -/
theorem ofJson_eq (h : AllRespelled types arguments others) :
    Block.ofJson types arguments = Block.ofJson types others := by
  have hparts : List.Forall₂ (fun argument other =>
      argument.1 = other.1 ∧ sourcePart argument = sourcePart other)
      (types.zip (List.zipWith Value.ofJson types arguments))
      (types.zip (List.zipWith Value.ofJson types others)) := by
    induction h with
    | none types => cases types <;> exact .nil
    | rest arguments => exact .nil
    | cons value _ ih => exact .cons ⟨rfl, value.sourcePart_eq⟩ ih
  rw [Block.ofJson, Block.ofJson, Block.ofSources, Block.ofSources, Assembly.pushAll_congr hparts]

end Json.AllRespelled

namespace TypedArgument

variable {arguments others : List TypedArgument}

theorem parameters_eq (h : List.Forall₂ Respelled arguments others) :
    parameters arguments = parameters others :=
  mapM_congr_of_forall₂ h fun _ _ hargument => congrArg DeclaredType.parse hargument.type

theorem allRespelled (h : List.Forall₂ Respelled arguments others) {declared : List DeclaredType}
    (hdeclared : List.Forall₂ (fun argument declared =>
      DeclaredType.parse argument.type = .ok declared) arguments declared) :
    Json.AllRespelled (declared.map DeclaredType.type) (arguments.map value)
      (others.map value) := by
  induction h generalizing declared with
  | nil => exact .none _
  | @cons argument other rest later hargument _ ih =>
    obtain ⟨first, behind, hfirst, hbehind, rfl⟩ := List.forall₂_cons_left_iff.mp hdeclared
    exact .cons (hargument.value first hfirst) (ih hbehind)

end TypedArgument

/-- A call does not depend on the spelling of integers and truth values. Arguments of which any are
spelled another way, at the top or in arrays, make the same call, so that they come to the same
text or are refused for the same reason; and so do arguments that say their types, with a name and
without one. What is spelled another way always has a part, so that the reason is another one's. -/
theorem Json.calls_respelled :
    (∀ (method : Method) (arguments others : List Json),
      AllRespelled method.types arguments others →
        method.callJson arguments = method.callJson others) ∧
    (∀ (name : Option String) (arguments others : List TypedArgument),
      List.Forall₂ TypedArgument.Respelled arguments others →
        TypedArgument.call name arguments = TypedArgument.call name others) ∧
    ∀ (type : BaseType) (json other : Json), type.Spellings json other →
      ∃ value value' part, type.valueOf json = .ok value ∧ type.valueOf other = .ok value' ∧
        type.partOf value = .ok part ∧ type.partOf value' = .ok part := by
  refine ⟨fun method arguments others h => ?_, fun name arguments others h => ?_,
    fun type json other h => h.exists_part⟩
  · rw [Method.callJson, Method.callJson, h.length_eq, h.ofJson_eq]
  · have hparameters := TypedArgument.parameters_eq h
    cases hdeclared : TypedArgument.parameters arguments with
    | error error =>
      rw [TypedArgument.call_of_parameters_eq_error hdeclared,
        TypedArgument.call_of_parameters_eq_error (hparameters ▸ hdeclared)]
    | ok declared =>
      have hvalues := TypedArgument.allRespelled h (mapM_eq_ok_iff.mp hdeclared)
      rw [TypedArgument.call_of_parameters_eq_ok hdeclared,
        TypedArgument.call_of_parameters_eq_ok (hparameters ▸ hdeclared), hvalues.ofJson_eq]

/-- An element and a truth value in other spellings, in a call that is refused for the element
between them. -/
theorem Json.calls_respelled_of_refused_element :
    Method.callJson ⟨"f", [⟨.array .uint, "uint8[]"⟩, ⟨.base .bool, "bool"⟩]⟩
        [.array [.number (.integer 255), .string "x"], .bool true] =
      Method.callJson ⟨"f", [⟨.array .uint, "uint8[]"⟩, ⟨.base .bool, "bool"⟩]⟩
        [.array [.string "0xfF", .string "x"], .string "1"] ∧
    (Method.callJson ⟨"f", [⟨.array .uint, "uint8[]"⟩, ⟨.base .bool, "bool"⟩]⟩
        [.array [.string "0xfF", .string "x"], .string "1"]).result =
      .error (.invalidNumber "x") := by
  have hfits : 255 < 2 ^ 64 := by decide
  have hdigits : ['f', 'F'].map Char.toLower = Nat.toDigits 16 255 := by decide
  have hone : "1" ∈ truthTexts true := by decide
  have helement : BaseType.Spellings .uint (.number (.integer 255)) (.string "0xfF") :=
    .uint hfits .plain (.hexadecimal hdigits)
  have htruth : BaseType.Spellings .bool (.bool true) (.string "1") := .bool .plain (.text hone)
  refine ⟨Json.calls_respelled.1 _ _ _ ?_, by decide⟩
  exact .cons (.array (.cons (.changed helement) (.cons (.same _) .nil)))
    (.cons (.base (.changed htruth)) (.rest []))

end CallData
