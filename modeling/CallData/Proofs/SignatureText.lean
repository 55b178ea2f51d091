import CallData.Proofs.LastDeclaration
import CallData.Proofs.TypeTexts

/-!
# Signatures as texts

A signature is a name and the canonical texts of types, put together without any mark that a name
could not hold as well. It can be taken apart all the same, since no canonical text holds a
parenthesis or a comma: the name ends before the last parenthesis that opens. What it is taken
apart into declares the method again, so methods with one signature are one method.

## Main definitions

* `Text.cutLast?` — a text before and behind the last occurrence of a mark
* `Signature.listed?`, `Signature.read?` — a signature as a name and the texts of types
* `Signature.IsPlain` — texts without the marks of a signature
* `DeclaredType.canonicalText`, `Method.canonicalTexts` — the canonical text of the type that a
  text declares, and those of the types of a method

## Main results

* `Signature.read?_eq_some` — a signature is read as it was put together
* `Method.eq_of_signature_eq` — methods with one signature are one method
* `Method.signature_determines` — all that a signature tells about its method
-/

namespace CallData

open Traversal

/-- What stands before the last occurrence of a mark in a text, and what stands behind it. -/
def Text.cutLast? (mark : Char) : List Char → Option (List Char × List Char)
  | [] => none
  | character :: rest =>
    match cutLast? mark rest with
    | some (before, behind) => some (character :: before, behind)
    | none => if character = mark then some ([], rest) else none

/-- The texts of a list that a parenthesis closes. There are commas between the texts, and nothing
before the parenthesis is a list without texts. -/
def Signature.listed? (characters : List Char) : Option (List String) :=
  match Text.cutLast? ')' characters with
  | some (inner, []) =>
    some (if inner.isEmpty then [] else (inner.splitOn ',').map String.ofList)
  | _ => none

/-- The name and the texts of types in a signature, where the name ends before the last parenthesis
that opens. -/
def Signature.read? (signature : String) : Option (String × List String) :=
  match Text.cutLast? '(' signature.toList with
  | some (name, behind) => (listed? behind).map fun types => (String.ofList name, types)
  | none => none

/-- The canonical text of the type that a text declares. -/
def DeclaredType.canonicalText (text : String) : Except CodecError String :=
  (parse text).map canonical

/-! ### Taking signatures apart -/

namespace Text

theorem cutLast?_eq_none_iff {mark : Char} {characters : List Char} :
    cutLast? mark characters = none ↔ mark ∉ characters := by
  induction characters with
  | nil => simp [cutLast?]
  | cons character rest ih =>
    rw [cutLast?]
    cases hrest : cutLast? mark rest with
    | some parts =>
      have hmem : mark ∈ rest := by
        by_contra habsent
        rw [ih.mpr habsent] at hrest
        exact absurd hrest (by simp)
      simp [hmem]
    | none => simp [ih.mp hrest, eq_comm]

theorem cutLast?_append {mark : Char} {before behind : List Char} (h : mark ∉ behind) :
    cutLast? mark (before ++ mark :: behind) = some (before, behind) := by
  induction before with
  | nil => simp [cutLast?, cutLast?_eq_none_iff.mpr h]
  | cons character before ih => rw [List.cons_append, cutLast?, ih]

end Text

namespace Signature

/-- A text that may stand in a signature: it is not empty, and it has none of the marks there. -/
def IsPlain (text : String) : Prop :=
  text ≠ "" ∧ ∀ mark ∈ ['(', ')', ','], mark ∉ text.toList

theorem IsPlain.not_mem {text : String} (h : IsPlain text) {mark : Char}
    (hmark : mark ∈ ['(', ')', ',']) : mark ∉ text.toList :=
  h.2 mark hmark

variable {texts : List String}

/-- Plain texts with commas between them hold no parenthesis. -/
theorem not_mem_intercalate (h : ∀ text ∈ texts, IsPlain text) {mark : Char}
    (hmark : mark ∈ ['(', ')', ',']) (hne : mark ≠ ',') :
    mark ∉ (",".intercalate texts).toList := by
  induction texts with
  | nil => simp
  | cons text rest ih =>
    obtain ⟨htext, hrest⟩ := List.forall_mem_cons.mp h
    by_cases hempty : rest = []
    · rw [hempty, String.intercalate_singleton]
      exact htext.not_mem hmark
    · rw [String.intercalate_cons_of_ne_nil hempty, String.toList_append, String.toList_append,
        List.mem_append, List.mem_append]
      simp only [htext.not_mem hmark, ih hrest, or_false, false_or]
      exact fun hcomma => hne (List.mem_singleton.mp hcomma)

theorem toList_intercalate_ne_nil (h : ∀ text ∈ texts, IsPlain text) (hne : texts ≠ []) :
    (",".intercalate texts).toList ≠ [] := by
  obtain ⟨text, rest, rfl⟩ := List.exists_cons_of_ne_nil hne
  have htext : text.toList ≠ [] := by simpa using (h text List.mem_cons_self).1
  by_cases hrest : rest = []
  · simpa [hrest] using htext
  · rw [String.intercalate_cons_of_ne_nil hrest, String.toList_append, String.toList_append]
    simp [htext]

/-- The texts of a list are read as they were put together. -/
theorem listed?_eq_some (h : ∀ text ∈ texts, IsPlain text) :
    listed? ((",".intercalate texts).toList ++ [')']) = some texts := by
  have hcut : Text.cutLast? ')' ((",".intercalate texts).toList ++ [')']) =
      some ((",".intercalate texts).toList, []) := Text.cutLast?_append List.not_mem_nil
  rw [listed?, hcut]
  dsimp only
  by_cases hempty : texts = []
  · subst hempty
    rfl
  · have hinner : (",".intercalate texts).toList.isEmpty = false :=
      List.isEmpty_eq_false_iff.mpr (toList_intercalate_ne_nil h hempty)
    -- the commas stand between the texts only, so that cutting there gives the texts again
    have hcommas : ∀ characters ∈ texts.map String.toList, ',' ∉ characters := by
      rw [List.forall_mem_map]
      intro text hmem
      exact (h text hmem).not_mem (by simp)
    have hsplit : (",".intercalate texts).toList.splitOn ',' = texts.map String.toList := by
      rw [String.toList_intercalate]
      exact List.splitOn_intercalate ',' hcommas (by simpa using hempty)
    rw [hinner, hsplit, List.map_map]
    simp

/-- A signature is read as it was put together. -/
theorem read?_eq_some (name : String) (h : ∀ text ∈ texts, IsPlain text) :
    read? (name ++ "(" ++ ",".intercalate texts ++ ")") = some (name, texts) := by
  have hinner : '(' ∉ (",".intercalate texts).toList :=
    not_mem_intercalate h (by simp) (by decide)
  have habsent : '(' ∉ (",".intercalate texts).toList ++ [')'] := by
    rw [List.mem_append]
    exact fun hmem => hmem.elim hinner (by simp)
  have hcharacters : (name ++ "(" ++ ",".intercalate texts ++ ")").toList =
      name.toList ++ '(' :: ((",".intercalate texts).toList ++ [')']) := by
    simp
  rw [read?, hcharacters, Text.cutLast?_append habsent]
  dsimp only
  rw [listed?_eq_some h, Option.map_some, String.ofList_toList]

end Signature

/-! ### Signatures of methods -/

/-- Canonical texts have none of the marks of a signature. -/
theorem DeclaredType.isPlain_canonical {text : String} {declared : DeclaredType}
    (h : parse text = .ok declared) : Signature.IsPlain declared.canonical := by
  refine ⟨canonical_ne_empty h, fun mark hmark hmem => ?_⟩
  have htype := isTypeCharacter_of_mem_canonical h hmem
  have hmarks : ∀ mark ∈ ['(', ')', ','], ¬ IsTypeCharacter mark := by
    simp [IsTypeCharacter, IsWordCharacter, Text.IsDecimalDigit]
  exact hmarks mark hmark htype

namespace Method

variable {name : String} {types : List String} {method other : Method}

/-- The texts of the types in the signature of a method. -/
def canonicalTexts (method : Method) : List String :=
  method.parameters.map DeclaredType.canonical

theorem signature_eq (method : Method) :
    method.signature = method.name ++ "(" ++ ",".intercalate method.canonicalTexts ++ ")" := rfl

theorem isPlain_of_mem_canonicalTexts (h : declare name types = .ok method) :
    ∀ text ∈ method.canonicalTexts, Signature.IsPlain text := by
  intro text hmem
  obtain ⟨declared, hdeclared, rfl⟩ := List.mem_map.mp hmem
  obtain ⟨given, -, hparse⟩ := exists_mem_of_mapM (declare_eq_ok_iff.mp h).2 hdeclared
  exact DeclaredType.isPlain_canonical hparse

/-- The signature of a declared method is read as its name and its canonical texts. -/
theorem read?_signature (h : declare name types = .ok method) :
    Signature.read? method.signature = some (name, method.canonicalTexts) := by
  rw [signature_eq, (declare_eq_ok_iff.mp h).1]
  exact Signature.read?_eq_some name (isPlain_of_mem_canonicalTexts h)

/-- The canonical texts of a method declare the method. -/
theorem declare_canonicalTexts (h : declare name types = .ok method) :
    declare name method.canonicalTexts = .ok method := by
  obtain ⟨hname, hparameters⟩ := declare_eq_ok_iff.mp h
  rw [declare_eq_ok_iff, canonicalTexts, List.mapM_map, mapM_eq_ok_iff, List.forall₂_same]
  refine ⟨hname, fun declared hmem => ?_⟩
  obtain ⟨given, -, hparse⟩ := exists_mem_of_mapM hparameters hmem
  rw [Function.comp_apply]
  exact DeclaredType.parse_canonical hparse

/-- Methods with one signature are one method, since both are what is read in it. -/
theorem eq_of_signature_eq {name' : String} {types' : List String}
    (h : declare name types = .ok method) (h' : declare name' types' = .ok other)
    (hsame : method.signature = other.signature) : method = other := by
  have hread := read?_signature h
  rw [hsame, read?_signature h', Option.some_inj, Prod.mk_inj] at hread
  obtain ⟨rfl, htexts⟩ := hread
  have hdeclare := declare_canonicalTexts h
  rw [← htexts, declare_canonicalTexts h'] at hdeclare
  exact (Except.ok.inj hdeclare).symm

/-- The canonical texts of a method are those of the texts that declare it. -/
theorem map_canonicalText (h : declare name types = .ok method) :
    types.map DeclaredType.canonicalText = method.canonicalTexts.map .ok := by
  rw [map_eq_map_ok_iff, canonicalTexts, List.forall₂_map_right_iff]
  exact (mapM_eq_ok_iff.mp (declare_eq_ok_iff.mp h).2).imp fun _ declared hparse =>
    map_eq_ok_iff.mpr ⟨declared, hparse, rfl⟩

theorem map_canonicalText_eq_iff {name' : String} {types' : List String}
    (h : declare name types = .ok method) (h' : declare name' types' = .ok other) :
    types.map DeclaredType.canonicalText = types'.map DeclaredType.canonicalText ↔
      method.canonicalTexts = other.canonicalTexts := by
  rw [map_canonicalText h, map_canonicalText h']
  exact (List.map_injective_iff.mpr fun _ _ => Except.ok.inj).eq_iff

/-- An integer without a width is declared as the widest. -/
theorem declare_plain_eq_declare_wide (name : String) (before behind : List String) :
    declare name (before ++ "uint" :: behind) = declare name (before ++ "uint256" :: behind) := by
  have hparse : DeclaredType.parse "uint" = DeclaredType.parse "uint256" := by decide
  rw [declare, declare, List.mapM_append, List.mapM_append, List.mapM_cons, List.mapM_cons, hparse]

/-- What a signature tells about its method. The name ends before the last parenthesis that opens,
and one that closes ends a list of canonical texts with commas between them; name and texts declare
the method again. So methods with one signature are one method, and under one name lists of types
have one signature when their canonical texts are the same one by one. -/
theorem signature_determines (h : declare name types = .ok method) :
    (∃ shown, Signature.read? method.signature = some (method.name, shown) ∧
      method.signature = method.name ++ "(" ++ ",".intercalate shown ++ ")" ∧
      (∀ text ∈ shown, Signature.IsPlain text) ∧ declare method.name shown = .ok method) ∧
    (∀ name' types' other, declare name' types' = .ok other →
      (method.signature = other.signature ↔ method = other) ∧
      (method.signature = other.signature ↔ method.name = other.name ∧ method.types = other.types ∧
        method.signature = other.signature ∧ method.selector = other.selector)) ∧
    (∀ types' other, declare name types' = .ok other →
      (method.signature = other.signature ↔
        types.map DeclaredType.canonicalText = types'.map DeclaredType.canonicalText)) ∧
    (∀ before behind,
      declare name (before ++ "uint" :: behind) = declare name (before ++ "uint256" :: behind)) ∧
    (∀ before behind before' behind' narrow wide, before.length = before'.length →
      declare name (before ++ "uint8" :: behind) = .ok narrow →
      declare name (before' ++ "uint256" :: behind') = .ok wide →
      narrow.signature ≠ wide.signature) := by
  -- the method has the name that it was declared under
  obtain rfl := (declare_eq_ok_iff.mp h).1
  refine ⟨⟨method.canonicalTexts, read?_signature h, signature_eq method,
    isPlain_of_mem_canonicalTexts h, declare_canonicalTexts h⟩, ?_, ?_,
    declare_plain_eq_declare_wide method.name, ?_⟩
  · intro name' types' other h'
    refine ⟨⟨eq_of_signature_eq h h', ?_⟩, ⟨?_, fun hall => hall.2.2.1⟩⟩
    · rintro rfl
      rfl
    · intro hsame
      obtain rfl := eq_of_signature_eq h h' hsame
      exact ⟨rfl, rfl, rfl, rfl⟩
  · intro types' other h'
    rw [map_canonicalText_eq_iff h h']
    constructor
    · intro hsame
      rw [eq_of_signature_eq h h' hsame]
    · intro htexts
      rw [signature_eq, signature_eq, htexts, (declare_eq_ok_iff.mp h').1]
  · intro before behind before' behind' narrow wide hplace hnarrow hwide hsame
    have htexts := (map_canonicalText_eq_iff hnarrow hwide).mpr
      (congrArg canonicalTexts (eq_of_signature_eq hnarrow hwide hsame))
    -- the texts at the place of the two integers would be the same
    rw [List.map_append, List.map_append] at htexts
    have hplaces := (List.append_inj htexts (by simpa using hplace)).2
    exact absurd (List.cons.inj hplaces).1 (by decide)

/-- A name that looks like the beginning of a signature. -/
theorem signature_determines_of_name_with_marks :
    ∃ method, declare "pay(uint8," [" uint", "bytes[]\t"] = .ok method ∧
      ∃ shown, Signature.read? method.signature = some ("pay(uint8,", shown) ∧
        declare "pay(uint8," shown = .ok method ∧
        ∀ types' other, declare "pay(uint8," types' = .ok other →
          (method.signature = other.signature ↔
            [" uint", "bytes[]\t"].map DeclaredType.canonicalText =
              types'.map DeclaredType.canonicalText) := by
  have hdeclared : declare "pay(uint8," [" uint", "bytes[]\t"] =
      .ok ⟨"pay(uint8,", [⟨.base .uint, "uint256"⟩, ⟨.array .bytes, "bytes[]"⟩]⟩ := by
    decide
  obtain ⟨⟨shown, hread, -, -, hshown⟩, -, hlists, -⟩ := signature_determines hdeclared
  exact ⟨_, hdeclared, shown, hread, hshown, hlists⟩

end Method

end CallData
