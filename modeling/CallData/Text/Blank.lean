/-!
# Blank characters

The characters with the Unicode property *White_Space*, and texts without blanks around them.

## Main definitions

* `Text.isBlank` — the characters of the property
* `Text.trim` — a text without the blanks at its two ends
-/

namespace CallData.Text

/-- The code points of the property *White_Space*. -/
def blankCodes : List Nat :=
  [0x09, 0x0A, 0x0B, 0x0C, 0x0D, 0x20, 0x85, 0xA0, 0x1680,
    0x2000, 0x2001, 0x2002, 0x2003, 0x2004, 0x2005, 0x2006, 0x2007, 0x2008, 0x2009, 0x200A,
    0x2028, 0x2029, 0x202F, 0x205F, 0x3000]

/-- Whether a character is blank. -/
def isBlank (character : Char) : Bool :=
  blankCodes.contains character.toNat

/-- Characters without the blanks at their two ends. -/
def trimList (characters : List Char) : List Char :=
  ((characters.dropWhile isBlank).reverse.dropWhile isBlank).reverse

/-- A text without the blanks at its two ends. -/
def trim (text : String) : String :=
  String.ofList (trimList text.toList)

/-- The property has twenty-five characters. -/
example : blankCodes.length = 25 := rfl

@[simp] theorem isBlank_iff {character : Char} :
    isBlank character = true ↔ character.toNat ∈ blankCodes := by
  simp [isBlank]

@[simp] theorem toList_trim (text : String) : (trim text).toList = trimList text.toList := by
  simp [trim]

@[simp] theorem trimList_nil : trimList [] = [] := rfl

/-- Characters of which none is blank are left as they are. -/
theorem trimList_eq_self {characters : List Char}
    (h : ∀ character ∈ characters, isBlank character = false) :
    trimList characters = characters := by
  have hdrop : ∀ others : List Char, (∀ character ∈ others, isBlank character = false) →
      others.dropWhile isBlank = others := by
    intro others hothers
    cases others with
    | nil => rfl
    | cons first rest =>
      rw [List.dropWhile_cons_of_neg (by simp [hothers first List.mem_cons_self])]
  rw [trimList, hdrop characters h, hdrop characters.reverse (by simpa using h),
    List.reverse_reverse]

theorem trim_eq_self {text : String} (h : ∀ character ∈ text.toList, isBlank character = false) :
    trim text = text := by
  rw [trim, trimList_eq_self h, String.ofList_toList]

end CallData.Text
