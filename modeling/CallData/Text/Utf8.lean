/-!
# Texts as bytes

The UTF-8 form of a text, as a list of bytes. Lengths that callers are told, payloads, the inputs
of the hash and the order of names all go through it.

## Main definitions

* `Text.utf8` — the bytes of a text
* `Text.utf8Length` — the number of bytes that characters take
* `Text.Precedes` — the order of texts by their bytes
-/

namespace CallData.Text

/-- The bytes of a text in UTF-8. -/
def utf8 (text : String) : List UInt8 :=
  text.toList.flatMap String.utf8EncodeChar

/-- The number of bytes that characters take in UTF-8. -/
def utf8Length : List Char → Nat
  | [] => 0
  | character :: rest => character.utf8Size + utf8Length rest

@[simp] theorem utf8_empty : utf8 "" = [] := rfl

@[simp] theorem utf8_append (first second : String) :
    utf8 (first ++ second) = utf8 first ++ utf8 second := by
  simp [utf8]

@[simp] theorem utf8Length_nil : utf8Length [] = 0 := rfl

@[simp] theorem utf8Length_cons (character : Char) (rest : List Char) :
    utf8Length (character :: rest) = character.utf8Size + utf8Length rest := rfl

@[simp] theorem length_utf8 (text : String) : (utf8 text).length = utf8Length text.toList := by
  rw [utf8]
  induction text.toList with
  | nil => rfl
  | cons character rest ih => simp [ih, String.length_utf8EncodeChar]

theorem toArray_utf8 (text : String) : (utf8 text).toByteArray = text.toByteArray := by
  rw [utf8, ← List.utf8Encode, String.utf8Encode_toList]

/-- Different texts have different bytes. -/
theorem utf8_inj {first second : String} : utf8 first = utf8 second ↔ first = second := by
  constructor
  · intro h
    rw [← String.toByteArray_inj, ← toArray_utf8, ← toArray_utf8, h]
  · rintro rfl
    rfl

/-- One text stands before another when its bytes do, read as a dictionary would. -/
def Precedes (first second : String) : Prop := utf8 first < utf8 second

instance (first second : String) : Decidable (Precedes first second) :=
  inferInstanceAs (Decidable (utf8 first < utf8 second))

theorem not_precedes_self (text : String) : ¬ Precedes text text :=
  List.lt_irrefl _

theorem Precedes.trans {first second third : String} (h : Precedes first second)
    (h' : Precedes second third) : Precedes first third :=
  List.lt_trans h h'

/-- Of two different texts one stands before the other. -/
theorem precedes_of_not_precedes {first second : String} (h : ¬ Precedes first second)
    (hne : first ≠ second) : Precedes second first := by
  have hle : utf8 second ≤ utf8 first := h
  rcases List.le_iff_lt_or_eq.mp hle with hlt | heq
  · exact hlt
  · exact absurd (utf8_inj.mp heq).symm hne

end CallData.Text
