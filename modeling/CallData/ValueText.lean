import CallData.Address
import CallData.Chunk

/-!
# Texts of values

What the text of a value means, and the word or chunk that carries the meaning. Different spellings
of one meaning are encoded alike.

## Main definitions

* `ValueText.uint`, `ValueText.bool`, `ValueText.bytes` — the meaning of a text of each kind
* `ValueText.uintWord`, `ValueText.addressWord`, `ValueText.boolWord` — the word of a text
* `ValueText.bytesChunk`, `ValueText.stringChunk` — the chunk of a text
-/

namespace CallData

/-- A number that does not fit into a word. -/
def CodecError.tooWide (text : String) : CodecError :=
  .invalidNumber (text ++ " exceeds 256 bits")

/-- A text with a character that is no hexadecimal digit. -/
def CodecError.badHex (text : String) (flaw : Hex.Flaw) : CodecError :=
  .invalidHex (text ++ ": " ++ flaw.message)

namespace ValueText

open CallData.Text

/-- The number that a text denotes: hexadecimal after a mark and decimal otherwise. -/
def number? (characters : List Char) : Option Nat :=
  match afterHexMark? characters with
  | some digits => readNumeral? 16 digits
  | none => readNumeral? 10 characters

/-- The unsigned integer that a text denotes. It has to fit into a word. -/
def uint (text : String) : Except CodecError Nat :=
  match number? text.toList with
  | none => .error (.invalidNumber text)
  | some number =>
    if number < Word.limit then .ok number
    else .error (.tooWide text)

/-- The truth value that a text denotes. -/
def bool (text : String) : Except CodecError Bool :=
  match text with
  | "1" | "true" => .ok true
  | "0" | "false" => .ok false
  | _ => .error (.invalidBoolean text)

/-- The bytes that a text of hexadecimal digits denotes. An odd digit in front is a byte of its
own. -/
def bytes (text : String) : Except CodecError (List UInt8) :=
  match Hex.decode (Hex.evenDigits (dropHexMark text.toList)) with
  | .ok bytes => .ok bytes
  | .error flaw => .error (.badHex text flaw)

/-- The word of an unsigned integer. -/
def uintWord (text : String) : Except CodecError Word :=
  (uint text).map Word.ofNat

/-- The word of an address. -/
def addressWord (text : String) : Except CodecError Word :=
  (Address.ofText text).map Word.ofAddress

/-- The word of a truth value: one or zero. -/
def boolWord (text : String) : Except CodecError Word :=
  (bool text).map fun truth => Word.ofNat truth.toNat

/-- The chunk of bytes in hexadecimal. -/
def bytesChunk (text : String) : Except CodecError Chunk :=
  (bytes text).map Chunk.ofBytes

/-- The chunk of a text, which carries its bytes in UTF-8. -/
def stringChunk (text : String) : Chunk :=
  Chunk.ofBytes (utf8 text)

theorem uint_eq_ok_iff {text : String} {number : Nat} :
    uint text = .ok number ↔ number? text.toList = some number ∧ number < Word.limit := by
  unfold uint
  split
  · simp_all
  · rename_i found h
    split <;> simp_all
    · rintro rfl
      assumption
    · rintro rfl
      omega

theorem bytes_eq_ok_iff {text : String} {payload : List UInt8} :
    bytes text = .ok payload ↔
      Hex.decode (Hex.evenDigits (dropHexMark text.toList)) = .ok payload := by
  unfold bytes
  split <;> simp_all

end ValueText

end CallData
