import CallData.Part
import CallData.Proofs.Traversal

/-!
# Layouts

Parts are laid out as a head of one word for each part, followed by the payloads in order. A static
part has its own word; the word of a payload is the number of bytes in front of the payload.
Offsets in a table are rounded up to whole words, which changes nothing as long as every payload is
a whole number of words.

## Main definitions

* `Part.Aligned` — a payload of whole words
* `Part.payloadSize` — the number of bytes that payloads take
* `Part.counter` — the rounded offset behind parts
* `Part.LaidOut` — the rules of a layout

## Main results

* `Part.counter_eq_add_payloadSize` — rounding leaves the offset of aligned parts as it is
* `Part.laidOut_table` — a table lays its parts out
-/

namespace CallData

/-- The word of a block that has an index. -/
def wordAt (block : List UInt8) (index : Nat) : List UInt8 :=
  (block.drop (wordSize * index)).take wordSize

theorem length_flatMap_bytes (words : List Word) :
    (words.flatMap Word.bytes).length = wordSize * words.length := by
  induction words with
  | nil => rfl
  | cons word rest ih =>
    rw [List.flatMap_cons, List.length_append, word.length_bytes, ih, List.length_cons]
    exact (Nat.add_comm _ _).trans (Nat.mul_succ _ _).symm

/-- A word is found at its index, whatever stands behind the words. -/
theorem wordAt_flatMap_bytes {words : List Word} {index : Nat} {word : Word}
    (h : words[index]? = some word) (rest : List UInt8) :
    wordAt (words.flatMap Word.bytes ++ rest) index = word.bytes := by
  induction words generalizing index with
  | nil => exact absurd h (by simp)
  | cons first others ih =>
    rw [List.flatMap_cons, List.append_assoc]
    cases index with
    | zero =>
      obtain rfl := Option.some.inj h
      rw [wordAt, Nat.mul_zero, List.drop_zero, List.take_left' first.length_bytes]
    | succ index =>
      -- the first word is skipped, and the index counts from the second
      rw [wordAt, Nat.mul_succ, Nat.add_comm, ← List.drop_drop, List.drop_left' first.length_bytes]
      exact ih h

namespace Part

/-- A part whose payload is a whole number of words. -/
def Aligned (part : Part) : Prop := wordSize ∣ part.payload.length

/-- The number of bytes that the payloads of parts take. -/
def payloadSize : List Part → Nat
  | [] => 0
  | part :: rest => part.payload.length + payloadSize rest

/-- The word of a part in the head, when its payload stands at an offset. -/
def headWord (offset : Nat) : Part → Word
  | .static word => word
  | .dynamic _ => .ofNat offset

/-- The offset behind parts, rounded up to a whole word after each payload. -/
def counter (offset : Nat) : List Part → Nat
  | [] => offset
  | .static _ :: rest => counter offset rest
  | .dynamic payload :: rest => counter (roundUp (offset + payload.length)) rest

/-- The rules of a layout of parts. -/
structure LaidOut (parts : List Part) (block : List UInt8) : Prop where
  /-- The head has one word for each part. -/
  head : ∃ words : List Word, words.length = parts.length ∧
    block.take (wordSize * parts.length) = words.flatMap Word.bytes
  /-- The word of a static part is its own. -/
  own : ∀ index word, parts[index]? = some (.static word) → wordAt block index = word.bytes
  /-- The word of a payload counts the bytes of the head and of the payloads before it. -/
  offset : ∀ index payload, parts[index]? = some (.dynamic payload) →
    fromBigEndian (wordAt block index) =
      wordSize * parts.length + payloadSize (parts.take index)
  /-- A payload stands where its word says. -/
  found : ∀ index payload, parts[index]? = some (.dynamic payload) →
    (block.drop (fromBigEndian (wordAt block index))).take payload.length = payload
  /-- Behind the head stand the payloads in order, and nothing else. -/
  tail : block.drop (wordSize * parts.length) = parts.flatMap payload

@[simp] theorem aligned_static (word : Word) : (static word).Aligned := ⟨0, rfl⟩

@[simp] theorem aligned_dynamic_iff {payload : List UInt8} :
    (dynamic payload).Aligned ↔ wordSize ∣ payload.length := Iff.rfl

@[simp] theorem payloadSize_nil : payloadSize [] = 0 := rfl

@[simp] theorem payloadSize_cons (part : Part) (rest : List Part) :
    payloadSize (part :: rest) = part.payload.length + payloadSize rest := rfl

theorem length_flatMap_payload (parts : List Part) :
    (parts.flatMap payload).length = payloadSize parts := by
  induction parts with
  | nil => rfl
  | cons part rest ih => rw [List.flatMap_cons, List.length_append, ih, payloadSize_cons]

theorem payloadSize_append (first second : List Part) :
    payloadSize (first ++ second) = payloadSize first + payloadSize second := by
  rw [← length_flatMap_payload, List.flatMap_append, List.length_append, length_flatMap_payload,
    length_flatMap_payload]

theorem payloadSize_take_le (parts : List Part) (index : Nat) :
    payloadSize (parts.take index) ≤ payloadSize parts := by
  conv_rhs => rw [← List.take_append_drop index parts, payloadSize_append]
  exact Nat.le_add_right _ _

theorem dvd_payloadSize {parts : List Part} (h : ∀ part ∈ parts, part.Aligned) :
    wordSize ∣ payloadSize parts := by
  induction parts with
  | nil => exact Nat.dvd_zero _
  | cons part rest ih =>
    obtain ⟨hpart, hrest⟩ := List.forall_mem_cons.mp h
    exact Nat.dvd_add hpart (ih hrest)

/-! ### Offsets -/

/-- Rounding after each payload changes nothing while all payloads are whole words. -/
theorem counter_eq_add_payloadSize {parts : List Part} {offset : Nat}
    (haligned : ∀ part ∈ parts, part.Aligned) (hoffset : wordSize ∣ offset) :
    counter offset parts = offset + payloadSize parts := by
  induction parts generalizing offset with
  | nil => rfl
  | cons part rest ih =>
    obtain ⟨hpart, hrest⟩ := List.forall_mem_cons.mp haligned
    cases part with
    | static word => simpa [counter] using ih hrest hoffset
    | dynamic payload =>
      -- the offset behind the payload is a whole number of words again
      have hnext : wordSize ∣ offset + payload.length := Nat.dvd_add hoffset hpart
      rw [counter, roundUp_of_dvd hnext, ih hrest hnext, payloadSize_cons, payload_dynamic,
        Nat.add_assoc]

/-- The words of a head go on with the counter behind the parts before. -/
theorem headWords_append (offset : Nat) (first second : List Part) :
    headWords offset (first ++ second) =
      headWords offset first ++ headWords (counter offset first) second := by
  induction first generalizing offset with
  | nil => rfl
  | cons part rest ih =>
    cases part <;> simp only [List.cons_append, headWords, counter, ih]

theorem headWords_cons (offset : Nat) (part : Part) (rest : List Part) :
    headWords offset (part :: rest) =
      part.headWord offset :: headWords (counter offset [part]) rest := by
  cases part <;> rfl

/-- Each part has its word at its own index. -/
theorem getElem?_headWords {parts : List Part} {offset index : Nat} {part : Part}
    (haligned : ∀ part ∈ parts, part.Aligned) (hoffset : wordSize ∣ offset)
    (h : parts[index]? = some part) :
    (headWords offset parts)[index]? =
      some (part.headWord (offset + payloadSize (parts.take index))) := by
  obtain ⟨before, after, rfl, rfl⟩ := Traversal.exists_append_of_getElem? h
  have hbefore : ∀ part ∈ before, part.Aligned := fun part hpart =>
    haligned part (List.mem_append_left _ hpart)
  -- there are as many words before the word of a part as there are parts before it
  have hlength := length_headWords offset before
  rw [headWords_append, headWords_cons, List.getElem?_append_right (Nat.le_of_eq hlength), hlength,
    Nat.sub_self, List.getElem?_cons_zero, counter_eq_add_payloadSize hbefore hoffset,
    List.take_left]

/-! ### Tables -/

theorem table_eq (parts : List Part) :
    table parts = (headWords (wordSize * parts.length) parts).flatMap Word.bytes ++
      parts.flatMap payload := rfl

theorem length_table (parts : List Part) :
    (table parts).length = wordSize * parts.length + payloadSize parts := by
  rw [table_eq, List.length_append, length_flatMap_bytes, length_headWords,
    length_flatMap_payload]

theorem wordAt_table {parts : List Part} {index : Nat} {part : Part}
    (haligned : ∀ part ∈ parts, part.Aligned) (h : parts[index]? = some part) :
    wordAt (table parts) index =
      (part.headWord (wordSize * parts.length + payloadSize (parts.take index))).bytes :=
  wordAt_flatMap_bytes (getElem?_headWords haligned (Nat.dvd_mul_right _ _) h) _

theorem drop_table (parts : List Part) :
    (table parts).drop (wordSize * parts.length) = parts.flatMap payload := by
  apply List.drop_left'
  rw [length_flatMap_bytes, length_headWords]

/-- A payload stands behind the payloads of the parts before it. -/
theorem take_drop_flatMap_payload {parts : List Part} {index : Nat} {part : Part}
    (h : parts[index]? = some part) :
    ((parts.flatMap payload).drop (payloadSize (parts.take index))).take part.payload.length =
      part.payload := by
  obtain ⟨before, after, rfl, rfl⟩ := Traversal.exists_append_of_getElem? h
  rw [List.take_left, List.flatMap_append, List.flatMap_cons, ← length_flatMap_payload,
    List.drop_left, List.take_left]

theorem dvd_length_table {parts : List Part} (h : ∀ part ∈ parts, part.Aligned) :
    wordSize ∣ (table parts).length := by
  rw [length_table]
  exact Nat.dvd_add (Nat.dvd_mul_right _ _) (dvd_payloadSize h)

/-- A table of aligned parts behind a word is an aligned payload. -/
theorem aligned_word_append_table (word : Word) {parts : List Part}
    (h : ∀ part ∈ parts, part.Aligned) : (dynamic (word.bytes ++ table parts)).Aligned := by
  rw [aligned_dynamic_iff, List.length_append, word.length_bytes]
  exact Nat.dvd_add (Nat.dvd_refl _) (dvd_length_table h)

/-- A table of aligned parts lays them out, as long as its size fits into a word. -/
theorem laidOut_table {parts : List Part} (haligned : ∀ part ∈ parts, part.Aligned)
    (hsize : (table parts).length < Word.limit) : LaidOut parts (table parts) := by
  have hoffset : ∀ index payload, parts[index]? = some (.dynamic payload) →
      fromBigEndian (wordAt (table parts) index) =
        wordSize * parts.length + payloadSize (parts.take index) := by
    intro index payload h
    rw [wordAt_table haligned h]
    apply Word.toNat_ofNat
    -- a payload begins before the end of the table
    have hle := payloadSize_take_le parts index
    rw [length_table] at hsize
    omega
  refine ⟨⟨headWords (wordSize * parts.length) parts, length_headWords _ _, ?_⟩, ?_, hoffset, ?_,
    drop_table parts⟩
  · apply List.take_left'
    rw [length_flatMap_bytes, length_headWords]
  · intro index word h
    rw [wordAt_table haligned h]
    rfl
  · intro index payload h
    rw [hoffset index payload h, ← List.drop_drop, drop_table]
    exact take_drop_flatMap_payload h

end Part

end CallData
