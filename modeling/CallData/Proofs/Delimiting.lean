import CallData.Proofs.Layout

/-!
# What a layout determines

A layout can be read back. There is only one layout of given parts, and parts whose payloads show
where they end are determined by their layout, even when other bytes follow it.

## Main definitions

* `Part.Delimited` — two parts of one kind, of which neither payload begins with the other

## Main results

* `Part.LaidOut.eq_table` — the only layout of aligned parts is their table
* `Part.table_append_inj` — delimited parts are determined by their table
-/

namespace CallData

theorem flatMap_bytes_inj {first second : List Word}
    (h : first.flatMap Word.bytes = second.flatMap Word.bytes) : first = second := by
  have hlength : first.length = second.length := by
    have h' := congrArg List.length h
    rw [length_flatMap_bytes, length_flatMap_bytes] at h'
    exact Nat.eq_of_mul_eq_mul_left (by decide) h'
  induction first generalizing second with
  | nil => exact (List.eq_nil_of_length_eq_zero hlength.symm).symm
  | cons word rest ih =>
    cases second with
    | nil => exact absurd hlength (by simp)
    | cons other others =>
      rw [List.flatMap_cons, List.flatMap_cons] at h
      obtain ⟨hword, hrest⟩ :=
        List.append_inj h (word.length_bytes.trans other.length_bytes.symm)
      rw [Word.ext hword, ih hrest (Nat.succ.inj hlength)]

namespace Part

/-- Two parts of one kind, of which neither payload begins with the other. -/
def Delimited : Part → Part → Prop
  | .static _, .static _ => True
  | .dynamic first, .dynamic second =>
    ∀ rest rest', first ++ rest = second ++ rest' → first = second
  | _, _ => False

/-! ### The only layout -/

/-- Aligned parts have no other layout than their table. -/
theorem LaidOut.eq_table {parts : List Part} {block : List UInt8} (h : LaidOut parts block)
    (haligned : ∀ part ∈ parts, part.Aligned) : block = table parts := by
  obtain ⟨words, hcount, hhead⟩ := h.head
  have hblock : block = words.flatMap Word.bytes ++ parts.flatMap payload := by
    rw [← hhead, ← h.tail, List.take_append_drop]
  -- the rules give each word of the head, whatever the kind of its part
  have hwords : words = headWords (wordSize * parts.length) parts := by
    refine List.ext_getElem? fun index => ?_
    cases hpart : parts[index]? with
    | none =>
      -- both lists have one word for each part, so both end here
      have hend : parts.length ≤ index := List.getElem?_eq_none_iff.mp hpart
      rw [List.getElem?_eq_none (hcount ▸ hend),
        List.getElem?_eq_none (by rwa [length_headWords])]
    | some part =>
      obtain ⟨hindex, -⟩ := List.getElem?_eq_some_iff.mp hpart
      obtain ⟨word, hword⟩ : ∃ word, words[index]? = some word :=
        ⟨_, List.getElem?_eq_getElem (hcount ▸ hindex)⟩
      have hat : wordAt block index = word.bytes :=
        hblock ▸ wordAt_flatMap_bytes hword (parts.flatMap payload)
      rw [getElem?_headWords haligned (Nat.dvd_mul_right _ _) hpart, hword, Option.some_inj]
      cases part with
      | static own => exact Word.ext (hat.symm.trans (h.own index own hpart))
      | dynamic bytes =>
        have hoffset := h.offset index bytes hpart
        rw [hat] at hoffset
        rw [headWord, ← hoffset]
        exact (Word.ofNat_toNat word).symm
  rw [hblock, hwords, table_eq]

/-! ### Reading parts back -/

theorem eq_of_headWords_eq {first second : List Part} (h : List.Forall₂ Delimited first second)
    {offset offset' : Nat} (hwords : headWords offset first = headWords offset' second)
    {rest rest' : List UInt8}
    (hpayloads : first.flatMap payload ++ rest = second.flatMap payload ++ rest') :
    first = second ∧ rest = rest' := by
  induction h generalizing offset offset' with
  | nil => exact ⟨rfl, hpayloads⟩
  | @cons part other parts others hpart hparts ih =>
    rw [headWords_cons, headWords_cons] at hwords
    obtain ⟨hword, hwords⟩ := List.cons.inj hwords
    rw [List.flatMap_cons, List.flatMap_cons, List.append_assoc, List.append_assoc] at hpayloads
    -- a static part is its word; a payload ends where the next one begins
    have hsame : part = other := by
      cases part <;> cases other
      case static.static => exact congrArg static hword
      case dynamic.dynamic => exact congrArg dynamic (hpart _ _ hpayloads)
      all_goals exact hpart.elim
    subst hsame
    obtain ⟨rfl, hrest⟩ := ih hwords (List.append_cancel_left hpayloads)
    exact ⟨rfl, hrest⟩

/-- Delimited parts are determined by their table and whatever follows it. -/
theorem table_append_inj {first second : List Part} (h : List.Forall₂ Delimited first second)
    {rest rest' : List UInt8} (htable : table first ++ rest = table second ++ rest') :
    first = second ∧ rest = rest' := by
  rw [table_eq, table_eq, List.append_assoc, List.append_assoc] at htable
  -- the heads have equally many words, so the tables split at the same place
  have hlength : ((headWords (wordSize * first.length) first).flatMap Word.bytes).length =
      ((headWords (wordSize * second.length) second).flatMap Word.bytes).length := by
    rw [length_flatMap_bytes, length_flatMap_bytes, length_headWords, length_headWords,
      h.length_eq]
  obtain ⟨hwords, hpayloads⟩ := List.append_inj htable hlength
  exact eq_of_headWords_eq h (flatMap_bytes_inj hwords) hpayloads

end Part

end CallData
