import CallData.Proofs.Delimiting
import CallData.Proofs.Meaning

/-!
# Blocks and meanings

A block shows what its arguments mean and nothing else. A part is determined by its type and by
what it carries; in the other direction a part shows what it carries and also where it ends, so
that the parts of a block can be told apart without knowing them.

## Main results

* `ParamType.Carries.part_unique`, `ParamType.Carries.meaning_unique` — parts and meanings
  determine each other
* `ParamType.Carries.delimited` — parts of one type show where they end
* `Block.eq_iff_meanings_eq` — blocks are equal when their arguments mean the same
-/

namespace CallData

/-! ### Chunks -/

theorem eq_of_dvd_add {length first second : Nat} (hfirst : first < wordSize)
    (hsecond : second < wordSize) (hdvd : wordSize ∣ length + first)
    (hdvd' : wordSize ∣ length + second) : first = second := by
  rw [wordSize] at *
  omega

namespace IsChunk

variable {payload payload' chunk chunk' : List UInt8}

theorem unique (h : IsChunk payload chunk) (h' : IsChunk payload chunk') : chunk = chunk' := by
  obtain ⟨length, padding, hlength, hlt, hdvd, rfl⟩ := h
  obtain ⟨length', padding', hlength', hlt', hdvd', rfl⟩ := h'
  rw [Word.toNat_inj.mp (hlength.trans hlength'.symm), eq_of_dvd_add hlt hlt' hdvd hdvd']

theorem dvd_length (h : IsChunk payload chunk) : wordSize ∣ chunk.length := by
  obtain ⟨length, padding, -, -, hdvd, rfl⟩ := h
  rw [List.append_assoc, List.length_append, List.length_append, List.length_replicate,
    length.length_bytes]
  exact Nat.dvd_add (Nat.dvd_refl _) hdvd

/-- A chunk shows its payload, whatever stands behind it. -/
theorem payload_eq_of_append (h : IsChunk payload chunk) (h' : IsChunk payload' chunk')
    {rest rest' : List UInt8} (hrest : chunk ++ rest = chunk' ++ rest') : payload = payload' := by
  obtain ⟨length, padding, hlength, -, -, rfl⟩ := h
  obtain ⟨length', padding', hlength', -, -, rfl⟩ := h'
  simp only [List.append_assoc] at hrest
  obtain ⟨hword, hrest⟩ :=
    List.append_inj hrest (length.length_bytes.trans length'.length_bytes.symm)
  -- the length words agree, so the payloads have the same length
  have hsame : payload.length = payload'.length := by
    rw [← hlength, ← hlength', Word.ext hword]
  exact (List.append_inj hrest hsame).1

theorem payload_unique (h : IsChunk payload chunk) (h' : IsChunk payload' chunk) :
    payload = payload' :=
  h.payload_eq_of_append h' (Eq.refl (chunk ++ []))

theorem delimited (h : IsChunk payload chunk) (h' : IsChunk payload' chunk') :
    (Part.dynamic chunk).Delimited (.dynamic chunk') := by
  intro rest rest' hrest
  obtain rfl := h.payload_eq_of_append h' hrest
  exact h.unique h'

end IsChunk

/-! ### Base types -/

namespace BaseType.Carries

variable {type : BaseType} {meaning meaning' : Meaning} {part part' : Part}

theorem aligned (h : type.Carries meaning part) : part.Aligned := by
  cases h with
  | uint | address | bool => exact Part.aligned_static _
  | bytes hchunk | string hchunk => exact hchunk.dvd_length

theorem part_unique (h : type.Carries meaning part) (h' : type.Carries meaning part') :
    part = part' := by
  cases h with
  | uint value =>
    cases h' with
    | uint value' => exact congrArg Part.static (Word.toNat_inj.mp (value.trans value'.symm))
  | address value =>
    cases h' with
    | address value' => exact congrArg Part.static (Word.ext (value.trans value'.symm))
  | bool value =>
    cases h' with
    | bool value' => exact congrArg Part.static (Word.toNat_inj.mp (value.trans value'.symm))
  | bytes chunked =>
    cases h' with
    | bytes chunked' => exact congrArg Part.dynamic (chunked.unique chunked')
  | string chunked =>
    cases h' with
    | string chunked' => exact congrArg Part.dynamic (chunked.unique chunked')

theorem meaning_unique (h : type.Carries meaning part) (h' : type.Carries meaning' part) :
    meaning = meaning' := by
  cases h with
  | uint value =>
    cases h' with
    | uint value' => exact congrArg Meaning.number (value.symm.trans value')
  | @address address word value =>
    cases h' with
    | @address address' word' value' =>
      have hbytes := List.append_cancel_left (value.symm.trans value')
      cases address
      cases address'
      cases hbytes
      rfl
  | @bool truth word value =>
    cases h' with
    | @bool truth' word' value' =>
      have htruth := value.symm.trans value'
      cases truth <;> cases truth' <;> simp at htruth ⊢
  | bytes chunked =>
    cases h' with
    | bytes chunked' => exact congrArg Meaning.bytes (chunked.payload_unique chunked')
  | string chunked =>
    cases h' with
    | string chunked' =>
      exact congrArg Meaning.text (Text.utf8_inj.mp (chunked.payload_unique chunked'))

theorem delimited (h : type.Carries meaning part) (h' : type.Carries meaning' part') :
    part.Delimited part' := by
  cases h with
  | uint =>
    cases h' with
    | uint => trivial
  | address =>
    cases h' with
    | address => trivial
  | bool =>
    cases h' with
    | bool => trivial
  | bytes chunked =>
    cases h' with
    | bytes chunked' => exact chunked.delimited chunked'
  | string chunked =>
    cases h' with
    | string chunked' => exact chunked.delimited chunked'

end BaseType.Carries

/-! ### Elements of arrays -/

namespace BaseType

variable {element : BaseType} {meanings meanings' : List Meaning} {parts parts' : List Part}

theorem rightUnique_carries (type : BaseType) : Relator.RightUnique type.Carries :=
  fun _ _ _ h h' => h.part_unique h'

theorem leftUnique_carries (type : BaseType) : Relator.LeftUnique type.Carries :=
  fun _ _ _ h h' => h.meaning_unique h'

theorem forall_aligned_of_forall₂ (h : List.Forall₂ element.Carries meanings parts) :
    ∀ part ∈ parts, part.Aligned := by
  induction h with
  | nil => exact List.forall_mem_nil _
  | cons hfirst _ ih => exact List.forall_mem_cons.mpr ⟨hfirst.aligned, ih⟩

/-- Equally many elements have parts that show where they end. -/
theorem forall₂_delimited (h : List.Forall₂ element.Carries meanings parts)
    (h' : List.Forall₂ element.Carries meanings' parts')
    (hcount : meanings.length = meanings'.length) : List.Forall₂ Part.Delimited parts parts' := by
  induction h generalizing meanings' parts' with
  | nil =>
    obtain rfl := List.eq_nil_of_length_eq_zero hcount.symm
    obtain rfl := List.forall₂_nil_left_iff.mp h'
    exact .nil
  | cons hfirst _ ih =>
    cases h' with
    | nil => exact absurd hcount (by simp)
    | cons hfirst' hrest' =>
      exact .cons (hfirst.delimited hfirst') (ih hrest' (Nat.succ.inj hcount))

end BaseType

/-! ### Parameter types -/

namespace ParamType.Carries

variable {type : ParamType} {meaning meaning' : Meaning} {part part' : Part}

/-- An array shows how many elements it has, and with their number where each of them ends. -/
theorem parts_unique {element : BaseType} {meanings meanings' : List Meaning}
    {parts parts' : List Part} {count count' : Word} {rest rest' : List UInt8}
    (hcount : count.toNat = meanings.length) (hcount' : count'.toNat = meanings'.length)
    (h : List.Forall₂ element.Carries meanings parts)
    (h' : List.Forall₂ element.Carries meanings' parts')
    (hrest : count.bytes ++ Part.table parts ++ rest =
      count'.bytes ++ Part.table parts' ++ rest') :
    count = count' ∧ parts = parts' := by
  rw [List.append_assoc, List.append_assoc] at hrest
  obtain ⟨hword, htable⟩ :=
    List.append_inj hrest (count.length_bytes.trans count'.length_bytes.symm)
  obtain rfl := Word.ext hword
  have hdelimited := BaseType.forall₂_delimited h h' (hcount.symm.trans hcount')
  exact ⟨rfl, (Part.table_append_inj hdelimited htable).1⟩

theorem aligned (h : type.Carries meaning part) : part.Aligned := by
  cases h with
  | base hbase => exact hbase.aligned
  | @array element meanings parts count body counted elements laidOut =>
    have haligned := BaseType.forall_aligned_of_forall₂ elements
    rw [laidOut.eq_table haligned]
    exact Part.aligned_word_append_table count haligned

theorem part_unique (h : type.Carries meaning part) (h' : type.Carries meaning part') :
    part = part' := by
  cases h with
  | base hbase =>
    cases h' with
    | base hbase' => exact hbase.part_unique hbase'
  | array counted elements laidOut =>
    cases h' with
    | array counted' elements' laidOut' =>
      -- the elements have the same parts, and parts have one layout
      obtain rfl := (BaseType.rightUnique_carries _).forall₂ elements elements'
      have haligned := BaseType.forall_aligned_of_forall₂ elements
      rw [laidOut.eq_table haligned, laidOut'.eq_table haligned,
        Word.toNat_inj.mp (counted.trans counted'.symm)]

theorem meaning_unique (h : type.Carries meaning part) (h' : type.Carries meaning' part) :
    meaning = meaning' := by
  generalize hpart : part = part' at h'
  cases h with
  | base hbase =>
    cases h' with
    | base hbase' => exact hbase.meaning_unique (hpart ▸ hbase')
  | array counted elements laidOut =>
    cases h' with
    | array counted' elements' laidOut' =>
      rw [laidOut.eq_table (BaseType.forall_aligned_of_forall₂ elements),
        laidOut'.eq_table (BaseType.forall_aligned_of_forall₂ elements')] at hpart
      -- nothing stands behind either array
      have hbytes := congrArg (· ++ ([] : List UInt8)) (Part.dynamic.inj hpart)
      obtain ⟨-, rfl⟩ := parts_unique counted counted' elements elements' hbytes
      exact congrArg Meaning.list ((BaseType.leftUnique_carries _).forall₂ elements elements')

theorem delimited (h : type.Carries meaning part) (h' : type.Carries meaning' part') :
    part.Delimited part' := by
  cases h with
  | base hbase =>
    cases h' with
    | base hbase' => exact hbase.delimited hbase'
  | array counted elements laidOut =>
    cases h' with
    | array counted' elements' laidOut' =>
      rw [laidOut.eq_table (BaseType.forall_aligned_of_forall₂ elements),
        laidOut'.eq_table (BaseType.forall_aligned_of_forall₂ elements')]
      intro rest rest' hrest
      obtain ⟨rfl, rfl⟩ := parts_unique counted counted' elements elements' hrest
      rfl

end ParamType.Carries

/-! ### Arguments -/

namespace ParamType.CarryAll

variable {types : List ParamType} {meanings meanings' : List Meaning} {parts parts' : List Part}

theorem forall_aligned (h : CarryAll types meanings parts) : ∀ part ∈ parts, part.Aligned := by
  induction h with
  | nil => exact List.forall_mem_nil _
  | cons hfirst _ ih => exact List.forall_mem_cons.mpr ⟨hfirst.aligned, ih⟩

theorem parts_unique (h : CarryAll types meanings parts) (h' : CarryAll types meanings parts') :
    parts = parts' := by
  induction h generalizing parts' with
  | nil =>
    cases h'
    rfl
  | cons hfirst _ ih =>
    cases h' with
    | cons hfirst' hrest' => rw [hfirst.part_unique hfirst', ih hrest']

theorem meanings_unique (h : CarryAll types meanings parts) (h' : CarryAll types meanings' parts) :
    meanings = meanings' := by
  induction h generalizing meanings' with
  | nil =>
    cases h'
    rfl
  | cons hfirst _ ih =>
    cases h' with
    | cons hfirst' hrest' => rw [hfirst.meaning_unique hfirst', ih hrest']

theorem forall₂_delimited (h : CarryAll types meanings parts)
    (h' : CarryAll types meanings' parts') : List.Forall₂ Part.Delimited parts parts' := by
  induction h generalizing meanings' parts' with
  | nil =>
    cases h'
    exact .nil
  | cons hfirst _ ih =>
    cases h' with
    | cons hfirst' hrest' => exact .cons (hfirst.delimited hfirst') (ih hrest')

/-- Blocks that lay out what is carried for the same types are equal when the same is carried. -/
theorem block_eq_iff {block block' : List UInt8} (h : CarryAll types meanings parts)
    (h' : CarryAll types meanings' parts') (hlaid : Part.LaidOut parts block)
    (hlaid' : Part.LaidOut parts' block') : block = block' ↔ meanings = meanings' := by
  rw [hlaid.eq_table h.forall_aligned, hlaid'.eq_table h'.forall_aligned]
  constructor
  · -- equal tables are tables of the same parts, which carry one list of meanings
    intro htable
    have hrest := congrArg (· ++ ([] : List UInt8)) htable
    obtain ⟨rfl, -⟩ := Part.table_append_inj (h.forall₂_delimited h') hrest
    exact h.meanings_unique h'
  · rintro rfl
    rw [h.parts_unique h']

end ParamType.CarryAll

/-! ### Blocks -/

namespace Block

/-- The meanings of values are the only ones that they have. -/
theorem forall₂_means_iff {values : List Value} {meanings : List Meaning}
    (h : List.Forall₂ Value.Means values meanings) (others : List Meaning) :
    List.Forall₂ Value.Means values others ↔ others = meanings := by
  constructor
  · intro h'
    exact Value.eq_of_forall₂_means (fun _ _ _ _ => Value.Means.unique) h' h
  · rintro rfl
    exact h

/-- Different blocks have different texts, behind one selector or without any. -/
theorem text_inj {selector : Option Selector} {first second : List UInt8} :
    text selector first = text selector second ↔ first = second := by
  constructor
  · intro h
    have hdigits := congrArg String.toList h
    simp only [text, Hex.markedText, Hex.text, String.toList_append,
      String.toList_ofList] at hdigits
    have hencode := congrArg Hex.decode (List.append_cancel_left hdigits)
    rw [Hex.decode_encode, Hex.decode_encode, Except.ok.injEq] at hencode
    cases selector with
    | none => exact hencode
    | some selector => exact List.append_cancel_left hencode
  · rintro rfl
    rfl

/-- Two lists of values that are accepted for the same types have one list of meanings each, and
their blocks, or the texts of calls with them, are equal exactly when these meanings are. -/
theorem eq_iff_meanings_eq {types : List ParamType} {first second : List Value}
    {block block' : List UInt8} (h : (ofValues types first).result = .ok block)
    (h' : (ofValues types second).result = .ok block') (hsize : block.length < 2 ^ 64)
    (hsize' : block'.length < 2 ^ 64) :
    ∃ meanings meanings',
      (∀ others, List.Forall₂ Value.Means first others ↔ others = meanings) ∧
      (∀ others, List.Forall₂ Value.Means second others ↔ others = meanings') ∧
      (block = block' ↔ meanings = meanings') ∧
      ∀ selector, text selector block = text selector block' ↔ meanings = meanings' := by
  obtain ⟨meanings, parts, hmeans, hcarry, hlaid⟩ := exists_laidOut h hsize
  obtain ⟨meanings', parts', hmeans', hcarry', hlaid'⟩ := exists_laidOut h' hsize'
  have heq := hcarry.block_eq_iff hcarry' hlaid hlaid'
  exact ⟨meanings, meanings', forall₂_means_iff hmeans, forall₂_means_iff hmeans', heq,
    fun _ => text_inj.trans heq⟩

/-- A number in either base, bytes with a mark and capital letters or without them, and either word
for a truth value: one block, and so one list of meanings. -/
theorem eq_iff_meanings_eq_of_spellings :
    ∃ block, block = Part.table [.static (.ofNat 10), .dynamic (Chunk.ofBytes [0x0a, 0xbc]).bytes,
        .dynamic ((Word.ofNat 1).bytes ++ Part.table [.static (.ofNat 1)])] ∧
      (ofValues [.base .uint, .base .bytes, .array .bool]
        [.uint "10", .bytes "0xABC", .array [.bool "1"]]).result = .ok block ∧
      (ofValues [.base .uint, .base .bytes, .array .bool]
        [.uint "0x0a", .bytes "0abc", .array [.bool "true"]]).result = .ok block ∧
      ∃ meanings meanings',
        (∀ others, List.Forall₂ Value.Means
          [.uint "10", .bytes "0xABC", .array [.bool "1"]] others ↔ others = meanings) ∧
        (∀ others, List.Forall₂ Value.Means
          [.uint "0x0a", .bytes "0abc", .array [.bool "true"]] others ↔ others = meanings') ∧
        (block = block ↔ meanings = meanings') ∧
        ∀ selector, text selector block = text selector block ↔ meanings = meanings' :=
  ⟨_, rfl, by decide +kernel, by decide +kernel,
    @eq_iff_meanings_eq [.base .uint, .base .bytes, .array .bool] _ _ _ _ (by decide +kernel)
      (by decide +kernel) (by decide +kernel) (by decide +kernel)⟩

end Block

end CallData
