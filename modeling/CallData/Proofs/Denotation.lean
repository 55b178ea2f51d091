import CallData.Json.Source
import CallData.Proofs.Traversal

/-!
# Trees and the values that they denote

A tree as written and its value show the same to a reader of records, when no object in the tree
has a name twice. The value has the members of an object in the order of their names; a reader
looks for members by their names, so this order is nothing to it.

Names are compared as texts, since one text can be written in many ways.

## Main definitions

* `Json.Literal.NamesOnce` — no object has a name twice
* `Json.Literal.Denotes` — a tree and its value, with the members of objects in any order

## Main results

* `Json.Literal.NamesOnce.denotes` — the value of a tree is denoted by it
* `Json.Source.field?_eq_of_perm` — the order of members is nothing to a reader
* `Json.Literal.Denotes.rel_fields?` — a record in a tree has the fields that its value has
-/

namespace CallData.Json

open CallData.Traversal

/-! ### What a tree denotes -/

/-- Trees in which no object has a name twice. -/
inductive Literal.NamesOnce : Literal → Prop
  | null : NamesOnce .null
  | bool (truth : Bool) : NamesOnce (.bool truth)
  | number (numeral : Numeral) : NamesOnce (.number numeral)
  | string (written : Written) : NamesOnce (.string written)
  | array {items : List Literal} (each : ∀ item ∈ items, NamesOnce item) : NamesOnce (.array items)
  | object {members : List (Written × Literal)}
      (once : (members.filterMap fun member => member.1.text?).Nodup)
      (each : ∀ member ∈ members, NamesOnce member.2) : NamesOnce (.object members)

@[simp] theorem Literal.namesOnce_null : NamesOnce .null := .null

@[simp] theorem Literal.namesOnce_bool (truth : Bool) : NamesOnce (.bool truth) := .bool truth

@[simp] theorem Literal.namesOnce_number (numeral : Numeral) : NamesOnce (.number numeral) :=
  .number numeral

@[simp] theorem Literal.namesOnce_string (written : Written) : NamesOnce (.string written) :=
  .string written

@[simp] theorem Literal.namesOnce_array_iff {items : List Literal} :
    NamesOnce (.array items) ↔ ∀ item ∈ items, NamesOnce item :=
  ⟨fun h => by cases h with | array each => exact each, .array⟩

@[simp] theorem Literal.namesOnce_object_iff {members : List (Written × Literal)} :
    NamesOnce (.object members) ↔ (members.filterMap fun member => member.1.text?).Nodup ∧
      ∀ member ∈ members, NamesOnce member.2 :=
  ⟨fun h => by cases h with | object once each => exact ⟨once, each⟩, fun h => .object h.1 h.2⟩

/-- A tree and its value. The value may have the members of an object in any order. -/
inductive Literal.Denotes : Literal → Json → Prop
  | null : Denotes .null .null
  | bool (truth : Bool) : Denotes (.bool truth) (.bool truth)
  | number {numeral : Numeral} {value : Number} (denotes : numeral.toNumber? = some value) :
      Denotes (.number numeral) (.number value)
  | string {written : Written} {text : String} (denotes : written.text? = some text) :
      Denotes (.string written) (.string text)
  | array {items : List Literal} {values : List Json} (each : List.Forall₂ Denotes items values) :
      Denotes (.array items) (.array values)
  | object {members : List (Written × Literal)} {entries held : List (String × Json)}
      (names : List.Forall₂ (fun member entry => member.1.text? = some entry.1) members entries)
      (each : List.Forall₂ Denotes (members.map Prod.snd) (entries.map Prod.snd))
      (order : held.Perm entries) : Denotes (.object members) (.object held)

/-- The value of a tree in which no object has a name twice is denoted by it. -/
theorem Literal.NamesOnce.denotes {tree : Literal} (hnames : tree.NamesOnce) {room : Nat}
    {value : Json} (h : tree.value? room = some value) : tree.Denotes value := by
  induction hnames generalizing room value with
  | null =>
    rw [value?, Option.some_inj] at h
    exact h ▸ .null
  | bool truth =>
    rw [value?, Option.some_inj] at h
    exact h ▸ .bool truth
  | number numeral =>
    rw [value?] at h
    obtain ⟨number, hnumber, rfl⟩ := Option.map_eq_some_iff.mp h
    exact .number hnumber
  | string written =>
    rw [value?] at h
    obtain ⟨text, htext, rfl⟩ := Option.map_eq_some_iff.mp h
    exact .string htext
  | @array items _ ih =>
    cases room with
    | zero => simp [value?] at h
    | succ inner =>
      rw [value?, values?_eq_mapM] at h
      obtain ⟨values, hvalues, rfl⟩ := Option.map_eq_some_iff.mp h
      -- what is known of every item by induction, next to the value that it has here
      have hall := (List.forall₂_and_left _ _).mpr ⟨ih, mapM_eq_some_iff_forall₂.mp hvalues⟩
      exact .array (hall.imp fun _ _ hitem => hitem.1 hitem.2)
  | @object members once _ ih =>
    cases room with
    | zero => simp [value?] at h
    | succ inner =>
      rw [value?, memberValues?_eq_mapM] at h
      obtain ⟨entries, hentries, rfl⟩ := Option.map_eq_some_iff.mp h
      have hread : List.Forall₂ (fun member entry => member.1.text? = some entry.1 ∧
          member.2.value? inner = some entry.2) members entries := by
        refine (mapM_eq_some_iff_forall₂.mp hentries).imp fun member entry hmember => ?_
        obtain ⟨key, hkey, hmember⟩ := Option.bind_eq_some_iff.mp hmember
        obtain ⟨held, hheld, rfl⟩ := Option.map_eq_some_iff.mp hmember
        exact ⟨hkey, hheld⟩
      have hkeys := hread.imp fun _ _ hmember => hmember.1
      -- with different names no member is replaced, and all are only brought into order
      rw [filterMap_eq_map_of_forall₂ hkeys] at once
      refine .object hkeys ?_ (Keyed.perm_ofList once)
      rw [List.forall₂_map_left_iff, List.forall₂_map_right_iff]
      have hall := (List.forall₂_and_left _ _).mpr ⟨ih, hread⟩
      exact hall.imp fun _ _ hmember => hmember.1 hmember.2.2

/-! ### Fields -/

namespace Source

section Members

variable {σ τ : Type} {related : σ → τ → Prop}

/-- A field is found in whatever order the members stand. -/
theorem field?_eq_of_perm {members others : List (String × σ)} (h : members.Perm others)
    (names : List String) : field? members names = field? others names := by
  -- whether one member, none or several are left does not depend on their order
  have hkept := h.filter fun member => names.contains member.1
  unfold field?
  generalize members.filter _ = kept, others.filter _ = kept' at hkept ⊢
  match kept, kept', hkept.length_eq with
  | [], [], _ => rfl
  | [first], [first'], _ => rw [List.perm_singleton.mp hkept]
  | _ :: _ :: _, _ :: _ :: _, _ => rfl

theorem rel_field? {members : List (String × σ)} {others : List (String × τ)}
    (h : List.Forall₂ (fun member other => member.1 = other.1 ∧ related member.2 other.2)
      members others) (names : List String) :
    Option.Rel (Option.Rel related) (field? members names) (field? others names) := by
  have hkept := List.rel_filter (p := fun member => names.contains member.1)
    (q := fun other => names.contains other.1)
    (fun _ _ hmember => iff_of_eq (congrArg (names.contains · = true) hmember.1)) h
  unfold field?
  generalize members.filter _ = kept, others.filter _ = kept' at hkept ⊢
  rcases hkept with _ | ⟨hmember, _ | ⟨_, _⟩⟩
  · exact .some .none
  · exact .some (.some hmember.2)
  · exact .none

theorem rel_placed {items : List σ} {others : List τ} (h : List.Forall₂ related items others)
    (missing : Nat) : List.Forall₂ (Option.Rel related)
      (items.map some ++ List.replicate missing none)
      (others.map some ++ List.replicate missing none) := by
  refine List.rel_append ?_ ?_
  · rw [List.forall₂_map_left_iff, List.forall₂_map_right_iff]
    exact h.imp fun _ _ hitem => .some hitem
  · induction missing with
    | zero => exact .nil
    | succ missing ih => exact .cons .none ih

end Members

end Source

namespace Literal.Denotes

open Source

variable {tree : Literal} {value : Json}

theorem isNull_eq (h : tree.Denotes value) : isNull tree = isNull value := by
  cases h <;> rfl

theorem text?_eq (h : tree.Denotes value) : Source.text? tree = Source.text? value := by
  cases h with
  | string denotes => exact denotes
  | _ => rfl

theorem rel_items? (h : tree.Denotes value) :
    Option.Rel (List.Forall₂ Denotes) (items? tree) (items? value) := by
  cases h with
  | array each => exact .some each
  | _ => exact .none

/-- A tree and its value have members with the same names, and with parts of which one denotes the
other. -/
theorem rel_members? (h : tree.Denotes value) :
    Option.Rel (fun members held => ∃ entries, held.Perm entries ∧
      List.Forall₂ (fun member entry => member.1 = entry.1 ∧ member.2.Denotes entry.2)
        members entries) (members? tree) (members? value) := by
  cases h with
  | @object members entries held names each order =>
    rw [List.forall₂_map_left_iff, List.forall₂_map_right_iff] at each
    have hread : Option.Rel
        (List.Forall₂ fun (member : String × Literal) (entry : String × Json) =>
          member.1 = entry.1 ∧ member.2.Denotes entry.2)
          (members? (Literal.object members)) (entries.mapM some) := by
      refine rel_mapM (names.mp (fun _ _ => And.intro) each) fun member entry hmember => ?_
      obtain ⟨written, part⟩ := member
      obtain ⟨hname, hpart⟩ := hmember
      dsimp only at hname ⊢
      rw [hname]
      exact .some ⟨rfl, hpart⟩
    rw [mapM_eq_some_iff.mpr rfl] at hread
    generalize members? (Literal.object members) = shown at hread ⊢
    cases hread with
    | some hshown => exact .some ⟨entries, order, hshown⟩
  | _ => exact .none

/-- A record in a tree has the fields that its value has. -/
theorem rel_fields? (h : tree.Denotes value) (names : List (List String)) :
    Option.Rel (List.Forall₂ (Option.Rel Denotes)) (fields? names tree) (fields? names value) := by
  have hitems := h.rel_items?
  have hmembers := h.rel_members?
  unfold fields?
  generalize items? tree = items, items? value = items' at hitems ⊢
  generalize members? tree = members, members? value = members' at hmembers ⊢
  cases hitems with
  | @some items items' hitems =>
    dsimp only
    rw [← hitems.length_eq]
    split
    · exact .some (rel_placed hitems _)
    · exact .none
  | none =>
    cases hmembers with
    | none => exact .none
    | some hmembers =>
      obtain ⟨entries, horder, hentries⟩ := hmembers
      -- the order of the value's members is given up for that of the tree
      refine rel_mapM (List.forall₂_same.mpr fun _ _ => rfl) fun names _ hsame => ?_
      obtain rfl : names = _ := hsame
      rw [field?_eq_of_perm horder]
      exact rel_field? hentries names

end Literal.Denotes

/-! ### Readers -/

namespace Source

variable {α : Type} {read : Literal → Option α} {read' : Json → Option α}
  {field : Option Literal} {field' : Option Json}

/-- A reader of trees and a reader of values that find the same. -/
def Agree (read : Literal → Option α) (read' : Json → Option α) : Prop :=
  ∀ tree value, tree.Denotes value → read tree = read' value

theorem agree_text? : Agree text? text? := fun _ _ h => h.text?_eq

theorem Agree.list? (h : Agree read read') : Agree (list? read) (list? read') := by
  intro tree value hdenotes
  have hitems := hdenotes.rel_items?
  unfold Source.list?
  generalize items? tree = items, items? value = items' at hitems ⊢
  cases hitems with
  | none => rfl
  | some hitems => exact mapM_congr_of_forall₂ hitems h

theorem Agree.required (h : Agree read read') (hfield : Option.Rel Literal.Denotes field field') :
    required read field = required read' field' := by
  cases hfield with
  | none => rfl
  | some hdenotes => exact h _ _ hdenotes

theorem Agree.withDefault (h : Agree read read') (default : α)
    (hfield : Option.Rel Literal.Denotes field field') :
    withDefault default read field = withDefault default read' field' := by
  cases hfield with
  | none => rfl
  | some hdenotes => exact h _ _ hdenotes

theorem Agree.nullable (h : Agree read read') (hfield : Option.Rel Literal.Denotes field field') :
    nullable read field = nullable read' field' := by
  cases hfield with
  | none => rfl
  | some hdenotes =>
    unfold Source.nullable
    dsimp only
    rw [hdenotes.isNull_eq, h _ _ hdenotes]

end Source

end CallData.Json
