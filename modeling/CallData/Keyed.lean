import CallData.Text.Utf8

/-!
# Entries in the order of their keys

Lists of entries in strictly ascending order of their keys' bytes, so that each key occurs once. A
new entry takes the place of one with the same key.

## Main definitions

* `Keyed.Ascending` — each key stands before all that follow
* `Keyed.insert` — an entry at its place
* `Keyed.ofList` — entries in any order, the last of each key kept

## Main results

* `Keyed.ascending_insert` — the order is kept
* `Keyed.lookup_insert` — what is found after an insertion
* `Keyed.ext_lookup` — entries are known by what is found under each key
* `Keyed.perm_ofList` — entries whose keys are all different are only brought into order
-/

namespace CallData.Keyed

open CallData.Text

variable {α : Type} {key : String} {value : α} {entries : List (String × α)}

/-- Each key stands before all that follow. -/
def Ascending (entries : List (String × α)) : Prop :=
  entries.Pairwise fun earlier later => Precedes earlier.1 later.1

/-- Entries with one more at its place, or with the one of the same key replaced. -/
def insert (key : String) (value : α) : List (String × α) → List (String × α)
  | [] => [(key, value)]
  | (other, held) :: rest =>
    if key = other then (key, value) :: rest
    else if Precedes key other then (key, value) :: (other, held) :: rest
    else (other, held) :: insert key value rest

/-- Entries in any order, the last of each key kept. -/
def ofList (entries : List (String × α)) : List (String × α) :=
  entries.foldl (fun kept entry => insert entry.1 entry.2 kept) []

theorem ascending_nil : Ascending ([] : List (String × α)) := .nil

theorem mem_insert {entry : String × α} (h : entry ∈ insert key value entries) :
    entry = (key, value) ∨ entry ∈ entries := by
  induction entries with
  | nil => simpa [insert] using h
  | cons head rest ih =>
    obtain ⟨other, held⟩ := head
    rw [insert] at h
    split at h
    · rcases List.mem_cons.mp h with hnew | hold
      · exact Or.inl hnew
      · exact Or.inr (List.mem_cons_of_mem _ hold)
    · split at h
      · exact List.mem_cons.mp h
      · rcases List.mem_cons.mp h with hfirst | hlater
        · exact Or.inr (hfirst ▸ List.mem_cons_self)
        · exact (ih hlater).imp_right (List.mem_cons_of_mem _)

/-- Insertion keeps the order. -/
theorem ascending_insert (h : Ascending entries) : Ascending (insert key value entries) := by
  induction entries with
  | nil => simp [insert, Ascending]
  | cons head rest ih =>
    obtain ⟨other, held⟩ := head
    obtain ⟨hfirst, hrest⟩ := List.pairwise_cons.mp h
    rw [insert]
    split
    · rename_i heq
      subst heq
      exact List.pairwise_cons.mpr ⟨hfirst, hrest⟩
    · rename_i hne
      split
      · rename_i hbefore
        refine List.pairwise_cons.mpr ⟨fun later hlater => ?_, h⟩
        rcases List.mem_cons.mp hlater with rfl | hlater
        · exact hbefore
        · exact hbefore.trans (hfirst later hlater)
      · rename_i hafter
        refine List.pairwise_cons.mpr ⟨fun later hlater => ?_, ih hrest⟩
        rcases mem_insert hlater with rfl | hlater
        · exact precedes_of_not_precedes hafter hne
        · exact hfirst later hlater

theorem lookup_cons_of_ne {sought : String} (h : sought ≠ key) :
    List.lookup sought ((key, value) :: entries) = entries.lookup sought := by
  have hbeq : (sought == key) = false := by simpa using h
  rw [List.lookup_cons, hbeq]

/-- The inserted entry is found under its key, and every other key finds what it found before. -/
theorem lookup_insert (sought : String) :
    (insert key value entries).lookup sought =
      if sought = key then some value else entries.lookup sought := by
  induction entries with
  | nil =>
    by_cases h : sought = key
    · simp [insert, h]
    · simp [insert, h, lookup_cons_of_ne h]
  | cons head rest ih =>
    obtain ⟨other, held⟩ := head
    rw [insert]
    split
    · rename_i heq
      subst heq
      by_cases h : sought = key
      · simp [h]
      · simp [h, lookup_cons_of_ne h]
    · rename_i hne
      split
      · by_cases h : sought = key
        · simp [h]
        · simp [h, lookup_cons_of_ne h]
      · by_cases h : sought = other
        · simp [h, Ne.symm hne]
        · rw [lookup_cons_of_ne h, lookup_cons_of_ne h, ih]

/-! ### Entries in order -/

/-- In ascending order no key occurs twice. -/
theorem nodup_keys (h : Ascending entries) : (entries.map Prod.fst).Nodup := by
  apply List.pairwise_map.mpr
  apply h.imp
  intro earlier later hbefore hsame
  rw [hsame] at hbefore
  exact not_precedes_self _ hbefore

theorem nodup (h : Ascending entries) : entries.Nodup := by
  apply (List.pairwise_map.mp (nodup_keys h)).imp
  intro earlier later hne hsame
  exact hne (congrArg Prod.fst hsame)

theorem mem_iff_lookup (h : Ascending entries) :
    (key, value) ∈ entries ↔ entries.lookup key = some value := by
  induction entries with
  | nil => simp
  | cons head rest ih =>
    obtain ⟨other, held⟩ := head
    obtain ⟨hfirst, hrest⟩ := List.pairwise_cons.mp h
    by_cases hkey : key = other
    · -- the key stands in front, and so nowhere else
      subst hkey
      have habsent : ∀ value, (key, value) ∉ rest := fun value hmem =>
        not_precedes_self _ (hfirst (key, value) hmem)
      simp [habsent, eq_comm]
    · rw [lookup_cons_of_ne hkey, ← ih hrest]
      simp [hkey]

theorem mem_keys_iff : key ∈ entries.map Prod.fst ↔ (entries.lookup key).isSome = true := by
  simp only [List.mem_map, List.lookup_isSome_iff, beq_iff_eq, eq_comm (a := key)]

/-- Entries in ascending order are known by what is found under each key. -/
theorem ext_lookup {others : List (String × α)} (h : Ascending entries) (h' : Ascending others)
    (hsame : ∀ key, entries.lookup key = others.lookup key) : entries = others := by
  have hperm : entries.Perm others := by
    apply (List.perm_ext_iff_of_nodup (nodup h) (nodup h')).mpr
    rintro ⟨key, value⟩
    rw [mem_iff_lookup h, mem_iff_lookup h', hsame]
  apply hperm.eq_of_pairwise _ h h'
  intro entry other _ _ hbefore hafter
  exact absurd (hbefore.trans hafter) (not_precedes_self _)

/-! ### Different keys -/

/-- An entry with a new key joins the others. -/
theorem perm_insert (h : ∀ entry ∈ entries, entry.1 ≠ key) :
    (insert key value entries).Perm ((key, value) :: entries) := by
  induction entries with
  | nil => rfl
  | cons head rest ih =>
    obtain ⟨other, held⟩ := head
    obtain ⟨hother, hrest⟩ := List.forall_mem_cons.mp h
    rw [insert, if_neg (Ne.symm hother)]
    split
    · rfl
    · exact ((ih hrest).cons _).trans (List.Perm.swap _ _ _)

theorem perm_foldl_insert {kept : List (String × α)}
    (h : ((entries ++ kept).map Prod.fst).Nodup) :
    (entries.foldl (fun kept entry => insert entry.1 entry.2 kept) kept).Perm
      (entries ++ kept) := by
  induction entries generalizing kept with
  | nil => rfl
  | cons entry rest ih =>
    have hnew : ∀ other ∈ kept, other.1 ≠ entry.1 := by
      intro other hmem hsame
      rw [List.cons_append, List.map_cons, List.nodup_cons] at h
      exact h.1 (hsame ▸ List.mem_map_of_mem (List.mem_append_right _ hmem))
    have hmoved : (rest ++ insert entry.1 entry.2 kept).Perm (entry :: rest ++ kept) :=
      ((perm_insert hnew).append_left rest).trans List.perm_middle
    exact (ih ((hmoved.map Prod.fst).nodup_iff.mpr h)).trans hmoved

/-- Entries whose keys are all different are only brought into order. -/
theorem perm_ofList (h : (entries.map Prod.fst).Nodup) : (ofList entries).Perm entries := by
  have hperm : (ofList entries).Perm (entries ++ []) := perm_foldl_insert (by simpa using h)
  rwa [List.append_nil] at hperm

end CallData.Keyed
