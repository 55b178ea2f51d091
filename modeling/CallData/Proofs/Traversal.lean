import Mathlib.Data.List.Forall2

/-!
# Traversals that may fail

A traversal of a list succeeds when every item does, and otherwise ends with the error of the first
item that fails. Values, elements of arrays and types of declarations are all traversed in this
way.

## Main definitions

* `FirstFailure` — the first item of a list that is not good
* `Alike` — results that succeed with related values, or fail with one error

## Main results

* `mapM_eq_ok_iff` — success, item by item
* `mapM_eq_error_iff` — failure at the first item that fails
* `rel_mapM`, `alike_mapM`, `rel_find?` — lists with related items, traversed and searched alike
-/

namespace CallData.Traversal

variable {ε α β γ : Type} {f : α → Except ε β} {items : List α}

/-- An item that is not good, at its index in a list, with good items only before it. -/
def FirstFailure (good : α → Prop) (items : List α) (index : Nat) (item : α) : Prop :=
  items[index]? = some item ∧ ¬ good item ∧
    ∀ earlier < index, ∀ other, items[earlier]? = some other → good other

/-- Results that succeed with related values, or fail with one error. -/
inductive Alike (related : α → β → Prop) : Except ε α → Except ε β → Prop
  | ok {value : α} {other : β} (values : related value other) :
      Alike related (.ok value) (.ok other)
  | error (error : ε) : Alike related (.error error) (.error error)

theorem FirstFailure.head {good : α → Prop} {item : α} (hbad : ¬ good item) :
    FirstFailure good (item :: items) 0 item :=
  ⟨rfl, hbad, fun _ hearlier => absurd hearlier (Nat.not_lt_zero _)⟩

theorem FirstFailure.cons {good : α → Prop} {index : Nat} {first item : α} (hfirst : good first)
    (h : FirstFailure good items index item) :
    FirstFailure good (first :: items) (index + 1) item := by
  obtain ⟨hitem, hbad, hbefore⟩ := h
  refine ⟨hitem, hbad, fun earlier hearlier other hother => ?_⟩
  cases earlier with
  | zero =>
    obtain rfl := Option.some.inj hother
    exact hfirst
  | succ earlier => exact hbefore earlier (Nat.lt_of_succ_lt_succ hearlier) other hother

/-- There is one first item that is not good at most. -/
theorem FirstFailure.unique {good : α → Prop} {index index' : Nat} {item item' : α}
    (h : FirstFailure good items index item) (h' : FirstFailure good items index' item') :
    index = index' ∧ item = item' := by
  obtain ⟨hitem, hbad, hbefore⟩ := h
  obtain ⟨hitem', hbad', hbefore'⟩ := h'
  rcases Nat.lt_trichotomy index index' with hlt | rfl | hlt
  · exact absurd (hbefore' index hlt item hitem) hbad
  · exact ⟨rfl, Option.some.inj (hitem.symm.trans hitem')⟩
  · exact absurd (hbefore index' hlt item' hitem') hbad'

theorem FirstFailure.not_forall {good : α → Prop} {index : Nat} {item : α}
    (h : FirstFailure good items index item) : ¬ ∀ other ∈ items, good other :=
  fun hall => h.2.1 (hall item (List.mem_of_getElem? h.1))

/-- The items before the first that is not good are good. -/
theorem FirstFailure.of_mem_take {good : α → Prop} {index : Nat} {item other : α}
    (h : FirstFailure good items index item) (hother : other ∈ items.take index) : good other := by
  obtain ⟨earlier, hearlier, hget⟩ := List.mem_take_iff_getElem.mp hother
  obtain ⟨hindex, hlength⟩ := Nat.lt_min.mp hearlier
  exact h.2.2 earlier hindex other (List.getElem?_eq_some_iff.mpr ⟨hlength, hget⟩)

/-- An item stands between the items before it and the items behind it. -/
theorem eq_take_append {index : Nat} {item : α} (h : items[index]? = some item) :
    items = items.take index ++ item :: items.drop (index + 1) := by
  obtain ⟨hindex, rfl⟩ := List.getElem?_eq_some_iff.mp h
  rw [← List.drop_eq_getElem_cons hindex, List.take_append_drop]

/-- An item at an index has all earlier items before it. -/
theorem exists_append_of_getElem? {index : Nat} {item : α} (h : items[index]? = some item) :
    ∃ before after, items = before ++ item :: after ∧ before.length = index := by
  obtain ⟨hindex, -⟩ := List.getElem?_eq_some_iff.mp h
  exact ⟨items.take index, items.drop (index + 1), eq_take_append h,
    List.length_take_of_le (Nat.le_of_lt hindex)⟩

theorem take_zip (count : Nat) (items : List α) (others : List β) :
    (items.zip others).take count = (items.take count).zip (others.take count) := by
  rw [List.zip_eq_zipWith, List.take_zipWith, ← List.zip_eq_zipWith]

@[simp] theorem map_eq_ok_iff {result : Except ε α} {g : α → β} {value : β} :
    result.map g = .ok value ↔ ∃ inner, result = .ok inner ∧ g inner = value := by
  cases result <;> simp [Except.map]

@[simp] theorem map_eq_error_iff {result : Except ε α} {g : α → β} {error : ε} :
    result.map g = .error error ↔ result = .error error := by
  cases result <;> simp [Except.map]

theorem bind_eq_ok_iff {result : Except ε α} {next : α → Except ε β} {value : β} :
    result.bind next = .ok value ↔ ∃ inner, result = .ok inner ∧ next inner = .ok value := by
  cases result <;> simp [Except.bind]

theorem map_map (result : Except ε α) (g : α → β) (h : β → γ) :
    (result.map g).map h = result.map fun value => h (g value) := by
  cases result <;> rfl

/-- A traversal that begins with a success goes on with the other items. -/
theorem mapM_cons_of_ok {item : α} {result : β} (h : f item = .ok result) :
    (item :: items).mapM f = (items.mapM f).map (result :: ·) := by
  rw [List.mapM_cons, h]
  cases items.mapM f <;> rfl

/-- A traversal that begins with a failure ends there. -/
theorem mapM_cons_of_error {item : α} {error : ε} (h : f item = .error error) :
    (item :: items).mapM f = .error error := by
  rw [List.mapM_cons, h]
  rfl

/-- A traversal that fails at an item comes to what stands before the item, and then to the
failure. -/
theorem mapM_append_of_error {before after : List α} {item : α} {error : ε}
    (h : f item = .error error) :
    (before ++ item :: after).mapM f = (before.mapM f).bind fun _ => .error error := by
  rw [List.mapM_append, mapM_cons_of_error h]
  cases before.mapM f <;> rfl

theorem map_eq_map_ok_iff {results : List β} :
    items.map f = results.map .ok ↔
      List.Forall₂ (fun item result => f item = .ok result) items results := by
  rw [← List.forall₂_eq_eq_eq, List.forall₂_map_left_iff, List.forall₂_map_right_iff]

/-- A traversal succeeds with what its items give one by one. -/
theorem mapM_eq_ok_iff {results : List β} :
    items.mapM f = .ok results ↔
      List.Forall₂ (fun item result => f item = .ok result) items results := by
  induction items generalizing results with
  | nil =>
    rw [List.mapM_nil, List.forall₂_nil_left_iff]
    exact ⟨fun h => (Except.ok.inj h).symm, fun h => h ▸ rfl⟩
  | cons item rest ih =>
    rw [List.forall₂_cons_left_iff]
    cases hitem : f item with
    | error error => simp [mapM_cons_of_error hitem]
    | ok result =>
      rw [mapM_cons_of_ok hitem, map_eq_ok_iff]
      simp only [ih, Except.ok.injEq]
      constructor
      · rintro ⟨others, hothers, rfl⟩
        exact ⟨result, others, rfl, hothers, rfl⟩
      · rintro ⟨_, others, rfl, hothers, rfl⟩
        exact ⟨others, hothers, rfl⟩

/-- Whatever a traversal gives comes from one of the items. -/
theorem exists_mem_of_mapM {results : List β} {result : β} (h : items.mapM f = .ok results)
    (hresult : result ∈ results) : ∃ item ∈ items, f item = .ok result := by
  induction mapM_eq_ok_iff.mp h with
  | nil => exact absurd hresult (by simp)
  | @cons item first rest others hitem hrest ih =>
    rcases List.mem_cons.mp hresult with rfl | hlater
    · exact ⟨item, List.mem_cons_self, hitem⟩
    · obtain ⟨later, hmem, hresult'⟩ := ih (mapM_eq_ok_iff.mpr hrest) hlater
      exact ⟨later, List.mem_cons_of_mem _ hmem, hresult'⟩

theorem length_of_mapM {results : List β} (h : items.mapM f = .ok results) :
    results.length = items.length :=
  (mapM_eq_ok_iff.mp h).length_eq.symm

/-- A traversal fails as the first item does that fails. -/
theorem mapM_eq_error_iff {error : ε} :
    items.mapM f = .error error ↔
      ∃ (index : Nat) (item : α), items[index]? = some item ∧ f item = .error error ∧
        ∀ earlier < index, ∀ other, items[earlier]? = some other →
          ∃ result, f other = .ok result := by
  induction items with
  | nil => simp [pure, Except.pure]
  | cons item rest ih =>
    cases hitem : f item with
    | error first =>
      rw [mapM_cons_of_error hitem, Except.error.injEq]
      constructor
      · rintro rfl
        exact ⟨0, item, rfl, hitem, fun _ h => absurd h (Nat.not_lt_zero _)⟩
      · rintro ⟨_ | index, other, hother, herror, hbefore⟩
        · obtain rfl := Option.some.inj hother
          exact Except.error.inj (hitem.symm.trans herror)
        · -- the first item would have to succeed
          obtain ⟨result, hresult⟩ := hbefore 0 (Nat.succ_pos _) item rfl
          exact absurd (hitem.symm.trans hresult) (by simp)
    | ok result =>
      rw [mapM_cons_of_ok hitem, map_eq_error_iff, ih]
      constructor
      · rintro ⟨index, other, hother, herror, hbefore⟩
        refine ⟨index + 1, other, hother, herror, fun earlier hearlier before hget => ?_⟩
        cases earlier with
        | zero =>
          obtain rfl := Option.some.inj hget
          exact ⟨result, hitem⟩
        | succ earlier => exact hbefore earlier (Nat.lt_of_succ_lt_succ hearlier) before hget
      · rintro ⟨_ | index, other, hother, herror, hbefore⟩
        · obtain rfl := Option.some.inj hother
          exact absurd (hitem.symm.trans herror) (by simp)
        · exact ⟨index, other, hother, herror, fun earlier hearlier =>
            hbefore (earlier + 1) (Nat.succ_lt_succ hearlier)⟩

/-- A traversal that fails has an error of the first item that is not good, when the good items are
those that do not fail. -/
theorem exists_firstFailure_of_mapM {good : α → Prop} {error : ε}
    (hgood : ∀ item, good item ↔ ∃ result, f item = .ok result)
    (h : items.mapM f = .error error) :
    ∃ index item, FirstFailure good items index item ∧ f item = .error error := by
  obtain ⟨index, item, hitem, herror, hbefore⟩ := mapM_eq_error_iff.mp h
  refine ⟨index, item, ⟨hitem, ?_, ?_⟩, herror⟩
  · rw [hgood, herror]
    simp
  · intro earlier hearlier other hother
    exact (hgood other).mpr (hbefore earlier hearlier other hother)

/-- A traversal fails as the first item that is not good, when the good items are those that do not
fail. -/
theorem FirstFailure.exists_mapM_eq_error {good : α → Prop} {index : Nat} {item : α}
    (hgood : ∀ item, good item ↔ ∃ result, f item = .ok result)
    (h : FirstFailure good items index item) :
    ∃ error, f item = .error error ∧ items.mapM f = .error error := by
  obtain ⟨hitem, hbad, hbefore⟩ := h
  cases hresult : f item with
  | ok result => exact absurd ((hgood item).mpr ⟨result, hresult⟩) hbad
  | error error =>
    refine ⟨error, rfl, mapM_eq_error_iff.mpr ⟨index, item, hitem, hresult, ?_⟩⟩
    intro earlier hearlier other hother
    exact (hgood other).mp (hbefore earlier hearlier other hother)

/-- A traversal of the items that count fails as the first item that is not good, when the good
items are those that do not count and those that do not fail. -/
theorem exists_firstFailure_of_mapM_filter {counts : α → Bool} {good : α → Prop} {error : ε}
    (hgood : ∀ item, good item ↔ (counts item = true → ∃ result, f item = .ok result))
    (h : (items.filter counts).mapM f = .error error) :
    ∃ index item, FirstFailure good items index item ∧ counts item = true ∧
      f item = .error error := by
  induction items with
  | nil => exact absurd h (by simp [pure, Except.pure])
  | cons item rest ih =>
    cases hcounts : counts item with
    | false =>
      rw [List.filter_cons_of_neg (by simp [hcounts])] at h
      obtain ⟨index, other, hfirst, hother⟩ := ih h
      exact ⟨index + 1, other, hfirst.cons ((hgood item).mpr (by simp [hcounts])), hother⟩
    | true =>
      rw [List.filter_cons_of_pos hcounts] at h
      cases hitem : f item with
      | error first =>
        rw [mapM_cons_of_error hitem] at h
        cases h
        have hbad : ¬ good item := by simp [hgood, hcounts, hitem]
        exact ⟨0, item, .head hbad, hcounts, hitem⟩
      | ok result =>
        rw [mapM_cons_of_ok hitem, map_eq_error_iff] at h
        obtain ⟨index, other, hfirst, hother⟩ := ih h
        exact ⟨index + 1, other, hfirst.cons ((hgood item).mpr fun _ => ⟨result, hitem⟩), hother⟩

/-- A traversal succeeds when no item fails. -/
theorem exists_mapM_eq_ok_iff :
    (∃ results, items.mapM f = .ok results) ↔ ∀ item ∈ items, ∃ result, f item = .ok result := by
  constructor
  · rintro ⟨results, h⟩
    have hall := (mapM_eq_ok_iff.mp h).imp fun item result hresult =>
      (⟨⟨result, hresult⟩, hresult⟩ : (∃ result, f item = .ok result) ∧ f item = .ok result)
    exact ((List.forall₂_and_left _ _).mp hall).1
  · intro hall
    cases h : items.mapM f with
    | ok results => exact ⟨results, rfl⟩
    | error error =>
      obtain ⟨index, item, hitem, herror, -⟩ := mapM_eq_error_iff.mp h
      obtain ⟨result, hresult⟩ := hall item (List.mem_of_getElem? hitem)
      exact absurd (herror.symm.trans hresult) (by simp)

/-- A traversal that may only miss something gives what its items give. -/
theorem mapM_eq_some_iff {f : α → Option β} {results : List β} :
    items.mapM f = some results ↔ items.map f = results.map some := by
  induction items generalizing results with
  | nil => cases results <;> simp
  | cons item rest ih =>
    cases hitem : f item with
    | none => cases results <;> simp [hitem]
    | some result =>
      cases results with
      | nil => simp [hitem, Option.bind_eq_some_iff]
      | cons first others => simp [hitem, Option.bind_eq_some_iff, ih, and_comm]

theorem exists_map_eq_map_some_iff {f : α → Option β} :
    (∃ results : List β, items.map f = results.map some) ↔ ∀ item ∈ items, (f item).isSome := by
  constructor
  · rintro ⟨results, hresults⟩ item hitem
    have hmem := List.mem_map_of_mem (f := f) hitem
    rw [hresults, List.mem_map] at hmem
    obtain ⟨result, -, hresult⟩ := hmem
    rw [← hresult, Option.isSome_some]
  · intro hall
    induction items with
    | nil => exact ⟨[], rfl⟩
    | cons item rest ih =>
      obtain ⟨hitem, hrest⟩ := List.forall_mem_cons.mp hall
      obtain ⟨result, hresult⟩ := Option.isSome_iff_exists.mp hitem
      obtain ⟨others, hothers⟩ := ih hrest
      exact ⟨result :: others, by rw [List.map_cons, hresult, hothers, List.map_cons]⟩

/-- A traversal that may only miss something misses what one of its items misses. -/
theorem mapM_eq_none_iff {f : α → Option β} :
    items.mapM f = none ↔ ∃ item ∈ items, f item = none := by
  rw [Option.eq_none_iff_forall_ne_some]
  simp only [ne_eq, mapM_eq_some_iff]
  rw [← not_exists, exists_map_eq_map_some_iff]
  simp

theorem mapM_eq_some_iff_forall₂ {f : α → Option β} {results : List β} :
    items.mapM f = some results ↔
      List.Forall₂ (fun item result => f item = some result) items results := by
  rw [mapM_eq_some_iff, ← List.forall₂_eq_eq_eq, List.forall₂_map_left_iff,
    List.forall₂_map_right_iff]

theorem filterMap_eq_map_of_forall₂ {others : List β} {f : α → Option γ} {g : β → γ}
    (h : List.Forall₂ (fun item other => f item = some (g other)) items others) :
    items.filterMap f = others.map g := by
  induction h with
  | nil => rfl
  | cons hitem _ ih => rw [List.filterMap_cons_some hitem, ih, List.map_cons]

/-! ### Two lists with items that are related one by one -/

section Related

variable {δ : Type} {related : α → β → Prop} {others : List β}

theorem mapM_congr_of_forall₂ {m : Type → Type} [Monad m] [LawfulMonad m] {f : α → m γ}
    {g : β → m γ}
    (h : List.Forall₂ related items others)
    (halike : ∀ item other, related item other → f item = g other) :
    items.mapM f = others.mapM g := by
  induction h with
  | nil => rfl
  | cons hitem _ ih => rw [List.mapM_cons, List.mapM_cons, halike _ _ hitem, ih]

theorem rel_mapM {found : γ → δ → Prop} {f : α → Option γ} {g : β → Option δ}
    (h : List.Forall₂ related items others)
    (halike : ∀ item other, related item other → Option.Rel found (f item) (g other)) :
    Option.Rel (List.Forall₂ found) (items.mapM f) (others.mapM g) := by
  induction h with
  | nil => exact .some .nil
  | @cons item other rest later hitem _ ih =>
    have hfirst := halike item other hitem
    rw [List.mapM_cons, List.mapM_cons]
    generalize f item = first, g other = first' at hfirst ⊢
    generalize rest.mapM f = behind, later.mapM g = behind' at ih ⊢
    cases hfirst with
    | none => exact .none
    | some hfound =>
      cases ih with
      | none => exact .none
      | some hbehind => exact .some (.cons hfound hbehind)

namespace Alike

theorem refl {related : α → α → Prop} (hrelated : ∀ value, related value value)
    (result : Except ε α) : Alike related result result := by
  cases result with
  | ok value => exact .ok (hrelated value)
  | error error => exact .error error

variable {first : Except ε α} {second : Except ε β}

/-- Results that are alike stay so when their values are converted into related ones. -/
theorem map {found : γ → δ → Prop} {f : α → γ} {g : β → δ} (h : Alike related first second)
    (hfound : ∀ value other, related value other → found (f value) (g other)) :
    Alike found (first.map f) (second.map g) := by
  cases h with
  | ok values => exact .ok (hfound _ _ values)
  | error error => exact .error error

/-- Results that are alike come to the same when related values do. -/
theorem bind_eq {f : α → Except ε γ} {g : β → Except ε γ} (h : Alike related first second)
    (hsame : ∀ value other, related value other → f value = g other) :
    first.bind f = second.bind g := by
  cases h with
  | ok values => exact hsame _ _ values
  | error error => rfl

end Alike

/-- A traversal of items with results alike succeeds with related values, or fails with one error.
-/
theorem alike_mapM {found : γ → δ → Prop} {f : α → Except ε γ} {g : β → Except ε δ}
    (h : List.Forall₂ related items others)
    (halike : ∀ item other, related item other → Alike found (f item) (g other)) :
    Alike (List.Forall₂ found) (items.mapM f) (others.mapM g) := by
  induction h with
  | nil => exact .ok .nil
  | @cons item other rest later hitem _ ih =>
    have hfirst := halike item other hitem
    rw [List.mapM_cons, List.mapM_cons]
    generalize f item = first, g other = first' at hfirst ⊢
    generalize rest.mapM f = behind, later.mapM g = behind' at ih ⊢
    -- a failure at the head ends both traversals, and one behind it ends them at the same place
    cases hfirst with
    | error error => exact .error error
    | ok hfound =>
      cases ih with
      | error error => exact .error error
      | ok hbehind => exact .ok (.cons hfound hbehind)

/-- In lists whose items are related one by one, and are sought alike, what is found first is
related. -/
theorem rel_find? {sought : α → Bool} {sought' : β → Bool}
    (h : List.Forall₂ related items others)
    (halike : ∀ item other, related item other → sought item = sought' other) :
    Option.Rel related (items.find? sought) (others.find? sought') := by
  induction h with
  | nil => exact .none
  | @cons item other rest later hitem _ ih =>
    rw [List.find?_cons, List.find?_cons, ← halike item other hitem]
    cases sought item with
    | true => exact .some hitem
    | false => exact ih

end Related

end CallData.Traversal
