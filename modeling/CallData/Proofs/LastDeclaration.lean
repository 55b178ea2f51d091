import CallData.Interface.Basic
import CallData.Proofs.Traversal

/-!
# The last declaration of a name

An interface holds a method for every name that some function item declares, and of several items
that declare one name the last. Items of another kind do not count, wherever they stand.

## Main definitions

* `Interface.Item.declares` — whether an item declares a function of some name
* `Interface.LastDeclares` — the last item of a list that does

## Main results

* `Method.declare_eq_ok_iff`, `Interface.Item.method_eq_ok_iff` — what types and items declare
* `Interface.find?_ofMethods` — the last method of a name is found
* `Interface.rel_find?_ofItems` — the method of a name is the one that the last declaration
  declares
-/

namespace CallData

open Traversal

/-! ### Declared methods -/

theorem Method.declare_eq_ok_iff {name : String} {types : List String} {method : Method} :
    declare name types = .ok method ↔
      method.name = name ∧ types.mapM DeclaredType.parse = .ok method.parameters := by
  rw [declare, map_eq_ok_iff]
  constructor
  · rintro ⟨parameters, hparameters, rfl⟩
    exact ⟨rfl, hparameters⟩
  · rintro ⟨rfl, hparameters⟩
    exact ⟨method.parameters, hparameters, rfl⟩

/-- A declared method has a parameter for each type text. -/
theorem Method.length_types_of_declare {name : String} {types : List String} {method : Method}
    (h : declare name types = .ok method) : method.types.length = types.length := by
  rw [Method.types, List.length_map, length_of_mapM (declare_eq_ok_iff.mp h).2]

namespace Interface

/-- Whether an item declares a function of some name. -/
def Item.declares (item : Item) (name : String) : Bool :=
  item.isFunction && item.name == some name

/-- An item that declares a function of some name, with no other such item behind it. -/
def LastDeclares (items : List Item) (name : String) (item : Item) : Prop :=
  item.declares name = true ∧ ∃ before after, items = before ++ item :: after ∧
    ∀ later ∈ after, later.declares name = false

theorem Item.name_of_declares {item : Item} {name : String} (h : item.declares name = true) :
    item.name = some name :=
  beq_iff_eq.mp (Bool.and_eq_true_iff.mp h).2

theorem Item.method_eq_ok_iff {item : Item} {method : Method} :
    item.method = .ok method ↔ item.name = some method.name ∧
      Method.declare method.name (item.parameters.map Parameter.type) = .ok method := by
  unfold Item.method
  split
  · simp_all
  · rename_i name hname
    rw [hname, Option.some_inj]
    constructor
    · intro h
      obtain rfl := (Method.declare_eq_ok_iff.mp h).1
      exact ⟨rfl, h⟩
    · rintro ⟨rfl, h⟩
      exact h

/-- The last declaration is the first that is met from the end. -/
theorem lastDeclares_iff {items : List Item} {name : String} {item : Item} :
    LastDeclares items name item ↔
      items.reverse.find? (fun item => item.declares name) = some item := by
  rw [List.find?_eq_some_iff_append]
  constructor
  · rintro ⟨hitem, before, after, rfl, hafter⟩
    exact ⟨hitem, after.reverse, before.reverse, by simp, by simpa using hafter⟩
  · rintro ⟨hitem, after, before, hitems, hafter⟩
    refine ⟨hitem, before.reverse, after.reverse, ?_, by simpa using hafter⟩
    rw [← List.reverse_inj, hitems]
    simp

/-! ### Look-up -/

/-- Of methods that are put into an interface one after another the last of each name is found. -/
theorem find?_foldl_insert (methods : List Method) (interface : Interface) (name : String) :
    (methods.foldl insert interface).find? name =
      (methods.reverse.find? fun method => method.name == name).or (interface.find? name) := by
  induction methods generalizing interface with
  | nil => rfl
  | cons method rest ih =>
    -- seen from the end, the first method is the last before the interface it is put into
    rw [List.foldl_cons, ih, find?_insert, List.reverse_cons, List.find?_append, Option.or_assoc]
    by_cases hname : name = method.name
    · simp [hname]
    · simp [hname, Ne.symm hname]

theorem find?_ofMethods (methods : List Method) (name : String) :
    (ofMethods methods).find? name = methods.reverse.find? fun method => method.name == name := by
  rw [ofMethods, find?_foldl_insert, find?_empty, Option.or_none]

section Built

variable {items : List Item} {interface : Interface} {name : String}

theorem result_ofItems_eq_ok_iff :
    (ofItems items).result = .ok interface ↔
      ∃ methods, (items.filter Item.isFunction).mapM Item.method = .ok methods ∧
        ofMethods methods = interface := by
  rw [ofItems, Logged.result_bind, Logged.result_ofExcept]
  cases (items.filter Item.isFunction).mapM Item.method with
  | error error => simp [Except.bind]
  | ok methods => simp [Except.bind]

/-- The method of a name is the one that the last declaration of the name declares. -/
theorem rel_find?_ofItems (hbuilt : (ofItems items).result = .ok interface) (name : String) :
    Option.Rel (fun item method => item.method = .ok method)
      (items.reverse.find? fun item => item.declares name) (interface.find? name) := by
  obtain ⟨methods, hmethods, rfl⟩ := result_ofItems_eq_ok_iff.mp hbuilt
  have hall := List.rel_reverse (mapM_eq_ok_iff.mp hmethods)
  -- an item and the method that it declares have the same name
  have halike : ∀ (item : Item) (method : Method), item.method = .ok method →
      (item.name == some name) = (method.name == name) := by
    intro item method hmethod
    rw [(Item.method_eq_ok_iff.mp hmethod).1, Option.some_beq_some]
  have hfound := rel_find? hall halike
  rw [← find?_ofMethods, ← List.filter_reverse, List.find?_filter] at hfound
  simpa only [Item.declares, Bool.decide_and, Bool.decide_eq_true] using hfound

/-- An interface contains the names that have a declaration. -/
theorem contains_iff_of_ofItems (hbuilt : (ofItems items).result = .ok interface) :
    interface.contains name = true ↔ ∃ item, LastDeclares items name item := by
  have hfound := rel_find?_ofItems hbuilt name
  simp only [lastDeclares_iff, contains]
  generalize items.reverse.find? (fun item => item.declares name) = last at hfound ⊢
  generalize interface.find? name = found at hfound ⊢
  cases hfound <;> simp

theorem exists_method_of_lastDeclares {item : Item}
    (hbuilt : (ofItems items).result = .ok interface) (hlast : LastDeclares items name item) :
    ∃ method, interface.find? name = some method ∧ item.method = .ok method := by
  have hfound := rel_find?_ofItems hbuilt name
  rw [lastDeclares_iff.mp hlast] at hfound
  generalize interface.find? name = found at hfound ⊢
  cases hfound with
  | some hmethod => exact ⟨_, rfl, hmethod⟩

end Built

end Interface

end CallData
