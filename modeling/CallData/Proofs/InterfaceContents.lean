import CallData.Proofs.LastDeclaration
import CallData.Proofs.TypeTexts
import Mathlib.Data.List.Dedup

/-!
# What an interface holds

An interface of declared items is built when every function item has a name and only types that are
supported, those included that a later item of the same name hides. The first function item that
falls short decides the error. What is built holds one method for each name of a function item, the
one that the last such item declares, in ascending order of the names. Items of other kinds do not
count, and it does not matter in which order items of different names stand.

## Main definitions

* `Interface.Item.IsSound`, `Interface.Item.Flaw` — items that can be built, and why others cannot
* `Interface.Item.functionName?`, `Interface.Item.Makes` — the name and the method of a function
  item
* `Interface.Holds` — an interface that holds what items declare
* `Interface.Rearranged` — the function items of a list in another order

## Main results

* `Interface.holds_of_ofItems` — the interface of items holds what they declare
* `Interface.ofItems_outcome` — what becomes of items, in whatever order
-/

namespace CallData

open Traversal

/-- A method is declared by types that are all supported. -/
theorem Method.exists_declare_iff {name : String} {types : List String} :
    (∃ method, declare name types = .ok method) ↔
      ∀ type ∈ types, DeclaredType.IsSupported type := by
  constructor
  · rintro ⟨method, h⟩ type hmem
    have hall := exists_mapM_eq_ok_iff.mp ⟨_, (declare_eq_ok_iff.mp h).2⟩
    exact DeclaredType.exists_parse_iff.mp (hall type hmem)
  · intro hall
    obtain ⟨parameters, hparameters⟩ := exists_mapM_eq_ok_iff.mpr fun type hmem =>
      DeclaredType.exists_parse_iff.mpr (hall type hmem)
    exact ⟨⟨name, parameters⟩, declare_eq_ok_iff.mpr ⟨rfl, hparameters⟩⟩

namespace Interface

/-- An item that does not stand in the way of an interface. A function item has a name and only
types that are supported; an item of another kind may be anything. -/
def Item.IsSound (item : Item) : Prop :=
  item.kind = "function" →
    item.name ≠ none ∧ ∀ parameter ∈ item.parameters, DeclaredType.IsSupported parameter.type

/-- What is wrong with a function item. A missing name counts before the types, and of these the
first that is not supported, without the blanks around it. -/
inductive Item.Flaw (item : Item) : CodecError → Prop
  | unnamed (missing : item.name = none) : Flaw item (.invalidAbi "function item without a name")
  | unsupported {index : Nat} {parameter : Parameter} (named : item.name ≠ none)
      (first : FirstFailure (fun parameter => DeclaredType.IsSupported parameter.type)
        item.parameters index parameter) :
      Flaw item (.unsupportedType (Text.trim parameter.type))

/-- The name of the function that an item declares, if it declares one that has a name. -/
def Item.functionName? (item : Item) : Option String :=
  if item.kind = "function" then item.name else none

/-- A method of some name as an item declares it: it has a parameter for each parameter of the
item, in the same order, and its selector is the beginning of the digest of its signature. -/
structure Item.Makes (item : Item) (name : String) (method : Method) : Prop where
  declared : Method.declare name (item.parameters.map Parameter.type) = .ok method
  name_eq : method.name = name
  parameters : List.Forall₂ (fun parameter declared =>
    DeclaredType.NamedBy declared (Text.trim parameter.type)) item.parameters method.parameters
  selector : method.selector.bytes = (Keccak.hash (Text.utf8 method.signature)).bytes.take 4

/-- An interface that holds what items declare: a method for each name of a function item, as the
last such item declares it, and nothing else. -/
structure Holds (interface : Interface) (items : List Item) : Prop where
  contains_iff : ∀ name, interface.contains name = true ↔
    ∃ item ∈ items, item.functionName? = some name
  found_iff : ∀ name, (∃ method, interface.find name = .ok method) ↔
    ∃ item ∈ items, item.functionName? = some name
  found : ∀ name method, interface.find name = .ok method →
    ∃ item, LastDeclares items name item ∧ item.Makes name method
  ascending_names : interface.names.Pairwise Text.Precedes
  names_perm : interface.names.Perm (items.filterMap Item.functionName?).dedup
  size_eq : interface.size = (items.filterMap Item.functionName?).dedup.length

/-- Items whose functions are those of other items in another order, where the functions of one
name stand in the same order. -/
structure Rearranged (items others : List Item) : Prop where
  perm : (items.filter Item.isFunction).Perm (others.filter Item.isFunction)
  declarations : ∀ name,
    items.filter (fun item => item.declares name) = others.filter fun item => item.declares name

/-! ### Single items -/

theorem Item.isFunction_iff {item : Item} : item.isFunction = true ↔ item.kind = "function" :=
  beq_iff_eq

theorem Item.declares_eq (item : Item) (name : String) :
    item.declares name = (item.functionName? == some name) := by
  by_cases hkind : item.kind = "function"
  · rw [declares, isFunction_iff.mpr hkind, functionName?, if_pos hkind, Bool.true_and]
  · rw [declares, Bool.eq_false_iff.mpr (isFunction_iff.not.mpr hkind), functionName?,
      if_neg hkind]
    rfl

theorem Item.method_of_name {item : Item} {name : String} (h : item.name = some name) :
    item.method = Method.declare name (item.parameters.map Parameter.type) := by
  rw [method, h]

/-- A function item declares a method when it has a name and only types that are supported. -/
theorem Item.exists_method_iff {item : Item} :
    (∃ method, item.method = .ok method) ↔
      item.name ≠ none ∧
        ∀ parameter ∈ item.parameters, DeclaredType.IsSupported parameter.type := by
  cases hname : item.name with
  | none => simp [method, hname]
  | some name =>
    rw [method_of_name hname, Method.exists_declare_iff, List.forall_mem_map]
    simp

theorem Item.isSound_iff {item : Item} :
    item.IsSound ↔ (item.isFunction = true → ∃ method, item.method = .ok method) := by
  rw [IsSound, exists_method_iff, isFunction_iff]

theorem Item.flaw_of_method {item : Item} {error : CodecError} (h : item.method = .error error) :
    item.Flaw error := by
  cases hname : item.name with
  | none =>
    rw [method, hname] at h
    cases h
    exact .unnamed hname
  | some name =>
    rw [method_of_name hname, Method.declare, map_eq_error_iff, List.mapM_map] at h
    have hsupported : ∀ parameter : Parameter, DeclaredType.IsSupported parameter.type ↔
        ∃ declared, (DeclaredType.parse ∘ Parameter.type) parameter = .ok declared := by
      intro parameter
      rw [Function.comp_apply, DeclaredType.exists_parse_iff]
    obtain ⟨index, parameter, hfirst, hparameter⟩ := exists_firstFailure_of_mapM hsupported h
    rw [Function.comp_apply] at hparameter
    obtain ⟨-, rfl⟩ := DeclaredType.parse_eq_error_iff_not_isSupported.mp hparameter
    exact .unsupported (by simp [hname]) hfirst

theorem Item.makes_of_method {item : Item} {name : String} {method : Method}
    (hname : item.name = some name) (h : item.method = .ok method) : item.Makes name method := by
  rw [method_of_name hname] at h
  obtain ⟨hsame, hparameters⟩ := Method.declare_eq_ok_iff.mp h
  refine ⟨h, hsame, ?_, method.bytes_selector⟩
  rw [mapM_eq_ok_iff, List.forall₂_map_left_iff] at hparameters
  exact hparameters.imp fun _ _ hparse => DeclaredType.parse_eq_ok_iff_namedBy.mp hparse

/-! ### Names -/

theorem exists_lastDeclares_iff {items : List Item} {name : String} :
    (∃ item, LastDeclares items name item) ↔ ∃ item ∈ items, item.functionName? = some name := by
  simp only [lastDeclares_iff, ← Option.isSome_iff_exists, List.find?_isSome, List.mem_reverse,
    Item.declares_eq, beq_iff_eq]

theorem mem_names_iff {interface : Interface} {name : String} :
    name ∈ interface.names ↔ interface.contains name = true :=
  Keyed.mem_keys_iff

theorem exists_find_iff {interface : Interface} {name : String} :
    (∃ method, interface.find name = .ok method) ↔ interface.contains name = true := by
  simp only [find_eq_ok_iff, contains, Option.isSome_iff_exists]

theorem nodup_names (interface : Interface) : interface.names.Nodup :=
  Keyed.nodup_keys interface.ascending

/-- Interfaces in which every name finds the same are the same. -/
theorem ext_find? {interface other : Interface}
    (h : ∀ name, interface.find? name = other.find? name) : interface = other := by
  have hentries := Keyed.ext_lookup interface.ascending other.ascending h
  cases interface
  cases other
  cases hentries
  rfl

section Built

variable {items others : List Item} {interface : Interface}

theorem exists_ofItems_iff :
    (∃ interface, (ofItems items).result = .ok interface) ↔ ∀ item ∈ items, item.IsSound := by
  simp only [result_ofItems_eq_ok_iff, Item.isSound_iff]
  constructor
  · rintro ⟨_, methods, hmethods, -⟩ item hmem hfunction
    exact exists_mapM_eq_ok_iff.mp ⟨methods, hmethods⟩ item (List.mem_filter.mpr ⟨hmem, hfunction⟩)
  · intro hsound
    obtain ⟨methods, hmethods⟩ := exists_mapM_eq_ok_iff.mpr fun item hmem =>
      hsound item (List.mem_filter.mp hmem).1 (List.mem_filter.mp hmem).2
    exact ⟨ofMethods methods, methods, hmethods, rfl⟩

theorem result_ofItems_eq_error_iff {error : CodecError} :
    (ofItems items).result = .error error ↔
      (items.filter Item.isFunction).mapM Item.method = .error error := by
  rw [ofItems, Logged.result_bind, Logged.result_ofExcept]
  cases (items.filter Item.isFunction).mapM Item.method <;> simp [Except.bind]

/-- Items of which some is not sound fail with what is wrong with the first that is not. -/
theorem exists_flaw_of_ofItems (hunsound : ¬ ∀ item ∈ items, item.IsSound) :
    ∃ index item error, FirstFailure Item.IsSound items index item ∧ item.Flaw error ∧
      (ofItems items).result = .error error := by
  cases hresult : (ofItems items).result with
  | ok interface => exact absurd (exists_ofItems_iff.mp ⟨interface, hresult⟩) hunsound
  | error error =>
    obtain ⟨index, item, hfirst, -, hitem⟩ := exists_firstFailure_of_mapM_filter
      (fun _ => Item.isSound_iff) (result_ofItems_eq_error_iff.mp hresult)
    exact ⟨index, item, error, hfirst, Item.flaw_of_method hitem, rfl⟩

/-- The names of an interface are those of the function items, each of them once. -/
theorem names_perm_dedup (hbuilt : (ofItems items).result = .ok interface) :
    interface.names.Perm (items.filterMap Item.functionName?).dedup := by
  apply (List.perm_ext_iff_of_nodup interface.nodup_names (List.nodup_dedup _)).mpr
  intro name
  rw [mem_names_iff, contains_iff_of_ofItems hbuilt, exists_lastDeclares_iff, List.mem_dedup,
    List.mem_filterMap]

/-- The interface of items holds what they declare. -/
theorem holds_of_ofItems (hbuilt : (ofItems items).result = .ok interface) :
    interface.Holds items := by
  have hcontains : ∀ name, interface.contains name = true ↔
      ∃ item ∈ items, item.functionName? = some name := fun name => by
    rw [contains_iff_of_ofItems hbuilt, exists_lastDeclares_iff]
  have hnames := names_perm_dedup hbuilt
  refine ⟨hcontains, ?_, ?_, ?_, hnames, ?_⟩
  · intro name
    rw [exists_find_iff, hcontains]
  · intro name method hfind
    -- a name that is found has a last declaration, which declares what is found
    obtain ⟨item, hlast⟩ :=
      (contains_iff_of_ofItems hbuilt).mp (exists_find_iff.mp ⟨method, hfind⟩)
    obtain ⟨found, hfound, hmethod⟩ := exists_method_of_lastDeclares hbuilt hlast
    obtain rfl : found = method :=
      Option.some.inj (hfound.symm.trans (find_eq_ok_iff.mp hfind))
    exact ⟨item, hlast, Item.makes_of_method (Item.name_of_declares hlast.1) hmethod⟩
  · exact List.pairwise_map.mpr interface.ascending
  · rw [size, ← hnames.length_eq, names, List.length_map]

/-! ### Other orders -/

theorem Rearranged.symm (h : Rearranged items others) : Rearranged others items :=
  ⟨h.perm.symm, fun name => (h.declarations name).symm⟩

/-- Items in another order are as sound as before. -/
theorem Rearranged.exists_ofItems (h : Rearranged items others)
    (hbuilt : ∃ interface, (ofItems items).result = .ok interface) :
    ∃ interface, (ofItems others).result = .ok interface := by
  rw [exists_ofItems_iff] at hbuilt ⊢
  intro item hmem hkind
  have hfunction : item ∈ others.filter Item.isFunction :=
    List.mem_filter.mpr ⟨hmem, Item.isFunction_iff.mpr hkind⟩
  exact hbuilt item (List.mem_filter.mp (h.perm.mem_iff.mpr hfunction)).1 hkind

/-- Items in another order declare the same, when those of one name stand in the same order. -/
theorem Rearranged.ofItems (h : Rearranged items others)
    (hbuilt : (ofItems items).result = .ok interface) :
    (Interface.ofItems others).result = .ok interface := by
  -- the other items make some interface, and it is enough to look names up in it
  obtain ⟨other, hother⟩ := h.exists_ofItems ⟨interface, hbuilt⟩
  have hsame : interface = other := by
    apply ext_find?
    intro name
    have hfound := rel_find?_ofItems hbuilt name
    have hfound' := rel_find?_ofItems hother name
    rw [← List.getLast?_filter, h.declarations name, List.getLast?_filter] at hfound
    -- both names find what one item declares, or there is no such item
    generalize others.reverse.find? (fun item => item.declares name) = last at hfound hfound'
    generalize interface.find? name = found at hfound ⊢
    generalize other.find? name = found' at hfound' ⊢
    cases hfound with
    | none =>
      cases hfound'
      rfl
    | some hmethod =>
      cases hfound' with
      | some hmethod' => rw [Except.ok.inj (hmethod.symm.trans hmethod')]
  rwa [hsame]

/-- The declarations of a name are some of the function items. -/
theorem filter_declares_eq (items : List Item) (name : String) :
    (items.filter fun item => item.declares name) =
      (items.filter Item.isFunction).filter fun item => item.name == some name := by
  rw [List.filter_filter]
  exact List.filter_congr fun item _ => Bool.and_comm _ _

/-- Function items with different names may stand in any order. -/
theorem rearranged_of_perm
    (hperm : (items.filter Item.isFunction).Perm (others.filter Item.isFunction))
    (hdifferent : (items.filterMap Item.functionName?).Nodup) : Rearranged items others := by
  refine ⟨hperm, fun name => ?_⟩
  have hdeclarations : (items.filter fun item => item.declares name).Perm
      (others.filter fun item => item.declares name) := by
    rw [filter_declares_eq, filter_declares_eq]
    exact hperm.filter _
  -- no two items declare the name, so there is nothing to order
  have halone : (items.filter fun item => item.declares name).Pairwise fun _ _ => False := by
    apply ((List.pairwise_filterMap.mp hdifferent).filter _).imp_of_mem
    intro earlier later hearlier hlater hne
    have hname : ∀ {item}, (item ∈ items.filter fun item => item.declares name) →
        item.functionName? = some name := fun hmem => by
      have hdeclares := (List.mem_filter.mp hmem).2
      rwa [Item.declares_eq, beq_iff_eq] at hdeclares
    exact hne name (hname hearlier) name (hname hlater) rfl
  apply hdeclarations.eq_of_pairwise _ halone (hdeclarations.pairwise halone id)
  intro _ _ _ _ hnever
  exact hnever.elim

/-- What becomes of items. They make an interface when every function item is sound, and otherwise
the first that is not sound decides what is wrong. The interface holds what they declare, so that
items of other kinds make no difference wherever they stand, nor does the order of function items
with different names. -/
theorem ofItems_outcome (items : List Item) :
    ((∃ interface, (ofItems items).result = .ok interface) ↔ ∀ item ∈ items, item.IsSound) ∧
    ((¬ ∀ item ∈ items, item.IsSound) → ∃ index item error,
      FirstFailure Item.IsSound items index item ∧ item.Flaw error ∧
        (ofItems items).result = .error error) ∧
    (∀ interface, (ofItems items).result = .ok interface → interface.Holds items) ∧
    (∀ others, others.filter Item.isFunction = items.filter Item.isFunction →
      ofItems others = ofItems items) ∧
    (∀ others, Rearranged items others → ∀ interface,
      (ofItems items).result = .ok interface ↔ (ofItems others).result = .ok interface) ∧
    (∀ others, (items.filter Item.isFunction).Perm (others.filter Item.isFunction) →
      (items.filterMap Item.functionName?).Nodup → ∀ interface,
        (ofItems items).result = .ok interface ↔ (ofItems others).result = .ok interface) := by
  have hrearranged : ∀ others, Rearranged items others → ∀ interface,
      (ofItems items).result = .ok interface ↔ (ofItems others).result = .ok interface :=
    fun others h interface => ⟨h.ofItems, h.symm.ofItems⟩
  refine ⟨exists_ofItems_iff, exists_flaw_of_ofItems, fun interface => holds_of_ofItems, ?_,
    hrearranged, ?_⟩
  · intro others hsame
    rw [ofItems, ofItems, hsame]
  · intro others hperm hdifferent
    exact hrearranged others (rearranged_of_perm hperm hdifferent)

/-- A function item counts even where a later one of its name hides it. -/
example : (ofItems [⟨"function", some "f", [⟨"", " int8"⟩]⟩, ⟨"function", some "f", []⟩]).result =
    .error (.unsupportedType "int8") := by
  decide +kernel

end Built

end Interface

end CallData
