import CallData.Arguments
import CallData.Proofs.JsonArguments
import CallData.Proofs.LastDeclaration

/-!
# The two shapes of arguments

Arguments that say the types of the last declaration of a name make the same call as their values
alone, which get these types from the interface. The two shapes are told apart by looking at the
items of an array only; since no parameter takes an object, no array that would be a call as it
stands is taken for the other shape.

## Main definitions

* `Json.HoldsObject` — the values with an object in them, at any depth
* `Arguments.callJson` — a call with the arguments that a JSON value holds

## Main results

* `ParamType.Takes.not_holdsObject` — no parameter takes a value with an object in it
* `TypedArgument.call_of_parameters_eq_ok` — a call with supported types, with a name and without
  one
* `Arguments.call_positional_eq_call_typed` — the two shapes make the same calls
* `Arguments.shape_of_call` — calls that succeed have the plain shape
-/

namespace CallData

open Traversal

/-- The values with an object in them: objects, and arrays with such a value among their items. -/
inductive Json.HoldsObject : Json → Prop
  | object (members : List (String × Json)) : HoldsObject (.object members)
  | array {items : List Json} {item : Json} (mem : item ∈ items) (holds : HoldsObject item) :
      HoldsObject (.array items)

/-! ### Objects in arguments -/

/-- A base type takes neither objects nor arrays. -/
theorem BaseType.Takes.not_holdsObject {type : BaseType} {json : Json} (h : type.Takes json) :
    ¬ json.HoldsObject := by
  obtain ⟨value, hvalue⟩ := h
  intro hholds
  cases hholds with
  | object members => cases type <;> simp [BaseType.valueOf] at hvalue
  | array mem holds => cases type <;> simp [BaseType.valueOf] at hvalue

/-- A parameter takes no value with an object in it. -/
theorem ParamType.Takes.not_holdsObject {type : ParamType} {json : Json} (h : type.Takes json) :
    ¬ json.HoldsObject := by
  obtain ⟨value, hvalue⟩ := h
  intro hholds
  cases Value.ofJson_eq_ok_iff.mp hvalue with
  | base valued => exact BaseType.Takes.not_holdsObject ⟨_, valued⟩ hholds
  | array elements =>
    cases hholds with
    | array mem holds =>
      have htaken := exists_mapM_eq_ok_iff.mp ⟨_, mapM_eq_ok_iff.mpr elements⟩
      exact BaseType.Takes.not_holdsObject (htaken _ mem) holds

theorem Json.holdsObject_of_namesType {json : Json} (h : Arguments.namesType json = true) :
    json.HoldsObject := by
  cases json with
  | object members => exact .object members
  | _ => exact absurd h (by simp [Arguments.namesType])

namespace Method

variable {method : Method} {arguments : List Json}

/-- In a call that succeeds no argument has an object in it. -/
theorem not_holdsObject_of_callJson {text : String}
    (h : (method.callJson arguments).result = .ok text) :
    ∀ json ∈ arguments, ¬ json.HoldsObject := by
  obtain ⟨hcount, htakes⟩ := takes_of_callJson h
  intro json hmem
  rw [← List.map_snd_zip (Nat.le_of_eq hcount.symm), List.mem_map] at hmem
  obtain ⟨argument, hargument, rfl⟩ := hmem
  exact (htakes argument hargument).not_holdsObject

theorem exists_error_of_holdsObject {json : Json} (hmem : json ∈ arguments)
    (hholds : json.HoldsObject) : ∃ error, (method.callJson arguments).result = .error error := by
  cases hresult : (method.callJson arguments).result with
  | error error => exact ⟨error, rfl⟩
  | ok text => exact absurd hholds (not_holdsObject_of_callJson hresult json hmem)

end Method

namespace TypedArgument

variable {arguments : List TypedArgument} {declared : List DeclaredType} {error : CodecError}

theorem declare_eq_map_parameters (name : String) (arguments : List TypedArgument) :
    Method.declare name (arguments.map type) =
      (parameters arguments).map fun declared => ⟨name, declared⟩ := by
  rw [Method.declare, List.mapM_map, Function.comp_def, parameters]

/-- Arguments with a type that is not supported are refused for it, with a name and without one. -/
theorem call_of_parameters_eq_error (h : parameters arguments = .error error)
    (name : Option String) : call name arguments = .fail error := by
  cases name with
  | none =>
    simp only [call]
    rw [h]
    rfl
  | some name =>
    simp only [call]
    rw [declare_eq_map_parameters, h]
    rfl

/-- Arguments whose types are supported are a block, behind the selector of the method that a name
and these types declare. -/
theorem call_of_parameters_eq_ok (h : parameters arguments = .ok declared) (name : Option String) :
    call name arguments =
      Block.text (name.map fun name => (Method.mk name declared).selector) <$>
        Block.ofJson (declared.map DeclaredType.type) (arguments.map value) := by
  cases name with
  | none =>
    simp only [call]
    rw [h]
    rfl
  | some name =>
    simp only [call]
    rw [declare_eq_map_parameters, h]
    rfl

/-- Arguments that say their types make the call that their values make of the method which these
types declare. -/
theorem call_of_declare {name : String} {method : Method}
    (h : Method.declare name (arguments.map type) = .ok method) :
    call (some name) arguments = method.callJson (arguments.map value) := by
  have hcount : method.types.length = (arguments.map value).length := by
    rw [Method.length_types_of_declare h, List.length_map, List.length_map]
  rw [Method.callJson_of_length_eq hcount]
  simp only [call]
  rw [h, Logged.ofExcept_ok, pure_bind]

end TypedArgument

namespace Arguments

/-- A call with the arguments that a JSON value holds. -/
def callJson (json : Json) (interface : Interface) (name : String) :
    Logged CodecError String := do
  let arguments ← Logged.ofExcept (ofJson json)
  arguments.call interface name

/-! ### Plain values -/

section Positional

variable {interface : Interface} {name : String} {method : Method} {items : List Json}

theorem call_positional_of_known (hname : interface.find? name = some method)
    (values : List Json) :
    (positional values).call interface name = method.callJson values := by
  rw [call, Interface.find_eq_ok_iff.mpr hname, Logged.ofExcept_ok, pure_bind]

theorem call_positional_of_unknown (hname : interface.find? name = none) (values : List Json) :
    (positional values).call interface name = .fail (.functionNotFound name) := by
  rw [call, Interface.find_of_unknown hname, Logged.ofExcept_error, Logged.fail_bind]

theorem callJson_of_positional {json : Json} {values : List Json}
    (h : ofJson json = .ok (.positional values)) (interface : Interface) (name : String) :
    callJson json interface name = (positional values).call interface name := by
  rw [callJson, h, Logged.ofExcept_ok, pure_bind]

/-- Values that make no call of any method make none by a name. -/
theorem exists_error_of_positional {values : List Json}
    (h : ∀ method : Method, ∃ error, (method.callJson values).result = .error error)
    (interface : Interface) (name : String) :
    ∃ error, ((positional values).call interface name).result = .error error := by
  cases hname : interface.find? name with
  | some method =>
    rw [call_positional_of_known hname]
    exact h method
  | none =>
    refine ⟨.functionNotFound name, ?_⟩
    rw [call_positional_of_unknown hname, Logged.result_fail]

/-- An array that does not have the plain shape has an item that names a type. -/
theorem exists_namesType (h : namesTypes items = true) :
    ∃ item ∈ items, namesType item = true := by
  rw [namesTypes, Bool.and_eq_true, List.all_eq_true] at h
  cases items with
  | nil => exact absurd h.1 (by simp)
  | cons item rest => exact ⟨item, List.mem_cons_self, h.2 item List.mem_cons_self⟩

theorem ofJson_of_callJson {text : String} (h : (method.callJson items).result = .ok text) :
    ofJson (.array items) = .ok (.positional items) := by
  refine ofJson_of_not_namesTypes (Bool.eq_false_iff.mpr fun hnames => ?_)
  obtain ⟨item, hmem, hitem⟩ := exists_namesType hnames
  exact Method.not_holdsObject_of_callJson h item hmem (Json.holdsObject_of_namesType hitem)

theorem ofJson_of_mixed {plain : Json} (hmem : plain ∈ items) (hplain : namesType plain = false) :
    ofJson (.array items) = .ok (.positional items) := by
  refine ofJson_of_not_namesTypes (Bool.eq_false_iff.mpr fun hnames => ?_)
  rw [namesTypes, Bool.and_eq_true, List.all_eq_true] at hnames
  exact absurd (hnames.2 plain hmem) (by simp [hplain])

end Positional

/-- Calls that succeed have the plain shape. An array whose items are a call of some method as they
stand is taken for these items, so that the method that its name has in the interface is called; an
array that is taken for anything else is no call of any method as it stands. An array that has
items of both kinds, or an object in some plain argument, makes no call at all. -/
theorem shape_of_call (items : List Json) :
    (∀ (method : Method) (text : String), (method.callJson items).result = .ok text →
      ofJson (.array items) = .ok (.positional items) ∧
        ∀ (interface : Interface) (name : String), interface.find? name = some method →
          callJson (.array items) interface name = method.callJson items) ∧
    ((∃ arguments, ofJson (.array items) = .ok (.typed arguments)) ∨
        (∃ error, ofJson (.array items) = .error error) →
      ∀ method : Method, ∃ error, (method.callJson items).result = .error error) ∧
    ((∃ item ∈ items, namesType item = true) → (∃ item ∈ items, namesType item = false) →
      ∀ (interface : Interface) (name : String),
        ∃ error, (callJson (.array items) interface name).result = .error error) ∧
    ((∃ item ∈ items, item.HoldsObject) → ∀ (interface : Interface) (name : String),
      (∃ error, ((positional items).call interface name).result = .error error) ∧
        (ofJson (.array items) = .ok (.positional items) →
          ∃ error, (callJson (.array items) interface name).result = .error error)) := by
  refine ⟨fun method text h => ?_, fun hother method => ?_, ?_, ?_⟩
  · have hshape := ofJson_of_callJson h
    refine ⟨hshape, fun interface name hname => ?_⟩
    rw [callJson_of_positional hshape, call_positional_of_known hname]
  · cases hresult : (method.callJson items).result with
    | error error => exact ⟨error, rfl⟩
    | ok text =>
      -- then the array would have the plain shape
      rw [ofJson_of_callJson hresult] at hother
      simp at hother
  · rintro ⟨item, hmem, hitem⟩ ⟨plain, hplainMem, hplain⟩ interface name
    rw [callJson_of_positional (ofJson_of_mixed hplainMem hplain)]
    exact exists_error_of_positional (fun _ =>
      Method.exists_error_of_holdsObject hmem (Json.holdsObject_of_namesType hitem)) interface name
  · rintro ⟨item, hmem, hholds⟩ interface name
    have hrefused := exists_error_of_positional (fun _ =>
      Method.exists_error_of_holdsObject hmem hholds) interface name
    refine ⟨hrefused, fun hshape => ?_⟩
    rwa [callJson_of_positional hshape]

/-! ### Values that say their types -/

/-- Arguments that say the types which the last declaration of a name has make the call that their
values make under this name, whatever interface they meet. -/
theorem call_positional_eq_call_typed {items : List Interface.Item} {interface : Interface}
    (hbuilt : (Interface.ofItems items).result = .ok interface) (name : String) :
    (interface.contains name = true ↔ ∃ item, Interface.LastDeclares items name item) ∧
      ∀ item, Interface.LastDeclares items name item → ∀ arguments : List TypedArgument,
        arguments.map TypedArgument.type = item.parameters.map Interface.Parameter.type →
          ∀ other : Interface,
            (positional (arguments.map TypedArgument.value)).call interface name =
              (typed arguments).call other name := by
  refine ⟨Interface.contains_iff_of_ofItems hbuilt, fun item hlast arguments htypes other => ?_⟩
  obtain ⟨method, hfind, hmethod⟩ := Interface.exists_method_of_lastDeclares hbuilt hlast
  obtain ⟨hname, hdeclare⟩ := Interface.Item.method_eq_ok_iff.mp hmethod
  -- the name that is asked for is the method's own, so the arguments declare the same method
  obtain rfl := Option.some.inj (hname.symm.trans (Interface.Item.name_of_declares hlast.1))
  rw [← htypes] at hdeclare
  rw [call_positional_of_known hfind, call, TypedArgument.call_of_declare hdeclare]

/-- A name that is declared twice, and once more by an event. -/
theorem call_positional_eq_call_typed_of_overload :
    ∃ interface, (Interface.ofItems [⟨"function", some "f", [⟨"", "bool"⟩]⟩,
        ⟨"function", some "f", [⟨"amounts", " uint8[]"⟩, ⟨"note", "string"⟩]⟩,
        ⟨"event", some "f", [⟨"", "int8"⟩]⟩]).result = .ok interface ∧
      interface.contains "f" = true ∧
      (positional [.array [.string "0xff"], .string "x"]).call interface "f" =
        (typed [⟨" uint8[]", .array [.string "0xff"]⟩, ⟨"string", .string "x"⟩]).call
          .empty "f" := by
  have hbuilt : (Interface.ofItems [⟨"function", some "f", [⟨"", "bool"⟩]⟩,
      ⟨"function", some "f", [⟨"amounts", " uint8[]"⟩, ⟨"note", "string"⟩]⟩,
      ⟨"event", some "f", [⟨"", "int8"⟩]⟩]).result =
        .ok (.ofMethods [⟨"f", [⟨.base .bool, "bool"⟩]⟩,
          ⟨"f", [⟨.array .uint, "uint8[]"⟩, ⟨.base .string, "string"⟩]⟩]) := by
    decide +kernel
  obtain ⟨hknown, hcall⟩ := call_positional_eq_call_typed hbuilt "f"
  have hlast : Interface.LastDeclares [⟨"function", some "f", [⟨"", "bool"⟩]⟩,
      ⟨"function", some "f", [⟨"amounts", " uint8[]"⟩, ⟨"note", "string"⟩]⟩,
      ⟨"event", some "f", [⟨"", "int8"⟩]⟩] "f"
        ⟨"function", some "f", [⟨"amounts", " uint8[]"⟩, ⟨"note", "string"⟩]⟩ :=
    ⟨rfl, [⟨"function", some "f", [⟨"", "bool"⟩]⟩], [⟨"event", some "f", [⟨"", "int8"⟩]⟩], rfl,
      by decide⟩
  exact ⟨_, hbuilt, hknown.mpr ⟨_, hlast⟩, hcall _ hlast
    [⟨" uint8[]", .array [.string "0xff"]⟩, ⟨"string", .string "x"⟩] rfl _⟩

end Arguments

end CallData
