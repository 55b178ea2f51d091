import CallData.Conversion
import CallData.Proofs.Acceptance

/-!
# Calls with JSON values

A call with JSON values is a call with the values that they stand for. An argument is converted
when it is its turn to be encoded, so of several failures the one in the first argument decides,
whether that argument has no value or its value cannot be encoded. An array has a value only when
all of its items have one; none of them is encoded before that.

## Main definitions

* `Json.StandsFor`, `Json.AllStandFor` — the values that JSON values stand for
* `BaseType.Takes`, `ParamType.Takes` — the JSON values that have a value of a type

## Main results

* `Value.ofJson_eq_ok_iff` — conversion finds the value that a JSON value stands for
* `Block.result_ofSources_of_missing` — a block with a value missing
* `Method.callJson_outcome` — what a call with JSON values comes to
-/

namespace CallData

open Traversal

/-- The value that a JSON value stands for under a parameter type. An array stands for the values
of all of its items. -/
inductive Json.StandsFor : Json → ParamType → Value → Prop
  | base {type : BaseType} {json : Json} {value : Value} (valued : type.valueOf json = .ok value) :
      StandsFor json (.base type) value
  | array {element : BaseType} {items : List Json} {values : List Value}
      (elements : List.Forall₂ (fun item value => element.valueOf item = .ok value) items values) :
      StandsFor (.array items) (.array element) (.array values)

/-- The values that JSON values stand for, one for each parameter. -/
def Json.AllStandFor (types : List ParamType) (arguments : List Json) (values : List Value) :
    Prop :=
  List.Forall₂ (fun argument value => argument.2.StandsFor argument.1 value) (types.zip arguments)
    values

/-- The JSON values that have a value of a base type. -/
def BaseType.Takes (type : BaseType) (json : Json) : Prop :=
  ∃ value, type.valueOf json = .ok value

/-- The JSON values that have a value of a parameter type. -/
def ParamType.Takes (type : ParamType) (json : Json) : Prop :=
  ∃ value, Value.ofJson type json = .ok value

/-! ### Conversion -/

/-- Conversion finds the value that a JSON value stands for. -/
theorem Value.ofJson_eq_ok_iff {type : ParamType} {json : Json} {value : Value} :
    Value.ofJson type json = .ok value ↔ json.StandsFor type value := by
  constructor
  · intro h
    unfold Value.ofJson at h
    split at h
    case h_1 type json => exact .base h
    case h_2 element items =>
      obtain ⟨values, hvalues, rfl⟩ := map_eq_ok_iff.mp h
      exact .array (mapM_eq_ok_iff.mp hvalues)
    case h_3 => exact absurd h (by simp)
  · rintro (hbase | helements)
    · exact hbase
    · exact map_eq_ok_iff.mpr ⟨_, mapM_eq_ok_iff.mpr helements, rfl⟩

/-- An array without a value has the failure of its first item without one. -/
theorem Value.exists_firstFailure_of_ofJson {element : BaseType} {items : List Json}
    {error : CodecError} (h : Value.ofJson (.array element) (.array items) = .error error) :
    ∃ position item, FirstFailure element.Takes items position item ∧
      element.valueOf item = .error error := by
  rw [ofJson_array, map_eq_error_iff] at h
  exact exists_firstFailure_of_mapM (fun _ => Iff.rfl) h

/-- The value of an argument. -/
def argumentValue (argument : ParamType × Json) : Except CodecError Value :=
  Value.ofJson argument.1 argument.2

theorem zipWith_ofJson (types : List ParamType) (arguments : List Json) :
    List.zipWith Value.ofJson types arguments = (types.zip arguments).map argumentValue :=
  (List.map_zip_eq_zipWith (f := argumentValue)).symm

namespace Json

variable {types : List ParamType} {arguments : List Json} {values : List Value}

theorem allStandFor_iff :
    AllStandFor types arguments values ↔
      List.zipWith Value.ofJson types arguments = values.map .ok := by
  rw [zipWith_ofJson, map_eq_map_ok_iff]
  simp only [AllStandFor, argumentValue, Value.ofJson_eq_ok_iff]

theorem AllStandFor.length_eq (h : AllStandFor types arguments values)
    (hcount : types.length = arguments.length) : values.length = types.length := by
  have hlength := List.Forall₂.length_eq h
  rw [List.length_zip, ← hcount, Nat.min_self] at hlength
  exact hlength.symm

theorem exists_allStandFor (h : ∀ argument ∈ types.zip arguments, argument.1.Takes argument.2) :
    ∃ values, AllStandFor types arguments values := by
  obtain ⟨values, hvalues⟩ := exists_mapM_eq_ok_iff.mpr h
  refine ⟨values, allStandFor_iff.mpr ?_⟩
  rw [zipWith_ofJson, map_eq_map_ok_iff]
  exact mapM_eq_ok_iff.mp hvalues

end Json

/-! ### Blocks with a value missing -/

/-- A block whose sources give values up to one that is missing fails as the block of those values
does, and for the missing value when those values have a block. What comes later has no influence.
-/
theorem Block.result_ofSources_of_missing {before after : List ParamType} {type : ParamType}
    {values : List Value} {reason : CodecError} {later : List (Except CodecError Value)}
    (hbefore : before.length = values.length) (hafter : after.length = later.length) :
    (ofSources (before ++ type :: after) (values.map .ok ++ .error reason :: later)).result =
      (ofValues before values).result.bind fun _ => .error reason := by
  have hmissing : sourcePart (type, .error reason) = .error reason := rfl
  rw [result_ofSources (by simp [hbefore, hafter]), result_ofValues_of_length_eq hbefore,
    List.zip_append (by simpa using hbefore), List.zip_cons_cons, mapM_append_of_error hmissing,
    mapM_sourcePart_ok]
  cases (before.zip values).mapM argumentPart <;> rfl

/-! ### Calls -/

namespace Method

variable {method : Method} {arguments : List Json}

theorem callJson_of_length_eq (hcount : method.types.length = arguments.length) :
    method.callJson arguments =
      Block.text (some method.selector) <$> Block.ofJson method.types arguments := by
  rw [callJson, hcount, Block.requireCount_self, Logged.ofExcept_ok, pure_bind]

theorem result_callJson_of_length_ne (hcount : method.types.length ≠ arguments.length) :
    (method.callJson arguments).result =
      .error (.argumentCountMismatch method.types.length arguments.length) := by
  rw [callJson, Block.requireCount_of_ne hcount, Logged.ofExcept_error, Logged.fail_bind,
    Logged.result_fail]

/-- A call with JSON values that all have a value is the call with these values, events included.
-/
theorem callJson_eq_call {values : List Value} (hcount : method.types.length = arguments.length)
    (h : Json.AllStandFor method.types arguments values) :
    method.callJson arguments = method.call values := by
  rw [callJson_of_length_eq hcount, call, Block.ofValues, h.length_eq hcount,
    Block.requireCount_self, Logged.ofExcept_ok, pure_bind, Block.ofJson,
    Json.allStandFor_iff.mp h]

/-- A call with an argument that has no value fails as the arguments before the first such argument
do, and otherwise for the value that is missing. -/
theorem result_callJson_of_firstFailure {index : Nat} {type : ParamType} {json : Json}
    (hcount : method.types.length = arguments.length)
    (hfirst : FirstFailure (fun argument => argument.1.Takes argument.2)
      (method.types.zip arguments) index (type, json)) :
    ∃ reason values, Value.ofJson type json = .error reason ∧
      Json.AllStandFor (method.types.take index) (arguments.take index) values ∧
      (method.types.take index).length = values.length ∧
      (method.callJson arguments).result =
        (Block.ofValues (method.types.take index) values).result.bind fun _ => .error reason := by
  obtain ⟨htype, hjson⟩ := List.getElem?_zip_eq_some.mp hfirst.1
  cases hreason : Value.ofJson type json with
  | ok value => exact absurd ⟨value, hreason⟩ hfirst.2.1
  | error reason =>
    obtain ⟨values, hvalues⟩ := Json.exists_allStandFor fun argument hmem =>
      hfirst.of_mem_take (take_zip index method.types arguments ▸ hmem)
    have htake : (method.types.take index).length = (arguments.take index).length := by
      rw [List.length_take, List.length_take, hcount]
    have hlength := (hvalues.length_eq htake).symm
    refine ⟨reason, values, rfl, hvalues, hlength, ?_⟩
    -- the sources are the values before the argument, its failure, and whatever comes later
    have hsources : List.zipWith Value.ofJson method.types arguments =
        values.map .ok ++ .error reason ::
          List.zipWith Value.ofJson (method.types.drop (index + 1))
            (arguments.drop (index + 1)) := by
      rw [← hreason, ← Json.allStandFor_iff.mp hvalues, ← List.zipWith_cons_cons,
        ← List.zipWith_append htake, ← eq_take_append htype, ← eq_take_append hjson]
    have hlater : (method.types.drop (index + 1)).length = (List.zipWith Value.ofJson
        (method.types.drop (index + 1)) (arguments.drop (index + 1))).length := by
      simp [hcount]
    have hblock : (Block.ofSources method.types
        (List.zipWith Value.ofJson method.types arguments)).result =
          (Block.ofValues (method.types.take index) values).result.bind
            fun _ => .error reason := by
      rw [hsources, ← Block.result_ofSources_of_missing hlength hlater, ← eq_take_append htype]
    rw [callJson_of_length_eq hcount, Logged.result_map, Block.ofJson, hblock]
    cases (Block.ofValues (method.types.take index) values).result <;> rfl

/-- In a call that succeeds there is an argument for each parameter, and all of them have a value.
-/
theorem takes_of_callJson {text : String} (h : (method.callJson arguments).result = .ok text) :
    method.types.length = arguments.length ∧
      ∀ argument ∈ method.types.zip arguments, argument.1.Takes argument.2 := by
  by_cases hcount : method.types.length = arguments.length
  · refine ⟨hcount, exists_mapM_eq_ok_iff.mp ?_⟩
    cases hvalues : (method.types.zip arguments).mapM argumentValue with
    | ok values => exact ⟨values, hvalues⟩
    | error error =>
      -- a value that is missing leaves no success, whatever stands before it
      obtain ⟨index, argument, hfirst, -⟩ :=
        exists_firstFailure_of_mapM (fun _ => Iff.rfl) hvalues
      obtain ⟨reason, values, -, -, -, hresult⟩ :=
        result_callJson_of_firstFailure hcount hfirst
      rw [h] at hresult
      cases hblock : (Block.ofValues (method.types.take index) values).result <;>
        simp [hblock, Except.bind] at hresult
  · exact absurd (h.symm.trans (result_callJson_of_length_ne hcount)) (by simp)

/-- What a call with JSON values comes to. The number of arguments counts first. When all arguments
have a value, the call is the call with these values. Otherwise it fails: with the first value that
is not admitted among those before the first argument without a value, as if it were encoded alone,
or else for the value that is missing, which in an array is that of its first item without one. -/
theorem callJson_outcome (method : Method) (arguments : List Json) :
    (method.types.length ≠ arguments.length → (method.callJson arguments).result =
      .error (.argumentCountMismatch method.types.length arguments.length)) ∧
    (method.types.length = arguments.length →
      ((∀ argument ∈ method.types.zip arguments, argument.1.Takes argument.2) →
        ∃ values, Json.AllStandFor method.types arguments values ∧
          method.callJson arguments = method.call values) ∧
      ∀ index type json, FirstFailure (fun argument => argument.1.Takes argument.2)
          (method.types.zip arguments) index (type, json) →
        ∃ reason values, Value.ofJson type json = .error reason ∧
          Json.AllStandFor (method.types.take index) (arguments.take index) values ∧
          (List.Forall₂ ParamType.Admits (method.types.take index) values →
            (method.callJson arguments).result = .error reason) ∧
          (¬ List.Forall₂ ParamType.Admits (method.types.take index) values →
            ∃ earlier other value error,
              FirstFailure (fun argument => argument.1.Admits argument.2)
                ((method.types.take index).zip values) earlier (other, value) ∧
              (Block.ofValues [other] [value]).result = .error error ∧
              (method.callJson arguments).result = .error error) ∧
          ∀ element items, type = .array element → json = .array items →
            ∃ position item, FirstFailure element.Takes items position item ∧
              element.valueOf item = .error reason) := by
  refine ⟨fun hcount => ?_, fun hcount => ⟨fun hall => ?_, fun index type json hfirst => ?_⟩⟩
  · exact result_callJson_of_length_ne hcount
  · obtain ⟨values, hvalues⟩ := Json.exists_allStandFor hall
    exact ⟨values, hvalues, callJson_eq_call hcount hvalues⟩
  · obtain ⟨reason, values, hreason, hvalues, hlength, hresult⟩ :=
      result_callJson_of_firstFailure hcount hfirst
    refine ⟨reason, values, hreason, hvalues, fun hadmits => ?_, fun hbad => ?_, ?_⟩
    · obtain ⟨block, hblock⟩ := Block.exists_ofValues_iff.mpr hadmits
      rw [hresult, hblock]
      rfl
    · obtain ⟨earlier, other, value, error, hbadFirst, herror, halone, -⟩ :=
        Block.exists_firstFailure_of_not_admitted hlength hbad
      refine ⟨earlier, other, value, error, hbadFirst, halone, ?_⟩
      rw [hresult, herror]
      rfl
    · rintro element items rfl rfl
      exact Value.exists_firstFailure_of_ofJson hreason

/-- An argument that cannot be encoded counts before a later one without a value, and within an
array an item without a value before one that cannot be encoded. -/
example :
    (callJson ⟨"f", [⟨.base .bytes, "bytes"⟩, ⟨.base .uint, "uint8"⟩]⟩
      [.string "0xzz", .bool true]).result =
        .error (.invalidHex "0xzz: Invalid character 'z' at position 0") ∧
    (callJson ⟨"f", [⟨.array .bytes, "bytes[]"⟩]⟩ [.array [.string "0xzz", .bool true]]).result =
      .error (.typeMismatch "expected bytes, got JSON boolean") := by
  decide

end Method

end CallData
