import CallData.Proofs.ArgumentShapes

/-!
# What is reported about an encoding

Before an argument is looked at, its index, its type and the offset of the next payload are
reported. An argument without a part, be it for want of a value or because its value cannot be
encoded, is reported as failed together with the error that the caller gets, and nothing is
reported after that. The offset is the number of bytes in the head and in the payloads of the
arguments before, so in a block that comes about it is what the word of a payload says and where
the payload stands. A call that is refused before its first argument reports nothing.

## Main definitions

* `Event.TellsProgress`, `Event.TellsFailure` — the records of an argument and of its failure
* `Event.progress` — the events of arguments that are looked at one after another
* `Part.offsetAt` — the offset of an argument's payload
* `Block.Traces`, `Block.Placed` — the records of the first arguments, and a payload at its offset
* `Block.Reported`, `Block.Logs` — what is reported about an encoding, and about one with a count

## Main results

* `Assembly.pushAll_of_ok`, `Assembly.pushAll_of_error` — the events of a whole run
* `Block.reported_ofSources` — what is reported about a block
* `Block.logs_calls` — what is reported about calls of every kind
-/

namespace CallData

open Traversal

/-! ### Records -/

namespace Event

/-- The record of an argument that is looked at: a trace of its index, its type and the next
offset. -/
structure TellsProgress (event : Event) (index : Nat) (type : ParamType) (offset : Nat) :
    Prop where
  level : event.level = .trace
  message : event.message = "encoding argument"
  fields : event.fields =
    [("index", toString index), ("ty", type.name), ("next_offset", toString offset)]

/-- The record of an argument that failed: its index, and the code and the text of the error. -/
structure TellsFailure (event : Event) (index : Nat) (error : CodecError) : Prop where
  level : event.level = .debug
  message : event.message = "argument encoding failed: " ++ error.message
  fields : event.fields = [("index", toString index), ("code", toString error.code)]

theorem tellsProgress_encodingArgument (index : Nat) (type : ParamType) (offset : Nat) :
    (encodingArgument index type offset).TellsProgress index type offset :=
  ⟨rfl, rfl, rfl⟩

theorem tellsFailure_argumentFailed (index : Nat) (error : CodecError) :
    (argumentFailed index error).TellsFailure index error :=
  ⟨rfl, rfl, rfl⟩

/-- The events of arguments that are looked at one after another, the first of which has an index
and an offset. An argument is looked at once the arguments before it have their parts. -/
def progress (offset index : Nat) : List ParamType → List Part → List Event
  | [], _ => []
  | type :: _, [] => [.encodingArgument index type offset]
  | type :: types, part :: parts =>
    .encodingArgument index type offset ::
      progress (offset + part.payload.length) (index + 1) types parts

end Event

/-- The offset of an argument's payload: it stands behind a head of one word for each parameter and
behind the payloads of the arguments before it. -/
def Part.offsetAt (parameters : Nat) (parts : List Part) (index : Nat) : Nat :=
  wordSize * parameters + payloadSize (parts.take index)

namespace Block

/-- The records of the first arguments: one for each, with its index, its type and the offset of
its payload. -/
structure Traces (types : List ParamType) (parts : List Part) (count : Nat) (events : List Event) :
    Prop where
  /-- There is one record for each of these arguments. -/
  length : events.length = count
  /-- The record of an argument stands at its index. -/
  told : ∀ index type, index < count → types[index]? = some type → ∃ event,
    events[index]? = some event ∧
      event.TellsProgress index type (Part.offsetAt types.length parts index)

/-- A payload that stands at an offset and is pointed at by the word with an index. -/
structure Placed (block : List UInt8) (index offset : Nat) (payload : List UInt8) : Prop where
  /-- The word of the argument is the word of the offset. -/
  word : wordAt block index = (Word.ofNat offset).bytes
  /-- The word denotes the offset, when that fits into a word. -/
  number : offset < 2 ^ 256 → fromBigEndian (wordAt block index) = offset
  /-- The payload stands there. -/
  found : (block.drop offset).take payload.length = payload

/-- What is reported about arguments that are encoded one after another. Either all of them have a
part; then there is a record for each, and the payloads stand at the offsets that were reported. Or
there is a first one without a part; then there are the records of the arguments up to this one and
the record of its failure, with the error that is returned. -/
inductive Reported {α : Type} (types : List ParamType) (sources : List (Except CodecError Value))
    (finish : List UInt8 → α) : Logged CodecError α → Prop
  | finished {parts : List Part} {events : List Event} {block : List UInt8}
      (encoded : List.Forall₂ (fun argument part => sourcePart argument = .ok part)
        (types.zip sources) parts)
      (traces : Traces types parts types.length events)
      (placed : ∀ index payload, parts[index]? = some (.dynamic payload) →
        Placed block index (Part.offsetAt types.length parts index) payload) :
      Reported types sources finish ⟨events, .ok (finish block)⟩
  | failed {index : Nat} {type : ParamType} {source : Except CodecError Value}
      {parts : List Part} {error : CodecError} {events : List Event} {event : Event}
      (encoded : List.Forall₂ (fun argument part => sourcePart argument = .ok part)
        ((types.zip sources).take index) parts)
      (reached : (types.zip sources)[index]? = some (type, source))
      (refused : sourcePart (type, source) = .error error)
      (traces : Traces types parts (index + 1) events) (told : event.TellsFailure index error) :
      Reported types sources finish ⟨events ++ [event], .error error⟩

/-- What is reported about an encoding that begins with a comparison of counts: nothing at all when
they differ. -/
structure Logs {α : Type} (types : List ParamType) (sources : List (Except CodecError Value))
    (supplied : Nat) (finish : List UInt8 → α) (log : Logged CodecError α) : Prop where
  /-- Another number of arguments is refused without a record. -/
  refused : types.length ≠ supplied →
    log = .fail (.argumentCountMismatch types.length supplied)
  /-- Arguments of the right number are reported. -/
  reported : types.length = supplied → Reported types sources finish log

end Block

/-! ### Runs -/

namespace Event

variable {types : List ParamType} {parts : List Part}

@[simp] theorem progress_nil (offset index : Nat) (parts : List Part) :
    progress offset index [] parts = [] := by
  cases parts <;> rfl

theorem length_progress (offset index : Nat) (types : List ParamType) (parts : List Part) :
    (progress offset index types parts).length = min types.length (parts.length + 1) := by
  induction types generalizing offset index parts with
  | nil => simp
  | cons type types ih =>
    cases parts with
    -- the argument behind the last part is looked at as well
    | nil => simp [progress]
    | cons part parts => simp [progress, ih]

/-- Each argument that is looked at has its event at its own place. -/
theorem getElem?_progress {place : Nat} {type : ParamType} (htype : types[place]? = some type)
    (hplace : place ≤ parts.length) (offset index : Nat) :
    (progress offset index types parts)[place]? =
      some (.encodingArgument (index + place) type
        (offset + Part.payloadSize (parts.take place))) := by
  induction types generalizing offset index parts place with
  | nil => exact absurd htype (by simp)
  | cons first types ih =>
    cases place with
    | zero =>
      obtain rfl := Option.some.inj htype
      cases parts <;> rfl
    | succ place =>
      cases parts with
      | nil => exact absurd hplace (by simp)
      | cons part parts =>
        -- the payload of the first argument moves the offset of all others
        have hnext := ih htype (Nat.le_of_succ_le_succ hplace) (offset + part.payload.length)
          (index + 1)
        rw [progress, List.getElem?_cons_succ, hnext, List.take_succ_cons, Part.payloadSize_cons,
          Nat.add_assoc index, Nat.add_comm 1, Nat.add_assoc offset]

end Event

namespace Assembly

variable {arguments before : List (ParamType × Except CodecError Value)} {parts : List Part}

/-- A run of arguments that all have a part reports each of them. -/
theorem pushAll_of_ok
    (h : List.Forall₂ (fun argument part => sourcePart argument = .ok part) arguments parts)
    (assembly : Assembly) (index : Nat) :
    assembly.pushAll index arguments =
      ⟨Event.progress assembly.nextOffset index (arguments.map Prod.fst) parts,
        .ok (parts.foldl add assembly)⟩ := by
  induction h generalizing assembly index with
  | nil => rfl
  | @cons argument part arguments parts hpart _ ih =>
    rw [pushAll_cons_of_ok hpart, ih, nextOffset_add]
    rfl

/-- A run reports the arguments up to the first that has no part, and then its failure. -/
theorem pushAll_of_error {type : ParamType} {source : Except CodecError Value} {error : CodecError}
    (h : List.Forall₂ (fun argument part => sourcePart argument = .ok part) before parts)
    (herror : sourcePart (type, source) = .error error) (assembly : Assembly) (index : Nat)
    (after : List (ParamType × Except CodecError Value)) :
    assembly.pushAll index (before ++ (type, source) :: after) =
      ⟨Event.progress assembly.nextOffset index (before.map Prod.fst ++ [type]) parts ++
          [.argumentFailed (index + before.length) error],
        .error error⟩ := by
  -- each part moves both the offset and the index, so the assembly and the index are general
  induction h generalizing assembly index with
  | nil =>
    rw [List.nil_append, pushAll_cons_of_error herror]
    rfl
  | @cons argument part before parts hpart _ ih =>
    rw [List.cons_append, pushAll_cons_of_ok hpart, ih, nextOffset_add, List.length_cons,
      Nat.add_right_comm, Nat.add_assoc]
    rfl

end Assembly

/-! ### Blocks -/

namespace Block

section Sources

variable {α : Type} {types : List ParamType} {sources : List (Except CodecError Value)}
  {parts : List Part}

/-- The events of a run are the records of its first arguments, up to the one behind the last part.
-/
theorem traces_progress {count : Nat} (hcount : count ≤ types.length)
    (hparts : count ≤ parts.length + 1) :
    Traces types parts count
      (Event.progress (wordSize * types.length) 0 (types.take count) parts) := by
  constructor
  · rw [Event.length_progress, List.length_take_of_le hcount, Nat.min_eq_left hparts]
  · intro index type hindex htype
    have hget : (types.take count)[index]? = some type := by
      rw [List.getElem?_take_of_lt hindex, htype]
    have hle : index ≤ parts.length := by omega
    refine ⟨_, Event.getElem?_progress hget hle _ _, ?_⟩
    rw [Nat.zero_add]
    exact Event.tellsProgress_encodingArgument _ _ _

/-- In a table every payload stands at its offset. -/
theorem placed_table {index : Nat} {payload : List UInt8}
    (haligned : ∀ part ∈ parts, part.Aligned) (h : parts[index]? = some (.dynamic payload)) :
    Placed (Part.table parts) index (Part.offsetAt parts.length parts index) payload := by
  have hword := Part.wordAt_table haligned h
  refine ⟨hword, fun hfits => ?_, ?_⟩
  · rw [hword]
    exact Word.toNat_ofNat (Word.limit_eq ▸ hfits)
  · rw [Part.offsetAt, ← List.drop_drop, Part.drop_table]
    exact Part.take_drop_flatMap_payload h

/-- Arguments that all have a part are reported, and their payloads stand where it was said. -/
theorem reported_of_ok (hcount : types.length = sources.length)
    (h : List.Forall₂ (fun argument part => sourcePart argument = .ok part)
      (types.zip sources) parts)
    (finish : List UInt8 → α) :
    Reported types sources finish (finish <$> ofSources types sources) := by
  have htypes : (types.zip sources).map Prod.fst = types := List.map_fst_zip (Nat.le_of_eq hcount)
  have hlength : parts.length = types.length := by
    rw [← h.length_eq, List.length_zip, ← hcount, Nat.min_self]
  have haligned : ∀ part ∈ parts, part.Aligned := fun part hpart =>
    (exists_mem_of_mapM (mapM_eq_ok_iff.mpr h) hpart).elim fun _ h => aligned_of_sourcePart h.2
  have htraces : Traces types parts types.length
      (Event.progress (wordSize * types.length) 0 (types.take types.length) parts) :=
    traces_progress (Nat.le_refl types.length) (by omega)
  -- what is put together part by part is the table of the parts, since parts are whole words
  have hlog : finish <$> ofSources types sources =
      ⟨Event.progress (wordSize * types.length) 0 (types.take types.length) parts,
        .ok (finish (Part.table parts))⟩ := by
    rw [ofSources, Assembly.pushAll_of_ok h, htypes, List.take_length,
      ← Assembly.bytes_foldl_add_empty haligned, hlength]
    apply Logged.ext <;> simp [Assembly.empty, Except.map]
  rw [hlog]
  exact .finished h htraces fun _ _ hpart => hlength ▸ placed_table haligned hpart

/-- The first argument without a part is the last one that is reported. -/
theorem reported_of_error {index : Nat} {type : ParamType} {source : Except CodecError Value}
    {error : CodecError} (hcount : types.length = sources.length)
    (h : List.Forall₂ (fun argument part => sourcePart argument = .ok part)
      ((types.zip sources).take index) parts)
    (hreached : (types.zip sources)[index]? = some (type, source))
    (hrefused : sourcePart (type, source) = .error error) (finish : List UInt8 → α) :
    Reported types sources finish (finish <$> ofSources types sources) := by
  have htypes : (types.zip sources).map Prod.fst = types := List.map_fst_zip (Nat.le_of_eq hcount)
  have htype : types[index]? = some type := (List.getElem?_zip_eq_some.mp hreached).1
  have hindex : index < types.length := (List.getElem?_eq_some_iff.mp htype).1
  have htake : ((types.zip sources).take index).length = index := by
    rw [List.length_take, List.length_zip, ← hcount, Nat.min_self]
    exact Nat.min_eq_left (Nat.le_of_lt hindex)
  have hfirst : ((types.zip sources).take index).map Prod.fst ++ [type] =
      types.take (index + 1) := by
    rw [List.map_take, htypes, List.take_add_one, htype, Option.toList_some]
  have htraces : Traces types parts (index + 1)
      (Event.progress (wordSize * types.length) 0 (types.take (index + 1)) parts) :=
    traces_progress hindex (by rw [← h.length_eq, htake])
  -- the arguments behind the one that fails are not looked at
  have hlog : finish <$> ofSources types sources =
      ⟨Event.progress (wordSize * types.length) 0 (types.take (index + 1)) parts ++
        [.argumentFailed index error], .error error⟩ := by
    rw [ofSources, eq_take_append hreached, Assembly.pushAll_of_error h hrefused, hfirst, htake,
      Nat.zero_add]
    apply Logged.ext <;> simp [Assembly.empty, Except.map]
  rw [hlog]
  exact .failed h hreached hrefused htraces (Event.tellsFailure_argumentFailed _ _)

/-- A block reports its arguments. -/
theorem reported_ofSources (hcount : types.length = sources.length) (finish : List UInt8 → α) :
    Reported types sources finish (finish <$> ofSources types sources) := by
  cases hparts : (types.zip sources).mapM sourcePart with
  | ok parts => exact reported_of_ok hcount (mapM_eq_ok_iff.mp hparts) finish
  | error error =>
    -- before the first argument without a part all have one, and those are what is reported
    obtain ⟨index, ⟨type, source⟩, hfirst, hrefused⟩ :=
      exists_firstFailure_of_mapM (fun _ => Iff.rfl) hparts
    obtain ⟨parts, hbefore⟩ := exists_mapM_eq_ok_iff.mpr fun _ hmem => hfirst.of_mem_take hmem
    exact reported_of_error hcount (mapM_eq_ok_iff.mp hbefore) hfirst.1 hrefused finish

theorem reported_ofJson {arguments : List Json} (hcount : types.length = arguments.length)
    (finish : List UInt8 → α) :
    Reported types (List.zipWith Value.ofJson types arguments) finish
      (finish <$> ofJson types arguments) :=
  reported_ofSources (by rw [List.length_zipWith, ← hcount, Nat.min_self]) finish

/-- A block of values reports them, once there are as many as parameters. -/
theorem logs_ofValues (types : List ParamType) (values : List Value) (finish : List UInt8 → α) :
    Logs types (values.map .ok) values.length finish (finish <$> ofValues types values) := by
  constructor
  · intro hcount
    rw [ofValues, requireCount_of_ne hcount]
    rfl
  · intro hcount
    rw [ofValues, hcount, requireCount_self, Logged.ofExcept_ok, pure_bind]
    exact reported_ofSources (by rw [hcount, List.length_map]) finish

end Sources

end Block

/-! ### Calls -/

theorem Method.logs_callJson (method : Method) (arguments : List Json) :
    Block.Logs method.types (List.zipWith Value.ofJson method.types arguments) arguments.length
      (Block.text (some method.selector)) (method.callJson arguments) := by
  constructor
  · intro hcount
    rw [callJson, Block.requireCount_of_ne hcount]
    rfl
  · intro hcount
    rw [callJson_of_length_eq hcount]
    exact Block.reported_ofJson hcount _

namespace TypedArgument

variable {arguments : List TypedArgument} {declared : List DeclaredType}

theorem reported_call (h : parameters arguments = .ok declared) (name : Option String) :
    Block.Reported (declared.map DeclaredType.type)
      (List.zipWith Value.ofJson (declared.map DeclaredType.type) (arguments.map value))
      (Block.text (name.map fun name => (Method.mk name declared).selector))
      (call name arguments) := by
  rw [call_of_parameters_eq_ok h]
  apply Block.reported_ofJson
  rw [List.length_map, List.length_map, length_of_mapM h]

end TypedArgument

/-- What is reported about calls of every kind. Blocks and calls of values, and calls of plain JSON
values, are reported once their number is right. Arguments that say their types are reported once
all types are supported, with a name and without one. A name that an interface does not know is
refused without a record, and a name that it knows is a call of its method. -/
theorem Block.logs_calls :
    (∀ types values, Logs types (values.map .ok) values.length id (ofValues types values)) ∧
    (∀ method values, Logs (Method.types method) (values.map .ok) values.length
      (text (some method.selector)) (method.call values)) ∧
    (∀ method arguments, Logs (Method.types method)
      (List.zipWith Value.ofJson method.types arguments) arguments.length
      (text (some method.selector)) (method.callJson arguments)) ∧
    (∀ name arguments,
      (∀ error, TypedArgument.parameters arguments = .error error →
        TypedArgument.call name arguments = .fail error) ∧
      ∀ declared, TypedArgument.parameters arguments = .ok declared →
        Reported (declared.map DeclaredType.type)
          (List.zipWith Value.ofJson (declared.map DeclaredType.type)
            (arguments.map TypedArgument.value))
          (text (name.map fun name => (Method.mk name declared).selector))
          (TypedArgument.call name arguments)) ∧
    ∀ interface name,
      (Interface.find? interface name = none →
        (∀ values, interface.call name values = .fail (.functionNotFound name)) ∧
        ∀ values, (Arguments.positional values).call interface name =
          .fail (.functionNotFound name)) ∧
      (∀ method, Interface.find? interface name = some method →
        (∀ values, interface.call name values = method.call values) ∧
        ∀ values, (Arguments.positional values).call interface name = method.callJson values) ∧
      ∀ arguments, (Arguments.typed arguments).call interface name =
        TypedArgument.call (some name) arguments := by
  refine ⟨fun types values => ?_, fun method values => logs_ofValues method.types values _,
    Method.logs_callJson, fun name arguments => ⟨fun error h => ?_, fun declared h => ?_⟩,
    fun interface name => ⟨fun hunknown => ?_, fun method hknown => ?_, fun arguments => rfl⟩⟩
  · rw [← id_map (ofValues types values)]
    exact logs_ofValues types values id
  · exact TypedArgument.call_of_parameters_eq_error h name
  · exact TypedArgument.reported_call h name
  · exact ⟨Interface.call_of_unknown hunknown, Arguments.call_positional_of_unknown hunknown⟩
  · exact ⟨Interface.call_of_known hknown, Arguments.call_positional_of_known hknown⟩

/-- A text of two bytes takes two words, and the argument that fails is the last that is reported.
-/
example :
    (Block.ofValues [.base .string, .base .bool, .base .uint]
        [.string "ab", .bool "yes", .uint "1"]).events =
      [.encodingArgument 0 (.base .string) 96, .encodingArgument 1 (.base .bool) 160,
        .argumentFailed 1 (.invalidBoolean "yes")] := by
  decide

end CallData
