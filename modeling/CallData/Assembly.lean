import CallData.Logged
import CallData.Part

/-!
# Assemblies

A parameter block under construction: the words of its head, the payloads of its tail, and the
offset that the next payload will have. Arguments are pushed one at a time, and an argument that
cannot be encoded leaves the assembly as it was.

## Main definitions

* `Assembly` — head, tail and the next offset
* `Assembly.push` — one more argument
* `Assembly.pushAll` — arguments in order, up to the first that fails
* `Assembly.bytes` — the head followed by the tail

## Main results

* `Assembly.push_of_ok`, `Assembly.push_of_error` — what one argument does to an assembly
-/

namespace CallData

/-- A parameter block under construction. -/
structure Assembly where
  head : List UInt8
  tail : List UInt8
  nextOffset : Nat
  deriving DecidableEq, Repr

namespace Assembly

/-- A step that changes an assembly and may fail; the assembly outlives a failure. -/
abbrev Step := ExceptT CodecError (StateM Assembly) Unit

/-- Nothing yet, in front of the given number of arguments. -/
def empty (arguments : Nat) : Assembly where
  head := []
  tail := []
  nextOffset := wordSize * arguments

/-- A word that is its own value. -/
def addWord (assembly : Assembly) (word : Word) : Assembly :=
  { assembly with head := assembly.head ++ word.bytes }

/-- A payload, and the word that points at it. -/
def addPayload (assembly : Assembly) (payload : List UInt8) : Assembly where
  head := assembly.head ++ (Word.ofNat assembly.nextOffset).bytes
  tail := assembly.tail ++ payload
  nextOffset := assembly.nextOffset + payload.length

/-- A part of either kind. -/
def add (assembly : Assembly) : Part → Assembly
  | .static word => assembly.addWord word
  | .dynamic payload => assembly.addPayload payload

/-- One more argument. Everything that can fail is done before the assembly changes. -/
def push (type : ParamType) (value : Value) : Step :=
  match type.partOf value with
  | .ok part => modify (·.add part)
  | .error error => throw error

/-- One more argument, whose value may itself be missing for a reason. -/
def pushSource (type : ParamType) : Except CodecError Value → Step
  | .ok value => push type value
  | .error error => throw error

/-- Arguments in order, the first of which has the given index; each is looked at only after the
one before it was encoded. The first failure ends the run. -/
def pushAll (assembly : Assembly) (index : Nat) :
    List (ParamType × Except CodecError Value) → Logged CodecError Assembly
  | [] => pure assembly
  | (type, source) :: rest => do
    Logged.emit (.encodingArgument index type assembly.nextOffset)
    match (pushSource type source).run assembly with
    | (.ok _, next) => next.pushAll (index + 1) rest
    | (.error error, _) =>
      Logged.emit (.argumentFailed index error)
      Logged.fail error

/-- The finished block. -/
def bytes (assembly : Assembly) : List UInt8 :=
  assembly.head ++ assembly.tail

theorem push_of_ok {type : ParamType} {value : Value} {part : Part}
    (h : type.partOf value = .ok part) (assembly : Assembly) :
    (push type value).run assembly = (.ok (), assembly.add part) := by
  rw [push, h]
  rfl

theorem push_of_error {type : ParamType} {value : Value} {error : CodecError}
    (h : type.partOf value = .error error) (assembly : Assembly) :
    (push type value).run assembly = (.error error, assembly) := by
  rw [push, h]
  rfl

@[simp] theorem pushSource_ok (type : ParamType) (value : Value) :
    pushSource type (.ok value) = push type value := rfl

@[simp] theorem pushSource_error (type : ParamType) (error : CodecError) (assembly : Assembly) :
    (pushSource type (.error error)).run assembly = (.error error, assembly) := rfl

@[simp] theorem pushAll_nil (assembly : Assembly) (index : Nat) :
    assembly.pushAll index [] = pure assembly := rfl

end Assembly

end CallData
