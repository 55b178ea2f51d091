import CallData.Proofs.Acceptance
import Mathlib.Data.List.Induction

/-!
# Attempts to add arguments

An assembly may be offered any arguments in any order, and more or fewer than it was made for. An
argument that its type admits is added: one word goes behind the head, and the payload, if there is
one, goes behind the tail. Any other argument fails, and a failure leaves the assembly exactly as
it was, even when most elements of an array were encoded by then.

So three quantities stay in step over any number of attempts. The head has one word for each
success, the tail is a whole number of words, and the next offset is the size of the finished head
together with the tail. This is why the word of a payload says where the payload stands.

## Main definitions

* `Assembly.attempts` — arguments that are tried one after another
* `Assembly.successes` — how many of them succeeded
* `Assembly.IsSound` — head, tail and next offset in step
* `Assembly.Appends`, `Assembly.Attempted` — what a success changes, and what an attempt comes to

## Main results

* `Assembly.push_cases` — one attempt
* `Assembly.isSound_push`, `Assembly.isSound_attempts` — soundness after one attempt and after many
* `Assembly.attempts_outcome` — what is true after every attempt
-/

namespace CallData

open Traversal

namespace Assembly

/-! ### Runs of attempts -/

/-- Arguments that are tried one after another, and what each of them comes to. A failure does not
end the attempts: the next argument is tried on what the failure has left. -/
def attempts (arguments : List (ParamType × Value)) :
    StateM Assembly (List (Except CodecError Unit)) :=
  arguments.mapM fun argument => (push argument.1 argument.2).run

/-- The number of attempts that succeeded. -/
def successes (outcomes : List (Except CodecError Unit)) : Nat :=
  outcomes.countP Except.isOk

@[simp] theorem successes_append_ok (outcomes : List (Except CodecError Unit)) :
    successes (outcomes ++ [.ok ()]) = successes outcomes + 1 :=
  List.countP_append

@[simp] theorem successes_append_error (outcomes : List (Except CodecError Unit))
    (error : CodecError) : successes (outcomes ++ [.error error]) = successes outcomes :=
  List.countP_append

/-- An assembly in front of a number of parameters, to which a number of arguments has been added.
-/
structure IsSound (parameters added : Nat) (assembly : Assembly) : Prop where
  /-- The head has one word for each argument that was added. -/
  head : assembly.head.length = wordSize * added
  /-- The next payload stands behind the finished head and behind the tail. -/
  offset : assembly.nextOffset = wordSize * parameters + assembly.tail.length
  /-- The tail is a whole number of words. -/
  tail : wordSize ∣ assembly.tail.length

/-- What the success of an argument changes in an assembly in front of a number of parameters:
bytes are added behind the head and behind the tail, and nothing else happens to them. -/
inductive Appends (parameters : Nat) (before after : Assembly) : ParamType → Value → Prop
  /-- A value of a static type goes into the head. -/
  | word {type : ParamType} {value : Value} {word : Word} (static : type.isDynamic = false)
      (encoded : type.partOf value = .ok (.static word))
      (head : after.head = before.head ++ word.bytes) (tail : after.tail = before.tail) :
      Appends parameters before after type value
  /-- The payload of a value of a dynamic type goes into the tail. Its word counts the bytes of the
  finished head and of the tail before it, and so denotes the place of the payload when that fits
  into a word. -/
  | payload {type : ParamType} {value : Value} {word : Word} {payload : List UInt8}
      (dynamic : type.isDynamic = true) (encoded : type.partOf value = .ok (.dynamic payload))
      (head : after.head = before.head ++ word.bytes) (tail : after.tail = before.tail ++ payload)
      (points : word = .ofNat (wordSize * parameters + before.tail.length))
      (place : wordSize * parameters + before.tail.length < 2 ^ 256 →
        word.toNat - wordSize * parameters = before.tail.length) :
      Appends parameters before after type value

/-- What one attempt comes to in front of a number of parameters. -/
structure Attempted (parameters : Nat) (before : Assembly) (type : ParamType) (value : Value)
    (outcome : Except CodecError Unit) (after : Assembly) : Prop where
  /-- An attempt succeeds when the value is one that the type admits. -/
  succeeds : outcome = .ok () ↔ type.Admits value
  /-- A success adds bytes. -/
  appends : outcome = .ok () → Appends parameters before after type value
  /-- A failure leaves head, tail and next offset as they were. -/
  unchanged : ∀ error, outcome = .error error → after = before
  /-- An array fails as its first element does that is not admitted, however late that stands. -/
  element : ∀ element items index item, type = .array element → value = .array items →
    FirstFailure element.Admits items index item →
      ∃ error, element.partOf item = .error error ∧ outcome = .error error ∧ after = before

/-! ### One attempt -/

section Step

variable {parameters added : Nat} {assembly : Assembly} {type : ParamType} {value : Value}
  {part : Part}

/-- An attempt adds the part of an argument, or fails for want of a part and does nothing. -/
theorem push_cases (type : ParamType) (value : Value) (assembly : Assembly) :
    (∃ part, type.partOf value = .ok part ∧
      (push type value).run assembly = (.ok (), assembly.add part)) ∨
    (∃ error, type.partOf value = .error error ∧
      (push type value).run assembly = (.error error, assembly)) := by
  cases h : type.partOf value with
  | ok part => exact .inl ⟨part, rfl, push_of_ok h assembly⟩
  | error error => exact .inr ⟨error, rfl, push_of_error h assembly⟩

theorem head_add (assembly : Assembly) (part : Part) :
    (assembly.add part).head = assembly.head ++ (part.headWord assembly.nextOffset).bytes := by
  cases part <;> rfl

theorem tail_add (assembly : Assembly) (part : Part) :
    (assembly.add part).tail = assembly.tail ++ part.payload := by
  cases part with
  | static word => exact (List.append_nil _).symm
  | dynamic payload => rfl

theorem isSound_empty (parameters : Nat) : (empty parameters).IsSound parameters 0 where
  head := rfl
  offset := rfl
  tail := Nat.dvd_zero _

theorem IsSound.add (h : assembly.IsSound parameters added) (haligned : part.Aligned) :
    (assembly.add part).IsSound parameters (added + 1) where
  head := by
    rw [head_add, List.length_append, h.head, Word.length_bytes]
    rfl
  offset := by rw [nextOffset_add, tail_add, List.length_append, h.offset, Nat.add_assoc]
  tail := by
    rw [tail_add, List.length_append]
    exact Nat.dvd_add h.tail haligned

/-- In a sound assembly the word of a payload says where the payload goes. -/
theorem IsSound.appends_add (h : assembly.IsSound parameters added)
    (hpart : type.partOf value = .ok part) :
    Appends parameters assembly (assembly.add part) type value := by
  have hdynamic := ParamType.isDynamic_of_partOf hpart
  have hhead := head_add assembly part
  rw [h.offset] at hhead
  cases part with
  | static word => exact .word hdynamic.symm hpart hhead rfl
  | dynamic payload =>
    refine .payload hdynamic.symm hpart hhead rfl rfl ?_
    intro hfits
    rw [Part.headWord, Word.toNat_ofNat (Word.limit_eq ▸ hfits), Nat.add_sub_cancel_left]

/-- One attempt more, and one success more if it succeeds. -/
theorem isSound_push {outcomes : List (Except CodecError Unit)}
    (h : assembly.IsSound parameters (successes outcomes)) (type : ParamType) (value : Value) :
    ((push type value).run assembly).2.IsSound parameters
      (successes (outcomes ++ [((push type value).run assembly).1])) := by
  obtain ⟨part, hpart, hrun⟩ | ⟨error, -, hrun⟩ := push_cases type value assembly
  · rw [hrun, successes_append_ok]
    exact h.add (ParamType.aligned_of_partOf hpart)
  · rw [hrun, successes_append_error]
    exact h

/-- An array with an element that is not admitted fails as its first such element does, wherever
that stands. -/
theorem run_push_of_firstFailure {element : BaseType} {items : List Value} {index : Nat}
    {item : Value} (h : FirstFailure element.Admits items index item) (assembly : Assembly) :
    ∃ error, element.partOf item = .error error ∧
      (push (.array element) (.array items)).run assembly = (.error error, assembly) := by
  obtain ⟨error, hitem, hitems⟩ := h.exists_mapM_eq_error fun _ => BaseType.admits_iff
  have hpart : (ParamType.array element).partOf (.array items) = .error error := by
    rw [ParamType.partOf_array, BaseType.arrayPayload, hitems]
    rfl
  exact ⟨error, hitem, push_of_error hpart assembly⟩

/-- What one attempt comes to in a sound assembly. -/
theorem IsSound.attempted (h : assembly.IsSound parameters added) (type : ParamType)
    (value : Value) :
    Attempted parameters assembly type value ((push type value).run assembly).1
      ((push type value).run assembly).2 := by
  have helement : ∀ element items index item, type = .array element → value = .array items →
      FirstFailure element.Admits items index item →
        ∃ error, element.partOf item = .error error ∧
          ((push type value).run assembly).1 = .error error ∧
          ((push type value).run assembly).2 = assembly := by
    rintro element items index item rfl rfl hfirst
    obtain ⟨error, hitem, hrun⟩ := run_push_of_firstFailure hfirst assembly
    exact ⟨error, hitem, congrArg Prod.fst hrun, congrArg Prod.snd hrun⟩
  obtain ⟨part, hpart, hrun⟩ | ⟨error, herror, hrun⟩ := push_cases type value assembly
  · rw [hrun] at helement ⊢
    have hadmits : type.Admits value := ParamType.admits_iff.mpr ⟨part, hpart⟩
    refine ⟨iff_of_true rfl hadmits, fun _ => h.appends_add hpart, ?_, helement⟩
    intro error herror
    cases herror
  · rw [hrun] at helement ⊢
    have hrefused : ¬ type.Admits value := by
      rw [ParamType.admits_iff, herror]
      simp
    refine ⟨iff_of_false (by simp) hrefused, ?_, fun _ _ => rfl, helement⟩
    intro hok
    cases hok

end Step

/-! ### Many attempts -/

theorem run_attempts_append_singleton (arguments : List (ParamType × Value)) (type : ParamType)
    (value : Value) {assembly before after : Assembly} {outcomes : List (Except CodecError Unit)}
    {outcome : Except CodecError Unit}
    (harguments : (attempts arguments).run assembly = (outcomes, before))
    (hpush : (push type value).run before = (outcome, after)) :
    (attempts (arguments ++ [(type, value)])).run assembly = (outcomes ++ [outcome], after) := by
  rw [attempts, List.mapM_append, StateT.run_bind]
  change ((attempts arguments).run assembly >>= _) = _
  rw [harguments]
  change (outcomes ++ [((push type value).run before).1], ((push type value).run before).2) = _
  rw [hpush]

/-- After any attempts the assembly is sound, and has as many arguments as attempts succeeded. -/
theorem isSound_attempts (parameters : Nat) (arguments : List (ParamType × Value)) :
    ((attempts arguments).run (empty parameters)).2.IsSound parameters
      (successes ((attempts arguments).run (empty parameters)).1) := by
  induction arguments using List.reverseRecOn with
  | nil => exact isSound_empty parameters
  | append_singleton earlier argument ih =>
    rw [run_attempts_append_singleton earlier argument.1 argument.2 rfl rfl]
    exact isSound_push ih argument.1 argument.2

/-- What is true after every attempt, whatever was tried before. Head, tail and next offset are in
step with the number of successes. A success only adds behind the head and behind the tail, and the
word of a payload is the place of the payload in the tail, counted from the beginning of the head.
A failure changes nothing, be it that of a late element of an array. -/
theorem attempts_outcome (parameters : Nat) (earlier : List (ParamType × Value)) (type : ParamType)
    (value : Value) :
    ∃ outcomes before outcome after,
      (attempts earlier).run (empty parameters) = (outcomes, before) ∧
      (push type value).run before = (outcome, after) ∧
      (attempts (earlier ++ [(type, value)])).run (empty parameters) =
        (outcomes ++ [outcome], after) ∧
      before.IsSound parameters (successes outcomes) ∧
      after.IsSound parameters (successes (outcomes ++ [outcome])) ∧
      Attempted parameters before type value outcome after := by
  have hsound := isSound_attempts parameters earlier
  exact ⟨_, _, _, _, rfl, rfl, run_attempts_append_singleton earlier type value rfl rfl, hsound,
    isSound_push hsound type value, hsound.attempted type value⟩

/-- The second element fails and the first one leaves nothing behind, so the text that is tried
next stands right behind the head. -/
example :
    ((attempts [(.array .bytes, .array [.bytes "ab", .bytes "x"]),
        (.base .string, .string "a")]).run (empty 1)).2 =
      ⟨(Word.ofNat 32).bytes, (Chunk.ofBytes [97]).bytes, 96⟩ := by
  decide

end Assembly

end CallData
