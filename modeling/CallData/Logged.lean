import CallData.Event

/-!
# Results with events

A computation that reports events and then succeeds or fails. What was reported before a failure
stays reported.

## Main definitions

* `Logged` — events and a result
* `Logged.emit`, `Logged.fail`, `Logged.ofExcept` — one event, a failure, a result without events
* `Logged.mapError` — the same events with another kind of error

## Main results

* `LawfulMonad (Logged ε)` — the order in which steps are grouped does not matter
-/

namespace CallData

/-- The events of a computation, in order, and its result. -/
structure Logged (ε α : Type) where
  events : List Event
  result : Except ε α

namespace Logged

variable {ε ε' α β : Type}

/-- A result without events. -/
def ofExcept (result : Except ε α) : Logged ε α := ⟨[], result⟩

/-- One event. -/
def emit (event : Event) : Logged ε Unit := ⟨[event], .ok ()⟩

/-- A failure. -/
def fail (error : ε) : Logged ε α := ⟨[], .error error⟩

/-- One computation after another that succeeded. -/
def andThen (first : Logged ε α) (next : α → Logged ε β) : Logged ε β :=
  match first.result with
  | .ok value => ⟨first.events ++ (next value).events, (next value).result⟩
  | .error error => ⟨first.events, .error error⟩

instance : Monad (Logged ε) where
  pure value := ⟨[], .ok value⟩
  bind := andThen

/-- The same events with another kind of error. -/
def mapError (convert : ε → ε') (computation : Logged ε α) : Logged ε' α :=
  ⟨computation.events, computation.result.mapError convert⟩

@[ext] theorem ext {first second : Logged ε α} (hevents : first.events = second.events)
    (hresult : first.result = second.result) : first = second := by
  cases first
  cases second
  cases hevents
  cases hresult
  rfl

@[simp] theorem events_pure (value : α) : (pure value : Logged ε α).events = [] := rfl

@[simp] theorem result_pure (value : α) : (pure value : Logged ε α).result = .ok value := rfl

@[simp] theorem events_ofExcept (result : Except ε α) : (ofExcept result).events = [] := rfl

@[simp] theorem result_ofExcept (result : Except ε α) : (ofExcept result).result = result := rfl

@[simp] theorem ofExcept_ok (value : α) : (ofExcept (.ok value) : Logged ε α) = pure value := rfl

@[simp] theorem ofExcept_error (error : ε) :
    (ofExcept (.error error) : Logged ε α) = fail error := rfl

@[simp] theorem events_fail (error : ε) : (fail error : Logged ε α).events = [] := rfl

@[simp] theorem result_fail (error : ε) : (fail error : Logged ε α).result = .error error := rfl

@[simp] theorem events_emit (event : Event) : (emit event : Logged ε Unit).events = [event] := rfl

@[simp] theorem result_emit (event : Event) : (emit event : Logged ε Unit).result = .ok () := rfl

@[simp] theorem events_mapError (convert : ε → ε') (computation : Logged ε α) :
    (computation.mapError convert).events = computation.events := rfl

@[simp] theorem result_mapError (convert : ε → ε') (computation : Logged ε α) :
    (computation.mapError convert).result = computation.result.mapError convert := rfl

theorem bind_eq (first : Logged ε α) (next : α → Logged ε β) :
    first >>= next = first.andThen next := rfl

/-- After a success the events follow each other and the later result counts. -/
theorem bind_of_ok {first : Logged ε α} {value : α} (h : first.result = .ok value)
    (next : α → Logged ε β) :
    first >>= next = ⟨first.events ++ (next value).events, (next value).result⟩ := by
  rw [bind_eq, andThen, h]

/-- After a failure nothing follows. -/
theorem bind_of_error {first : Logged ε α} {error : ε} (h : first.result = .error error)
    (next : α → Logged ε β) : first >>= next = ⟨first.events, .error error⟩ := by
  rw [bind_eq, andThen, h]

@[simp] theorem result_bind (first : Logged ε α) (next : α → Logged ε β) :
    (first >>= next).result = first.result.bind fun value => (next value).result := by
  cases h : first.result with
  | ok value => rw [bind_of_ok h]; rfl
  | error error => rw [bind_of_error h]; rfl

/-- A computation in two steps succeeds when both of them do. -/
theorem result_bind_eq_ok_iff {first : Logged ε α} {next : α → Logged ε β} {result : β} :
    (first >>= next).result = .ok result ↔
      ∃ value, first.result = .ok value ∧ (next value).result = .ok result := by
  rw [result_bind]
  cases first.result <;> simp [Except.bind]

@[simp] theorem result_map (convert : α → β) (computation : Logged ε α) :
    (convert <$> computation).result = computation.result.map convert := by
  rcases computation with ⟨events, _ | _⟩ <;> rfl

@[simp] theorem events_map (convert : α → β) (computation : Logged ε α) :
    (convert <$> computation).events = computation.events := by
  rcases computation with ⟨events, _ | _⟩
  · rfl
  · exact List.append_nil events

@[simp] theorem emit_bind (event : Event) (next : Unit → Logged ε β) :
    emit event >>= next = ⟨event :: (next ()).events, (next ()).result⟩ := rfl

@[simp] theorem fail_bind (error : ε) (next : α → Logged ε β) :
    (fail error : Logged ε α) >>= next = fail error := rfl

instance : LawfulMonad (Logged ε) := LawfulMonad.mk' (Logged ε)
  (fun computation => by
    rcases computation with ⟨events, _ | _⟩ <;>
      simp [Functor.map, andThen])
  (fun value next => by simp [Bind.bind, Pure.pure, andThen])
  (fun first next last => by
    rcases first with ⟨events, _ | value⟩
    · simp [Bind.bind, andThen]
    · rcases h : next value with ⟨later, _ | _⟩ <;> simp [Bind.bind, andThen, h])

end Logged

end CallData
