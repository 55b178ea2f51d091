import CallData.Proofs.InlineInterface

/-!
# Sessions with a contract

A session starts from a contract and makes changes to it, one after another and in any order. A
change that fails makes no contract, and the session goes on with the one it had.

Every change builds another contract, and a move binds the interface anew. Still nothing gets lost
on the way: the addresses in the contract stay checked, its interface stays the one that was bound
first, and each of its fields has what the last successful change to that field has put there.

## Main definitions

* `Contract.Origin`, `Contract.Origin.bind` — the ways to the first contract
* `Contract.attempt`, `Contract.session` — a change that may fail, and such changes one after
  another
* `Contract.made` — the changes of a session that succeed
* `Contract.IsChecked`, `CallObject.IsChecked` — the addresses pass the check
* `Contract.AnswersLike` — contracts with the same answers to everything
* `Contract.Descends` — what a session has kept and what it has changed

## Main results

* `Contract.revise_eq_ok_iff` — which changes succeed, and what they make
* `Contract.Origin.bind_eq_ok_iff` — which contracts can be the first
* `Contract.IsChecked.session`, `Contract.interface_session`, `Contract.field_session` — what
  becomes of the addresses, of the interface and of the fields
* `Contract.descends_session` — all of this for a session from its first contract on, with its
  calls
-/

namespace CallData

namespace Contract

variable {contract first next : Contract} {revision : Revision}

/-! ### Fields -/

/-- The parts of a contract that a change can be made to. -/
inductive Field
  | address
  | sender
  | gas
  deriving DecidableEq, Repr

/-- What a contract has in a field. -/
def field (contract : Contract) : Field → Option String
  | .address => some contract.address
  | .sender => contract.sender
  | .gas => contract.gas

/-- What a change puts into a field. -/
def Revision.value? : Revision → Field → Option String
  | .move address, .address => some address
  | .sender address, .sender => some address
  | .gas quantity, .gas => some quantity
  | _, _ => none

/-- A contract with what a change puts into it. -/
def set (contract : Contract) : Revision → Contract
  | .sender address => { contract with sender := some address }
  | .gas quantity => { contract with gas := some quantity }
  | .move address => { contract with address }

theorem field_set (contract : Contract) (revision : Revision) (field : Field) :
    (contract.set revision).field field = (revision.value? field).or (contract.field field) := by
  cases revision <;> cases field <;> rfl

@[simp] theorem interface_set (contract : Contract) (revision : Revision) :
    (contract.set revision).interface = contract.interface := by
  cases revision <;> rfl

theorem eq_of_field_eq (hinterface : contract.interface = next.interface)
    (hfield : ∀ field, contract.field field = next.field field) : contract = next := by
  obtain ⟨address, interface, sender, gas⟩ := contract
  obtain rfl := Option.some.inj (hfield .address)
  obtain rfl : sender = _ := hfield .sender
  obtain rfl : gas = _ := hfield .gas
  obtain rfl : interface = _ := hinterface
  rfl

/-! ### One change -/

/-- Changes to addresses that pass the check, and all changes to the gas limit. -/
def Revision.IsAccepted : Revision → Prop
  | .sender address | .move address => Checksum.validate address = .ok true
  | .gas _ => True

/-- The address passes the check, and so does the sender if there is one. -/
structure IsChecked (contract : Contract) : Prop where
  address : Checksum.validate contract.address = .ok true
  sender : ∀ given, contract.sender = some given → Checksum.validate given = .ok true

theorem ofInterface_eq_ok_iff {interface : Interface} {address : String} :
    (ofInterface interface address).result = .ok contract ↔
      Checksum.check address = .ok () ∧ contract = ⟨address, interface, none, none⟩ := by
  rw [ofInterface, Logged.result_bind_eq_ok_iff]
  constructor
  · rintro ⟨⟨⟩, hchecked, hbound⟩
    exact ⟨hchecked, (Except.ok.inj hbound).symm⟩
  · rintro ⟨hchecked, rfl⟩
    exact ⟨(), hchecked, rfl⟩

theorem relocate_eq_ok_iff {address : String} :
    (contract.relocate address).result = .ok next ↔
      Checksum.check address = .ok () ∧ next = { contract with address } := by
  rw [relocate, Logged.result_bind_eq_ok_iff]
  constructor
  · rintro ⟨moved, hmoved, hnext⟩
    obtain ⟨hchecked, rfl⟩ := ofInterface_eq_ok_iff.mp hmoved
    exact ⟨hchecked, (Except.ok.inj hnext).symm⟩
  · rintro ⟨hchecked, rfl⟩
    exact ⟨_, ofInterface_eq_ok_iff.mpr ⟨hchecked, rfl⟩, rfl⟩

/-- A change succeeds when it is accepted, whatever the contract, and puts its value into the
contract. -/
theorem revise_eq_ok_iff :
    (contract.revise revision).result = .ok next ↔
      revision.IsAccepted ∧ next = contract.set revision := by
  cases revision with
  | sender address =>
    rw [revise, Logged.result_ofExcept, setSender_eq_ok_iff, Checksum.check_eq_ok_iff]
    rfl
  | gas quantity => simp [revise, Revision.IsAccepted, set, setGas, eq_comm]
  | move address =>
    rw [revise, relocate_eq_ok_iff, Checksum.check_eq_ok_iff]
    rfl

theorem exists_revise_iff :
    (∃ next, (contract.revise revision).result = .ok next) ↔ revision.IsAccepted := by
  simp only [revise_eq_ok_iff, exists_and_left, exists_eq, and_true]

theorem IsChecked.set (h : contract.IsChecked) (haccepted : revision.IsAccepted) :
    (contract.set revision).IsChecked := by
  cases revision with
  | sender address =>
    refine ⟨h.address, ?_⟩
    intro given hgiven
    obtain rfl := Option.some.inj hgiven
    exact haccepted
  | gas quantity => exact ⟨h.address, h.sender⟩
  | move address => exact ⟨haccepted, h.sender⟩

/-! ### Sessions -/

/-- The contract that a session has after a change: the changed one, or the one it had before when
the change fails. -/
def attempt (contract : Contract) (revision : Revision) : Contract :=
  match (contract.revise revision).result with
  | .ok next => next
  | .error _ => contract

/-- The contract that a session has after changes, one after another. -/
def session (contract : Contract) (revisions : List Revision) : Contract :=
  revisions.foldl attempt contract

/-- The changes of a session that succeed. -/
def made (contract : Contract) : List Revision → List Revision
  | [] => []
  | revision :: later =>
    match (contract.revise revision).result with
    | .ok next => revision :: next.made later
    | .error _ => contract.made later

@[simp] theorem session_nil (contract : Contract) : contract.session [] = contract := rfl

@[simp] theorem session_cons (contract : Contract) (revision : Revision) (later : List Revision) :
    contract.session (revision :: later) = (contract.attempt revision).session later := rfl

theorem session_append (contract : Contract) (revisions later : List Revision) :
    contract.session (revisions ++ later) = (contract.session revisions).session later :=
  List.foldl_append

/-- A change either succeeds and is one of those made, or it leaves the session where it was. -/
theorem attempt_cases (contract : Contract) (revision : Revision) :
    (revision.IsAccepted ∧ contract.attempt revision = contract.set revision ∧
      ∀ later, contract.made (revision :: later) =
        revision :: (contract.attempt revision).made later) ∨
    (contract.attempt revision = contract ∧
      ∀ later, contract.made (revision :: later) = contract.made later) := by
  cases h : (contract.revise revision).result with
  | ok next =>
    obtain ⟨haccepted, rfl⟩ := revise_eq_ok_iff.mp h
    exact .inl ⟨haccepted, by simp [attempt, h], by simp [attempt, made, h]⟩
  | error error => exact .inr ⟨by simp [attempt, h], by simp [made, h]⟩

theorem IsChecked.attempt (h : contract.IsChecked) (revision : Revision) :
    (contract.attempt revision).IsChecked := by
  obtain ⟨haccepted, hset, -⟩ | ⟨hkept, -⟩ := attempt_cases contract revision
  · rw [hset]
    exact h.set haccepted
  · rwa [hkept]

theorem interface_attempt (contract : Contract) (revision : Revision) :
    (contract.attempt revision).interface = contract.interface := by
  obtain ⟨-, hset, -⟩ | ⟨hkept, -⟩ := attempt_cases contract revision
  · rw [hset, interface_set]
  · rw [hkept]

/-- The addresses stay checked. -/
theorem IsChecked.session (h : contract.IsChecked) (revisions : List Revision) :
    (contract.session revisions).IsChecked := by
  -- the contract changes with every step, so the induction is for all checked ones
  induction revisions generalizing contract with
  | nil => exact h
  | cons revision later ih => exact ih (h.attempt revision)

/-- The interface stays the same. -/
theorem interface_session (contract : Contract) (revisions : List Revision) :
    (contract.session revisions).interface = contract.interface := by
  induction revisions generalizing contract with
  | nil => rfl
  | cons revision later ih => rw [session_cons, ih, interface_attempt]

/-- A field has what the last of the changes made has put there, or else what it had at first. -/
theorem field_session (contract : Contract) (revisions : List Revision) (field : Field) :
    (contract.session revisions).field field =
      ((contract.made revisions).filterMap (·.value? field)).getLast?.or
        (contract.field field) := by
  induction revisions generalizing contract with
  | nil => rfl
  | cons revision later ih =>
    rw [session_cons, ih]
    obtain ⟨-, hset, hmade⟩ | ⟨hkept, hmade⟩ := attempt_cases contract revision
    · -- what is made later counts before the first change, and that before the contract
      rw [hmade, hset, field_set, List.filterMap_cons]
      cases revision.value? field with
      | none => rfl
      | some value => rw [Option.some_or, Option.or_some, List.getLast?_cons, Option.some_or]
    · rw [hmade, hkept]

theorem made_sublist (contract : Contract) (revisions : List Revision) :
    (contract.made revisions).Sublist revisions := by
  induction revisions generalizing contract with
  | nil => exact .refl []
  | cons revision later ih =>
    obtain ⟨-, -, hmade⟩ | ⟨-, hmade⟩ := attempt_cases contract revision
    · rw [hmade]
      exact (ih _).cons_cons revision
    · rw [hmade]
      exact (ih _).cons revision

/-- A field is left alone by changes to other fields. -/
theorem field_session_of_forall {revisions : List Revision} {field : Field} (contract : Contract)
    (h : ∀ revision ∈ revisions, revision.value? field = none) :
    (contract.session revisions).field field = contract.field field := by
  -- what succeeds is among what was tried, and nothing of that concerns the field
  have hnone : (contract.made revisions).filterMap (·.value? field) = [] := by
    rw [List.filterMap_eq_nil_iff]
    intro revision hrevision
    exact h revision ((contract.made_sublist revisions).subset hrevision)
  rw [field_session, hnone]
  rfl

/-! ### First contracts -/

theorem result_revisions_eq_ok_iff {address : String} {interface : Interface}
    {sender gas : Option String} :
    ((revisions sender gas).foldlM revise ⟨address, interface, none, none⟩).result = .ok contract ↔
      (∀ given, sender = some given → Checksum.check given = .ok ()) ∧
        contract = ⟨address, interface, sender, gas⟩ := by
  obtain ⟨hsender, hresult⟩ | ⟨given, error, rfl, hrefused, hresult⟩ :=
    result_revisions_cases address interface sender gas
  · rw [hresult, Except.ok.injEq, eq_comm]
    exact (and_iff_right hsender).symm
  · rw [hresult]
    simp [hrefused]

/-- The ways to the first contract of a session. -/
inductive Origin
  | ofText (abi address : String)
  | ofInterface (interface : Interface) (address : String)
  | ofSettings (settings : Settings)

namespace Origin

/-- The first contract. -/
def bind : Origin → Logged ProxyError Contract
  | .ofText abi address => Contract.ofText abi address
  | .ofInterface interface address => Contract.ofInterface interface address
  | .ofSettings settings => Contract.ofSettings settings

/-- The interface of the first contract. -/
def declared : Origin → Logged ProxyError Interface
  | .ofText abi _ => (Interface.ofText abi).mapError .codec
  | .ofInterface interface _ => pure interface
  | .ofSettings settings => settings.interface

/-- The address of the first contract. -/
def address : Origin → String
  | .ofText _ address | .ofInterface _ address => address
  | .ofSettings settings => settings.address

/-- The sender of the first contract. Only settings know one. -/
def sender : Origin → Option String
  | .ofText _ _ | .ofInterface _ _ => none
  | .ofSettings settings => settings.sender

/-- The gas limit of the first contract. Only settings know one. -/
def gas : Origin → Option String
  | .ofText _ _ | .ofInterface _ _ => none
  | .ofSettings settings => settings.gas

/-- What the first contract has in a field. -/
def field (origin : Origin) : Field → Option String
  | .address => some origin.address
  | .sender => origin.sender
  | .gas => origin.gas

/-- Every way checks the address, binds the interface, and then sets what else is known. -/
theorem bind_eq (origin : Origin) : origin.bind = (do
    Logged.ofExcept (Checksum.check origin.address)
    let interface ← origin.declared
    let bound ← create interface origin.address
    (revisions origin.sender origin.gas).foldlM revise bound) := by
  cases origin with
  | ofText abi address =>
    simp [bind, Contract.ofText, declared, Origin.address, sender, gas, revisions]
  | ofInterface interface address =>
    simp [bind, Contract.ofInterface, declared, Origin.address, sender, gas, revisions]
  | ofSettings settings => exact ofSettings_eq settings

/-- The contracts that can be the first: those with checked addresses, the interface that was
declared, and what is known of the fields. -/
theorem bind_eq_ok_iff {origin : Origin} :
    origin.bind.result = .ok first ↔
      first.IsChecked ∧ origin.declared.result = .ok first.interface ∧
        ∀ field, first.field field = origin.field field := by
  rw [bind_eq, Logged.result_bind_eq_ok_iff]
  constructor
  · rintro ⟨⟨⟩, haddress, h⟩
    obtain ⟨interface, hdeclared, h⟩ := Logged.result_bind_eq_ok_iff.mp h
    obtain ⟨bound, hbound, h⟩ := Logged.result_bind_eq_ok_iff.mp h
    obtain rfl := Except.ok.inj hbound
    obtain ⟨hsender, rfl⟩ := result_revisions_eq_ok_iff.mp h
    refine ⟨⟨Checksum.check_eq_ok_iff.mp haddress, ?_⟩, hdeclared, ?_⟩
    · intro given hgiven
      exact Checksum.check_eq_ok_iff.mp (hsender given hgiven)
    · intro field
      cases field <;> rfl
  · rintro ⟨hchecked, hdeclared, hfield⟩
    -- a contract is no more than its interface and its fields
    have hfirst : first = ⟨origin.address, first.interface, origin.sender, origin.gas⟩ := by
      refine eq_of_field_eq rfl fun field => ?_
      rw [hfield]
      cases field <;> rfl
    rw [hfirst] at hchecked ⊢
    refine ⟨(), Checksum.check_eq_ok_iff.mpr hchecked.address, ?_⟩
    refine Logged.result_bind_eq_ok_iff.mpr ⟨first.interface, hdeclared, ?_⟩
    refine Logged.result_bind_eq_ok_iff.mpr ⟨_, rfl, ?_⟩
    refine result_revisions_eq_ok_iff.mpr ⟨?_, rfl⟩
    intro given hgiven
    exact Checksum.check_eq_ok_iff.mpr (hchecked.sender given hgiven)

end Origin

/-! ### Calls of a session -/

/-- Contracts that give the same answers about every method and to every call. -/
structure AnswersLike (contract other : Contract) : Prop where
  find : ∀ name, contract.find name = other.find name
  selector : ∀ name, contract.selector name = other.selector name
  call : ∀ name values, contract.call name values = other.call name values
  callText : ∀ name arguments, contract.callText name arguments = other.callText name arguments

theorem answersLike_of_interface_eq (h : contract.interface = next.interface) :
    contract.AnswersLike next where
  find name := by rw [find, find, h]
  selector name := by rw [selector, selector, find, find, h]
  call name values := by rw [call, call, h]
  callText name arguments := by rw [callText, callText, h]

theorem callObject_eq_ok_iff {name arguments : String} {object : CallObject} :
    (contract.callObject name arguments).result = .ok object ↔
      (contract.callText name arguments).result = .ok object.data ∧
        object = ⟨contract.sender, contract.address, object.data, contract.gas⟩ := by
  rw [callObject, Logged.result_bind_eq_ok_iff]
  constructor
  · rintro ⟨data, hdata, hobject⟩
    obtain rfl := Except.ok.inj hobject
    exact ⟨hdata, rfl⟩
  · rintro ⟨hdata, hobject⟩
    exact ⟨object.data, hdata, congrArg Except.ok hobject.symm⟩

theorem callObject_of_callText {name arguments data : String}
    (h : (contract.callText name arguments).result = .ok data) :
    (contract.callObject name arguments).result =
      .ok ⟨contract.sender, contract.address, data, contract.gas⟩ :=
  callObject_eq_ok_iff.mpr ⟨h, rfl⟩

end Contract

/-- The contract's address passes the check, and so does the sender if there is one. -/
structure CallObject.IsChecked (object : CallObject) : Prop where
  target : Checksum.validate object.target = .ok true
  sender : ∀ given, object.sender = some given → Checksum.validate given = .ok true

namespace Contract

variable {first contract : Contract}

theorem IsChecked.callObject {name arguments : String} {object : CallObject}
    (h : contract.IsChecked) (hobject : (contract.callObject name arguments).result = .ok object) :
    object.IsChecked := by
  obtain ⟨-, hparts⟩ := callObject_eq_ok_iff.mp hobject
  rw [hparts]
  exact ⟨h.address, h.sender⟩

/-- A contract at the end of a session: the changes that were made have left their values in its
fields, and everything else is as in the first contract and as the session's origin has it. -/
structure Descends (origin : Origin) (first : Contract) (made : List Revision)
    (contract : Contract) : Prop where
  checked : contract.IsChecked
  interface : contract.interface = first.interface
  declared : origin.declared.result = .ok contract.interface
  field : ∀ field, contract.field field =
    ((made.filterMap (·.value? field)).getLast?).or (origin.field field)
  answers : contract.AnswersLike first

/-- After any changes the addresses of a contract are checked, its interface and all its answers
are those of the first contract, and its fields have what the last change made to each has put
there, or else what the first contract had. Changes to other fields leave a field alone, and a
further change succeeds when it is accepted. There is a call object for every call, and all call
objects have checked addresses and the data of the call. -/
theorem descends_session {origin : Origin} (hfirst : origin.bind.result = .ok first)
    (revisions : List Revision) :
    Descends origin first (first.made revisions) (first.session revisions) ∧
      (∀ field later, (∀ revision ∈ later, revision.value? field = none) →
        (first.session (revisions ++ later)).field field = (first.session revisions).field field) ∧
      (∀ revision, (∃ next, ((first.session revisions).revise revision).result = .ok next) ↔
        revision.IsAccepted) ∧
      (∀ name arguments data,
        ((first.session revisions).callText name arguments).result = .ok data →
          ∃ object, ((first.session revisions).callObject name arguments).result = .ok object) ∧
      ∀ name arguments object,
        ((first.session revisions).callObject name arguments).result = .ok object →
          object.IsChecked ∧
            ((first.session revisions).callText name arguments).result = .ok object.data := by
  obtain ⟨hchecked, hdeclared, hfield⟩ := Origin.bind_eq_ok_iff.mp hfirst
  have hinterface := first.interface_session revisions
  have hlast := hchecked.session revisions
  refine ⟨⟨hlast, hinterface, ?_, ?_, answersLike_of_interface_eq hinterface⟩, ?_, ?_, ?_, ?_⟩
  · rw [hinterface, hdeclared]
  · intro field
    rw [field_session, hfield]
  · intro field later hlater
    rw [session_append, field_session_of_forall _ hlater]
  · intro revision
    exact exists_revise_iff
  · intro name arguments data hdata
    exact ⟨_, callObject_of_callText hdata⟩
  · intro name arguments object hobject
    exact ⟨hlast.callObject hobject, (callObject_eq_ok_iff.mp hobject).1⟩

/-- Settings with a sender, then a move and a gas limit. A sender that is no address and a move to
half an address are refused, and nothing of them is left. -/
theorem descends_session_of_refused_changes :
    ∃ origin first, (Origin.bind origin).result = .ok first ∧
      Descends origin first
        [.move "0x2222222222222222222222222222222222222222", .gas "0x1"]
        ⟨"0x2222222222222222222222222222222222222222", .ofMethods [⟨"f", []⟩],
          some "0x1111111111111111111111111111111111111111", some "0x1"⟩ := by
  let settings : Settings :=
    ⟨"0x0000000000000000000000000000000000000000", .array [.object [("name", .string "f")]],
      some "0x1111111111111111111111111111111111111111", none⟩
  let first : Contract := ⟨settings.address, .ofMethods [⟨"f", []⟩], settings.sender, none⟩
  let changes : List Revision :=
    [.move "0x2222222222222222222222222222222222222222", .sender "nobody", .gas "0x1",
      .move "0x33333333333333333333"]
  have hfirst : (Origin.ofSettings settings).bind.result = .ok first := by decide +kernel
  have hmade : first.made changes =
      [.move "0x2222222222222222222222222222222222222222", .gas "0x1"] := by decide +kernel
  have hlast : first.session changes =
      ⟨"0x2222222222222222222222222222222222222222", .ofMethods [⟨"f", []⟩],
        some "0x1111111111111111111111111111111111111111", some "0x1"⟩ := by decide +kernel
  have hdescends := (descends_session hfirst changes).1
  rw [hmade, hlast] at hdescends
  exact ⟨_, _, hfirst, hdescends⟩

end Contract

end CallData
