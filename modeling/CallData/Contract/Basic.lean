import CallData.Arguments
import CallData.Contract.CallObject
import CallData.Contract.Checksum
import CallData.Contract.Settings

/-!
# Contracts

A contract is an interface bound to a checked address, with a sender and a gas limit for its calls.
A contract does not change; a revision makes another one, and a revision that fails makes none.

## Main definitions

* `Contract` — an interface at an address
* `Contract.ofText`, `Contract.ofInterface`, `Contract.ofSettings` — contracts from their parts
* `Contract.setSender`, `Contract.setGas`, `Contract.relocate` — the three revisions
* `Contract.Revision`, `Contract.revise` — revisions as values
* `Contract.find`, `Contract.selector` — the method of a name and its selector
* `Contract.call`, `Contract.callText`, `Contract.callObject` — calls
-/

namespace CallData

/-- An interface at an address, and what its calls say besides. -/
structure Contract where
  address : String
  interface : Interface
  sender : Option String
  gas : Option String
  deriving DecidableEq

namespace Contract

/-! ### Binding -/

/-- The contract of an interface at an address that is known to be good. -/
def create (interface : Interface) (address : String) : Logged ProxyError Contract := do
  Logged.emit (.contractCreated address interface.size)
  return ⟨address, interface, none, none⟩

/-- The contract of an interface at an address. -/
def ofInterface (interface : Interface) (address : String) : Logged ProxyError Contract := do
  Logged.ofExcept (Checksum.check address)
  create interface address

/-- The contract of the interface that a text declares. The address is checked before the text is
read. -/
def ofText (abi address : String) : Logged ProxyError Contract := do
  Logged.ofExcept (Checksum.check address)
  let interface ← (Interface.ofText abi).mapError .codec
  create interface address

/-! ### Revisions -/

/-- A contract with another sender. -/
def setSender (contract : Contract) (address : String) : Except ProxyError Contract :=
  (Checksum.check address).map fun _ => { contract with sender := some address }

/-- A contract with another gas limit. -/
def setGas (contract : Contract) (gas : String) : Contract :=
  { contract with gas := some gas }

/-- A contract with the same interface, sender and gas limit at another address. -/
def relocate (contract : Contract) (address : String) : Logged ProxyError Contract := do
  let moved ← ofInterface contract.interface address
  Logged.emit (.contractCloned contract.address address)
  return { moved with sender := contract.sender, gas := contract.gas }

/-- A change to a contract. -/
inductive Revision
  | sender (address : String)
  | gas (quantity : String)
  | move (address : String)
  deriving DecidableEq, Repr

/-- The contract after a change. -/
def revise (contract : Contract) : Revision → Logged ProxyError Contract
  | .sender address => Logged.ofExcept (contract.setSender address)
  | .gas quantity => pure (contract.setGas quantity)
  | .move address => contract.relocate address

/-- The contract that settings describe. The address is checked before the interface is read, and
the sender after it. -/
def ofSettings (settings : Settings) : Logged ProxyError Contract := do
  Logged.ofExcept (Checksum.check settings.address)
  let interface ← settings.interface
  let bound ← create interface settings.address
  let sent ← match settings.sender with
    | some sender => Logged.ofExcept (bound.setSender sender)
    | none => pure bound
  return match settings.gas with
    | some gas => sent.setGas gas
    | none => sent

/-! ### Calls -/

/-- The method of a name. -/
def find (contract : Contract) (name : String) : Except ProxyError Method :=
  (contract.interface.find name).mapError .codec

/-- The selector of a method by its name, in hexadecimal. -/
def selector (contract : Contract) (name : String) : Except ProxyError String :=
  (contract.find name).map fun method => method.selector.text

/-- A call with typed values. -/
def call (contract : Contract) (name : String) (values : List Value) :
    Logged ProxyError String :=
  (contract.interface.call name values).mapError .codec

/-- A call with the arguments that a text holds, in either shape. -/
def callText (contract : Contract) (name arguments : String) : Logged ProxyError String := do
  let arguments ← Logged.ofExcept ((Arguments.ofText arguments).mapError .codec)
  (arguments.call contract.interface name).mapError .codec

/-- A call object for the arguments that a text holds. -/
def callObject (contract : Contract) (name arguments : String) :
    Logged ProxyError CallObject := do
  let data ← contract.callText name arguments
  return ⟨contract.sender, contract.address, data, contract.gas⟩

@[simp] theorem interface_setGas (contract : Contract) (gas : String) :
    (contract.setGas gas).interface = contract.interface := rfl

@[simp] theorem address_setGas (contract : Contract) (gas : String) :
    (contract.setGas gas).address = contract.address := rfl

theorem setSender_eq_ok_iff {contract sent : Contract} {address : String} :
    contract.setSender address = .ok sent ↔
      Checksum.check address = .ok () ∧ sent = { contract with sender := some address } := by
  unfold setSender
  cases Checksum.check address <;> simp [Except.map, eq_comm]

end Contract

end CallData
