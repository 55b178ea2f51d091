import CallData.Json.Basic

/-!
# Call objects

What is handed to a node to make a call: the contract, the data, and a sender and a gas limit if
they are known. Its text keeps this order of members and leaves out what is not known.

## Main definitions

* `CallObject` — the parts of a call
* `CallObject.text` — a call object in JSON
-/

namespace CallData

/-- The parts of a call. -/
structure CallObject where
  sender : Option String
  target : String
  data : String
  gas : Option String
  deriving DecidableEq, Repr

namespace CallObject

/-- A member that may be missing. -/
def optionalMember (key : String) (value : Option String) : List (String × String) :=
  value.toList.map (key, ·)

/-- The members of a call object, in the order in which they are written. -/
def members (call : CallObject) : List (String × String) :=
  optionalMember "from" call.sender ++ [("to", call.target), ("data", call.data)]
    ++ optionalMember "gas" call.gas

/-- A call object in JSON. -/
def text (call : CallObject) : String :=
  Json.brace (call.members.map fun member => (member.1, Json.quote member.2))

end CallObject

end CallData
