import CallData.Keyed
import CallData.Method

/-!
# Interfaces

The methods of a contract, in ascending order of their names. An interface is built from declared
items, of which only the functions count; when a name is declared twice the later declaration
holds.

## Main definitions

* `Interface.Parameter`, `Interface.Item` — what an interface declares
* `Interface` — methods under their names
* `Interface.ofItems` — the interface of declared items
* `Interface.find`, `Interface.contains`, `Interface.names` — what an interface holds
* `Interface.call` — a call of a method by its name
-/

namespace CallData

/-- A parameter as it is declared. -/
structure Interface.Parameter where
  name : String
  type : String
  deriving DecidableEq, Repr

/-- A declared item: a function, or something of another kind such as an event. -/
structure Interface.Item where
  kind : String
  name : Option String
  parameters : List Interface.Parameter
  deriving DecidableEq, Repr

namespace Interface.Item

/-- Whether an item declares a function. -/
def isFunction (item : Item) : Bool :=
  item.kind == "function"

/-- The method that a function item declares. A missing name counts before the types. -/
def method (item : Item) : Except CodecError Method :=
  match item.name with
  | none => .error (.invalidAbi "function item without a name")
  | some name => Method.declare name (item.parameters.map Parameter.type)

end Interface.Item

/-- Methods under their names. -/
structure Interface where
  entries : List (String × Method)
  ascending : Keyed.Ascending entries
  deriving DecidableEq

namespace Interface

/-- No methods. -/
def empty : Interface := ⟨[], Keyed.ascending_nil⟩

/-- An interface with one more method, or with the one of that name replaced. -/
def insert (interface : Interface) (method : Method) : Interface :=
  ⟨Keyed.insert method.name method interface.entries, Keyed.ascending_insert interface.ascending⟩

/-- The methods of a list, the last of each name kept. -/
def ofMethods (methods : List Method) : Interface :=
  methods.foldl insert empty

/-- The number of methods. -/
def size (interface : Interface) : Nat :=
  interface.entries.length

/-- Whether there are no methods. -/
def isEmpty (interface : Interface) : Bool :=
  interface.entries.isEmpty

/-- The names of the methods in ascending order. -/
def names (interface : Interface) : List String :=
  interface.entries.map Prod.fst

/-- The method of a name, if there is one. -/
def find? (interface : Interface) (name : String) : Option Method :=
  interface.entries.lookup name

/-- The method of a name. -/
def find (interface : Interface) (name : String) : Except CodecError Method :=
  match interface.find? name with
  | some method => .ok method
  | none => .error (.functionNotFound name)

/-- Whether a name has a method. -/
def contains (interface : Interface) (name : String) : Bool :=
  (interface.find? name).isSome

/-- The interface of declared items. The first function item that declares no method decides the
error. -/
def ofItems (items : List Item) : Logged CodecError Interface := do
  let methods ← Logged.ofExcept ((items.filter Item.isFunction).mapM Item.method)
  let interface := ofMethods methods
  Logged.emit (.interfaceBuilt interface.size)
  return interface

/-- A call of a method by its name, with typed values. -/
def call (interface : Interface) (name : String) (values : List Value) :
    Logged CodecError String := do
  let method ← Logged.ofExcept (interface.find name)
  method.call values

@[simp] theorem find?_empty (name : String) : empty.find? name = none := rfl

theorem find?_insert (interface : Interface) (method : Method) (name : String) :
    (interface.insert method).find? name =
      if name = method.name then some method else interface.find? name :=
  Keyed.lookup_insert name

theorem find_eq_ok_iff {interface : Interface} {name : String} {method : Method} :
    interface.find name = .ok method ↔ interface.find? name = some method := by
  cases h : interface.find? name <;> simp [find, h]

theorem find_eq_error_iff {interface : Interface} {name : String} {error : CodecError} :
    interface.find name = .error error ↔
      interface.find? name = none ∧ error = .functionNotFound name := by
  cases h : interface.find? name <;> simp [find, h, eq_comm]

theorem find_of_unknown {interface : Interface} {name : String} (h : interface.find? name = none) :
    interface.find name = .error (.functionNotFound name) :=
  find_eq_error_iff.mpr ⟨h, rfl⟩

theorem call_of_unknown {interface : Interface} {name : String} (h : interface.find? name = none)
    (values : List Value) : interface.call name values = .fail (.functionNotFound name) := by
  rw [call, find_of_unknown h, Logged.ofExcept_error, Logged.fail_bind]

theorem call_of_known {interface : Interface} {name : String} {method : Method}
    (h : interface.find? name = some method) (values : List Value) :
    interface.call name values = method.call values := by
  rw [call, find_eq_ok_iff.mpr h, Logged.ofExcept_ok, pure_bind]

end Interface

end CallData
