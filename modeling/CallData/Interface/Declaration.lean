import CallData.Interface.Basic
import CallData.Json.Source

/-!
# Interfaces as JSON

An interface is a list of items. An item without a kind is a function; its name may be missing, and
its inputs are none unless they are given. A parameter may do without a name but not without a
type.

## Main definitions

* `Interface.Parameter.read?`, `Interface.Item.read?`, `Interface.Item.readList?` — declarations
* `Interface.ofSource`, `Interface.ofText`, `Interface.ofJson` — the interface that is declared
-/

namespace CallData.Interface

variable {σ : Type} [Json.Source σ]

/-- A parameter: its name, empty unless given, and its type. -/
def Parameter.read? (source : σ) : Option Parameter :=
  match Json.Source.fields? [["name"], ["type"]] source with
  | some [name, type] => do
    let name ← Json.Source.withDefault "" Json.Source.text? name
    let type ← Json.Source.required Json.Source.text? type
    return ⟨name, type⟩
  | _ => none

/-- An item: its kind, its name and its inputs. -/
def Item.read? (source : σ) : Option Item :=
  match Json.Source.fields? [["type"], ["name"], ["inputs"]] source with
  | some [kind, name, parameters] => do
    let kind ← Json.Source.withDefault "function" Json.Source.text? kind
    let name ← Json.Source.nullable Json.Source.text? name
    let parameters ← Json.Source.withDefault [] (Json.Source.list? Parameter.read?) parameters
    return ⟨kind, name, parameters⟩
  | _ => none

/-- A list of items. Every one of them has to be readable, whatever its kind. -/
def Item.readList? (source : σ) : Option (List Item) :=
  Json.Source.list? Item.read? source

/-- A list of items in a text. -/
def Item.listOfText? (text : String) : Option (List Item) :=
  (Json.Literal.parse? text).bind Item.readList?

/-- The interface of items that may not have been readable. -/
def ofItems? : Option (List Item) → Logged CodecError Interface
  | some items => ofItems items
  | none => .fail .unreadable

/-- The interface that a text declares. -/
def ofText (text : String) : Logged CodecError Interface :=
  ofItems? (Item.listOfText? text)

/-- The interface that a value declares. -/
def ofJson (value : Json) : Logged CodecError Interface :=
  ofItems? (Item.readList? value)

end CallData.Interface
