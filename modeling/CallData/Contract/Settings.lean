import CallData.Contract.ProxyError
import CallData.Interface.Declaration

/-!
# Settings

What a contract is bound to, as one JSON record: the address, the interface as a list of items or
as a string that holds such a list, and a sender and a gas limit for the calls.

## Main definitions

* `Settings`, `Settings.ofText` — the record
* `Settings.interface` — the interface in it
-/

namespace CallData

/-- What a contract is bound to. -/
structure Settings where
  address : String
  abi : Json
  sender : Option String
  gas : Option String
  deriving Repr

namespace Settings

/-- Settings in a tree as written; the record is one container around the interface. -/
def read? {σ : Type} [Json.Source σ] (source : σ) : Option Settings :=
  match Json.Source.fields? [["address"], ["abi"], ["from"], ["gas"]] source with
  | some [address, abi, sender, gas] => do
    let address ← Json.Source.required Json.Source.text? address
    let abi ← Json.Source.required (Json.Source.value? (Json.depthLimit - 1)) abi
    let sender ← Json.Source.nullable Json.Source.text? sender
    let gas ← Json.Source.nullable Json.Source.text? gas
    return ⟨address, abi, sender, gas⟩
  | _ => none

/-- Settings in a text. -/
def ofText (text : String) : Except ProxyError Settings :=
  match (Json.Literal.parse? text).bind read? with
  | some settings => .ok settings
  | none => .error .unreadableConfig

/-- The interface in settings. -/
def interface (settings : Settings) : Logged ProxyError Interface :=
  match settings.abi with
  | .string text => (Interface.ofText text).mapError .codec
  | .array items => (Interface.ofJson (.array items)).mapError .codec
  | other => .fail (.invalidConfig ("abi must be an array or a string, got " ++ other.text))

end Settings

end CallData
