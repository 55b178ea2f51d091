import CallData.Contract.Basic
import CallData.Proofs.Denotation

/-!
# Interfaces as texts and as values

An interface may come as a text, or as the value of that text inside settings. A text is read as it
is written: parts that no field needs are skipped, and members stand where they were put. A value
has been read before: everything in it has a meaning, and members stand in the order of their
names. Both ways declare the same, when the text has a value and no object in it has a name twice.

So it does not matter in which of the two ways a contract gets its interface, nor whether its
sender and its gas limit come with the interface or are set afterwards.

## Main definitions

* `Json.NamesOnce` — texts in which no object has a name twice
* `Contract.ofParts` — a contract that gets its sender and its gas limit afterwards
* `Contract.Outcome` — what becomes of an address, an interface, a sender and a gas limit

## Main results

* `Interface.ofText_eq_ofJson` — a text declares the interface that its value declares
* `Contract.ofParts_eq_ofSettings` — three ways to a contract that come to the same
-/

namespace CallData

/-- Texts that hold a tree in which no object has a name twice. -/
def Json.NamesOnce (text : String) : Prop :=
  ∃ tree, Literal.parse? text = some tree ∧ tree.NamesOnce

/-! ### Interfaces -/

namespace Interface

open Json.Source

theorem Parameter.agree_read? : Agree Parameter.read? Parameter.read? := by
  intro tree value h
  have hfields := h.rel_fields? [["name"], ["type"]]
  unfold Parameter.read?
  generalize fields? _ tree = fields, fields? _ value = fields' at hfields ⊢
  -- there are two fields or the reader gives up, on both sides alike
  rcases hfields with @⟨_, _, _ | ⟨hname, _ | ⟨htype, _ | _⟩⟩⟩ | _
  · rfl
  · rfl
  · dsimp only
    rw [agree_text?.withDefault "" hname, agree_text?.required htype]
  · rfl
  · rfl

theorem Item.agree_read? : Agree Item.read? Item.read? := by
  intro tree value h
  have hfields := h.rel_fields? [["type"], ["name"], ["inputs"]]
  unfold Item.read?
  generalize fields? _ tree = fields, fields? _ value = fields' at hfields ⊢
  rcases hfields with @⟨_, _, _ | ⟨hkind, _ | ⟨hname, _ | ⟨hparameters, _ | _⟩⟩⟩⟩ | _
  · rfl
  · rfl
  · rfl
  · dsimp only
    rw [agree_text?.withDefault "function" hkind, agree_text?.nullable hname,
      Parameter.agree_read?.list?.withDefault [] hparameters]
  · rfl
  · rfl

/-- A text declares the interface that its value declares. -/
theorem ofText_eq_ofJson {text : String} {value : Json} (hvalue : Json.parse? text = some value)
    (hnames : Json.NamesOnce text) : ofText text = ofJson value := by
  obtain ⟨tree, htree, hnames⟩ := hnames
  rw [Json.parse?, htree, Option.bind_some] at hvalue
  have hitems : Item.readList? tree = Item.readList? value :=
    Item.agree_read?.list? tree value (hnames.denotes hvalue)
  rw [ofText, ofJson, Item.listOfText?, htree, Option.bind_some, hitems]

/-- A name that stands twice is refused in a text and counts once in its value. -/
example :
    (ofText "[\x7b\"name\":\"f\",\"name\":\"f\"\x7d]").result = .error .unreadable ∧
      (Json.parse? "[\x7b\"name\":\"f\",\"name\":\"f\"\x7d]").map
          (fun value => (ofJson value).result) =
        some (.ok (.ofMethods [⟨"f", []⟩])) := by
  decide +kernel

end Interface

/-! ### Contracts -/

namespace Contract

variable {text address : String} {sender gas : Option String}

/-- The changes that give a contract a sender and a gas limit, where these are known. -/
def revisions (sender gas : Option String) : List Revision :=
  sender.toList.map .sender ++ gas.toList.map .gas

/-- The contract of the interface that a text declares, which afterwards gets a sender and a gas
limit where these are known. -/
def ofParts (abi address : String) (sender gas : Option String) : Logged ProxyError Contract := do
  let bound ← ofText abi address
  (revisions sender gas).foldlM revise bound

theorem ofSettings_eq (settings : Settings) :
    ofSettings settings = (do
      Logged.ofExcept (Checksum.check settings.address)
      let interface ← settings.interface
      let bound ← create interface settings.address
      (revisions settings.sender settings.gas).foldlM revise bound) := by
  obtain ⟨address, abi, sender, gas⟩ := settings
  cases sender <;> cases gas <;> simp [ofSettings, revisions, revise]

theorem ofSettings_string :
    ofSettings ⟨address, .string text, sender, gas⟩ = ofParts text address sender gas := by
  simp [ofSettings_eq, ofParts, ofText, Settings.interface]

theorem ofSettings_array {items : List Json}
    (h : Interface.ofText text = Interface.ofJson (.array items)) :
    ofSettings ⟨address, .array items, sender, gas⟩ = ofParts text address sender gas := by
  simp [ofSettings_eq, ofParts, ofText, Settings.interface, h]

/-- What becomes of an address, an interface, a sender and a gas limit. The address decides first,
then the interface, and then the sender. -/
inductive Outcome (address : String) (interface : Except CodecError Interface)
    (sender gas : Option String) : Except ProxyError Contract → Prop
  | address {error : ProxyError} (refused : Checksum.check address = .error error) :
      Outcome address interface sender gas (.error error)
  | interface {error : CodecError} (checked : Checksum.check address = .ok ())
      (refused : interface = .error error) :
      Outcome address interface sender gas (.error (.codec error))
  | sender {declared : Interface} {given : String} {error : ProxyError}
      (checked : Checksum.check address = .ok ()) (readable : interface = .ok declared)
      (known : sender = some given) (refused : Checksum.check given = .error error) :
      Outcome address interface sender gas (.error error)
  | bound {declared : Interface} (checked : Checksum.check address = .ok ())
      (readable : interface = .ok declared)
      (sent : ∀ given, sender = some given → Checksum.check given = .ok ()) :
      Outcome address interface sender gas (.ok ⟨address, declared, sender, gas⟩)

theorem result_ofText_of_refused {error : ProxyError} (h : Checksum.check address = .error error) :
    (ofText text address).result = .error error := by
  simp [ofText, h]

theorem result_ofText_of_checked (h : Checksum.check address = .ok ()) :
    (ofText text address).result =
      ((Interface.ofText text).result.mapError .codec).map (⟨address, ·, none, none⟩) := by
  rw [ofText, h, Logged.ofExcept_ok, pure_bind, Logged.result_bind, Logged.result_mapError]
  cases (Interface.ofText text).result <;> rfl

theorem result_revisions_of_refused {contract : Contract} {given : String} {error : ProxyError}
    (h : Checksum.check given = .error error) :
    ((revisions (some given) gas).foldlM revise contract).result = .error error := by
  simp [revisions, revise, setSender, h, Except.map]

theorem result_revisions_of_checked {declared : Interface}
    (h : ∀ given, sender = some given → Checksum.check given = .ok ()) :
    ((revisions sender gas).foldlM revise ⟨address, declared, none, none⟩).result =
      .ok ⟨address, declared, sender, gas⟩ := by
  cases sender with
  | none => cases gas <;> rfl
  | some given =>
    cases gas <;> simp [revisions, revise, setSender, setGas, Except.map, h given rfl]

/-- A sender and a gas limit are set, unless there is a sender that is refused. -/
theorem result_revisions_cases (address : String) (declared : Interface)
    (sender gas : Option String) :
    (∀ given, sender = some given → Checksum.check given = .ok ()) ∧
        ((revisions sender gas).foldlM revise ⟨address, declared, none, none⟩).result =
          .ok ⟨address, declared, sender, gas⟩ ∨
      ∃ given error, sender = some given ∧ Checksum.check given = .error error ∧
        ((revisions sender gas).foldlM revise ⟨address, declared, none, none⟩).result =
          .error error := by
  by_cases hsender : ∀ given, sender = some given → Checksum.check given = .ok ()
  · exact .inl ⟨hsender, result_revisions_of_checked hsender⟩
  · push Not at hsender
    obtain ⟨given, rfl, hgiven⟩ := hsender
    cases hrefused : Checksum.check given with
    | ok _ => exact absurd hrefused hgiven
    | error error => exact .inr ⟨given, error, rfl, hrefused, result_revisions_of_refused hrefused⟩

theorem outcome_ofParts :
    Outcome address (Interface.ofText text).result sender gas
      (ofParts text address sender gas).result := by
  rw [ofParts, Logged.result_bind]
  cases haddress : Checksum.check address with
  | error error =>
    rw [result_ofText_of_refused haddress]
    exact .address haddress
  | ok _ =>
    rw [result_ofText_of_checked haddress]
    cases hinterface : (Interface.ofText text).result with
    | error error => exact .interface haddress rfl
    | ok declared =>
      -- only the sender is left to decide
      change Outcome _ _ _ _
        ((revisions sender gas).foldlM revise ⟨address, declared, none, none⟩).result
      obtain ⟨hsender, hresult⟩ | ⟨given, error, rfl, hrefused, hresult⟩ :=
        result_revisions_cases address declared sender gas
      · rw [hresult]
        exact .bound haddress rfl hsender
      · rw [hresult]
        exact .sender haddress rfl rfl hrefused

/-- The interface that a text declares is the one that its value declares. When the value is an
array, the contract of the text, the contract of settings that hold the text and the contract of
settings that hold the value are the same, or are refused for the same reason, with the same
events. -/
theorem ofParts_eq_ofSettings {value : Json} (hvalue : Json.parse? text = some value)
    (hnames : Json.NamesOnce text) :
    Interface.ofText text = Interface.ofJson value ∧
      ∀ items, value = .array items → ∀ address sender gas,
        ofParts text address sender gas = ofSettings ⟨address, .string text, sender, gas⟩ ∧
        ofParts text address sender gas = ofSettings ⟨address, value, sender, gas⟩ ∧
        Outcome address (Interface.ofText text).result sender gas
          (ofParts text address sender gas).result := by
  have hsame := Interface.ofText_eq_ofJson hvalue hnames
  refine ⟨hsame, ?_⟩
  rintro items rfl address sender gas
  exact ⟨ofSettings_string.symm, (ofSettings_array hsame).symm, outcome_ofParts⟩

/-- Items as an object and as an array, with an escaped name, and members in another order than
their names. -/
theorem ofParts_eq_ofSettings_of_escaped_name :
    ∃ text items, Json.parse? text = some (.array items) ∧ Json.NamesOnce text ∧
      Interface.ofText text = Interface.ofJson (.array items) ∧ ∀ address sender gas,
        ofParts text address sender gas = ofSettings ⟨address, .string text, sender, gas⟩ ∧
        ofParts text address sender gas = ofSettings ⟨address, .array items, sender, gas⟩ := by
  obtain ⟨text, htokens⟩ : ∃ text : String, Json.Token.scan? text.toList = some [
      .openArray, .openObject,
      .string [.char 'n', .char 'a', .unit 0x6d, .char 'e'], .colon, .string [.char 'f'], .comma,
      .string ("inputs".toList.map .char), .colon, .openArray, .openArray, .string [], .comma,
      .string ("bool".toList.map .char), .closeArray, .closeArray,
      .closeObject, .comma, .openArray, .string ("event".toList.map .char), .closeArray,
      .closeArray] :=
    ⟨"[\x7b\"na\\u006de\":\"f\",\"inputs\":[[\"\",\"bool\"]]\x7d,[\"event\"]]", by decide +kernel⟩
  have htree : Json.Literal.parse? text = some (.array [
      .object [([.char 'n', .char 'a', .unit 0x6d, .char 'e'], .string [.char 'f']),
        ("inputs".toList.map .char,
          .array [.array [.string [], .string ("bool".toList.map .char)]])],
      .array [.string ("event".toList.map .char)]]) := by
    rw [Json.Literal.parse?, htokens]
    rfl
  have horder : Text.Precedes "inputs" "name" := by decide
  have hvalue : Json.parse? text = some (.array [
      .object [("inputs", .array [.array [.string "", .string "bool"]]), ("name", .string "f")],
      .array [.string "event"]]) := by
    rw [Json.parse?, htree, Option.bind_some]
    simp [Json.depthLimit, Json.Literal.value?, Json.Literal.values?, Json.Literal.memberValues?,
      Json.Written.text?, Json.Written.characters?, Json.isLeadingUnit, Json.isTrailingUnit,
      Keyed.ofList, Keyed.insert, horder]
  have hnames : Json.NamesOnce text := by
    refine ⟨_, htree, ?_⟩
    simp [Json.Written.text?, Json.Written.characters?, Json.isLeadingUnit, Json.isTrailingUnit]
  obtain ⟨hsame, hsettings⟩ := ofParts_eq_ofSettings hvalue hnames
  refine ⟨text, _, hvalue, hnames, hsame, fun address sender gas => ?_⟩
  obtain ⟨htext, hitems, -⟩ := hsettings _ rfl address sender gas
  exact ⟨htext, hitems⟩

end Contract

end CallData
