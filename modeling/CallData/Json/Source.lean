import CallData.Json.Basic

/-!
# Reading records

Records can be read from a tree as written and from a value. A record is an object, in which a
field stands under one of its names, or an array, in which it stands at its place; an object may
have members that are no fields, an array may not, and fields at its end may be left out. Two
members for one field are an error, also under different names.

A tree as written is read without making values of the parts that no field needs, so these may be
anything that is written properly.

## Main definitions

* `Json.Source` — what records are read from, with an instance for `Literal` and one for `Json`
* `Json.Source.fields?` — the fields of a record
* `Json.Source.list?`, `Json.Source.required`, `Json.Source.nullable` — lists, and fields with and
  without a default
-/

namespace CallData.Json

/-- What records are read from. -/
class Source (σ : Type) where
  /-- Whether there is nothing but `null`. -/
  isNull : σ → Bool
  /-- The text, when it is a string. -/
  text? : σ → Option String
  /-- The items, when it is an array. -/
  items? : σ → Option (List σ)
  /-- The members with their keys, when it is an object. -/
  members? : σ → Option (List (String × σ))
  /-- The value, with room for some depth of containers. -/
  value? : Nat → σ → Option Json

instance : Source Literal where
  isNull
    | .null => true
    | _ => false
  text?
    | .string written => written.text?
    | _ => none
  items?
    | .array items => some items
    | _ => none
  members?
    | .object members => members.mapM fun (key, value) => key.text?.map (·, value)
    | _ => none
  value? := Literal.value?

instance : Source Json where
  isNull
    | .null => true
    | _ => false
  text?
    | .string text => some text
    | _ => none
  items?
    | .array items => some items
    | _ => none
  members?
    | .object members => some members
    | _ => none
  value? _ value := some value

namespace Source

variable {σ : Type} [Source σ] {α : Type}

/-- The member of a field, which may stand under any of its names but only once. -/
def field? (members : List (String × σ)) (names : List String) : Option (Option σ) :=
  match members.filter fun member => names.contains member.1 with
  | [] => some none
  | [(_, source)] => some (some source)
  | _ => none

/-- The fields of a record, in the order in which their names are given. A missing field is `none`.
-/
def fields? (names : List (List String)) (source : σ) : Option (List (Option σ)) :=
  match items? source with
  | some items =>
    if items.length ≤ names.length then
      some (items.map some ++ List.replicate (names.length - items.length) none)
    else none
  | none => (members? source).bind fun members => names.mapM (field? members)

/-- The items of a list, each read in the same way. -/
def list? (read? : σ → Option α) (source : σ) : Option (List α) :=
  (items? source).bind (·.mapM read?)

/-- A field that has to be there. -/
def required (read? : σ → Option α) (field : Option σ) : Option α :=
  field.bind read?

/-- A field with a default. -/
def withDefault (default : α) (read? : σ → Option α) : Option σ → Option α
  | some source => read? source
  | none => some default

/-- A field that may be missing or `null`. -/
def nullable (read? : σ → Option α) : Option σ → Option (Option α)
  | some source => if isNull source then some none else (read? source).map some
  | none => some none

end Source

end CallData.Json
