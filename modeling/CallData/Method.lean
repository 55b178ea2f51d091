import CallData.Block
import CallData.DeclaredType
import CallData.Keccak

/-!
# Methods

A method has a name and declared parameters. Its signature is the name with the canonical texts of
the parameters in parentheses; the first four bytes of the signature's digest select it in a call.

## Main definitions

* `Method`, `Method.declare` — a name and parameters, and the method that a name and type texts
  declare
* `Method.signature`, `Method.selector` — what is hashed, and what a call begins with
* `Method.call` — a call with typed values
-/

namespace CallData

/-- The selector of a signature: the first four bytes of its digest. -/
def Selector.ofSignature (signature : String) : Selector where
  bytes := (Keccak.hash (Text.utf8 signature)).bytes.take 4
  length_bytes := by simp [(Keccak.hash (Text.utf8 signature)).length_bytes, wordSize]

/-- A name and declared parameters. -/
structure Method where
  name : String
  parameters : List DeclaredType
  deriving DecidableEq, Repr

namespace Method

/-- The method of some name whose parameters have the given types. The first type that is not
supported decides the error. -/
def declare (name : String) (types : List String) : Except CodecError Method :=
  (types.mapM DeclaredType.parse).map fun parameters => ⟨name, parameters⟩

/-- The types of the parameters. -/
def types (method : Method) : List ParamType :=
  method.parameters.map DeclaredType.type

/-- The name with the canonical texts of the parameters in parentheses. -/
def signature (method : Method) : String :=
  method.name ++ "(" ++ ",".intercalate (method.parameters.map DeclaredType.canonical) ++ ")"

/-- The bytes that select a method in a call. -/
def selector (method : Method) : Selector :=
  .ofSignature method.signature

/-- A call with typed values, as a text. -/
def call (method : Method) (values : List Value) : Logged CodecError String :=
  Block.text (some method.selector) <$> Block.ofValues method.types values

theorem bytes_selector (method : Method) :
    method.selector.bytes = (Keccak.hash (Text.utf8 method.signature)).bytes.take 4 := by
  rw [selector, Selector.ofSignature]

@[simp] theorem types_mk (name : String) (parameters : List DeclaredType) :
    (mk name parameters).types = parameters.map DeclaredType.type := rfl

@[simp] theorem declare_nil (name : String) : declare name [] = .ok ⟨name, []⟩ := rfl

end Method

end CallData
