import CallData.Json.Basic

/-!
# Codec errors

Why a call could not be encoded or an interface could not be read. Each kind has a code that does
not change, and a detail that names the offending text.

## Main definitions

* `CodecError` — the kinds of failure
* `CodecError.code` — the code of a kind
* `CodecError.message` — the wording
* `CodecError.report` — code and wording as a JSON record
-/

namespace CallData

/-- The kinds of failure, each with what it has to tell. -/
inductive CodecError
  | functionNotFound (name : String)
  | argumentCountMismatch (expected actual : Nat)
  | invalidNumber (detail : String)
  | invalidAddress (detail : String)
  | invalidBoolean (detail : String)
  | invalidHex (detail : String)
  | unsupportedType (text : String)
  | typeMismatch (detail : String)
  | invalidAbi (detail : String)
  | unreadable
  deriving DecidableEq, Repr

namespace CodecError

/-- The code of an error. A text that is no JSON or has not the expected shape is one more reason
for an interface or an argument list to be invalid. -/
def code : CodecError → Nat
  | .functionNotFound _ => 1
  | .argumentCountMismatch _ _ => 2
  | .invalidNumber _ => 3
  | .invalidAddress _ => 4
  | .invalidBoolean _ => 5
  | .invalidHex _ => 6
  | .unsupportedType _ => 7
  | .typeMismatch _ => 8
  | .invalidAbi _ => 9
  | .unreadable => 9

/-- The wording of an error. -/
def message : CodecError → String
  | .functionNotFound name => "function not found: " ++ name
  | .argumentCountMismatch expected actual =>
    "argument count mismatch: expected " ++ toString expected ++ ", got " ++ toString actual
  | .invalidNumber detail => "invalid number: " ++ detail
  | .invalidAddress detail => "invalid address: " ++ detail
  | .invalidBoolean detail => "invalid boolean: " ++ detail
  | .invalidHex detail => "invalid hex: " ++ detail
  | .unsupportedType text => "unsupported type: " ++ text
  | .typeMismatch detail => "type mismatch: " ++ detail
  | .invalidAbi detail => "invalid abi: " ++ detail
  | .unreadable => "invalid abi: not JSON of the expected shape"

/-- The code and the message of an error, as a JSON record for a reader that branches on the code
and shows the message. -/
def report (error : CodecError) : String :=
  Json.brace [("code", toString error.code), ("message", Json.quote error.message)]

end CodecError

end CallData
