import CallData.CodecError

/-!
# Proxy errors

Why no contract could be bound or no call made for one. What goes wrong with an interface or an
encoding keeps its code.

## Main definitions

* `ProxyError` — the kinds of failure
* `ProxyError.code`, `ProxyError.message` — code and wording
-/

namespace CallData

/-- The kinds of failure, each with what it has to tell. -/
inductive ProxyError
  | codec (error : CodecError)
  | invalidAddress (detail : String)
  | invalidConfig (detail : String)
  | unreadableConfig
  deriving DecidableEq, Repr

namespace ProxyError

/-- The code of an error. -/
def code : ProxyError → Nat
  | .codec error => error.code
  | .invalidAddress _ => 100
  | .invalidConfig _ => 101
  | .unreadableConfig => 101

/-- The wording of an error. -/
def message : ProxyError → String
  | .codec error => "ABI: " ++ error.message
  | .invalidAddress detail => "invalid contract address: " ++ detail
  | .invalidConfig detail => "invalid config: " ++ detail
  | .unreadableConfig => "invalid config: not JSON of the expected shape"

end ProxyError

end CallData
