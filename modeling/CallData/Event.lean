import CallData.CodecError
import CallData.ParamType

/-!
# Events

What the library reports while it works. An event is a value, so that what was reported can be
compared with what was done; its level, message and fields are the texts of a log record.

## Main definitions

* `Event` — the things that are reported
* `Event.level`, `Event.message`, `Event.fields` — an event as a log record
-/

namespace CallData

/-- The things that are reported. -/
inductive Event
  | encodingArgument (index : Nat) (type : ParamType) (nextOffset : Nat)
  | argumentFailed (index : Nat) (error : CodecError)
  | interfaceBuilt (methods : Nat)
  | contractCreated (address : String) (methods : Nat)
  | contractCloned (source target : String)
  deriving DecidableEq, Repr

/-- How much detail a record holds. -/
inductive Event.Level
  | trace
  | debug
  deriving DecidableEq, Repr

namespace Event

/-- The name of a level. -/
def Level.name : Level → String
  | .trace => "TRACE"
  | .debug => "DEBUG"

/-- The level of an event. Only the progress of an encoding is a trace. -/
def level : Event → Level
  | .encodingArgument _ _ _ => .trace
  | .argumentFailed _ _ => .debug
  | .interfaceBuilt _ => .debug
  | .contractCreated _ _ => .debug
  | .contractCloned _ _ => .debug

/-- The message of an event. -/
def message : Event → String
  | .encodingArgument _ _ _ => "encoding argument"
  | .argumentFailed _ error => "argument encoding failed: " ++ error.message
  | .interfaceBuilt _ => "built function catalog"
  | .contractCreated _ _ => "contract proxy created"
  | .contractCloned _ _ => "contract proxy cloned"

/-- The named fields of an event. -/
def fields : Event → List (String × String)
  | .encodingArgument index type nextOffset =>
    [("index", toString index), ("ty", type.name), ("next_offset", toString nextOffset)]
  | .argumentFailed index error => [("index", toString index), ("code", toString error.code)]
  | .interfaceBuilt methods => [("functions", toString methods)]
  | .contractCreated address methods =>
    [("address", address), ("functions", toString methods)]
  | .contractCloned source target => [("from", source), ("to", target)]

end Event

end CallData
