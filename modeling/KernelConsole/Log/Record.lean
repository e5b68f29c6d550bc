/-!
# Log Records

A record has a level, a target that says who wrote it, and a message. Its line
is a tag of fixed width for the level, the target, and the message.

A filter admits the levels up to a bound, the gravest first.

## Main definitions

* `Level`, `Filter`: How grave a record is, and which records pass.
* `Record`: A level, a target and a message.
* `Record.line`: A record as a line of text.
* `utf8`: The bytes of a text.
-/

namespace KernelConsole

/-- The bytes of a text. -/
def utf8 (text : String) : List UInt8 :=
  text.toUTF8.data.toList

/-- How grave a record is. -/
inductive Level
  | error
  | warn
  | info
  | debug
  | trace
deriving DecidableEq

/-- The levels numbered from one, the gravest first. -/
def Level.rank : Level → Nat
  | error => 1
  | warn => 2
  | info => 3
  | debug => 4
  | trace => 5

/-- The name of a level. -/
def Level.name : Level → String
  | error => "ERROR"
  | warn => "WARN"
  | info => "INFO"
  | debug => "DEBUG"
  | trace => "TRACE"

/-- The level of a given name. -/
def Level.ofName? (name : String) : Option Level :=
  [error, warn, info, debug, trace].find? fun l => l.name == name

/-- The tag that opens the line of a record. -/
def Level.tag : Level → String
  | error => "[ERR ]"
  | warn => "[WARN]"
  | info => "[INFO]"
  | debug => "[DBG ]"
  | trace => "[TRC ]"

/-- Which levels pass: none, or all up to one. -/
inductive Filter
  | off
  | upTo (level : Level)
deriving DecidableEq

/-- The filter of a given name: that of a level, or the one that lets nothing
    pass. -/
def Filter.ofName? (name : String) : Option Filter :=
  if name == "OFF" then some off else (Level.ofName? name).map upTo

/-- The filter lets a level pass. -/
def Filter.admits : Filter → Level → Bool
  | off, _ => false
  | upTo bound, level => level.rank ≤ bound.rank

/-- A message with its level and its origin. -/
structure Record where
  /-- How grave it is. -/
  level : Level
  /-- Who wrote it. -/
  target : String
  /-- What it says. -/
  message : String
deriving DecidableEq

namespace Record

/-- What stands before the message on the line of a record. -/
def heading (level : Level) (target : String) : String :=
  level.tag ++ " " ++ target ++ ": "

/-- A record as a line of text. -/
def line (r : Record) : String :=
  heading r.level r.target ++ r.message ++ "\n"

end Record

end KernelConsole
