/-!
# Log events

What the server says about itself, and the line that says it.
-/

namespace PageServer
namespace Log

inductive Level
  | error
  | warn
  | info
  | debug
  | trace
  deriving DecidableEq, Repr

namespace Level

def name : Level → String
  | error => "ERROR"
  | warn => "WARN"
  | info => "INFO"
  | debug => "DEBUG"
  | trace => "TRACE"

/-- How much has to be let through for this level to be. -/
def verbosity : Level → Nat
  | error => 1
  | warn => 2
  | info => 3
  | debug => 4
  | trace => 5

end Level

structure Event where
  level : Level
  /-- The part of the server that speaks. -/
  target : String
  message : String
  fields : List (String × String) := []
  deriving DecidableEq, Repr

namespace Event

/-- The message and the fields behind it. -/
def text (e : Event) : String :=
  e.message ++ String.join (e.fields.map fun f => s!" {f.1}={f.2}")

/-- The fields by name; the message is one of them. -/
def fieldNames (e : Event) : List String :=
  "message" :: e.fields.map (·.1)

/-- The line without its time and thread. -/
def summary (e : Event) : String :=
  s!"{e.level.name} {e.target}: {e.text}"

/-- The line that is written at the time `stamp` by a thread. -/
def line (stamp thread : String) (e : Event) : String :=
  let level := "".pushn ' ' (5 - e.level.name.length) ++ e.level.name
  s!"{stamp} {level} {thread} {e.target}: {e.text}\n"

end Event
end Log
end PageServer
