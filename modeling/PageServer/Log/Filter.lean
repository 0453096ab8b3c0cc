import PageServer.Log.Directive
import PageServer.Log.Event

/-!
# Log filters

Which events are written. The directives of a filter become rules, and of the rules that
concern an event the most specific one decides about it.
-/

namespace PageServer
namespace Log

/-- Sets the verbosity of the events with a target and a field. -/
structure Rule where
  /-- The beginning of the targets meant; all of them where there is none. -/
  target : Option String := none
  /-- A field that the event has to carry. -/
  field : Option String := none
  verbosity : Nat
  deriving DecidableEq, Repr

namespace Rule

/-- The more specific rule first: the one with the longer target, then the one with a
field. Of two equally specific ones the one with the larger text comes first. -/
def order (r q : Rule) : Ordering :=
  let length (r : Rule) := r.target.map (·.utf8ByteSize + 1) |>.getD 0
  (compare (length q) (length r)).then <|
    (compare q.field.isSome r.field.isSome).then <|
      (compare q.target r.target).then (compare q.field r.field)

/-- Whether the rule speaks of an event. -/
def concerns (r : Rule) (e : Event) : Bool :=
  (r.target.getD "").toList.isPrefixOf e.target.toList &&
    r.field.all fun name => e.fieldNames.contains name

end Rule

/-- The rule that a directive makes. One that asks for a span of work or for the value of
a field makes none: there are no spans here, and a value is known in a span alone. -/
def Directive.rule? (d : Directive) : Option Rule :=
  match d.span, d.field with
  | none, none => some { target := d.target, verbosity := d.verbosity }
  | none, some { name, value := none } =>
    some { target := d.target, field := some name, verbosity := d.verbosity }
  | _, _ => none

/-- The rules in the order in which they are asked. -/
abbrev Filter := List Rule

namespace Filter

/-- Puts a rule in its place, or in that of a rule for the same events. -/
def insert (r : Rule) : Filter → Filter
  | [] => [r]
  | q :: rest => match r.order q with
    | .lt => r :: q :: rest
    | .eq => r :: rest
    | .gt => q :: insert r rest

def ofDirectives (l : List Directive) : Filter :=
  let (plain, narrow) := l.partition (·.field.isNone)
  ((plain ++ narrow).filterMap (·.rule?)).foldl (fun f r => f.insert r) []

/-- Errors only, where nothing else is asked for. -/
def default : Directive :=
  { verbosity := 1 }

/-- The directives of a text, which commas part. -/
def words (text : String) : List String :=
  (text.splitOn ",").filter (· != "")

/-- Reads a text in which every directive has to be right; without any, nothing is
written. -/
def read? (text : String) : Option Filter :=
  ((words text).mapM fun w => (Directive.read w).toOption).map ofDirectives

/-- What is said of a directive that is left out. -/
def complaint? (word : String) : Option String :=
  match Directive.read word with
  | .ok _ => none
  | .error e => some s!"ignoring `{word}`: {e.message}"

/-- Reads a text and leaves out what is wrong; gives what is said of that as well. -/
def readLossy (text : String) : Filter × List String :=
  let read := (words text).filterMap fun w => (Directive.read w).toOption
  (ofDirectives (if read.isEmpty then [default] else read), (words text).filterMap complaint?)

/-- Whether an event is written. -/
def passes (f : Filter) (e : Event) : Bool :=
  (f.find? (·.concerns e)).any fun r => e.level.verbosity ≤ r.verbosity

end Filter
end Log
end PageServer
