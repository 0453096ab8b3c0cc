import PageServer.Log.Pattern
import PageServer.Text.Decimal
import PageServer.Text.Space
import PageServer.Text.Utf8

/-!
# Filter directives

One wish of a log filter: a target, a span of work, a field and a verbosity, each of which
may be left out, written `target[span{field=value}]=verbosity`.
-/

namespace PageServer
namespace Log

/-- A field that an event has to carry. -/
structure FieldTest where
  name : String
  /-- What its value has to look like; anything where there is none. -/
  value : Option String := none
  deriving DecidableEq, Repr

structure Directive where
  /-- The beginning of the targets meant; all of them where there is none. -/
  target : Option String := none
  /-- The span of work within which the directive holds. -/
  span : Option String := none
  field : Option FieldTest := none
  verbosity : Nat
  deriving DecidableEq, Repr

inductive DirectiveError
  | malformed
  | level
  /-- The value of a field is no pattern. -/
  | field (defect : Pattern.Defect)
  deriving DecidableEq, Repr

namespace DirectiveError

def message : DirectiveError → String
  | malformed => "invalid filter directive"
  | level => "error parsing level filter: expected one of \"off\", \"error\", \"warn\", " ++
      "\"info\", \"debug\", \"trace\", or a number 0-5"
  | field .malformed => "invalid field filter: error building NFA"
  | field .wordBorder =>
      "invalid field filter: unsupported regex feature for DFAs: cannot build " ++
      "DFAs for regexes with Unicode word boundaries; switch to ASCII word boundaries, or " ++
      "heuristically enable Unicode word boundaries or use a different regex engine"

end DirectiveError

/-- The verbosity that lets everything through. -/
def fullVerbosity : Nat :=
  5

/-- The verbosity that a word names. -/
def verbosity? (word : String) : Option Nat :=
  match Text.number? fullVerbosity word.toList, word.map Char.toLower with
  | some n, _ => some n
  | none, "off" => some 0
  | none, "error" => some 1
  | none, "warn" => some 2
  | none, "info" => some 3
  | none, "debug" => some 4
  | none, "trace" => some 5
  | none, _ => none

/-- A directive's text with and without the white space around it. Its parts are looked
for in what is left without, but they are cut out of the whole at the places so found. -/
structure DirectiveText where
  whole : Bytes
  seen : List Char

namespace DirectiveText

def ofString (word : String) : DirectiveText :=
  { whole := Text.encode word, seen := Text.trim word.toList }

/-- The place at which the end `rest` of the text begins. -/
def place (t : DirectiveText) (rest : List Char) : Nat :=
  (Text.encode (String.ofList t.seen)).length - (Text.encode (String.ofList rest)).length

/-- What is cut out behind the place of `rest`. -/
def behind (t : DirectiveText) (rest : List Char) : String :=
  (Text.decode? (t.whole.drop (t.place rest))).getD ""

/-- What is cut out from the place of `rest` to that of `stop`. -/
def between (t : DirectiveText) (rest stop : List Char) : String :=
  (Text.decode? ((t.whole.take (t.place stop)).drop (t.place rest))).getD ""

end DirectiveText

namespace Directive

/-- Whether a directive may begin with `c`, if not with a bracket. -/
def mayBegin (c : Char) : Bool :=
  Text.isAlphanumeric c || c == '-' || c == ':' || c == '_'

/-- Reads the level behind an equals sign; nothing there asks for everything. -/
def readLevel (t : DirectiveText) (d : Directive) (rest : List Char) :
    Except DirectiveError Directive :=
  match t.behind rest with
  | "" => .ok { d with verbosity := fullVerbosity }
  | word => match verbosity? word with
    | some verbosity => .ok { d with verbosity }
    | none => .error .level

/-- Reads what may stand behind a closing bracket. -/
def readEnd (t : DirectiveText) (d : Directive) : List Char → Except DirectiveError Directive
  | [] => .ok { d with verbosity := fullVerbosity }
  | '=' :: rest => readLevel t d rest
  | _ => .error .malformed

/-- Reads a field up to its closing brace, and the bracket behind it. -/
def readField (t : DirectiveText) (d : Directive) (s : List Char) :
    Except DirectiveError Directive :=
  let stop := s.dropWhile (· != '\x7d')
  match (t.between s stop).splitOn "=", stop with
  | [""], _ | _, [] => .error .malformed
  | words, _ :: rest =>
    let field : FieldTest := { name := words.headD "", value := words[1]? }
    match field.value.bind Pattern.defect?, rest with
    | some defect, _ => .error (.field defect)
    | none, ']' :: rest => readEnd t { d with field := some field } rest
    | none, _ => .error .malformed

/-- Reads a scope behind its opening bracket: the name of a span and a field. -/
def readScope (t : DirectiveText) (target : Option String) (s : List Char) :
    Except DirectiveError Directive :=
  let stop := s.dropWhile fun c => c != ']' && c != '\x7b'
  let span := t.between s stop
  match stop with
  | ']' :: rest => readEnd t { target, span := some span, verbosity := fullVerbosity } rest
  | '\x7b' :: rest =>
    let span := if span = "" then none else some span
    readField t { target, span, verbosity := fullVerbosity } rest
  | _ => .error .malformed

/-- Reads a level, a target, or either with what belongs to it. -/
def read (word : String) : Except DirectiveError Directive :=
  let t := DirectiveText.ofString word
  let stop := t.seen.dropWhile fun c => c != '=' && c != '['
  match t.seen with
  | [] => .error .malformed
  | '[' :: rest => readScope t none rest
  | c :: _ =>
    if !mayBegin c then .error .malformed
    else
      let target := some (t.between t.seen stop)
      match stop with
      | '=' :: rest => readLevel t { target, verbosity := fullVerbosity } rest
      | '[' :: rest => readScope t target rest
      | _ => match verbosity? word with
        | some verbosity => .ok { verbosity }
        | none => .ok { target := some word, verbosity := fullVerbosity }

end Directive
end Log
end PageServer
