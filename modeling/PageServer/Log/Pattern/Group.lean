import PageServer.Log.Pattern.Mode
import PageServer.Text.Alphabetic

/-!
# Groups of patterns

What an opening parenthesis leads to.
-/

namespace PageServer
namespace Log
namespace Pattern

inductive Opening
  /-- A group that is read in a mode; it may have a name. -/
  | group (name : Option String) (mode : Mode)
  /-- Another mode for the rest of the group around it. -/
  | setting (mode : Mode)
  deriving DecidableEq, Repr

def nameFits : List Char → Bool
  | [] => false
  | c :: rest => (c == '_' || Text.isAlphabetic c) &&
    rest.all fun c => Text.isAlphanumeric c || "_.[]".contains c

/-- Reads the name of a group and the bracket behind it. -/
def named? (m : Mode) (s : List Char) : Option (Opening × List Char) :=
  let name := s.takeWhile (· != '>')
  if nameFits name && name.length < s.length then
    some (.group (some (String.ofList name)) m, s.drop (name.length + 1))
  else none

/-- Reads on behind an opening parenthesis. -/
def opening? (m : Mode) (s : List Char) : Option (Opening × List Char) :=
  match m.skip s with
  | '?' :: 'P' :: '<' :: rest | '?' :: '<' :: rest => named? m rest
  | '?' :: rest =>
    let setting := rest.takeWhile fun c => c != ':' && c != ')'
    match Mode.settingFits setting, rest.drop setting.length with
    | true, ':' :: rest => some (.group none (m.change setting), rest)
    | true, ')' :: rest =>
        if setting.isEmpty then none else some (.setting (m.change setting), rest)
    | _, _ => none
  | rest => some (.group none m, rest)

end Pattern
end Log
end PageServer
