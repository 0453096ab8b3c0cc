import PageServer.Log.Pattern.Atom

/-!
# Sets of characters

Reading a set in brackets, which can hold further sets and be put together by operators.
Of a set only its height is kept: how deep its parts are nested.
-/

namespace PageServer
namespace Log
namespace Pattern

/-- The height of a row of parts; a row of several parts is one higher than they are. -/
def rowHeight : List Nat → Nat
  | [] => 0
  | [h] => h
  | l => l.foldl max 0 + 1

/-- A set of which the end has not been read. -/
structure OpenSet where
  /-- The height of all that stands in front of the last operator. -/
  left : Option Nat := none
  /-- The heights of the members behind it. -/
  members : List Nat := []
  deriving DecidableEq, Repr

namespace OpenSet

def height (s : OpenSet) : Nat :=
  match s.left with
  | none => rowHeight s.members
  | some h => max h (rowHeight s.members) + 1

def add (h : Nat) (s : OpenSet) : OpenSet :=
  { s with members := h :: s.members }

end OpenSet

/-- The names of classes of ASCII. -/
def classNames : List String :=
  ["alnum", "alpha", "ascii", "blank", "cntrl", "digit", "graph", "lower", "print", "punct",
    "space", "upper", "word", "xdigit"]

/-- Reads the name of a class between colons, behind the bracket in front of it; tells
whether a circumflex negates it. -/
def namedClass? : List Char → Option (Bool × List Char)
  | ':' :: s =>
    let negated := s.head? == some '^'
    let s := if negated then s.drop 1 else s
    let name := s.takeWhile (· != ':')
    match s.drop name.length with
    | ':' :: ']' :: rest =>
      if classNames.contains (String.ofList name) then some (negated, rest) else none
    | _ => none
  | _ => none

/-- Reads hyphens that stand for themselves. -/
def leadingHyphens (m : Mode) : (fuel : Nat) → OpenSet → List Char → OpenSet × List Char
  | fuel + 1, o, '-' :: rest => leadingHyphens m fuel (o.add 0) (m.skip rest)
  | _, o, s => (o, s)

/-- Reads what has a meaning of its own behind the bracket that opens a set: a circumflex,
then hyphens or a closing bracket that stand for themselves. -/
def openSet? (m : Mode) (s : List Char) : Option (OpenSet × List Char) :=
  let s := m.skip s
  let negated := s.head? == some '^'
  let s := if negated then m.skip (s.drop 1) else s
  let (o, rest) := leadingHyphens m s.length {} s
  let (o, rest) := match o.members, rest with
    | [], ']' :: rest => (o.add 0, m.skip rest)
    | _, rest => (o, rest)
  if (negated && !m.unicode) || (!o.members.isEmpty && !m.admitsInSet '-') then none
  else some (o, rest)

/-- Reads one end of a range or a member of its own. -/
def member? (m : Mode) : List Char → Option (Atom × List Char)
  | [] => none
  | '\\' :: rest => escape? m rest
  | c :: rest => some (.char c false, rest)

/-- Reads a member that is no set: a range, a character or a class. -/
def range? (m : Mode) (s : List Char) : Option (List Char) :=
  (member? m s).bind fun (first, rest) =>
    let alone := match first with
      | .char c _ => if m.admitsInSet c then some (m.skip rest) else none
      | .charClass => some (m.skip rest)
      | _ => none
    match m.skip rest with
    | '-' :: behind =>
      if m.ahead? behind == some ']' || m.ahead? behind == some '-' then alone
      else (member? m (m.skip behind)).bind fun
        | (.char b _, rest) => match first with
          | .char a _ =>
            if a ≤ b && m.admitsInSet a && m.admitsInSet b then some rest else none
          | _ => none
        | _ => none
    | _ => alone

/-- Reads a set up to and with the bracket that closes it, inside the sets `outer`; gives
its height. -/
def restOfSet? (m : Mode) : (fuel : Nat) → (outer : List OpenSet) → OpenSet → List Char →
    Option (Nat × List Char)
  | 0, _, _, _ => none
  | fuel + 1, outer, o, s => match m.skip s with
    | [] => none
    | '[' :: rest => match namedClass? rest with
      | some (negated, rest) =>
        if m.admitsClass negated then restOfSet? m fuel outer (o.add 0) rest else none
      | none => (openSet? m rest).bind fun (inner, rest) =>
        restOfSet? m fuel (o :: outer) inner rest
    | ']' :: rest => match outer with
      | [] => some (o.height + 1, rest)
      | around :: outer => restOfSet? m fuel outer (around.add (o.height + 1)) rest
    | '&' :: '&' :: rest | '-' :: '-' :: rest | '~' :: '~' :: rest =>
      restOfSet? m fuel outer { left := some o.height } rest
    | s => (range? m s).bind fun rest => restOfSet? m fuel outer (o.add 0) rest

/-- Reads a set behind the bracket that opens it; gives its height. -/
def set? (m : Mode) (s : List Char) : Option (Nat × List Char) :=
  (openSet? m s).bind fun (o, rest) => restOfSet? m (rest.length + 1) [] o rest

end Pattern
end Log
end PageServer
