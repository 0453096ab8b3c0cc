import PageServer.Log.Pattern.CharSet
import PageServer.Log.Pattern.Group

/-!
# Patterns

Which texts are regular expressions that an automaton can be built for. Values of fields
are compared with patterns, but a text that is a number is always a value. No closing
brace is left in such a text, so an opening one that counts as an operator is never
well-formed.
-/

namespace PageServer
namespace Log
namespace Pattern

inductive Defect
  | malformed
  /-- A border between words of any alphabet, for which there is no automaton. -/
  | wordBorder
  deriving DecidableEq, Repr

/-- A group of which the end has not been read. -/
structure OpenGroup where
  mode : Mode := {}
  /-- The heights of the branches that have been read. -/
  branches : List Nat := []
  /-- The heights of the parts of the branch that is read, the last one first. -/
  parts : List Nat := []
  /-- Whether the last part can be repeated. -/
  repeats : Bool := false
  deriving DecidableEq, Repr

namespace OpenGroup

def height (g : OpenGroup) : Nat :=
  rowHeight (rowHeight g.parts :: g.branches)

def add (h : Nat) (g : OpenGroup) : OpenGroup :=
  { g with parts := h :: g.parts, repeats := true }

/-- Repeats the last part. -/
def repeatLast? (g : OpenGroup) : Option OpenGroup :=
  match g.repeats, g.parts with
  | true, h :: parts => some { g with parts := (h + 1) :: parts }
  | _, _ => none

/-- Begins another branch. -/
def branch (g : OpenGroup) : OpenGroup :=
  { g with branches := rowHeight g.parts :: g.branches, parts := [], repeats := false }

/-- Goes on in another mode, which counts as a part that cannot be repeated. -/
def change (mode : Mode) (g : OpenGroup) : OpenGroup :=
  { g with mode, parts := 0 :: g.parts, repeats := false }

end OpenGroup

/-- What is known of a pattern while it is read. -/
structure Scan where
  /-- The groups around the one that is read. -/
  outer : List OpenGroup := []
  group : OpenGroup := {}
  /-- The names of all groups. -/
  names : List String := []
  /-- Whether there is a border between words of any alphabet. -/
  hasBorder : Bool := false
  deriving DecidableEq, Repr

namespace Scan

/-- How deep the parts of a pattern can be nested. -/
def maxHeight : Nat :=
  250

def add (h : Nat) (p : Scan) : Scan :=
  { p with group := p.group.add h }

def enter? (p : Scan) : Opening → Option Scan
  | .setting mode => some { p with group := p.group.change mode }
  | .group none mode => some { p with outer := p.group :: p.outer, group := { mode } }
  | .group (some name) mode =>
    if name ∈ p.names then none
    else some { p with outer := p.group :: p.outer, group := { mode }, names := name :: p.names }

def leave? (p : Scan) : Option Scan :=
  match p.outer with
  | [] => none
  | g :: outer => some { p with outer, group := g.add (p.group.height + 1) }

def addAtom? (p : Scan) : Atom → Option Scan
  | .char c byte => if p.group.mode.admits c byte then some (p.add 0) else none
  | .wordBorder => some { p.add 0 with hasBorder := p.hasBorder || p.group.mode.unicode }
  | .charClass | .place => some (p.add 0)

/-- A dot stands for a whole character. -/
def addDot? (p : Scan) : Option Scan :=
  if p.group.mode.unicode then some (p.add 0) else none

def repeatLast? (p : Scan) : Option Scan :=
  p.group.repeatLast?.map fun group => { p with group }

/-- What the whole pattern amounts to at its end. -/
def result? (p : Scan) : Option Scan :=
  if p.outer.isEmpty && p.group.height ≤ maxHeight then some p else none

/-- Reads a pattern to its end. -/
def read? : (fuel : Nat) → Scan → List Char → Option Scan
  | 0, _, _ => none
  | fuel + 1, p, s =>
    let mode := p.group.mode
    match mode.skip s with
    | [] => p.result?
    | '(' :: rest => (opening? mode rest).bind fun (opening, rest) =>
      (p.enter? opening).bind fun p => read? fuel p rest
    | ')' :: rest => p.leave?.bind fun p => read? fuel p rest
    | '|' :: rest => read? fuel { p with group := p.group.branch } rest
    | '[' :: rest => (set? mode rest).bind fun (h, rest) => read? fuel (p.add h) rest
    | '\x7b' :: _ => none
    | '\\' :: rest => (escape? mode rest).bind fun (atom, rest) =>
      (p.addAtom? atom).bind fun p => read? fuel p rest
    | '.' :: rest => p.addDot?.bind fun p => read? fuel p rest
    | '^' :: rest | '$' :: rest => read? fuel (p.add 0) rest
    | c :: rest =>
      if c = '*' || c = '+' || c = '?' then
        p.repeatLast?.bind fun p =>
          read? fuel p (if rest.head? = some '?' then rest.drop 1 else rest)
      else (p.addAtom? (.char c false)).bind fun p => read? fuel p rest

end Scan

/-- Digits behind which `rest` remains. -/
def dropDigits (s : List Char) : Option (List Char) :=
  if (s.head?.any Char.isDigit) then some (s.dropWhile Char.isDigit) else none

/-- An exponent or nothing. -/
def endsNumber : List Char → Bool
  | [] => true
  | e :: rest => e.toLower == 'e' &&
    match rest with
    | '+' :: rest | '-' :: rest | rest => dropDigits rest == some []

/-- A number without a sign. -/
def isNumber (s : List Char) : Bool :=
  ["inf", "infinity", "nan"].contains (String.ofList (s.map Char.toLower)) ||
    match dropDigits s, s with
    | some ('.' :: rest), _ => endsNumber (rest.dropWhile Char.isDigit)
    | some rest, _ => endsNumber rest
    | none, '.' :: rest => (dropDigits rest).any endsNumber
    | none, _ => false

/-- What is wrong with the value of a field, if anything is. -/
def defect? (value : String) : Option Defect :=
  let s := value.toList
  if s.head? = some '+' && isNumber (s.drop 1) then none
  else match Scan.read? (s.length + 1) {} s with
    | none => some .malformed
    | some p => if p.hasBorder then some .wordBorder else none

end Pattern
end Log
end PageServer
