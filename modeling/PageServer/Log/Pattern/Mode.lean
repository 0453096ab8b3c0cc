import PageServer.Text.Space

/-!
# Pattern modes

The settings under which a part of a pattern is read. A pattern can change them on its way.
-/

namespace PageServer
namespace Log
namespace Pattern

structure Mode where
  /-- A letter stands for both of its cases. -/
  caseless : Bool := false
  /-- Characters are matched; else bytes are. -/
  unicode : Bool := true
  /-- Blanks and comments are skipped. -/
  verbose : Bool := false
  deriving DecidableEq, Repr

namespace Mode

/-- Drops blanks and comments; `comment` tells whether a comment has begun. -/
def dropBlanks : (comment : Bool) → List Char → List Char
  | _, [] => []
  | true, c :: rest => dropBlanks (c != '\n') rest
  | false, c :: rest =>
    if Text.isSpace c then dropBlanks false rest
    else if c = '#' then dropBlanks true rest
    else c :: rest

/-- Drops what is skipped in this mode. -/
def skip (m : Mode) (s : List Char) : List Char :=
  if m.verbose then dropBlanks false s else s

/-- The character that is looked at ahead of time. It may be one of a comment: of that
only the first sign and the blanks behind it are skipped. -/
def ahead? (m : Mode) (s : List Char) : Option Char :=
  if m.verbose then
    match s.dropWhile Text.isSpace with
    | '#' :: rest => (rest.dropWhile Text.isSpace).head?.or s.head?
    | c :: _ => some c
    | [] => s.head?
  else s.head?

/-- Whether a setting is well-formed: letters that are known, none of them twice, and at
most one minus sign, which some letter follows. -/
def settingFits (s : List Char) : Bool :=
  s.all ("imsUuRx-".contains ·) && s.Nodup && s.getLast? != some '-'

/-- The mode after a setting: letters in front of the minus sign switch something on,
those behind it switch it off. -/
def change (m : Mode) (setting : List Char) : Mode :=
  let on := setting.takeWhile (· != '-')
  let off := setting.drop on.length
  let becomes (letter : Char) (old : Bool) := on.contains letter || old && !off.contains letter
  { caseless := becomes 'i' m.caseless
    unicode := becomes 'u' m.unicode
    verbose := becomes 'x' m.verbose }

/-- Whether a character can stand for itself; `byte` tells whether it is written as a
byte. The cases of characters are not known here, and what is matched has to be whole
characters. -/
def admits (m : Mode) (c : Char) (byte : Bool) : Bool :=
  if m.unicode then !m.caseless else !byte || c.toNat < 128

/-- Whether a set can have the character as a member. -/
def admitsInSet (m : Mode) (c : Char) : Bool :=
  if m.unicode then !m.caseless else c.toNat < 128

/-- Whether a set can have a class of ASCII as a member, or all that is not in that
class. -/
def admitsClass (m : Mode) (negated : Bool) : Bool :=
  if m.unicode then !m.caseless else !negated

end Mode
end Pattern
end Log
end PageServer
