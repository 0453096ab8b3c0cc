import PageServer.Log.Pattern.Mode

/-!
# Atoms of patterns

What a backslash and the characters behind it stand for. Of the classes of characters that
an escape can name only those of ASCII are known, so in a mode of characters there are
none.
-/

namespace PageServer
namespace Log
namespace Pattern

inductive Atom
  /-- A character, written as a byte or not. -/
  | char (c : Char) (byte : Bool)
  | charClass
  /-- A place between two characters. -/
  | place
  /-- A place at the border of a word. -/
  | wordBorder
  deriving DecidableEq, Repr

def hexDigit? (c : Char) : Option Nat :=
  if c.isDigit then some (c.toNat - 48)
  else if 'a' ≤ c.toLower && c.toLower ≤ 'f' then some (c.toLower.toNat - 87)
  else none

/-- Reads `n` hexadecimal digits behind the number `value`. -/
def hexNumber? (m : Mode) : (n value : Nat) → List Char → Option (Nat × List Char)
  | 0, value, s => some (value, m.skip s)
  | n + 1, value, s => match m.skip s with
    | [] => none
    | c :: rest => (hexDigit? c).bind fun digit => hexNumber? m n (value * 16 + digit) rest

/-- Reads a character that is given by `n` hexadecimal digits; two of them make a byte. -/
def hexChar? (m : Mode) (n : Nat) (s : List Char) : Option (Atom × List Char) :=
  (hexNumber? m n 0 s).bind fun (value, rest) =>
    if value.isValidChar then some (.char (Char.ofNat value) (n == 2), rest) else none

/-- Reads what stands behind a backslash. -/
def escape? (m : Mode) : List Char → Option (Atom × List Char)
  | [] => none
  | 'x' :: rest => hexChar? m 2 rest
  | 'u' :: rest => hexChar? m 4 rest
  | 'U' :: rest => hexChar? m 8 rest
  | c :: rest =>
    if "dsw".contains c then if m.unicode then none else some (.charClass, rest)
    else if "bB<>".contains c then some (.wordBorder, rest)
    else if c = 'A' || c = 'z' then some (.place, rest)
    else match "afnrtv".toList.zip ['\x07', '\x0c', '\n', '\r', '\t', '\x0b'] |>.lookup c with
      | some control => some (.char control false, rest)
      | none => if c.toNat < 128 && !c.isAlphanum then some (.char c false, rest) else none

end Pattern
end Log
end PageServer
