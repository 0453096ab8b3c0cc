import PageServer.Json.Quoted

/-!
# Passing over values

Recognises one JSON value whose content does not matter.
-/

namespace PageServer
namespace Json

def isSpace (b : UInt8) : Bool :=
  b == 0x20 || b == 0x0A || b == 0x09 || b == 0x0D

def skipSpace (s : Bytes) : Bytes :=
  s.dropWhile isSpace

def isDigit (b : UInt8) : Bool :=
  0x30 ≤ b && b ≤ 0x39

/-- At least one digit. -/
def skipDigits? (s : Bytes) : Option Bytes :=
  if (s.head?.map isDigit).getD false then some (s.dropWhile isDigit) else none

/-- The digits before the point, without a leading zero. -/
def skipInteger? : Bytes → Option Bytes
  | 0x30 :: rest => if (rest.head?.map isDigit).getD false then none else some rest
  | s => skipDigits? s

def skipFraction? : Bytes → Option Bytes
  | 0x2E :: rest => skipDigits? rest
  | s => some s

def skipExponent? : Bytes → Option Bytes
  | b :: rest =>
    if b = 0x65 ∨ b = 0x45 then
      match rest with
      | 0x2B :: rest => skipDigits? rest
      | 0x2D :: rest => skipDigits? rest
      | rest => skipDigits? rest
    else some (b :: rest)
  | [] => some []

def skipNumber? (s : Bytes) : Option Bytes :=
  (skipInteger? s).bind fun s => (skipFraction? s).bind skipExponent?

def skipWord? (word s : Bytes) : Option Bytes :=
  if word.isPrefixOf s then some (s.drop word.length) else none

mutual

/-- Passes over a value, given as many steps as the text has bytes. -/
def skipValue? : Nat → Bytes → Option Bytes
  | 0, _ => none
  | fuel + 1, s =>
    match skipSpace s with
    | [] => none
    | b :: rest =>
      if b = quote then skipString? rest
      else if b = 0x5B then
        match skipSpace rest with
        | 0x5D :: rest => some rest
        | rest => skipItems? fuel rest
      else if b = 0x7B then
        match skipSpace rest with
        | 0x7D :: rest => some rest
        | rest => skipMembers? fuel rest
      else if b = 0x2D then skipNumber? rest
      else if isDigit b then skipNumber? (b :: rest)
      else if b = 0x6E then skipWord? [0x75, 0x6C, 0x6C] rest
      else if b = 0x74 then skipWord? [0x72, 0x75, 0x65] rest
      else if b = 0x66 then skipWord? [0x61, 0x6C, 0x73, 0x65] rest
      else none

/-- The items of a list and its closing bracket. -/
def skipItems? : Nat → Bytes → Option Bytes
  | 0, _ => none
  | fuel + 1, s =>
    match skipValue? fuel s with
    | none => none
    | some rest => match skipSpace rest with
      | 0x2C :: rest => skipItems? fuel rest
      | 0x5D :: rest => some rest
      | _ => none

/-- The members of an object and its closing brace. -/
def skipMembers? : Nat → Bytes → Option Bytes
  | 0, _ => none
  | fuel + 1, s =>
    match skipSpace s with
    | 0x22 :: rest => match skipString? rest with
      | none => none
      | some rest => match skipSpace rest with
        | 0x3A :: rest => match skipValue? fuel rest with
          | none => none
          | some rest => match skipSpace rest with
            | 0x2C :: rest => skipMembers? fuel rest
            | 0x7D :: rest => some rest
            | _ => none
        | _ => none
    | _ => none

end

end Json
end PageServer
