import PageServer.Text.Utf8

/-!
# Forms

Reading the fields `user` and `password` from a form body: pairs joined by ampersands,
with plus signs for spaces and percent escapes for bytes. Defective escapes stand for
themselves and bytes that are not UTF-8 for replacement characters.
-/

namespace PageServer
namespace Site

/-- The pieces between bytes `sep`, empty ones included. -/
def splitAt (sep : UInt8) : Bytes → List Bytes
  | [] => [[]]
  | b :: rest =>
    if b = sep then [] :: splitAt sep rest
    else match splitAt sep rest with
      | [] => [[b]]
      | p :: ps => (b :: p) :: ps

def hexValue? (b : UInt8) : Option UInt8 :=
  if 0x30 ≤ b ∧ b ≤ 0x39 then some (b - 0x30)
  else if 0x41 ≤ b ∧ b ≤ 0x46 then some (b - 0x41 + 10)
  else if 0x61 ≤ b ∧ b ≤ 0x66 then some (b - 0x61 + 10)
  else none

/-- Puts bytes in place of percent escapes. -/
def unescape : Bytes → Bytes
  | 0x25 :: a :: b :: rest =>
    match hexValue? a, hexValue? b with
    | some x, some y => (x * 16 + y) :: unescape rest
    | _, _ => 0x25 :: unescape (a :: b :: rest)
  | b :: rest => b :: unescape rest
  | [] => []

/-- The text of a name or value. -/
def component (b : Bytes) : String :=
  String.ofList (Text.decodeLossy (unescape (b.map fun x => if x = 0x2B then 0x20 else x)))

def pair (b : Bytes) : String × String :=
  (component (b.takeWhile (· != 0x3D)), component ((b.dropWhile (· != 0x3D)).drop 1))

/-- The pairs of a form body. -/
def pairs (body : Bytes) : List (String × String) :=
  ((splitAt 0x26 body).filter (· != [])).map pair

/-- The value of a field that occurs exactly once. -/
def field? (name : String) (l : List (String × String)) : Option String :=
  match l.filter (·.1 == name) with
  | [p] => some p.2
  | _ => none

structure Credentials where
  user : String
  password : String
  deriving DecidableEq, Repr

/-- The credentials in a form body that has each field exactly once. -/
def Credentials.ofForm? (body : Bytes) : Option Credentials := do
  let l := pairs body
  return { user := ← field? "user" l, password := ← field? "password" l }

end Site
end PageServer
