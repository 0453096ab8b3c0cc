/-!
# Socket addresses

Addresses of both families with a port, their text, and reading them. Decimal octets take no
leading zero, and the longest run of zero groups of a long address is shortened.
-/

namespace PageServer
namespace Net

inductive Host
  | v4 (a b c d : Nat)
  | v6 (groups : List Nat) (scope : Nat)
  deriving DecidableEq, Repr

structure SocketAddress where
  host : Host
  port : Nat
  deriving DecidableEq, Repr

/-- A reader that gives a value and the rest of the text. -/
abbrev Reader (α : Type) := List Char → Option (α × List Char)

def hexDigit? (c : Char) : Option Nat :=
  if c.isDigit then some (c.toNat - 48)
  else if 'a' ≤ c ∧ c ≤ 'f' then some (c.toNat - 87)
  else if 'A' ≤ c ∧ c ≤ 'F' then some (c.toNat - 55)
  else none

def digit? (base : Nat) (c : Char) : Option Nat :=
  (hexDigit? c).filter (· < base)

/-- At least one digit, a value up to `limit` and at most `width` digits where that is
bounded. -/
def number (base limit : Nat) (width : Option Nat) (leadingZero : Bool) : Reader Nat := fun s =>
  let digits := s.takeWhile fun c => (digit? base c).isSome
  let value := digits.foldl (fun n c => n * base + (digit? base c).getD 0) 0
  let tooLong := match width with
    | some w => w < digits.length
    | none => false
  if digits.isEmpty || tooLong || limit < value ||
      (!leadingZero && 1 < digits.length && digits.head? == some '0') then none
  else some (value, s.drop digits.length)

def char (c : Char) : Reader Unit
  | [] => none
  | x :: rest => if x = c then some ((), rest) else none

def octet : Reader Nat :=
  number 10 255 (some 3) false

def v4 : Reader (Nat × Nat × Nat × Nat) := fun s => do
  let (a, s) ← octet s
  let (_, s) ← char '.' s
  let (b, s) ← octet s
  let (_, s) ← char '.' s
  let (c, s) ← octet s
  let (_, s) ← char '.' s
  let (d, s) ← octet s
  return ((a, b, c, d), s)

/-- Reads with a colon in front unless it is the first of its kind. -/
def separated {α : Type} (first : Bool) (r : Reader α) : Reader α := fun s =>
  if first then r s else (char ':' s).bind fun p => r p.2

/-- Up to `room` groups; whether an address of the short family ended them, and the rest. -/
def groups : (room : Nat) → (first : Bool) → List Char → List Nat × Bool × List Char
  | 0, _, s => ([], false, s)
  | room + 1, first, s =>
    match if 0 < room then separated first v4 s else none with
    | some ((a, b, c, d), rest) => ([a * 256 + b, c * 256 + d], true, rest)
    | none => match separated first (number 16 0xFFFF (some 4) true) s with
      | some (g, rest) =>
        let more := groups room false rest
        (g :: more.1, more.2)
      | none => ([], false, s)

def v6 : Reader (List Nat) := fun s =>
  let front := groups 8 true s
  if front.1.length = 8 then some (front.1, front.2.2)
  else if front.2.1 then none
  else do
    let (_, s) ← char ':' front.2.2
    let (_, s) ← char ':' s
    let back := groups (7 - front.1.length) true s
    let zeros := 8 - front.1.length - back.1.length
    return (front.1 ++ List.replicate zeros 0 ++ back.1, back.2.2)

def port : Reader Nat := fun s =>
  (char ':' s).bind fun p => number 10 65535 none true p.2

def scope : Reader Nat := fun s =>
  match char '%' s with
  | some (_, rest) => number 10 0xFFFFFFFF none true rest
  | none => some (0, s)

def socketV4 : Reader SocketAddress := fun s => do
  let ((a, b, c, d), s) ← v4 s
  let (p, s) ← port s
  return (⟨.v4 a b c d, p⟩, s)

def socketV6 : Reader SocketAddress := fun s => do
  let (_, s) ← char '[' s
  let (g, s) ← v6 s
  let (z, s) ← scope s
  let (_, s) ← char ']' s
  let (p, s) ← port s
  return (⟨.v6 g z, p⟩, s)

/-- Keeps what a reader gives when it leaves nothing. -/
def whole? {α : Type} (r : Reader α) (s : List Char) : Option α :=
  match r s with
  | some (a, []) => some a
  | _ => none

def SocketAddress.parse? (text : String) : Option SocketAddress :=
  (whole? socketV4 text.toList).or (whole? socketV6 text.toList)

/-- The longest run of zero groups, the first of equals, as its start and length. -/
def zeroRun (start : Nat) : List Nat → Nat × Nat
  | [] => (start, 0)
  | g :: rest =>
    let here := ((g :: rest).takeWhile (· == 0)).length
    let later := zeroRun (start + 1) rest
    if later.2 ≤ here then (start, here) else later

def groupText (g : Nat) : String :=
  String.ofList (Nat.toDigits 16 g)

def v6Text (g : List Nat) : String :=
  match g with
  | [0, 0, 0, 0, 0, 0xFFFF, x, y] =>
    s!"::ffff:{x / 256}.{x % 256}.{y / 256}.{y % 256}"
  | _ =>
    let run := zeroRun 0 g
    let join (l : List Nat) := ":".intercalate (l.map groupText)
    if 1 < run.2 then join (g.take run.1) ++ "::" ++ join (g.drop (run.1 + run.2)) else join g

def Host.text : Host → String
  | .v4 a b c d => s!"{a}.{b}.{c}.{d}"
  | .v6 g 0 => v6Text g
  | .v6 g z => s!"{v6Text g}%{z}"

def SocketAddress.text (a : SocketAddress) : String :=
  match a.host with
  | .v4 .. => s!"{a.host.text}:{a.port}"
  | .v6 .. => s!"[{a.host.text}]:{a.port}"

end Net
end PageServer
