/-!
# Decimal numbers

Reading an unsigned number of bounded size: an optional plus sign and at least one digit.
-/

namespace PageServer
namespace Text

/-- The largest value of an unsigned 64-bit word. -/
def wordMax : Nat :=
  0xFFFFFFFFFFFFFFFF

def digit? (c : Char) : Option Nat :=
  if c.isDigit then some (c.toNat - '0'.toNat) else none

/-- Appends the digits of `s` to the number `acc`. -/
def digits? : Nat → List Char → Option Nat
  | acc, [] => some acc
  | acc, c :: s => (digit? c).bind fun d => digits? (acc * 10 + d) s

/-- At least one digit and nothing else. -/
def natural? : List Char → Option Nat
  | [] => none
  | s => digits? 0 s

/-- A number up to `limit`, with an optional plus sign. -/
def number? (limit : Nat) (s : List Char) : Option Nat :=
  let body := match s with
    | '+' :: rest => rest
    | _ => s
  (natural? body).filter (· ≤ limit)

end Text
end PageServer
