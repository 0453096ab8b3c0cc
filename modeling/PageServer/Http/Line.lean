import PageServer.Fault
import PageServer.Text.Utf8

/-!
# Lines of a head

Finds the next line end in a buffer that is still filling up. A line ends with CR LF; a CR
that is the last byte received may still become one, and any other CR or LF makes the line
bad.
-/

namespace PageServer
namespace Http

def cr : UInt8 := 13

def lf : UInt8 := 10

inductive LineStatus
  /-- The position is just after a line end. -/
  | complete
  /-- The position is on a CR or LF that ends no line. -/
  | bad
  /-- The position is where to go on when more bytes are there. -/
  | unfinished
  deriving DecidableEq, Repr

/-- The outcome of a scan and the position it leaves. -/
abbrev Scan := Except Fault LineStatus × Nat

/-- What a CR at `pos` stands for when the bytes up to `stop` have been received. -/
def scanReturn (buf : Array UInt8) (stop pos : Nat) : Scan :=
  if pos + 1 = stop then (.ok .unfinished, pos)
  else match buf[pos + 1]? with
    | none => (.error (.outOfBounds buf.size (pos + 1)), pos)
    | some next => if next = lf then (.ok .complete, pos + 2) else (.ok .bad, pos)

/-- What an LF at `pos` stands for. -/
def scanFeed (buf : Array UInt8) (pos : Nat) : Scan :=
  if 0 < pos ∧ buf[pos - 1]? = some cr then (.ok .complete, pos + 1) else (.ok .bad, pos)

/-- Scans the bytes from `pos` up to `stop` for the next line end. -/
def scanLine (buf : Array UInt8) (stop pos : Nat) : Scan :=
  if pos < stop then
    match buf[pos]? with
    | none => (.error (.outOfBounds buf.size pos), pos)
    | some b =>
      if b = cr then scanReturn buf stop pos
      else if b = lf then scanFeed buf pos
      else scanLine buf stop (pos + 1)
  else (.ok .unfinished, pos)
termination_by stop - pos

end Http
end PageServer
