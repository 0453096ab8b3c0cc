import PageServer.Http.Request
import PageServer.Text.Ascii
import PageServer.Text.Decimal
import PageServer.Text.Space

/-!
# Header lines

Three headers matter: `Connection`, `Content-Length` and `Host`. All others are read past,
and an empty line ends the head.
-/

namespace PageServer
namespace Http

inductive Header
  | endOfHead
  | connection (value : List Char)
  | contentLength (value : List Char)
  | host (value : List Char)
  | other
  deriving DecidableEq, Repr

def Header.ofLine (line : List Char) : Header :=
  if line.isEmpty then .endOfHead
  else match Text.dropLead? "Connection:".toList line with
  | some value => .connection (Text.trimLeft value)
  | none => match Text.dropLead? "Content-Length:".toList line with
  | some value => .contentLength (Text.trim value)
  | none => match Text.dropLead? "Host:".toList line with
  | some value => .host (Text.trimLeft value)
  | none => .other

/-- What follows a header line. -/
inductive HeaderStatus
  | more
  /-- The head has ended and no body is announced. -/
  | complete
  | expectBody
  | bad
  deriving DecidableEq, Repr

/-- A body length up to `maxBody`. -/
def bodyLength? (maxBody : Nat) (value : List Char) : Option Nat :=
  (Text.number? Text.wordMax value).filter (· ≤ maxBody)

namespace Request

/-- The request after a header, where `maxBody` bounds the body that it may announce. -/
def withHeader (maxBody : Nat) (r : Request) : Header → HeaderStatus × Request
  | .endOfHead => (if 0 < r.contentLength then .expectBody else .complete, r)
  | .connection value =>
    (.more, { r with keepAlive := r.keepAlive || Text.eqIgnoreCase value "keep-alive".toList })
  | .contentLength value => match bodyLength? maxBody value with
    | some n => (.more, { r with contentLength := n })
    | none => (.bad, r)
  | .host value => (.more, { r with host := some (String.ofList value) })
  | .other => (.more, r)

def addHeader (maxBody : Nat) (r : Request) (line : List Char) : HeaderStatus × Request :=
  r.withHeader maxBody (Header.ofLine line)

end Request
end Http
end PageServer
