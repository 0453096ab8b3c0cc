import PageServer.Fault
import PageServer.Http.Status
import PageServer.Text.Utf8

/-!
# Response buffers

A buffer of fixed capacity for the head and the fixed body of a response. An append that
does not fit is refused and leaves the buffer as it was. The first one that fits asks for
all of the memory.
-/

namespace PageServer
namespace Http

structure ResponseBuffer where
  capacity : Nat
  bytes : Bytes := []
  deriving DecidableEq, Repr

namespace ResponseBuffer

def length (b : ResponseBuffer) : Nat :=
  b.bytes.length

def isEmpty (b : ResponseBuffer) : Bool :=
  b.bytes.isEmpty

def clear (b : ResponseBuffer) : ResponseBuffer :=
  { b with bytes := [] }

/-- Appends a text if it fits; tells whether it did. -/
def append (b : ResponseBuffer) (text : Bytes) : Except Fault Bool × ResponseBuffer :=
  if b.capacity < b.length + text.length then (.ok false, b)
  else match reserve b.capacity 1 with
    | .error f => (.error f, b)
    | .ok _ => (.ok true, { b with bytes := b.bytes ++ text })

/-- Goes on with `next` only after a successful append. -/
def andThen (r : Except Fault Bool × ResponseBuffer)
    (next : ResponseBuffer → Except Fault Bool × ResponseBuffer) :
    Except Fault Bool × ResponseBuffer :=
  match r.1 with
  | .ok true => next r.2
  | _ => r

def statusLine (s : Status) : Bytes :=
  Text.encode s!"HTTP/1.1 {s.code} {s.reason}\r\n"

def contentLengthLine (n : Nat) : Bytes :=
  Text.encode s!"Content-Length:{n}\r\n"

def connectionLine (keepAlive : Bool) : Bytes :=
  Text.encode (if keepAlive then "Connection:keep-alive\r\n" else "Connection:close\r\n")

def blankLine : Bytes :=
  Text.encode "\r\n"

def addStatusLine (s : Status) (b : ResponseBuffer) :
    Except Fault Bool × ResponseBuffer :=
  b.append (statusLine s)

def addContentLength (n : Nat) (b : ResponseBuffer) :
    Except Fault Bool × ResponseBuffer :=
  b.append (contentLengthLine n)

def addConnection (keepAlive : Bool) (b : ResponseBuffer) :
    Except Fault Bool × ResponseBuffer :=
  b.append (connectionLine keepAlive)

def addBlankLine (b : ResponseBuffer) :
    Except Fault Bool × ResponseBuffer :=
  b.append blankLine

/-- The three lines that end a head. Lines appended before one that does not fit stay. -/
def addHeaders (n : Nat) (keepAlive : Bool) (b : ResponseBuffer) :
    Except Fault Bool × ResponseBuffer :=
  andThen (andThen (b.addContentLength n) (addConnection keepAlive)) addBlankLine

def addContent (content : String) (b : ResponseBuffer) :
    Except Fault Bool × ResponseBuffer :=
  b.append (Text.encode content)

end ResponseBuffer
end Http
end PageServer
