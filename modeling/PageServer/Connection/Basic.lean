import PageServer.Disk.Mapping
import PageServer.Fault
import PageServer.Http.Line
import PageServer.Http.Request
import PageServer.Http.ResponseBuffer
import PageServer.Net.Address

/-!
# Connections

The state of one connection: the bytes read so far with the cursors of the reader, the
request as far as it is known, and the response that is being sent. A connection outlives
its clients: it is attached to one descriptor after the other and keeps its read buffer.
-/

namespace PageServer

/-- Bytes that a request may take, head and body together. -/
def readCapacity : Nat :=
  2048

/-- Bytes that the head and fixed body of a response may take. -/
def writeCapacity : Nat :=
  1024

/-- What the next line or byte belongs to. -/
inductive Phase
  | requestLine
  | headers
  | body
  deriving DecidableEq, Repr

structure Connection where
  /-- The descriptor of the client's stream. -/
  fd : Option Nat := none
  peer : Option Net.SocketAddress := none
  /-- The read buffer, allocated when first attached. -/
  input : Array UInt8 := #[]
  /-- End of the bytes read. -/
  filled : Nat := 0
  /-- Next byte to look at for a line end. -/
  scanned : Nat := 0
  /-- Start of the line in progress. -/
  lineStart : Nat := 0
  phase : Phase := .requestLine
  request : Http.Request := {}
  /-- Head and fixed body of the response. -/
  output : Http.ResponseBuffer := { capacity := writeCapacity }
  /-- The file sent behind the output. -/
  file : Option Mapping := none
  /-- Bytes of the response in all. -/
  total : Nat := 0
  /-- Bytes of the response that the stream has taken. -/
  sent : Nat := 0
  status : Option Http.Status := none
  /-- When the first byte of the request arrived. -/
  since : Option Nat := none
  deriving Repr

namespace Connection

def isLive (c : Connection) : Bool :=
  c.fd.isSome

/-- The bytes of the file. -/
def fileBytes (c : Connection) : Bytes :=
  match c.file with
  | some m => m.bytes
  | none => []

/-- Bytes at the end of the response that cannot be read any more. -/
def lost (c : Connection) : Nat :=
  match c.file with
  | some m => m.lost
  | none => 0

/-- The connection after a disk has changed. -/
def refresh (d : Disk) (c : Connection) : Connection :=
  { c with file := c.file.map (·.refresh d) }

/-- The state for a new request on the same stream. -/
def reset (c : Connection) : Connection :=
  { fd := c.fd, peer := c.peer, input := c.input, output := c.output.clear }

/-- Takes on a newly accepted stream. -/
def attach (c : Connection) (fd : Nat) (peer : Net.SocketAddress) : Connection :=
  let input := if c.input.size = readCapacity then c.input else Array.replicate readCapacity 0
  { c with input, fd := some fd, peer := some peer }.reset

/-- Gives up the stream; tells whether there was one. -/
def detach (c : Connection) : Bool × Connection :=
  if c.isLive then (true, { c with fd := none, peer := none }.reset) else (false, c)

end Connection
end PageServer
