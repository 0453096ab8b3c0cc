import PageServer.Net.Queue

/-!
# Streams

A connected stream as both of its ends see it: what the client has sent and the server not
yet read, and what the server has written and the client not yet read.
-/

namespace PageServer
namespace Net

/-- What one read of a stream reports. -/
inductive ReadReply
  /-- Bytes, or the end of the stream where there are none. -/
  | bytes (data : Bytes)
  | wouldBlock
  | interrupted
  | failed
  deriving DecidableEq, Repr

/-- What one write to a stream reports. -/
inductive WriteReply
  | accepted (count : Nat)
  | wouldBlock
  | interrupted
  | failed
  deriving DecidableEq, Repr

structure Stream where
  toServer : Queue := {}
  toClient : Queue := {}
  /-- The client's end exists. -/
  clientOpen : Bool := true
  /-- The client has not ended its sending side. -/
  clientSends : Bool := true
  /-- The server's descriptor exists. -/
  serverOpen : Bool := true
  /-- The server has cut the stream in both directions. -/
  cut : Bool := false
  deriving Repr

namespace Stream

/-- The server can still be reached. -/
def reachable (s : Stream) : Bool :=
  s.serverOpen && !s.cut

/-- The client sends bytes; tells whether the stream has taken all of them. -/
def clientSend (s : Stream) (data : Bytes) : Bool × Stream :=
  if s.clientOpen && data.isEmpty then (true, s)
  else if s.clientOpen && s.clientSends && s.reachable then
    (s.toServer.room data.length == data.length, { s with toServer := s.toServer.push data })
  else (false, s)

/-- The client reads all there is; tells whether the stream has ended behind it. -/
def clientReceive (s : Stream) : Bytes × Bool × Stream :=
  if s.clientOpen then (s.toClient.bytes, !s.reachable, { s with toClient := {} })
  else ([], true, s)

def clientEnd (s : Stream) : Stream :=
  { s with clientSends := false }

def clientClose (s : Stream) : Stream :=
  { s with clientOpen := false, clientSends := false, toClient := {} }

def serverClose (s : Stream) : Stream :=
  { s with serverOpen := false, toServer := {} }

def serverCut (s : Stream) : Stream :=
  { s with cut := true }

/-- No more bytes will come from the client. -/
def ended (s : Stream) : Bool :=
  !s.clientSends || s.cut

/-- The server has something to read, if only the end. -/
def isReadable (s : Stream) : Bool :=
  !s.toServer.isEmpty || s.ended

/-- The server's next write is worth while: most of the memory is free. -/
def isWritable (s : Stream) : Bool :=
  4 * s.toClient.memory ≤ Queue.maxMemory || s.ended

/-- The replies to reads of at most `room` bytes in all. -/
def readReplies (s : Stream) (room : Nat) : List ReadReply :=
  let rest := if s.ended then [.bytes []] else [.wouldBlock]
  if s.toServer.isEmpty then rest else .bytes (s.toServer.bytes.take room) :: rest

/-- The stream after the server has read `count` bytes. -/
def serverRead (s : Stream) (count : Nat) : Stream :=
  { s with toServer := s.toServer.drop count }

/-- The replies to writes of `offered` bytes in all, of which the first `readable` can be
read. A piece that cannot be read to its end is not taken at all. -/
def writeReplies (s : Stream) (offered readable : Nat) : List WriteReply :=
  let room := s.toClient.room offered
  let able :=
    if readable < offered then readable / Piece.maxLength * Piece.maxLength else offered
  let taken := min room able
  let next : List WriteReply :=
    if taken = offered then [.accepted 0]
    else if room = taken then [.wouldBlock]
    else [.failed]
  if !s.clientOpen || s.cut then [.failed]
  else if taken = 0 then next
  else .accepted taken :: next

/-- The stream after the server has written `data`. -/
def serverWrite (s : Stream) (data : Bytes) : Stream :=
  { s with toClient := s.toClient.push data }

end Stream
end Net
end PageServer
