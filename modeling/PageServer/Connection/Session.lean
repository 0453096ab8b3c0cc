import PageServer.Connection.Reading
import PageServer.Connection.Serving
import PageServer.Connection.Writing

/-!
# Sessions

A connection together with the stream that it is attached to.
-/

namespace PageServer

structure Session where
  connection : Connection := {}
  stream : Net.Stream := { clientOpen := false, clientSends := false, serverOpen := false }
  deriving Repr

namespace Session

open Connection (WriteOutcome)

/-- Attaches a new stream. -/
def attach (s : Session) (fd : Nat) (peer : Net.SocketAddress) : Session :=
  { connection := s.connection.attach fd peer, stream := {} }

/-- Closes the server's end; tells whether it was open. -/
def close (s : Session) : Bool × Session :=
  let r := s.connection.detach
  (r.1, { connection := r.2, stream := if r.1 then s.stream.serverClose else s.stream })

/-- Cuts the stream in both directions and keeps the descriptor. -/
def cut (s : Session) : Session :=
  if s.connection.isLive then { s with stream := s.stream.serverCut } else s

/-- Reads what the stream has. -/
def read (s : Session) (now : Nat) : Bool × Session :=
  let r := s.connection.read now (s.stream.readReplies s.connection.room)
  (r.1, { connection := r.2, stream := s.stream.serverRead (r.2.filled - s.connection.filled) })

/-- The session after a disk has changed. -/
def refresh (d : Disk) (s : Session) : Session :=
  { s with connection := s.connection.refresh d }

/-- Writes what the stream takes at once. -/
def write (s : Session) (now : Nat) : Except Fault WriteOutcome × Session :=
  let offered := match s.connection.offer with
    | .ok bytes => bytes.length
    | .error _ => 0
  let readable := offered - s.connection.lost
  let r := s.connection.write now (s.stream.writeReplies offered readable)
  (r.1, { connection := r.2.1, stream := s.stream.serverWrite r.2.2 })

/-- Writes until the outcome is settled, the client reading all there is after each write;
at most `fuel` writes. Gives the outcome, whether a write was held up, and what the client
has read. -/
def drain (now : Nat) : (fuel : Nat) → Session → Except Fault WriteOutcome × Bool × Bytes × Session
  | 0, s => (.ok .pending, true, [], s)
  | fuel + 1, s =>
    let w := s.write now
    let r := w.2.stream.clientReceive
    let s := { w.2 with stream := r.2.2 }
    match w.1 with
    | .ok .pending =>
      let d := drain now fuel s
      (d.1, true, r.1 ++ d.2.2.1, d.2.2.2)
    | outcome => (outcome, false, r.1, s)

/-- Writes enough times for any response to go out. -/
def writeAll (s : Session) (now : Nat) : Except Fault WriteOutcome × Bool × Bytes × Session :=
  drain now (s.connection.total / Net.Piece.maxLength + 2) s

def process (root : String) (b : Accounts.Backend) (s : Session) :
    Except Fault Connection.ProcessOutcome × Session × Accounts.Backend :=
  let r := s.connection.process root b
  (r.1, { s with connection := r.2.1 }, r.2.2)

end Session
end PageServer
