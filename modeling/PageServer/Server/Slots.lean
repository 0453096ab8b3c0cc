import PageServer.Connection.Session
import PageServer.Metrics.Counters
import PageServer.Server.Poller

/-!
# Connection slots

The connections by descriptor. Descriptors are given out again, so each slot counts the
connections it has had: whoever refers to an earlier one than the present is ignored.
-/

namespace PageServer
namespace Server

open Metrics (CloseReason Counters)

structure Slot where
  /-- How many connections the slot has had; like the counts of `Metrics.Counters`, not
  bounded by a word. -/
  generation : Nat := 0
  session : Session := {}
  deriving Repr

def Slot.isLive (s : Slot) : Bool :=
  s.session.connection.isLive

structure Slots where
  table : Array Slot
  poller : Poller := {}
  /-- Connections that are open. -/
  live : Nat := 0
  counters : Counters := {}
  deriving Repr

/-- Work on the request of one connection. -/
structure Task where
  fd : Nat
  generation : Nat
  deriving DecidableEq, Repr

namespace Slots

def ofCapacity (capacity : Nat) : Slots :=
  { table := Array.replicate capacity {} }

def capacity (s : Slots) : Nat :=
  s.table.size

def slot? (s : Slots) (fd : Nat) : Option Slot :=
  s.table[fd]?

def put (fd : Nat) (slot : Slot) (s : Slots) : Slots :=
  { s with table := s.table.setIfInBounds fd slot }

/-- Replaces the session of a slot. -/
def putSession (fd : Nat) (session : Session) (s : Slots) : Slots :=
  { s with table := s.table.modify fd fun slot => { slot with session } }

/-- Takes in a new connection and arms it for reading; gives its generation. -/
def openSlot (fd : Nat) (peer : Net.SocketAddress) (s : Slots) : Except ServerError Nat × Slots :=
  match s.slot? fd with
  | none => (.error .slotTableFull, s)
  | some slot =>
    let generation := slot.generation + 1
    let session := slot.session.attach fd peer
    match s.poller.add fd .read with
    | .error kind => (.error (.io kind.error), s.put fd { generation, session := session.close.2 })
    | .ok poller =>
      (.ok generation, { s.put fd { generation, session } with
        poller, live := s.live + 1, counters := s.counters.countAccept })

/-- Closes a connection, or only the one of a generation; tells whether it was open. -/
def close (fd : Nat) (generation : Option Nat) (reason : CloseReason) (s : Slots) : Bool × Slots :=
  match s.slot? fd with
  | none => (false, s)
  | some slot =>
    if generation.any (· != slot.generation) || !slot.isLive then (false, s)
    else (true, { s.putSession fd slot.session.close.2 with
      poller := s.poller.delete fd
      live := s.live - 1
      counters := s.counters.countClose reason })

/-- Takes in a connection on a descriptor as the system writes it: a signed number, and a
negative one has no slot. -/
def openRaw (raw : Int) (peer : Net.SocketAddress) (s : Slots) : Except ServerError Nat × Slots :=
  match raw.toNat? with
  | none => (.error .slotTableFull, s)
  | some fd => s.openSlot fd peer

/-- Closes the connection of a descriptor as the system writes it. -/
def closeRaw (raw : Int) (generation : Option Nat) (reason : CloseReason) (s : Slots) :
    Bool × Slots :=
  match raw.toNat? with
  | none => (false, s)
  | some fd => s.close fd generation reason

/-- Arms a connection again; false where its descriptor is not watched. -/
def rearm (fd : Nat) (i : Interest) (s : Slots) : Bool × Slots :=
  match s.poller.rearm fd i with
  | .ok poller => (true, { s with poller })
  | .error _ => (false, s)

/-- The stream of a descriptor; one that is closed where there is no slot. -/
def stream (s : Slots) (fd : Nat) : Net.Stream :=
  ((s.slot? fd).getD {}).session.stream

/-- Reports the connections that are ready, and disarms them. -/
def poll (s : Slots) : List (Nat × Readiness) × Slots :=
  let r := s.poller.poll s.stream
  (r.1, { s with poller := r.2 })

/-- Arms a connection after its request has been worked on, or cuts its stream where that
fails. -/
def rearmAfter (fd : Nat) (i : Interest) (s : Slots) : Slots :=
  match s.rearm fd i with
  | (true, s) => s
  | (false, s) => s.putSession fd ((s.slot? fd).getD {}).session.cut

end Slots

namespace Task

/-- What a connection is armed for after its request has been worked on. -/
def interestAfter : Connection.ProcessOutcome → Interest
  | .readyToWrite => .write
  | .needInput | .abort => .read

/-- Works on the request, unless the connection is no longer there. -/
def run (root : String) (t : Task) (s : Slots) (b : Accounts.Backend) :
    Except Fault Unit × Slots × Accounts.Backend :=
  match s.slot? t.fd with
  | none => (.ok (), s, b)
  | some slot =>
    if slot.generation != t.generation || !slot.isLive then (.ok (), s, b)
    else match slot.session.process root b with
      | (.error f, session, b) => (.error f, s.putSession t.fd session, b)
      | (.ok outcome, session, b) =>
        let session := if outcome = .abort then session.cut else session
        (.ok (), (s.putSession t.fd session).rearmAfter t.fd (interestAfter outcome), b)

/-- Works on the request of a descriptor as the system writes it. -/
def runRaw (root : String) (raw : Int) (generation : Nat) (s : Slots) (b : Accounts.Backend) :
    Except Fault Unit × Slots × Accounts.Backend :=
  match raw.toNat? with
  | none => (.ok (), s, b)
  | some fd => run root { fd, generation } s b

end Task
end Server
end PageServer
