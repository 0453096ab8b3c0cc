import PageServer.Error
import PageServer.Net.Stream

/-!
# Polling

Which descriptors are watched, and for what. A descriptor is reported once and then left
alone until it is armed again, so that it is never handled twice at a time.
-/

namespace PageServer
namespace Server

inductive Interest
  | read
  | write
  deriving DecidableEq, Repr

/-- What is reported of a descriptor. -/
structure Readiness where
  readable : Bool
  writable : Bool
  /-- The client has ended its side, or the stream was cut. -/
  hungUp : Bool
  deriving DecidableEq, Repr

/-- What there is to report of a stream to someone with an interest in it. -/
def readiness? (i : Interest) (s : Net.Stream) : Option Readiness :=
  match i with
  | .read => if s.isReadable then some ⟨true, false, s.ended⟩ else none
  | .write => if s.isWritable then some ⟨false, true, s.ended⟩ else none

/-- The watched descriptors in order, each with its interest while it is armed. -/
structure Poller where
  entries : List (Nat × Option Interest) := []
  deriving Repr

namespace Poller

def isWatched (p : Poller) (fd : Nat) : Bool :=
  p.entries.any (·.1 == fd)

/-- What a descriptor is armed for. -/
def armed? (p : Poller) (fd : Nat) : Option Interest :=
  (p.entries.lookup fd).join

/-- Puts an entry among those of other descriptors. -/
def place (fd : Nat) (i : Interest) : List (Nat × Option Interest) → List (Nat × Option Interest)
  | [] => [(fd, some i)]
  | e :: rest => if fd < e.1 then (fd, some i) :: e :: rest else e :: place fd i rest

/-- Watches a new descriptor and arms it. -/
def add (fd : Nat) (i : Interest) (p : Poller) : Except IoErrorKind Poller :=
  if p.isWatched fd then .error .alreadyExists else .ok { entries := place fd i p.entries }

/-- Arms a descriptor again. -/
def rearm (fd : Nat) (i : Interest) (p : Poller) : Except IoErrorKind Poller :=
  if p.isWatched fd then
    .ok { entries := p.entries.map fun e => if e.1 = fd then (fd, some i) else e }
  else .error .notFound

/-- Disarms a descriptor. -/
def disarm (fd : Nat) (p : Poller) : Poller :=
  { entries := p.entries.map fun e => if e.1 = fd then (fd, none) else e }

/-- Watches a descriptor no longer. -/
def delete (fd : Nat) (p : Poller) : Poller :=
  { entries := p.entries.filter (·.1 != fd) }

/-- Reports what is ready among the armed descriptors, and disarms those. -/
def poll (stream : Nat → Net.Stream) (p : Poller) : List (Nat × Readiness) × Poller :=
  let ready := p.entries.filterMap fun e =>
    (e.2.bind fun i => readiness? i (stream e.1)).map fun r => (e.1, r)
  (ready, ready.foldl (fun p r => p.disarm r.1) p)

end Poller
end Server
end PageServer
