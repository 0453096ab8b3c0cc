import PageServer.Config.Basic
import PageServer.Server.Signals
import PageServer.Server.Slots
import PageServer.Timer.Heap
import PageServer.Workers.Run

/-!
# The reactor

The one thread that accepts, reads, writes and closes. It waits for events, handles them
in turn, and afterwards looks at the timers if an alarm was among them. Requests are
worked on by the workers, which never close a connection. Times are in nanoseconds.
-/

namespace PageServer
namespace Server

open Connection (WriteOutcome)
open Metrics (CloseReason)

/-- Whom a timer evicts when it expires. -/
structure Client where
  fd : Nat
  generation : Nat
  peer : Net.SocketAddress
  deriving DecidableEq, Repr

structure Reactor where
  config : Config
  address : Net.SocketAddress
  slots : Slots
  workers : Workers Task Accounts.Handle
  backend : Accounts.Backend
  timers : Timer.Heap Client := Timer.Heap.new 64
  /-- The timer of each descriptor that has one. -/
  timerIds : Array (Option Nat)
  signals : SignalPipe := {}
  /-- Seconds from the last look at the timers to the next alarm. -/
  alarm : Nat
  stopped : Bool := false

/-- What is sent to a client that is turned away. -/
def busyMessage : String :=
  "Internal server busy"

/-- What becomes of a client that connects. -/
inductive Admission
  | accepted (generation : Nat)
  /-- Turned away with the busy message. -/
  | busy
  | refused (error : ServerError)
  deriving DecidableEq, Repr

inductive Event
  /-- Clients wait to be accepted, each with the descriptor it gets. -/
  | arrivals (clients : List (Nat × Net.SocketAddress))
  | signals
  | ready (fd : Nat) (r : Readiness)
  deriving Repr

def nanosPerSecond : Nat :=
  1000000000

/-- Seconds that the clock can tell. -/
def clockRange : Nat :=
  0x8000000000000000

/-- Whole seconds that cover a time. -/
def ceilSeconds (nanos : Nat) : Nat :=
  (nanos + nanosPerSecond - 1) / nanosPerSecond

/-- The delay after which the system raises an alarm: at least a second, and a 32-bit
number. -/
def alarmDelay (seconds : Nat) : Nat :=
  min (max seconds 1) 0xFFFFFFFF

namespace Reactor

/-- When a connection that is active now has been idle for too long. -/
def expiry (now : Nat) (r : Reactor) : Except Fault Nat :=
  r.config.idleTimeout.bind fun idle =>
    if now / nanosPerSecond + idle < clockRange then .ok (now + idle * nanosPerSecond)
    else .error .clockSum

def timerId? (r : Reactor) (fd : Nat) : Option Nat :=
  r.timerIds[fd]?.join

/-- Disarms the timer of a connection and closes the connection. -/
def close (fd : Nat) (reason : CloseReason) (r : Reactor) : Bool × Reactor :=
  let timers := match r.timerId? fd with
    | some id => (r.timers.disarm id).2
    | none => r.timers
  let c := r.slots.close fd none reason
  (c.1, { r with timers, timerIds := r.timerIds.setIfInBounds fd none, slots := c.2 })

/-- Lets the time that a connection may be idle begin anew. -/
def touch (now fd : Nat) (r : Reactor) : Except Fault Unit × Reactor :=
  match r.timerId? fd with
  | none => (.ok (), r)
  | some id => match r.expiry now with
    | .error f => (.error f, r)
    | .ok expiry => (.ok (), { r with timers := (r.timers.adjust id expiry).2 })

/-- Takes in a client that connects, or turns it away. -/
def welcome (now fd : Nat) (peer : Net.SocketAddress) (r : Reactor) :
    Except Fault Admission × Reactor :=
  if r.slots.capacity ≤ fd || r.config.maxFds ≤ r.slots.live then
    (.ok .busy, { r with slots := { r.slots with counters := r.slots.counters.countBusy } })
  else match r.slots.openSlot fd peer with
    | (.error e, slots) => (.ok (.refused e), { r with slots })
    | (.ok generation, slots) =>
      let r := { r with slots }
      match r.expiry now with
      | .error f => (.error f, r)
      | .ok expiry =>
        let t := r.timers.add expiry { fd, generation, peer }
        (.ok (.accepted generation),
          { r with timers := t.2, timerIds := r.timerIds.setIfInBounds fd (some t.1) })

/-- Arms a connection again and lets its idle time begin anew, or closes it. -/
def rearm (now fd : Nat) (i : Interest) (r : Reactor) : Except Fault Unit × Reactor :=
  match r.slots.rearm fd i with
  | (true, slots) => { r with slots }.touch now fd
  | (false, slots) => (.ok (), ({ r with slots }.close fd .peerClosed).2)

/-- Reads what a client has sent and queues the work on it. -/
def handleRead (now fd : Nat) (r : Reactor) : Except Fault Unit × Reactor :=
  match r.slots.slot? fd with
  | none => (.ok (), r)
  | some slot =>
    let (ok, session) := slot.session.read now
    let r := { r with slots := r.slots.putSession fd session }
    if !ok then (.ok (), (r.close fd .peerClosed).2)
    else match r.workers.append { fd, generation := slot.generation } with
      | (false, _) => (.ok (), (r.close fd .queueFull).2)
      | (true, workers) => { r with workers }.touch now fd

/-- What follows a write. -/
def afterWrite (now fd : Nat) (o : WriteOutcome) (r : Reactor) : Except Fault Unit × Reactor :=
  match o with
  | .pending => r.rearm now fd .write
  | .failed => (.ok (), (r.close fd .writeFailed).2)
  | .complete m =>
    let (counted, counters) := match m.status with
      | some status => r.slots.counters.countResponse status.code m.bytes m.latency
      | none => (.ok (), r.slots.counters)
    let r := { r with slots := { r.slots with counters } }
    match counted with
    | .error f => (.error f, r)
    | .ok _ => if m.keepAlive then r.rearm now fd .read else (.ok (), (r.close fd .completed).2)

/-- Sends on a response. -/
def handleWrite (now fd : Nat) (r : Reactor) : Except Fault Unit × Reactor :=
  match r.slots.slot? fd with
  | none => (.ok (), r)
  | some slot =>
    let (outcome, session) := slot.session.write now
    let r := { r with slots := r.slots.putSession fd session }
    match outcome with
    | .error f => (.error f, r)
    | .ok o => r.afterWrite now fd o

/-- Takes in all clients that wait. -/
def welcomeAll (now : Nat) : List (Nat × Net.SocketAddress) → Reactor → Except Fault Unit × Reactor
  | [], r => (.ok (), r)
  | (fd, peer) :: rest, r => match r.welcome now fd peer with
    | (.error f, r) => (.error f, r)
    | (.ok _, r) => welcomeAll now rest r

/-- Takes the signals out of the pipe; tells whether an alarm was among them. -/
def handleSignals (r : Reactor) : Bool × Reactor :=
  let (signals, pipe) := r.signals.drain
  (signals.contains .alarm,
    { r with signals := pipe, stopped := r.stopped || signals.contains .terminate })

/-- Handles one event; tells whether an alarm was in it. -/
def handle (now : Nat) (e : Event) (r : Reactor) : Except Fault Bool × Reactor :=
  let quiet (a : Except Fault Unit × Reactor) := (a.1.map fun _ => false, a.2)
  match e with
  | .arrivals clients => quiet (welcomeAll now clients r)
  | .signals => let a := r.handleSignals; (.ok a.1, a.2)
  | .ready fd ready =>
    if ready.hungUp then (.ok false, (r.close fd .peerClosed).2)
    else if ready.readable then quiet (r.handleRead now fd)
    else if ready.writable then quiet (r.handleWrite now fd)
    else (.ok false, r)

/-- Handles events in turn; tells whether an alarm was among them. -/
def handleAll (now : Nat) : List Event → Reactor → Except Fault Bool × Reactor
  | [], r => (.ok false, r)
  | e :: rest, r => match r.handle now e with
    | (.error f, r) => (.error f, r)
    | (.ok alarm, r) =>
      let a := handleAll now rest r
      (a.1.map (alarm || ·), a.2)

/-- Closes the connection that an expired timer stands for, if it is still the same. -/
def evict (r : Reactor) (c : Client) : Reactor :=
  { r with slots := (r.slots.close c.fd (some c.generation) .idle).2 }

/-- Evicts whoever has been idle for too long and sets the next alarm for the first expiry
that is left, at most one timeslot away. -/
def sweep (now : Nat) (r : Reactor) : Reactor :=
  let (fired, timers) := r.timers.tick now
  let r := fired.foldl evict { r with timers }
  let wish := match timers.untilNext? now with
    | some time => ceilSeconds time
    | none => r.config.timeslot
  { r with alarm := alarmDelay (min (max wish 1) (max r.config.timeslot 1)) }

/-- Handles the events of one wait. The timers come after them, so that what has just
happened on a connection counts. -/
def batch (now : Nat) (events : List Event) (r : Reactor) : Except Fault Unit × Reactor :=
  match handleAll now events r with
  | (.error f, r) => (.error f, r)
  | (.ok alarm, r) => (.ok (), if alarm then r.sweep now else r)

/-- Lets the workers do what is queued. A task that meets a fault is given up, and its
worker and handle go on. -/
def work (r : Reactor) : Reactor :=
  let exec (s : Slots × Accounts.Backend) (t : Task) (h : Accounts.Handle) :=
    let e := t.run r.config.docRoot s.1 s.2
    (Workers.Progress.done h, (e.2.1, e.2.2))
  let (s, workers) := Workers.settle exec (r.slots, r.backend) r.workers
  { r with slots := s.1, backend := s.2, workers }

/-- Closes all connections; gives their number. -/
def closeAll (reason : CloseReason) (r : Reactor) : Nat × Reactor :=
  (List.range r.timerIds.size).foldl (fun (acc : Nat × Reactor) fd =>
    if (r.timerId? fd).isSome then
      let c := acc.2.close fd reason
      (if c.1 then acc.1 + 1 else acc.1, c.2)
    else acc) (0, r)

/-- One wait for what is ready, the handling of it, and the work that follows from it;
tells whether there was anything. -/
def turn (now : Nat) (r : Reactor) : Except Fault Bool × Reactor :=
  let (ready, slots) := r.slots.poll
  let signals := if r.signals.waiting.isEmpty then [] else [Event.signals]
  let events := signals ++ ready.map fun e => .ready e.1 e.2
  match batch now events { r with slots } with
  | (.error f, r) => (.error f, r)
  | (.ok _, r) => (.ok !events.isEmpty, r.work)

end Reactor
end Server
end PageServer
