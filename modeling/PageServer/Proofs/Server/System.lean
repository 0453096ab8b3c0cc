import Mathlib.Logic.Relation
import PageServer.Proofs.Workers.Operations
import PageServer.Server.Start

/-!
# The reactor and the workers together

The reactor and the workers share the slots, the work queue and the poller.  While the
reactor waits, what is ready is reported to it; then it goes through the events, and the
actions that follow from one come before the next event; the timers come last.  Each step
is what is done under one lock, and the steps of the reactor, of the workers and of the
clients may come in any order.
-/

namespace PageServer
namespace Server

open Accounts (Handle)
open Connection (WriteOutcome)
open Metrics (CloseReason)

/-- What the reactor has to do for an event, or next in handling it. -/
inductive Action
  /-- Take in clients until there are no more. -/
  | accept
  | signals
  | ready (fd : Nat) (r : Readiness)
  | queue (t : Task)
  | conclude (fd : Nat) (o : WriteOutcome)
  | rearm (fd : Nat) (i : Interest)
  | touch (fd : Nat)
  | close (fd : Nat) (reason : CloseReason)

/-- The connection whose event is being handled. -/
def Action.handled? : Action → Option Nat
  | .ready fd _ | .conclude fd _ | .rearm fd _ | .close fd _ => some fd
  | .queue t => some t.fd
  | .accept | .signals | .touch _ => none

/-- What the reactor does when all events have been handled. -/
inductive Late
  | sweep
  | evict (c : Client)
  | schedule (now : Nat)
  | shut (fd : Nat)

namespace Reactor

/-- Does an action; gives the actions that follow from it. -/
def act (now : Nat) (a : Action) (r : Reactor) : Except Fault (List Action) × Reactor :=
  match a with
  | .accept => (.ok [], r)
  | .signals => (.ok [], r.handleSignals.2)
  | .ready fd x =>
    if x.hungUp then (.ok [.close fd .peerClosed], r)
    else match r.slots.slot? fd with
      | none => (.ok [], r)
      | some slot =>
        if x.readable then
          let (ok, session) := slot.session.read now
          (.ok (if ok then [.queue ⟨fd, slot.generation⟩] else [.close fd .peerClosed]),
            { r with slots := r.slots.putSession fd session })
        else if x.writable then
          let (outcome, session) := slot.session.write now
          (outcome.map fun o => [.conclude fd o], { r with slots := r.slots.putSession fd session })
        else (.ok [], r)
  | .queue t => match r.workers.append t with
    | (false, _) => (.ok [.close t.fd .queueFull], r)
    | (true, workers) => (.ok [.touch t.fd], { r with workers })
  | .conclude fd o => match o with
    | .pending => (.ok [.rearm fd .write], r)
    | .failed => (.ok [.close fd .writeFailed], r)
    | .complete m =>
      let (counted, counters) := match m.status with
        | some status => r.slots.counters.countResponse status.code m.bytes m.latency
        | none => (.ok (), r.slots.counters)
      (counted.map fun _ => [if m.keepAlive then .rearm fd .read else .close fd .completed],
        { r with slots := { r.slots with counters } })
  | .rearm fd i => match r.slots.rearm fd i with
    | (true, slots) => (.ok [.touch fd], { r with slots })
    | (false, slots) => (.ok [.close fd .peerClosed], { r with slots })
  | .touch fd => let t := r.touch now fd; (t.1.map fun _ => [], t.2)
  | .close fd reason => (.ok [], (r.close fd reason).2)

/-- An alarm is among the signals that the action takes out of the pipe. -/
def alarms (r : Reactor) : Action → Bool
  | .signals => r.handleSignals.1
  | _ => false

/-- Sets the alarm for the first expiry that is left after a look at the timers. -/
def schedule (now : Nat) (r : Reactor) : Reactor :=
  let wish := match r.timers.untilNext? now with
    | some time => ceilSeconds time
    | none => r.config.timeslot
  { r with alarm := alarmDelay (min (max wish 1) (max r.config.timeslot 1)) }

def actLate (now : Nat) (l : Late) (r : Reactor) : List Late × Reactor :=
  match l with
  | .sweep =>
    let (fired, timers) := r.timers.tick now
    (fired.map .evict ++ [.schedule now], { r with timers })
  | .evict c => ([], r.evict c)
  | .schedule now => ([], r.schedule now)
  | .shut fd => ([], (r.close fd .shutdown).2)

/-- The descriptors that have a timer. -/
def tracked (r : Reactor) : List Nat :=
  (List.range r.timerIds.size).filter fun fd => (r.timerId? fd).isSome

/-- No connection has been taken in, and no worker has anything to do. -/
structure Fresh (r : Reactor) : Prop where
  slots : ∃ capacity, r.slots = Slots.ofCapacity capacity
  queue : r.workers.queue = []
  waiting : r.workers.waiting = []
  running : r.workers.running = []
  handles : r.workers.handles.Fits

end Reactor

structure System where
  reactor : Reactor
  /-- The handles of tasks that have ended, until their workers return them. -/
  returning : List Handle := []
  /-- The reactor waits for events. -/
  waiting : Bool := false
  /-- A fault has ended the reactor. -/
  halted : Bool := false
  /-- The events that have been reported and what follows from them. -/
  todo : List Action := []
  later : List Late := []

namespace System

/-- The tasks that are queued or taken and have not ended, oldest first. -/
def tasks (s : System) : List Task :=
  s.reactor.workers.running.map (·.1) ++ s.reactor.workers.waiting ++ s.reactor.workers.queue

def withSlots (slots : Slots) (s : System) : System :=
  { s with reactor := { s.reactor with slots } }

def withWorkers (workers : Workers Task Handle) (s : System) : System :=
  { s with reactor := { s.reactor with workers } }

/-- The system after the first action, where `rest` are the others. -/
def acted (now : Nat) (a : Action) (rest : List Action) (s : System) : System :=
  let r := s.reactor.act now a
  match r.1 with
  | .error _ => { s with reactor := r.2, halted := true }
  | .ok follow => { s with
      reactor := r.2
      todo := follow ++ rest
      later := if s.reactor.alarms a then [.sweep] else s.later }

/-- The system after a client has been taken in or turned away. -/
def welcomed (now fd : Nat) (peer : Net.SocketAddress) (s : System) : System :=
  let r := s.reactor.welcome now fd peer
  { s with reactor := r.2, halted := r.1.toOption.isNone }

/-- The system after a task has been worked on, and is no longer among those that run. -/
def worked (place : Nat) (t : Task) (h : Handle) (s : System) : System :=
  let e := t.run s.reactor.config.docRoot s.reactor.slots s.reactor.backend
  let workers := { s.reactor.workers with running := s.reactor.workers.running.eraseIdx place }
  { s with
    reactor := { s.reactor with slots := e.2.1, backend := e.2.2, workers }
    returning := s.returning ++ [h] }

/-- The reactor goes through what it has to do. -/
structure Runs (s : System) : Prop where
  awake : s.waiting = false
  up : s.halted = false

inductive Step : System → System → Prop
  /-- A descriptor is reported while the reactor waits. -/
  | report {s : System} {fd : Nat} {i : Interest} {r : Readiness} (waits : s.waiting = true)
    (armed : s.reactor.slots.poller.armed? fd = some i)
    (ready : readiness? i (s.reactor.slots.stream fd) = some r) :
    Step s { s.withSlots { s.reactor.slots with poller := s.reactor.slots.poller.disarm fd } with
      todo := s.todo ++ [.ready fd r] }
  /-- Clients or signals are reported. -/
  | announce {s : System} {a : Action} (waits : s.waiting = true)
    (which : a = .accept ∨ a = .signals) : Step s { s with todo := s.todo ++ [a] }
  | wake {s : System} (waits : s.waiting = true) : Step s { s with waiting := false }
  | fail {s : System} (waits : s.waiting = true) :
    Step s { s with waiting := false, halted := true }
  | accept {s : System} {rest : List Action} (runs : s.Runs) (first : s.todo = .accept :: rest)
    (now fd : Nat) (peer : Net.SocketAddress)
    (free : ∀ slot, s.reactor.slots.slot? fd = some slot → slot.isLive = false) :
    Step s (s.welcomed now fd peer)
  | act {s : System} {a : Action} {rest : List Action} (runs : s.Runs) (first : s.todo = a :: rest)
    (now : Nat) : Step s (s.acted now a rest)
  | actLate {s : System} {l : Late} {rest : List Late} (runs : s.Runs) (done : s.todo = [])
    (first : s.later = l :: rest) (now : Nat) :
    Step s { s with
      reactor := (s.reactor.actLate now l).2, later := (s.reactor.actLate now l).1 ++ rest }
  | wait {s : System} (runs : s.Runs) (done : s.todo = []) (doneLate : s.later = [])
    (goesOn : s.reactor.stopped = false) : Step s { s with waiting := true }
  | stop {s : System} (runs : s.Runs) (done : s.todo = []) (doneLate : s.later = [])
    (told : s.reactor.stopped = true) : Step s { s with later := s.reactor.tracked.map .shut }
  | take {s : System} {w : Workers Task Handle} (h : s.reactor.workers.take? = some w) :
    Step s (s.withWorkers w)
  | lease {s : System} {t : Task} {r : Handle} {w : Workers Task Handle}
    (h : s.reactor.workers.lease? = some (t, r, w)) : Step s (s.withWorkers w)
  | work {s : System} {place : Nat} {t : Task} {r : Handle}
    (runs : s.reactor.workers.running[place]? = some (t, r)) : Step s (s.worked place t r)
  | giveBack {s : System} {before after : List Handle} {r : Handle} {handles : Pool Handle}
    (held : s.returning = before ++ r :: after)
    (h : s.reactor.workers.handles.release r = .ok handles) :
    Step s { s.withWorkers { s.reactor.workers with handles } with returning := before ++ after }
  | raise {s : System} (number : UInt8) :
    Step s { s with reactor := { s.reactor with signals := s.reactor.signals.raise number } }
  /-- A client sends, reads, ends its side or goes away. -/
  | client {s : System} {fd : Nat} {slot : Slot} (present : s.reactor.slots.slot? fd = some slot)
    (stream : Net.Stream) (cut : stream.cut = slot.session.stream.cut) :
    Step s (s.withSlots (s.reactor.slots.putSession fd { slot.session with stream }))
  /-- The file of a connection changes. -/
  | refresh {s : System} {fd : Nat} {slot : Slot} (present : s.reactor.slots.slot? fd = some slot)
    (d : Disk) : Step s (s.withSlots (s.reactor.slots.putSession fd (slot.session.refresh d)))
  /-- The disk or the accounts change. -/
  | backend {s : System} (b : Accounts.Backend) :
    Step s { s with reactor := { s.reactor with backend := b } }

/-- What comes about in any number of steps. -/
abbrev Steps : System → System → Prop :=
  Relation.ReflTransGen Step

/-- What the system can come to. -/
inductive Reached : System → Prop
  | start {r : Reactor} (fresh : r.Fresh) : Reached { reactor := r }
  | step {s t : System} (h : Reached s) (hstep : Step s t) : Reached t

end System
end Server
end PageServer
