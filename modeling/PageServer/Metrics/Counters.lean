import PageServer.Fault
import PageServer.Metrics.Latency

/-!
# Counters

What the server counts while it runs, and the summary of it at one moment.
-/

namespace PageServer
namespace Metrics

/-- Why a connection was closed. -/
inductive CloseReason
  /-- The client closed it, or its stream failed. -/
  | peerClosed
  /-- The response has gone out and the client wants no other. -/
  | completed
  | idle
  /-- The work queue was full. -/
  | queueFull
  | writeFailed
  | shutdown
  deriving DecidableEq, Repr

/-- What has been counted. The byte total stays within a word, see `countResponse`. The
counts are not bounded by one: no server lives to see as many connections as a word has
values. -/
structure Counters where
  accepted : Nat := 0
  /-- Clients turned away because the server was full. -/
  busy : Nat := 0
  closed : Nat := 0
  idleEvictions : Nat := 0
  queueRejections : Nat := 0
  /-- Responses by status code, in order of the codes. -/
  statusCodes : List (Nat × Nat) := []
  bytesSent : Nat := 0
  samples : Array Nat := #[]
  deriving Repr

/-- Adds one to the count of a code. -/
def countCode (code : Nat) : List (Nat × Nat) → List (Nat × Nat)
  | [] => [(code, 1)]
  | (c, n) :: rest =>
    if code < c then (code, 1) :: (c, n) :: rest
    else if code = c then (c, n + 1) :: rest
    else (c, n) :: countCode code rest

structure Snapshot where
  accepted : Nat
  busy : Nat
  closed : Nat
  idleEvictions : Nat
  queueRejections : Nat
  responses : Nat
  statusCodes : List (Nat × Nat)
  bytesSent : Nat
  latency : LatencySummary
  deriving Repr

namespace Counters

def countAccept (c : Counters) : Counters :=
  { c with accepted := c.accepted + 1 }

def countBusy (c : Counters) : Counters :=
  { c with busy := c.busy + 1 }

def countClose (reason : CloseReason) (c : Counters) : Counters :=
  { c with
    closed := c.closed + 1
    idleEvictions := if reason = .idle then c.idleEvictions + 1 else c.idleEvictions
    queueRejections := if reason = .queueFull then c.queueRejections + 1 else c.queueRejections }

/-- Counts a response that has gone out, with its latency in nanoseconds where it was
timed. A byte total that no longer fits stops this after the status has been counted. -/
def countResponse (code bytes : Nat) (latency : Option Nat) (c : Counters) :
    Except Fault Unit × Counters :=
  let c := { c with statusCodes := countCode code c.statusCodes }
  match addWord c.bytesSent bytes with
  | .error f => (.error f, c)
  | .ok bytesSent =>
    let samples := match latency with
      | some t => recordSample c.samples (micros t)
      | none => c.samples
    (.ok (), { c with bytesSent, samples })

/-- The summary; a fault where the samples sum up to more than a word. -/
def snapshot (c : Counters) : Except Fault Snapshot :=
  if total c.samples.toList < wordRange then
    .ok {
      accepted := c.accepted
      busy := c.busy
      closed := c.closed
      idleEvictions := c.idleEvictions
      queueRejections := c.queueRejections
      responses := total (c.statusCodes.map Prod.snd)
      statusCodes := c.statusCodes
      bytesSent := c.bytesSent
      latency := LatencySummary.ofSamples c.samples }
  else .error .addOverflow

end Counters
end Metrics
end PageServer
