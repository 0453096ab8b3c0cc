import PageServer.Net.Queue

/-!
# Signals

Signals reach the event loop as bytes in a pipe, where each is named by its number.
-/

namespace PageServer
namespace Server

inductive Signal
  /-- Time to look for timers that have expired. -/
  | alarm
  /-- Stop after the events at hand. -/
  | terminate
  deriving DecidableEq, Repr

def alarmNumber : UInt8 := 14

def terminateNumber : UInt8 := 15

def interruptNumber : UInt8 := 2

/-- The signal that a byte stands for; other bytes stand for none. -/
def Signal.ofByte? (b : UInt8) : Option Signal :=
  if b = alarmNumber then some .alarm
  else if b = terminateNumber || b = interruptNumber then some .terminate
  else none

/-- The bytes that wait in the pipe, oldest first. -/
structure SignalPipe where
  waiting : List UInt8 := []
  deriving Repr

namespace SignalPipe

/-- Signals that may wait in the pipe, each in a piece of its own. -/
def capacity : Nat :=
  (Net.Queue.maxMemory + Net.Piece.memoryFor 1 - 1) / Net.Piece.memoryFor 1

def isFull (p : SignalPipe) : Bool :=
  capacity ≤ p.waiting.length

/-- A signal arrives; it is lost where the pipe is full. -/
def raise (number : UInt8) (p : SignalPipe) : SignalPipe :=
  if p.isFull then p else { waiting := p.waiting ++ [number] }

/-- Takes all signals out. -/
def drain (p : SignalPipe) : List Signal × SignalPipe :=
  (p.waiting.filterMap Signal.ofByte?, { waiting := [] })

end SignalPipe
end Server
end PageServer
