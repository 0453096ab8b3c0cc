import PageServer.Error
import PageServer.Pool.Basic

/-!
# Worker pools

A fixed number of workers that take tasks from a bounded queue, oldest first. A worker
holds a handle of a resource pool while it runs a task and returns it however the task
ends.
-/

namespace PageServer

structure Workers (τ ρ : Type) where
  threads : Nat
  maxQueued : Nat
  /-- Tasks that no worker has taken. -/
  queue : List τ := []
  /-- Tasks whose worker waits for a handle. -/
  waiting : List τ := []
  /-- Tasks that run, with the handle of each. -/
  running : List (τ × ρ) := []
  handles : Pool ρ

namespace Workers

variable {τ ρ : Type}

/-- Bytes that are kept for a thread. -/
def threadSize : Nat :=
  24

def start (threads maxQueued : Nat) (handles : Pool ρ) : Except Failure (Workers τ ρ) :=
  if threads = 0 || maxQueued = 0 then
    .error (.refused (.config "thread pool needs at least one thread and one queue slot"))
  else match reserve threads threadSize with
    | .error f => .error (.fault f)
    | .ok _ => .ok { threads, maxQueued, handles }

def pending (w : Workers τ ρ) : Nat :=
  w.queue.length

/-- Puts a task into the queue; false where the queue is full. -/
def append (t : τ) (w : Workers τ ρ) : Bool × Workers τ ρ :=
  if w.maxQueued ≤ w.queue.length then (false, w)
  else (true, { w with queue := w.queue ++ [t] })

/-- Workers that are busy with a task. -/
def busy (w : Workers τ ρ) : Nat :=
  w.waiting.length + w.running.length

/-- An idle worker takes the oldest task. -/
def take? (w : Workers τ ρ) : Option (Workers τ ρ) :=
  match w.queue with
  | [] => none
  | t :: rest =>
    if w.busy < w.threads then some { w with queue := rest, waiting := w.waiting ++ [t] } else none

/-- A worker that waits gets a handle and starts its task. -/
def lease? (w : Workers τ ρ) : Option (τ × ρ × Workers τ ρ) :=
  match w.waiting with
  | [] => none
  | t :: rest => w.handles.acquire?.map fun a =>
    (t, a.1, { w with waiting := rest, running := w.running ++ [(t, a.1)], handles := a.2 })

/-- The task at a place among the running ones ends and leaves its handle as `r`. -/
def finish (place : Nat) (r : ρ) (w : Workers τ ρ) : Except Fault (Workers τ ρ) :=
  (w.handles.release r).map fun handles => { w with running := w.running.eraseIdx place, handles }

end Workers
end PageServer
