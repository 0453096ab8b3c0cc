import Mathlib.Logic.Function.Basic
import PageServer.Proofs.Server.Population
import PageServer.Proofs.Server.Schedule

/-!
# A record of what happens

A chronicle keeps beside the system what its counters only sum up: which clients were
taken in, which connections were closed and why, which timers have had their effect, and
when a connection was last active.  Nothing that happens depends on the record, and
whatever happens is recorded.
-/

namespace PageServer
namespace Server

open Metrics (CloseReason)

/-- A reactor that has been set up and has taken nobody in. -/
structure Reactor.Prepared (r : Reactor) : Prop extends r.Fresh where
  valid : r.config.validate = .ok ()
  timers : ∃ capacity, r.timers = Timer.Heap.new capacity
  timerIds : r.timerIds = Array.replicate r.slots.capacity none

/-- Nobody is connected before the first has been taken in. -/
theorem Reactor.Fresh.isLive_slotAt {r : Reactor} (h : r.Fresh) (fd : Nat) :
    (r.slots.slotAt fd).isLive = false := by
  obtain ⟨capacity, hslots⟩ := h.slots
  rw [hslots, Slots.slotAt, Slots.slot?, Slots.ofCapacity, Array.getElem?_replicate]
  split <;> rfl

theorem openParts_valid {system : Net.SocketAddress → Except IoError Net.SocketAddress} {c : Config}
    {d : Disk} {parts : Net.Listener × Accounts.Table × List Accounts.Handle}
    (h : openParts system c d = .ok parts) : c.validate = .ok () := by
  unfold openParts at h
  cases hvalid : c.validate with
  | error e =>
    rw [hvalid] at h
    cases h
  | ok u => rfl

theorem Reactor.prepared_start {system : Net.SocketAddress → Except IoError Net.SocketAddress}
    {c : Config} {d : Disk} {r : Reactor} (h : (Reactor.start system c d).1 = .ok r) :
    r.Prepared := by
  have hfresh := System.fresh_start h
  unfold Reactor.start at h
  split at h
  · cases h
  · next hparts =>
    simp only at h
    split at h
    · cases h
    · obtain rfl := Except.ok.inj h
      refine ⟨hfresh, openParts_valid hparts, ⟨64, rfl⟩, ?_⟩
      simp [Slots.capacity, Slots.ofCapacity]

/-- The connection that a timer is about. -/
def Client.tenancy (x : Client) : Tenancy :=
  ⟨x.fd, x.generation⟩

/-- A connection that was closed, and why. -/
structure Closing where
  tenancy : Tenancy
  reason : CloseReason
  deriving DecidableEq, Repr

structure Chronicle where
  system : System
  /-- When the present connection of a descriptor was taken in or was active last. -/
  active : Nat → Nat := fun _ => 0
  taken : List Tenancy := []
  closings : List Closing := []
  /-- The timers that have had their effect. -/
  fired : List Client := []
  /-- A fault has ended the reactor while it took a client in. -/
  broken : Bool := false
  /-- The reactor has stopped and closes what is left. -/
  leaving : Bool := false

namespace System

/-- No connection is taken in, closed or given more time. -/
structure Undisturbed (s t : System) : Prop where
  config : t.reactor.config = s.reactor.config
  timers : t.reactor.timers = s.reactor.timers
  timerIds : t.reactor.timerIds = s.reactor.timerIds
  slots : s.reactor.slots.Kept t.reactor.slots
  later : t.later = s.later

end System

namespace Chronicle

def reactor (c : Chronicle) : Reactor :=
  c.system.reactor

def slots (c : Chronicle) : Slots :=
  c.reactor.slots

/-- The closings with one of the connection that a descriptor has, if that was closed. -/
def noted (closed : Bool) (fd : Nat) (reason : CloseReason) (c : Chronicle) : List Closing :=
  if closed then c.closings ++ [⟨c.slots.tenancy fd, reason⟩] else c.closings

/-- The chronicle after a client has been taken in or turned away. -/
def welcomed (now fd : Nat) (peer : Net.SocketAddress) (c : Chronicle) : Chronicle :=
  let system := c.system.welcomed now fd peer
  match (c.reactor.welcome now fd peer).1 with
  | .ok (.accepted generation) =>
    { c with
      system
      active := Function.update c.active fd now
      taken := c.taken ++ [⟨fd, generation⟩] }
  | .ok _ => { c with system }
  | .error _ => { c with system, broken := true }

/-- The chronicle after the first action.  That an idle time begins anew is what makes a
connection active. -/
def acted (now : Nat) (a : Action) (rest : List Action) (c : Chronicle) : Chronicle :=
  { c with
    system := c.system.acted now a rest
    active := match a with
      | .touch fd =>
        if (c.reactor.touch now fd).1.isOk then Function.update c.active fd now else c.active
      | _ => c.active
    closings := match a with
      | .close fd reason => c.noted (c.reactor.close fd reason).1 fd reason
      | _ => c.closings }

def actedLate (now : Nat) (l : Late) (rest : List Late) (c : Chronicle) : Chronicle :=
  let r := c.reactor.actLate now l
  { c with
    system := { c.system with reactor := r.2, later := r.1 ++ rest }
    closings := match l with
      | .evict x => c.noted (c.slots.close x.fd (some x.generation) .idle).1 x.fd .idle
      | .shut fd => c.noted (c.reactor.close fd .shutdown).1 fd .shutdown
      | _ => c.closings
    fired := match l with
      | .evict x => c.fired ++ [x]
      | _ => c.fired }

def stopped (c : Chronicle) : Chronicle :=
  { c with
    system := { c.system with later := c.reactor.tracked.map .shut }
    leaving := true }

/-- One step of the system, at a time that matters where the reactor looks at the clock. -/
inductive Next (now : Nat) : Chronicle → Chronicle → Prop
  | accept {c : Chronicle} {rest : List Action} (runs : c.system.Runs)
    (first : c.system.todo = .accept :: rest) (fd : Nat) (peer : Net.SocketAddress)
    (free : ∀ slot, c.slots.slot? fd = some slot → slot.isLive = false) :
    Next now c (c.welcomed now fd peer)
  | act {c : Chronicle} {a : Action} {rest : List Action} (runs : c.system.Runs)
    (first : c.system.todo = a :: rest) : Next now c (c.acted now a rest)
  | actLate {c : Chronicle} {l : Late} {rest : List Late} (runs : c.system.Runs)
    (done : c.system.todo = []) (first : c.system.later = l :: rest) :
    Next now c (c.actedLate now l rest)
  | stop {c : Chronicle} (runs : c.system.Runs) (done : c.system.todo = [])
    (doneLate : c.system.later = []) (told : c.reactor.stopped = true) : Next now c c.stopped
  | aside {c : Chronicle} {t : System} (step : c.system.Step t) (aside : c.system.Undisturbed t) :
    Next now c { c with system := t }

/-- What a server can come to from its start on, with the record of the way. -/
inductive Reached : Chronicle → Prop
  | start {r : Reactor} (h : r.Prepared) : Reached { system := { reactor := r } }
  | next {c d : Chronicle} {now : Nat} (h : Reached c) (hnext : Next now c d) : Reached d

variable {c d : Chronicle} {now : Nat}

@[simp] theorem system_welcomed (fd : Nat) (peer : Net.SocketAddress) :
    (c.welcomed now fd peer).system = c.system.welcomed now fd peer := by
  unfold welcomed
  simp only
  split <;> rfl

/-- What is recorded is a step of the system. -/
theorem Next.step (h : Next now c d) : c.system.Step d.system := by
  cases h with
  | accept runs first fd peer free =>
    rw [system_welcomed]
    exact .accept runs first now fd peer free
  | act runs first => exact .act runs first now
  | actLate runs done first => exact .actLate runs done first now
  | stop runs done doneLate told => exact .stop runs done doneLate told
  | aside step => exact step

/-- Whatever the system does is recorded: what is not the reactor's own doing leaves the
connections and their timers alone. -/
theorem exists_next (c : Chronicle) {t : System} (h : c.system.Step t) :
    ∃ now d, Next now c d ∧ d.system = t := by
  have hstep := h
  cases h with
  | accept runs first now fd peer free =>
    exact ⟨now, _, .accept runs first fd peer free, system_welcomed fd peer⟩
  | act runs first now => exact ⟨now, _, .act runs first, rfl⟩
  | actLate runs done first now => exact ⟨now, _, .actLate runs done first, rfl⟩
  | stop runs done doneLate told => exact ⟨0, _, .stop runs done doneLate told, rfl⟩
  | report => exact ⟨0, _, .aside hstep ⟨rfl, rfl, rfl, Slots.kept_mark _ rfl, rfl⟩, rfl⟩
  | announce | wake | fail | wait | take | lease | giveBack | raise | backend =>
    exact ⟨0, _, .aside hstep ⟨rfl, rfl, rfl, .refl _, rfl⟩, rfl⟩
  | work => exact ⟨0, _, .aside hstep ⟨rfl, rfl, rfl, Slots.kept_run _ _ _ _, rfl⟩, rfl⟩
  | client | refresh =>
    exact ⟨0, _, .aside hstep ⟨rfl, rfl, rfl, Slots.kept_putSession _ _ _, rfl⟩, rfl⟩

theorem Reached.exists_of_steps (h : c.Reached) {t : System} (run : System.Steps c.system t) :
    ∃ d : Chronicle, d.Reached ∧ d.system = t := by
  induction run with
  | refl => exact ⟨c, h, rfl⟩
  | tail _ hstep ih =>
    obtain ⟨d, hd, rfl⟩ := ih
    obtain ⟨now, e, hnext, rfl⟩ := d.exists_next hstep
    exact ⟨e, hd.next hnext, rfl⟩

theorem Reached.system (h : c.Reached) : c.system.Reached := by
  induction h with
  | start h => exact .start h.toFresh
  | next _ hnext ih => exact ih.step hnext.step

end Chronicle
end Server
end PageServer
