import Mathlib
import PageServer.Proofs.Server.Schedule

/-!
# One owner for each connection

A connection is armed for reading or for writing, or the reactor handles its event, or one
task for it is queued or runs.  No two of these meet on a connection, whatever the order
of the steps, and a task whose connection has gone does nothing.
-/

namespace PageServer
namespace Server

open Connection (Sending)

/-- Who has a connection. -/
inductive Owner
  /-- The poller, where it is armed so. -/
  | poller (i : Interest)
  /-- The reactor, which has this to do for its event. -/
  | reactor (a : Action)
  /-- The queue or a worker, with this task. -/
  | task (t : Task)

namespace System

variable {s t : System}

/-- Everyone who has the connection of a descriptor. -/
def owners (s : System) (fd : Nat) : List Owner :=
  (s.reactor.slots.poller.armed? fd).toList.map .poller ++ (s.actions fd).map .reactor ++
    (s.tasks.filter (· = ⟨fd, (s.reactor.slots.slotAt fd).generation⟩)).map .task

/-- What the reactor does next is to read from a connection. -/
def Reads (s : System) (fd : Nat) : Prop :=
  ∃ r rest, s.todo = .ready fd r :: rest ∧ r.hungUp = false ∧ r.readable = true

/-- What the reactor does next is to write to a connection. -/
def Writes (s : System) (fd : Nat) : Prop :=
  ∃ r rest, s.todo = .ready fd r :: rest ∧ r.hungUp = false ∧ r.readable = false ∧
    r.writable = true

/-- A task for a connection that is there runs. -/
def Processes (s : System) (fd : Nat) : Prop :=
  ∃ t ∈ s.reactor.workers.running.map (·.1), t.fd = fd ∧ t.Current s.reactor.slots

theorem owners_eq (s : System) (fd : Nat) : s.owners fd =
    (s.view fd).watch.join.toList.map .poller ++ (s.view fd).actions.map .reactor ++
      (s.view fd).current.map .task := by
  have hcurrent : s.tasks.filter (· = ⟨fd, (s.reactor.slots.slotAt fd).generation⟩) =
      (s.view fd).current := by
    rw [View.current, view, tasksOf, List.filter_filter]
    apply List.filter_congr
    intro t _
    obtain ⟨x, generation⟩ := t
    rw [Bool.eq_iff_iff]
    simp [and_comm]
  rw [owners, hcurrent]
  rfl

theorem Sound.owners (h : s.Sound) {fd : Nat} (live : (s.reactor.slots.slotAt fd).isLive = true) :
    ∃ o, s.owners fd = [o] := by
  have hview := h.views fd
  rw [owners_eq]
  cases hview.owned with
  | nobody reached =>
    have hoff := reached.isLive_closed
    rw [show (s.view fd).connection.isLive = true from live] at hoff
    cases hoff
  | poller i armed idle untasked => exact ⟨.poller i, by rw [armed, idle, untasked]; rfl⟩
  | reactor a stage open_ reached disarmed only untasked =>
    exact ⟨.reactor a, by rw [disarmed, only, untasked]; rfl⟩
  | worker t disarmed idle only => exact ⟨.task t, by rw [disarmed, idle, only]; rfl⟩

/-- Where a task of the connection is queued or runs, the connection takes in a request. -/
theorem Sound.processing (h : s.Sound) {k : Task} (hk : k ∈ s.tasks)
    (current : k.Current s.reactor.slots) :
    Connection.Reached .processing (s.view k.fd).connection := by
  obtain ⟨slot, hslot, hgeneration, hlive⟩ := current
  have hview : (s.view k.fd).slot = slot := slotAt_eq_of_slot? hslot
  have hmem : k ∈ (s.view k.fd).current := by
    refine List.mem_filter.mpr ⟨List.mem_filter.mpr ⟨hk, by simp⟩, ?_⟩
    rw [hview, hgeneration]
    exact beq_self_eq_true _
  obtain ⟨-, -, -, hreached⟩ := (h.views k.fd).working hmem (hview ▸ hlive)
  exact hreached

/-- The reactor reads and writes only where there is no task, and it writes what is left
of a response. -/
theorem Sound.calls (h : s.Sound) {fd : Nat} {r : Readiness} {rest : List Action}
    (first : s.todo = .ready fd r :: rest) :
    ⟨fd, (s.reactor.slots.slotAt fd).generation⟩ ∉ s.tasks ∧
      (r.hungUp = false → r.readable = false → Sending (s.view fd).connection) := by
  obtain ⟨-, -, untasked, due⟩ := h.handled first rfl
  constructor
  · intro hmem
    have hcurrent : ⟨fd, (s.reactor.slots.slotAt fd).generation⟩ ∈ (s.view fd).current :=
      List.mem_filter.mpr ⟨List.mem_filter.mpr ⟨hmem, by simp⟩, beq_self_eq_true _⟩
    rw [untasked] at hcurrent
    cases hcurrent
  · intro hhung hreadable
    rcases due with hhung' | ⟨hreadable', -⟩ | ⟨-, -, hready⟩
    · rw [hhung] at hhung'
      cases hhung'
    · rw [hreadable] at hreadable'
      cases hreadable'
    · exact hready.2

/-- However the steps of the reactor, the workers and the clients come one after the
other, each open connection has one owner. -/
theorem Reached.one_owner (h : s.Reached) :
    (∀ fd, (s.reactor.slots.slotAt fd).isLive = true → ∃ o, s.owners fd = [o]) ∧
      (∀ fd, (s.reactor.slots.slotAt fd).isLive = true →
        s.reactor.workers.queue.count ⟨fd, (s.reactor.slots.slotAt fd).generation⟩ ≤ 1) ∧
      (∀ fd, s.Reads fd ∨ s.Writes fd →
        ⟨fd, (s.reactor.slots.slotAt fd).generation⟩ ∉ s.tasks) ∧
      (∀ fd, s.Processes fd →
        let c := (s.reactor.slots.slotAt fd).session.connection
        c.total = 0 ∧ c.output.bytes = [] ∧ c.file = none) ∧
      (∀ fd, s.Writes fd →
        let c := (s.reactor.slots.slotAt fd).session.connection
        c.sent < c.total ∧ c.response.length = c.total) ∧
      ∀ k ∈ s.tasks, ¬k.Current s.reactor.slots → ∀ t, Steps s t →
        ∀ root b, k.run root t.reactor.slots b = (.ok (), t.reactor.slots, b) := by
  have hsound := h.sound
  refine ⟨fun fd hlive => hsound.owners hlive, ?_, ?_, ?_, ?_, ?_⟩
  · intro fd hlive
    obtain ⟨o, howners⟩ := hsound.owners hlive
    have hlength := congrArg List.length howners
    rw [owners, List.length_append, List.length_map, List.length_singleton] at hlength
    have hqueue : s.reactor.workers.queue.Sublist s.tasks := List.sublist_append_right _ _
    have hcount := hqueue.count_le ⟨fd, (s.reactor.slots.slotAt fd).generation⟩
    have hfilter : s.tasks.count ⟨fd, (s.reactor.slots.slotAt fd).generation⟩ =
        (s.tasks.filter (· = ⟨fd, (s.reactor.slots.slotAt fd).generation⟩)).length :=
      List.count_eq_length_filter
    omega
  · rintro fd (⟨r, rest, first, -⟩ | ⟨r, rest, first, -⟩) <;> exact (hsound.calls first).1
  · rintro fd ⟨k, hk, rfl, hcurrent⟩
    have hmem : k ∈ s.tasks := List.mem_append_left _ (List.mem_append_left _ hk)
    obtain ⟨htotal, houtput, hfile, -⟩ := (hsound.processing hmem hcurrent).unanswered
    exact ⟨htotal, houtput, hfile⟩
  · rintro fd ⟨r, rest, first, hhung, hreadable, -⟩
    have hsending := (hsound.calls first).2 hhung hreadable
    exact ⟨hsending.left, hsending.total.symm⟩
  · intro k hk stale t run root b
    exact Task.run_stale (h.not_current hk stale run) root b

/-- A reactor with room for one connection and one task. -/
def small : Reactor where
  config := { maxFds := 1 }
  address := ⟨.v4 0 0 0 0, 9006⟩
  slots := Slots.ofCapacity 1
  workers := { threads := 1, maxQueued := 1, handles := Pool.ofList [⟨0, "users.json"⟩] }
  backend := { disk := {}, table := { path := "users.json" } }
  timerIds := #[none]
  alarm := 5

def visitor : Net.SocketAddress :=
  ⟨.v4 127 0 0 1, 40000⟩

/-- A client has sent a byte, and a task for it is queued. -/
def queued : Reactor :=
  (attend 0 ((small.welcome 0 0 visitor).2.deliver ⟨0, 1, visitor⟩ (some [0x47]))).2

def afterwards : Nat :=
  16 * nanosPerSecond

/-- The client has been idle for too long, and its descriptor has been given out again. -/
def reused : Reactor :=
  ((attend afterwards { queued with signals := queued.signals.raise alarmNumber }).2.welcome
    afterwards 0 visitor).2

set_option maxRecDepth 20000 in
theorem reached_reused : Reached { reactor := reused } := by
  have hfree (r : Reactor) (hoff : (r.slots.slotAt 0).isLive = false) (slot : Slot)
      (hslot : r.slots.slot? 0 = some slot) : slot.isLive = false := by
    rw [← Slots.slotAt_of_slot? hslot]
    exact hoff
  have hsmall : Reached { reactor := small } := .start ⟨⟨1, rfl⟩, rfl, rfl, rfl, Nat.le_refl 1⟩
  have hfirst : Reached { reactor := (small.welcome 0 0 visitor).2 } :=
    hsmall.steps ((comes_welcome 0 0 visitor small rfl (hfree _ (by cbv))).ok
      (x := .accepted 1) (by cbv))
  have hsent := hfirst.steps (steps_deliver _ ⟨0, 1, visitor⟩ (some [0x47]))
  have hqueued : Reached { reactor := queued } :=
    hsent.steps ((comes_attend 0 _ (by cbv) hsent.sound.distinct).ok (x := ()) (by cbv))
  have halarm := hqueued.step (.raise alarmNumber)
  have hswept := halarm.steps
    ((comes_attend afterwards _ (by cbv) halarm.sound.distinct).ok (x := ()) (by cbv))
  exact hswept.steps
    ((comes_welcome afterwards 0 visitor _ (by cbv) (hfree _ (by cbv))).ok (x := .accepted 2)
      (by cbv))

set_option maxRecDepth 20000 in
/-- A task that was queued for a client before does nothing to the one that has its
descriptor now, which is armed for reading. -/
theorem Reached.one_owner_reused :
    Reached { reactor := reused } ∧ (reused.slots.slotAt 0).isLive = true ∧
      tasks { reactor := reused } = [⟨0, 1⟩] ∧
      (∃ o, owners { reactor := reused } 0 = [o]) ∧
      ∀ root b, Task.run root ⟨0, 1⟩ reused.slots b = (.ok (), reused.slots, b) := by
  have hlive : (reused.slots.slotAt 0).isLive = true := by cbv
  have htasks : tasks { reactor := reused } = [⟨0, 1⟩] := by cbv
  have hgeneration : (reused.slots.slotAt 0).generation = 2 := by cbv
  obtain ⟨hone, -, -, -, -, hstale⟩ := reached_reused.one_owner
  refine ⟨reached_reused, hlive, htasks, hone 0 hlive, ?_⟩
  refine hstale ⟨0, 1⟩ (htasks ▸ List.mem_singleton_self _) ?_ _ .refl
  rintro ⟨slot, hslot, hsame, -⟩
  rw [Slots.slotAt_of_slot? hslot, hsame] at hgeneration
  cases hgeneration

end System
end Server
end PageServer
