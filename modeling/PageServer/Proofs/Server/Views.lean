import PageServer.Proofs.Connection.Standing
import PageServer.Proofs.Server.Slots
import PageServer.Proofs.Server.System

/-!
# The system as one descriptor sees it

Of the whole system a descriptor has to do with its slot, its entry with the poller, the
actions that handle its event, and the tasks that name it.  In these it shows who has the
connection: nobody where there is none, else the poller, the reactor, or a worker with a
task.
-/

namespace PageServer
namespace Server

open Connection (Sending)

/-- The slot later on: what is open in it has been open, or is newer than all it has had. -/
def Slot.Leads (before after : Slot) : Prop :=
  after.generation = before.generation ∧ (after.isLive = true → before.isLive = true) ∨
    before.generation < after.generation

theorem Slot.Leads.refl (slot : Slot) : slot.Leads slot :=
  .inl ⟨rfl, id⟩

structure View where
  slot : Slot
  /-- How the poller watches the descriptor. -/
  watch : Option (Option Interest)
  /-- What the reactor has to do for the event of the descriptor. -/
  actions : List Action
  tasks : List Task

namespace View

def connection (v : View) : Connection :=
  v.slot.session.connection

/-- The tasks of the connection that the slot has now. -/
def current (v : View) : List Task :=
  v.tasks.filter (·.generation == v.slot.generation)

/-- The connection is where it can be armed so. -/
def Ready (v : View) : Interest → Prop
  | .read => Connection.Reached .reading v.connection
  | .write => Connection.Reached .writing v.connection ∧ Sending v.connection

/-- An armed connection is ready for what it is armed for, or has been cut after its
request could not be answered. -/
def Waits (v : View) (i : Interest) : Prop :=
  v.Ready i ∨
    i = .read ∧ Connection.Reached .closing v.connection ∧ v.slot.session.stream.cut = true

/-- The action is right for where the connection is. -/
def Due (v : View) : Action → Prop
  | .ready _ r =>
    r.hungUp = true ∨ (r.readable = true ∧ v.Ready .read) ∨
      (r.readable = false ∧ r.writable = true ∧ v.Ready .write)
  | .queue t => t.generation = v.slot.generation ∧ Connection.Reached .processing v.connection
  | .conclude _ .pending => v.Ready .write
  | .conclude _ (.complete m) => m.keepAlive = true → v.Ready .read
  | .conclude _ .failed => True
  | .rearm _ i => v.Ready i
  | .close .. => True
  | .accept | .signals | .touch _ => False

/-- Who has the connection. -/
inductive Owned (v : View) : Prop
  | nobody (reached : Connection.Reached .closed v.connection) (unwatched : v.watch = none)
    (idle : v.actions = [])
  | poller (i : Interest) (armed : v.watch = some (some i)) (idle : v.actions = [])
    (untasked : v.current = []) (waits : v.Waits i)
  | reactor (a : Action) (stage : Stage) (open_ : stage ≠ .closed)
    (reached : Connection.Reached stage v.connection) (disarmed : v.watch = some none)
    (only : v.actions = [a]) (untasked : v.current = []) (due : v.Due a)
  | worker (t : Task) (disarmed : v.watch = some none) (idle : v.actions = [])
    (only : v.current = [t]) (reached : Connection.Reached .processing v.connection)

/-- Somebody has the connection, and no task is newer than it. -/
structure Sound (v : View) : Prop where
  old : ∀ t ∈ v.tasks, t.generation ≤ v.slot.generation
  owned : v.Owned

variable {v : View}

theorem Ready.reached {i : Interest} (h : v.Ready i) :
    ∃ stage, stage ≠ .closed ∧ Connection.Reached stage v.connection := by
  cases i with
  | read => exact ⟨.reading, by decide, h⟩
  | write => exact ⟨.writing, by decide, h.1⟩

theorem Waits.reached {i : Interest} (h : v.Waits i) :
    ∃ stage, stage ≠ .closed ∧ Connection.Reached stage v.connection := by
  rcases h with h | ⟨-, h, -⟩
  · exact h.reached
  · exact ⟨.closing, by decide, h⟩

/-- Nobody has a connection that is not open, and nothing else is without an owner. -/
theorem Owned.isLive_iff (h : v.Owned) :
    v.slot.isLive = true ↔ ∃ stage, stage ≠ .closed ∧ Connection.Reached stage v.connection := by
  constructor
  · intro hlive
    cases h with
    | nobody reached =>
      have hoff := reached.isLive_closed
      rw [show v.connection.isLive = true from hlive] at hoff
      cases hoff
    | poller i armed idle untasked waits => exact waits.reached
    | reactor a stage open_ reached => exact ⟨stage, open_, reached⟩
    | worker t disarmed idle only reached => exact ⟨.processing, by decide, reached⟩
  · rintro ⟨stage, hopen, hreached⟩
    exact hreached.isLive_iff.mpr hopen

/-- Where the reactor has the connection nobody else has it. -/
theorem Sound.handling (h : v.Sound) {a : Action} (ha : a ∈ v.actions) :
    v.slot.isLive = true ∧ v.watch = some none ∧ v.actions = [a] ∧ v.current = [] ∧ v.Due a := by
  have hlive := h.owned.isLive_iff
  cases h.owned with
  | nobody reached unwatched idle =>
    rw [idle] at ha
    cases ha
  | poller i armed idle =>
    rw [idle] at ha
    cases ha
  | reactor a' stage open_ reached disarmed only untasked due =>
    rw [only, List.mem_singleton] at ha
    subst ha
    exact ⟨hlive.mpr ⟨stage, open_, reached⟩, disarmed, only, untasked, due⟩
  | worker t disarmed idle =>
    rw [idle] at ha
    cases ha

/-- Where a worker has the connection nobody else has it. -/
theorem Sound.working (h : v.Sound) {t : Task} (ht : t ∈ v.current)
    (live : v.slot.isLive = true) :
    v.watch = some none ∧ v.actions = [] ∧ v.current = [t] ∧
      Connection.Reached .processing v.connection := by
  cases h.owned with
  | nobody reached =>
    have hoff := reached.isLive_closed
    rw [show v.connection.isLive = true from live] at hoff
    cases hoff
  | poller i armed idle untasked =>
    rw [untasked] at ht
    cases ht
  | reactor a stage open_ reached disarmed only untasked =>
    rw [untasked] at ht
    cases ht
  | worker t' disarmed idle only reached =>
    rw [only, List.mem_singleton] at ht
    subst ht
    exact ⟨disarmed, idle, only, reached⟩

/-- The tasks that are left when one is done. -/
theorem Sound.old_of_eq (h : v.Sound) {t : Task} {before after : List Task}
    (tasks : v.tasks = before ++ t :: after) :
    ∀ t' ∈ before ++ after, t'.generation ≤ v.slot.generation := by
  intro t' ht'
  apply h.old t'
  rw [tasks]
  exact (List.mem_append.mp ht').elim (List.mem_append_left _)
    fun hmem => List.mem_append_right _ (List.mem_cons_of_mem t hmem)

end View

namespace System

/-- The actions that handle the event of a descriptor. -/
def actions (s : System) (fd : Nat) : List Action :=
  s.todo.filter (·.handled? == some fd)

/-- The tasks that name a descriptor. -/
def tasksOf (s : System) (fd : Nat) : List Task :=
  s.tasks.filter (·.fd == fd)

def view (s : System) (fd : Nat) : View where
  slot := s.reactor.slots.slotAt fd
  watch := s.reactor.slots.watch fd
  actions := s.actions fd
  tasks := s.tasksOf fd

/-- At every descriptor somebody has the connection, and none is watched twice. -/
structure Sound (s : System) : Prop where
  views : ∀ fd, (s.view fd).Sound
  distinct : s.reactor.slots.poller.Distinct

/-- A step leads to a sound system, and where the connection of a descriptor is open it
has been so before or is a later one. -/
structure Leads (s t : System) : Prop where
  sound : t.Sound
  later : ∀ fd, (s.view fd).slot.Leads (t.view fd).slot

variable {s t : System}

/-- What changes at one descriptor only is sound if it is so there. -/
theorem Sound.update (h : s.Sound) {fd : Nat} {v : View} (sound : v.Sound)
    (later : (s.view fd).slot.Leads v.slot)
    (slots : Slots.Updates fd v.slot v.watch s.reactor.slots t.reactor.slots)
    (actions : ∀ x, t.actions x = if x = fd then v.actions else s.actions x)
    (tasks : ∀ x, t.tasksOf x = if x = fd then v.tasks else s.tasksOf x) : s.Leads t := by
  have hview (x : Nat) : t.view x = if x = fd then v else s.view x := by
    simp only [view, slots.slot, slots.watch, actions, tasks]
    split <;> rfl
  refine ⟨⟨?_, slots.distinct h.distinct⟩, ?_⟩
  · intro x
    rw [hview]
    split
    · exact sound
    · exact h.views x
  · intro x
    rw [hview]
    split
    · next hx =>
      rw [hx]
      exact later
    · exact .refl _

/-- What is the same at every descriptor stays sound. -/
theorem Sound.of_eq (h : s.Sound) (table : t.reactor.slots.table = s.reactor.slots.table)
    (poller : t.reactor.slots.poller = s.reactor.slots.poller)
    (actions : ∀ x, t.actions x = s.actions x) (tasks : t.tasks = s.tasks) : s.Leads t := by
  have hview (x : Nat) : t.view x = s.view x := by
    simp only [view, Slots.slotAt, Slots.slot?, Slots.watch, table, poller, actions, tasksOf, tasks]
  refine ⟨⟨?_, ?_⟩, ?_⟩
  · intro x
    rw [hview]
    exact h.views x
  · rw [poller]
    exact h.distinct
  · intro x
    rw [hview]
    exact .refl _

end System
end Server
end PageServer
