import Mathlib
import PageServer.Program
import PageServer.Proofs.Config.Limits

/-!
# Starting up

From a configuration that has been found valid to the time that the first client gets: the
settings are logged, the server is set up, and a connection expires three timeslots from
now.  None of this is refused for a size, and faults are met only where a configuration
goes beyond its limits.
-/

namespace PageServer

open Server (Reactor)

/-! ## Memory -/

theorem Accounts.handles_eq {size : Nat} (path : String) (hsize : 0 < size) :
    Accounts.handles path size =
      if size * handleSize ≤ memoryLimit then .ok ((List.range size).map fun id => { id, path })
      else .error (.fault .capacityOverflow) := by
  rw [Accounts.handles, if_neg (Nat.ne_of_gt hsize)]
  by_cases h : size * handleSize ≤ memoryLimit
  · rw [reserve_ok h, if_pos h]
  · rw [reserve_error h, if_neg h]

theorem Workers.start_eq {τ ρ : Type} {threads maxQueued : Nat} (handles : Pool ρ)
    (hthreads : 0 < threads) (hqueued : 0 < maxQueued) :
    (Workers.start threads maxQueued handles : Except Failure (Workers τ ρ)) =
      if threads * threadSize ≤ memoryLimit then .ok { threads, maxQueued, handles }
      else .error (.fault .capacityOverflow) := by
  have hnone : (decide (threads = 0) || decide (maxQueued = 0)) = false := by
    simp only [Bool.or_eq_false_iff, decide_eq_false_iff_not]
    omega
  rw [Workers.start, hnone]
  by_cases h : threads * threadSize ≤ memoryLimit
  · rw [reserve_ok h, if_pos h]
    rfl
  · rw [reserve_error h, if_neg h]
    rfl

/-! ## The server -/

namespace Server

variable {system : Net.SocketAddress → Except IoError Net.SocketAddress} {c : Config} {d : Disk}
  {listener : Net.Listener} {table : Accounts.Table}

/-- The address of a configuration can be had, and its user table read. -/
structure Opens (system : Net.SocketAddress → Except IoError Net.SocketAddress) (c : Config)
    (d : Disk) : Prop where
  listener : ∃ listener, Net.Listener.bind system c.address = .ok listener
  table : ∃ table, Accounts.Table.load d c.dbPath = .ok table

theorem openParts_eq (valid : c.validate = .ok ())
    (hlistener : Net.Listener.bind system c.address = .ok listener)
    (htable : Accounts.Table.load d c.dbPath = .ok table) :
    openParts system c d =
      (Accounts.handles c.dbPath c.dbPoolSize).map fun handles => (listener, table, handles) := by
  rw [openParts, valid, hlistener, htable]
  cases Accounts.handles c.dbPath c.dbPoolSize <;> rfl

theorem openWorkers_eq (valid : c.validate = .ok ()) (handles : List Accounts.Handle) :
    openWorkers c handles =
      if c.maxFds * slotSize ≤ memoryLimit ∧ c.threads * Workers.threadSize ≤ memoryLimit then
        .ok { threads := c.threads, maxQueued := c.maxRequests
              handles := useHandle (Pool.ofList handles) }
      else .error (.fault .capacityOverflow) := by
  obtain ⟨hthreads, hqueued, -, -, -⟩ := Config.validate_eq_ok_iff.mp valid
  by_cases hslots : c.maxFds * slotSize ≤ memoryLimit
  · rw [openWorkers, reserve_ok hslots]
    simp only [hslots, true_and]
    exact Workers.start_eq _ hthreads hqueued
  · rw [openWorkers, reserve_error hslots, if_neg fun h => hslots h.1]
    rfl

/-- What is refused is refused for the address or for the user table, never for a size. -/
theorem Reactor.start_refused (valid : c.validate = .ok ()) (h : ¬Opens system c d) :
    ∃ e, (Reactor.start system c d).1 = .error (.refused e) := by
  cases hlistener : Net.Listener.bind system c.address with
  | error e =>
    refine ⟨.io e, ?_⟩
    rw [Reactor.start, openParts, valid, hlistener]
    rfl
  | ok listener =>
    cases htable : Accounts.Table.load d c.dbPath with
    | error e =>
      refine ⟨e, ?_⟩
      rw [Reactor.start, openParts, valid, hlistener, htable]
      rfl
    | ok table => exact absurd ⟨⟨_, hlistener⟩, ⟨_, htable⟩⟩ h

theorem Reactor.start_fits (valid : c.validate = .ok ()) (hopens : Opens system c d)
    (hfits : c.Fits) :
    ∃ r, (Reactor.start system c d).1 = .ok r ∧ r.config = c := by
  obtain ⟨⟨listener, hlistener⟩, ⟨table, htable⟩⟩ := hopens
  obtain ⟨-, -, -, -, hpool⟩ := Config.validate_eq_ok_iff.mp valid
  rw [Reactor.start, openParts_eq valid hlistener htable, Accounts.handles_eq _ hpool,
    if_pos hfits.handles]
  simp only [Except.map, openWorkers_eq valid, hfits.slots, hfits.threads, and_self, if_true]
  exact ⟨_, rfl, rfl⟩

theorem Reactor.start_exceeds (valid : c.validate = .ok ()) (hopens : Opens system c d)
    (hfits : ¬c.Fits) : (Reactor.start system c d).1 = .error (.fault .capacityOverflow) := by
  obtain ⟨⟨listener, hlistener⟩, ⟨table, htable⟩⟩ := hopens
  obtain ⟨-, -, -, -, hpool⟩ := Config.validate_eq_ok_iff.mp valid
  rw [Reactor.start, openParts_eq valid hlistener htable, Accounts.handles_eq _ hpool]
  -- The handles come first; the slots and the threads are asked for once there is room
  -- for them.
  by_cases hhandles : c.dbPoolSize * Accounts.handleSize ≤ memoryLimit
  · have hrest : ¬(c.maxFds * slotSize ≤ memoryLimit ∧
        c.threads * Workers.threadSize ≤ memoryLimit) :=
      fun h => hfits ⟨hhandles, h.1, h.2⟩
    simp only [hhandles, if_true, Except.map, openWorkers_eq valid, hrest, if_false]
  · simp only [hhandles, if_false, Except.map]

end Server

/-! ## The log -/

namespace Program

open Server (Opens)

variable {stamp : Stamp} {system : Addresses} {c : Config} {console : Console}

theorem filter_writeLog (line : String) (console : Console) :
    (console.writeLog line).filter = console.filter := by
  unfold Console.writeLog
  split
  · rfl
  · split <;> rfl

theorem filter_log (stamp : Stamp) (e : Log.Event) (console : Console) :
    (console.log stamp e).filter = console.filter := by
  unfold Console.log
  split
  · exact filter_writeLog _ console
  · rfl

/-- All events are logged where none that the filter lets through meets a fault. -/
theorem logUntilFault_quiet {events : List (Log.Event × Option Fault)}
    (h : ∀ e f, (e, some f) ∈ events → console.filter.passes e = false) :
    logUntilFault stamp events console = (none, console.logAll stamp (events.map (·.1))) := by
  induction events generalizing console with
  | nil => rfl
  | cons event events ih =>
    obtain ⟨e, fault⟩ := event
    have htail : ∀ e' f, (e', some f) ∈ events →
        (console.log stamp e).filter.passes e' = false := by
      intro e' f hmem
      rw [filter_log]
      exact h e' f (List.mem_cons_of_mem _ hmem)
    cases fault with
    | none => exact ih htail
    | some f =>
      -- The event is passed over here, and logging it would write nothing either.
      have hpasses : console.filter.passes e = false := h e f List.mem_cons_self
      have hlog : console.log stamp e = console := by
        rw [Console.log, hpasses]
        rfl
      rw [hlog] at htail
      rw [logUntilFault, hpasses, List.map_cons, Console.logAll, List.foldl_cons, hlog]
      exact ih htail

/-- The events that tell the settings. -/
def summaryEvents (c : Config) : List Log.Event :=
  c.summary.map (·.1)

/-- The event that tells how long a connection may be idle. -/
def timersEvent (c : Config) : Log.Event :=
  Config.summaryEvent "timers"
    [("timeslot_secs", s!"{c.timeslot}"), ("idle_timeout_secs", s!"{3 * c.timeslot}")]

/-- Three timeslots are no duration, and the filter lets the event through that tells
them. -/
def Overruns (c : Config) (filter : Log.Filter) : Prop :=
  ¬c.HasBudget ∧ filter.passes (timersEvent c) = true

theorem summary_eq (c : Config) : ∃ network workers backend : Log.Event, ∃ fault,
    c.summary = [(network, none), (workers, none), (timersEvent c, fault), (backend, none)] ∧
      (c.HasBudget ∧ fault = none ∨ ¬c.HasBudget ∧ fault = some .durationProduct) := by
  refine ⟨_, _, _, _, rfl, ?_⟩
  cases hidle : c.idleTimeout with
  | ok idle => exact .inl ⟨(Config.idleTimeout_eq_ok_iff.mp hidle).2, rfl⟩
  | error f =>
    obtain ⟨rfl, hbudget⟩ := Config.idleTimeout_eq_error_iff.mp hidle
    exact .inr ⟨hbudget, rfl⟩

theorem log_summary (h : ¬Overruns c console.filter) :
    logUntilFault stamp c.summary console = (none, console.logAll stamp (summaryEvents c)) := by
  obtain ⟨network, workers, backend, fault, hsummary, hfault⟩ := summary_eq c
  apply logUntilFault_quiet
  intro e f hmem
  rw [hsummary] at hmem
  rcases hfault with ⟨-, rfl⟩ | ⟨hbudget, rfl⟩
  · simp at hmem
  · simp only [List.mem_cons, Prod.mk.injEq, reduceCtorEq, and_false, List.not_mem_nil, or_false,
      false_or] at hmem
    rw [hmem.1]
    exact Bool.eq_false_iff.mpr fun hpasses => h ⟨hbudget, hpasses⟩

theorem log_summary_overruns (h : Overruns c console.filter) :
    logUntilFault stamp c.summary console =
      (some .durationProduct, console.logAll stamp ((summaryEvents c).take 2)) := by
  obtain ⟨network, workers, backend, fault, hsummary, ⟨hbudget, -⟩ | ⟨-, rfl⟩⟩ := summary_eq c
  · exact absurd hbudget h.1
  · rw [summaryEvents, hsummary]
    simp only [logUntilFault, filter_log, h.2, if_true]
    rfl

/-! ## The way to the first client -/

theorem startServer_fst (stamp : Stamp) (system : Addresses) (c : Config) (console : Console) :
    (startServer stamp system c console).1 =
      (Reactor.start system c console.disk).1.mapError fun
        | .refused _ => .failed
        | .fault f => .fault f := by
  unfold startServer
  split
  · next h => rw [h]; rfl
  · next h => rw [h]; rfl
  · next h => rw [h]; rfl

theorem startServer_refused (valid : c.validate = .ok ()) (hopens : ¬Opens system c console.disk) :
    (startServer stamp system c console).1 = .error .failed := by
  obtain ⟨e, hstart⟩ := Reactor.start_refused valid hopens
  rw [startServer_fst, hstart]
  rfl

theorem startServer_exceeds (valid : c.validate = .ok ()) (hopens : Opens system c console.disk)
    (hfits : ¬c.Fits) :
    (startServer stamp system c console).1 = .error (.fault .capacityOverflow) := by
  rw [startServer_fst, Reactor.start_exceeds valid hopens hfits]
  rfl

theorem startServer_fits (valid : c.validate = .ok ()) (hopens : Opens system c console.disk)
    (hfits : c.Fits) :
    ∃ r, (startServer stamp system c console).1 = .ok r ∧ r.config = c := by
  obtain ⟨r, hstart, hconfig⟩ := Reactor.start_fits valid hopens hfits
  rw [startServer_fst, hstart]
  exact ⟨r, rfl, hconfig⟩

theorem startServer_ne_fault (valid : c.validate = .ok ()) (hfits : c.Fits) (f : Fault) :
    (startServer stamp system c console).1 ≠ .error (.fault f) := by
  by_cases hopens : Opens system c console.disk
  · obtain ⟨r, hstart, -⟩ := startServer_fits valid hopens hfits
    rw [hstart]
    simp
  · rw [startServer_refused valid hopens]
    simp

section Run

variable {arguments : List String} {environment : String → Option String} {d : Disk}

theorem start_of_overruns (hread : Config.read arguments environment = .ok c)
    (valid : c.validate = .ok ())
    (hover : Overruns c (startLog stamp c environment { disk := d }).filter) :
    (start stamp system arguments environment d).1 = .error (.fault .durationProduct) := by
  rw [start, hread]
  simp only [valid, log_summary_overruns hover]

/-- A run whose settings can be logged goes on to set up the server. -/
theorem start_of_logged (hread : Config.read arguments environment = .ok c)
    (valid : c.validate = .ok ())
    (hover : ¬Overruns c (startLog stamp c environment { disk := d }).filter) :
    start stamp system arguments environment d =
      startServer stamp system c
        ((startLog stamp c environment { disk := d }).logAll stamp (summaryEvents c)) := by
  rw [start, hread]
  simp only [valid, log_summary hover]

end Run

/-- Of a valid configuration nothing on the way to the first client is refused for a size,
and no fault is met within its limits.  Three timeslots are the time that a connection may
be idle where they are a duration, and only where they are not does a line of the summary
fail; the server is set up where its address can be had, its table read and there can be
memory; and a connection gets its three timeslots as long as the clock can tell when they
are over. -/
theorem started_within_limits (c : Config) (valid : c.validate = .ok ()) :
    (∀ idle, c.idleTimeout = .ok idle ↔ idle = 3 * c.timeslot ∧ c.HasBudget) ∧
    ((summaryEvents c).map (·.message) = ["network", "worker pool", "timers", "backend"] ∧
      ∀ stamp console,
        (¬Overruns c console.filter → logUntilFault stamp c.summary console =
          (none, console.logAll stamp (summaryEvents c))) ∧
        (Overruns c console.filter → logUntilFault stamp c.summary console =
          (some .durationProduct, console.logAll stamp ((summaryEvents c).take 2)))) ∧
    (∀ stamp system console,
      (¬Opens system c console.disk → (startServer stamp system c console).1 = .error .failed) ∧
      (Opens system c console.disk → ¬c.Fits →
        (startServer stamp system c console).1 = .error (.fault .capacityOverflow)) ∧
      (Opens system c console.disk → c.Fits →
        ∃ r, (startServer stamp system c console).1 = .ok r ∧ r.config = c)) ∧
    (∀ stamp system arguments environment d, Config.read arguments environment = .ok c →
      let console := startLog stamp c environment { disk := d }
      (Overruns c console.filter →
        (start stamp system arguments environment d).1 = .error (.fault .durationProduct)) ∧
      (¬Overruns c console.filter → start stamp system arguments environment d =
        startServer stamp system c (console.logAll stamp (summaryEvents c))) ∧
      (c.HasBudget → c.Fits → ∀ f,
        (start stamp system arguments environment d).1 ≠ .error (.fault f))) ∧
    ∀ r : Reactor, r.config = c → ∀ now,
      (∀ expiry, r.expiry now = .ok expiry ↔
        expiry = now + 3 * c.timeslot * Server.nanosPerSecond ∧ c.InClock now) ∧
      (∀ expiry, r.expiry now = .ok expiry → now < expiry) ∧
      (c.InClock now → ∀ fd peer f,
        (r.welcome now fd peer).1 ≠ .error f ∧ (r.touch now fd).1 ≠ .error f) := by
  refine ⟨fun _ => Config.idleTimeout_eq_ok_iff, ⟨rfl, ?_⟩, ?_, ?_, ?_⟩
  · intro stamp console
    exact ⟨log_summary, log_summary_overruns⟩
  · intro stamp system console
    exact ⟨startServer_refused valid, startServer_exceeds valid, startServer_fits valid⟩
  · intro stamp system arguments environment d hread console
    refine ⟨start_of_overruns hread valid, start_of_logged hread valid, ?_⟩
    intro hbudget hfits f
    rw [start_of_logged hread valid fun hover => hover.1 hbudget]
    exact startServer_ne_fault valid hfits f
  · rintro r rfl now
    refine ⟨fun expiry => Reactor.expiry_eq_ok_iff, ?_, ?_⟩
    · intro expiry hexpiry
      exact Reactor.lt_expiry_of_valid valid hexpiry
    · intro hclock fd peer f
      exact ⟨Reactor.welcome_ne_error hclock, Reactor.touch_ne_error hclock⟩

/-- The longest timeslot of which three are a duration. -/
def longest : Config where
  timeslot := 6148914691236517205

/-- With the longest timeslot all is logged, but no connection gets its time. -/
theorem started_within_limits_longest :
    longest.validate = .ok () ∧ longest.idleTimeout = .ok 18446744073709551615 ∧
      (∀ stamp console, logUntilFault stamp longest.summary console =
        (none, console.logAll stamp (summaryEvents longest))) ∧
      ∀ r : Reactor, r.config = longest → ∀ now expiry, r.expiry now ≠ .ok expiry := by
  have valid : longest.validate = .ok () := Config.validate_eq_ok_iff.mpr (by decide)
  have hbudget : longest.HasBudget := by decide
  have hbeyond : ¬3 * longest.timeslot < Server.clockRange := by decide
  obtain ⟨hidle, ⟨-, hlog⟩, -, -, hexpiry⟩ := started_within_limits longest valid
  refine ⟨valid, (hidle _).mpr ⟨by decide, hbudget⟩, ?_, ?_⟩
  · intro stamp console
    exact (hlog stamp console).1 fun h => h.1 hbudget
  · intro r hconfig now expiry h
    have hclock := (((hexpiry r hconfig now).1 expiry).mp h).2
    exact hbeyond (Nat.lt_of_le_of_lt (Nat.le_add_left _ _) hclock)

/-- The next longer timeslot. -/
def overlong : Config where
  timeslot := 6148914691236517206

/-- The shortest timeslot of which three last longer than the clock can tell. -/
def untold : Config where
  timeslot := 3074457345618258603

/-- Longer timeslots are read from a command line and valid as well.  Of the next longer
one three are no duration, and the program ends behind two of the four lines; and well
before that there are some with which no client is ever taken in. -/
theorem accepted_timeslot_overruns :
    let arguments := ["--timeslot", "6148914691236517206"]
    let console := startLog "" overlong (fun _ => none) { disk := {} }
    (Config.read arguments (fun _ => none) = .ok overlong ∧ overlong.validate = .ok () ∧
      overlong.idleTimeout = .error .durationProduct ∧
      logUntilFault "" overlong.summary console =
        (some .durationProduct, console.logAll "" ((summaryEvents overlong).take 2)) ∧
      (start "" Net.openPorts arguments (fun _ => none) {}).1 = .error (.fault .durationProduct)) ∧
    untold.validate = .ok () ∧ untold.idleTimeout = .ok (3 * untold.timeslot) ∧
      ∀ r : Reactor, r.config = untold → ∀ now, r.expiry now = .error .clockSum := by
  intro arguments console
  have hread : Config.read arguments (fun _ => none) = .ok overlong := by cbv
  have valid : overlong.validate = .ok () := Config.validate_eq_ok_iff.mpr (by decide)
  have hbudget : ¬overlong.HasBudget := by decide
  have hfilter : (startLog "" overlong (fun _ => none) { disk := {} }).filter =
      [{ verbosity := 3 }] := by cbv
  have hover : Overruns overlong console.filter := by
    refine ⟨hbudget, ?_⟩
    rw [hfilter]
    decide
  have hbeyond : ¬3 * untold.timeslot < Server.clockRange := by decide
  refine ⟨⟨hread, valid, Config.idleTimeout_eq_error_iff.mpr ⟨rfl, hbudget⟩,
    log_summary_overruns hover, ?_⟩, Config.validate_eq_ok_iff.mpr (by decide),
    Config.idleTimeout_eq_ok_iff.mpr ⟨rfl, by decide⟩, ?_⟩
  · exact start_of_overruns hread valid hover
  · intro r hconfig now
    rw [Reactor.expiry_eq_error_iff, hconfig]
    refine .inr ⟨rfl, by decide, fun hclock => ?_⟩
    exact hbeyond (Nat.lt_of_le_of_lt (Nat.le_add_left _ _) hclock)

end Program
end PageServer
