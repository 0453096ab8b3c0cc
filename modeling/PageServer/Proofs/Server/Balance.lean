import PageServer.Proofs.Server.Agenda
import PageServer.Proofs.Server.Exclusion
import PageServer.Proofs.Server.Timekeeping

/-!
# The books of the reactor balance

Whatever happens, in whatever order: the connections that are open are counted, and
whoever was taken in is connected still or was closed once, for one reason.  Each open
connection has its timer, and each timer that is armed is that of one open connection, so
every timer that expires closes one.  When the reactor has stopped nobody is left.
-/

namespace PageServer
namespace Server

open Metrics (CloseReason)

namespace Chronicle

variable {c d : Chronicle} {now : Nat}

/-! ## The counts -/

theorem Change.config (h : Change now c d) : d.reactor.config = c.reactor.config := by
  cases h with
  | quiet config => exact config
  | @touched t fd touch =>
    obtain ⟨timers, htouch⟩ := System.touch_eq now fd c.reactor
    show t.reactor.config = _
    rw [touch] at htouch
    rw [show t.reactor = _ from htouch]
  | accepted room opened expires reactor | broke room opened reactor | swept reactor =>
    simp only [Chronicle.reactor] at *
    rw [reactor]
  | closed plain reactor | evicted reactor =>
    simp only [Chronicle.reactor] at *
    rw [reactor]
    rfl

/-- Of the slots a step leaves the connections alone, or takes one in, or closes one. -/
theorem Change.slots (h : Change now c d) :
    (c.slots.Kept d.slots ∧ d.slots.present = c.slots.present) ∨
      (∃ fd generation, c.slots.live < c.reactor.config.maxFds ∧
        Slots.Opened fd generation c.slots d.slots) ∨
      ∃ fd generation reason, d.slots = (c.slots.close fd generation reason).2 := by
  cases h with
  | quiet config timers timerIds slots present => exact .inl ⟨slots, present⟩
  | @touched t fd touch =>
    left
    obtain ⟨timers, htouch⟩ := System.touch_eq now fd c.reactor
    rw [touch] at htouch
    have hslots : t.reactor.slots = c.slots := by rw [show t.reactor = _ from htouch]; rfl
    exact ⟨hslots ▸ .refl c.slots, congrArg Slots.present hslots⟩
  | @swept t reactor =>
    have hslots : t.reactor.slots = c.slots := by rw [reactor]; rfl
    exact .inl ⟨hslots ▸ .refl c.slots, congrArg Slots.present hslots⟩
  | @accepted t slots expiry x room opened expires reactor =>
    have hslots : t.reactor.slots = slots := by rw [reactor]
    rw [← hslots] at opened
    exact .inr (.inl ⟨x.fd, x.generation, room, opened⟩)
  | @broke t slots fd generation room opened reactor =>
    have hslots : t.reactor.slots = slots := by rw [reactor]
    rw [← hslots] at opened
    exact .inr (.inl ⟨fd, generation, room, opened⟩)
  | @closed t fd reason plain reactor =>
    have hslots : t.reactor.slots = (c.slots.close fd none reason).2 := by rw [reactor]; rfl
    exact .inr (.inr ⟨fd, none, reason, hslots⟩)
  | @evicted t x reactor =>
    have hslots : t.reactor.slots = (c.slots.close x.fd (some x.generation) .idle).2 := by
      rw [reactor]
      rfl
    exact .inr (.inr ⟨x.fd, some x.generation, .idle, hslots⟩)

theorem Change.counted (h : Change now c d) (counted : c.slots.Counted) : d.slots.Counted := by
  rcases h.slots with ⟨hkept, hpresent⟩ | ⟨fd, generation, -, hopened⟩ | ⟨fd, g, reason, hclose⟩
  · exact ⟨by rw [hkept.live, hpresent, counted.live],
      by rw [hkept.accepted, hkept.closed, hkept.live, counted.accepted]⟩
  · exact counted.opened hopened
  · rw [hclose]
    exact counted.close fd g reason

theorem Change.room (h : Change now c d) (room : c.slots.live ≤ c.reactor.config.maxFds) :
    d.slots.live ≤ d.reactor.config.maxFds := by
  rw [h.config]
  rcases h.slots with ⟨hkept, -⟩ | ⟨fd, generation, hroom, hopened⟩ | ⟨fd, g, reason, hclose⟩
  · rw [hkept.live]
    exact room
  · rw [hopened.live]
    exact hroom
  · rw [hclose]
    exact (c.slots.live_close_le fd g reason).trans room

/-! ## The timers -/

theorem Change.broken (h : Change now c d) (whole : d.broken = false) : c.broken = false := by
  cases h with
  | broke => cases whole
  | quiet | accepted | touched | closed | swept | evicted => exact whole

/-- Each step keeps the timers in step with the connections. -/
theorem Change.times (h : Change now c d) (whole : d.broken = false) {k : Timer.Registry Client}
    (times : c.reactor.Times c.active c.system.evicting k) :
    ∃ k, d.reactor.Times d.active d.system.evicting k := by
  cases h with
  | quiet config timers timerIds slots present evicting =>
    rw [← evicting] at times
    exact ⟨k, times.congr config timers timerIds slots.capacity present⟩
  | @accepted t slots expiry x room opened expires reactor before after =>
    rw [before] at times
    have hadded := times.add expires opened.capacity opened.off opened.present
    rw [← reactor, ← after] at hadded
    exact ⟨_, hadded⟩
  | broke => cases whole
  | touched touch before after =>
    rw [before, ← after] at times
    exact times.touch touch
  | closed plain reactor before after =>
    rw [before] at times
    obtain ⟨k', hclosed⟩ := times.close nofun _
    rw [← reactor, ← after] at hclosed
    exact ⟨k', hclosed⟩
  | swept reactor before after =>
    rw [before] at times
    have hticked := times.tick now
    rw [← reactor, ← after] at hticked
    exact ⟨_, hticked⟩
  | evicted reactor evicting =>
    rw [evicting] at times
    have hevicted := times.evict.2
    rw [← reactor] at hevicted
    exact ⟨k, hevicted⟩

/-! ## The record -/

/-- Whoever was taken in is connected still or was closed, once, and what was closed is
counted. -/
structure Recorded (c : Chronicle) : Prop where
  taken : c.taken.Perm (c.closings.map Closing.tenancy ++ c.slots.present)
  once : c.taken.Nodup
  old : ∀ x ∈ c.taken, x.generation ≤ (c.slots.slotAt x.fd).generation
  accepted : c.slots.counters.accepted = c.taken.length
  closed : c.slots.counters.closed = c.closings.length
  idle : c.slots.counters.idleEvictions = c.closings.countP (·.reason = .idle)
  rejected : c.slots.counters.queueRejections = c.closings.countP (·.reason = .queueFull)
  fired : (c.closings.filter (·.reason = .idle)).map Closing.tenancy = c.fired.map Client.tenancy

namespace Recorded

theorem start {r : Reactor} (h : r.Prepared) : Recorded { system := { reactor := r } } := by
  obtain ⟨capacity, hslots⟩ := h.slots
  have hpresent : r.slots.present = [] := by
    apply List.eq_nil_iff_forall_not_mem.mpr
    intro x hx
    have hlive := (Slots.mem_present.mp hx).1
    rw [h.isLive_slotAt] at hlive
    cases hlive
  have hcounters : r.slots.counters = {} := by rw [hslots]; rfl
  refine ⟨?_, List.nodup_nil, nofun, ?_, ?_, ?_, ?_, rfl⟩
  · show [].Perm ([] ++ r.slots.present)
    rw [hpresent]
    exact .refl _
  all_goals exact congrArg _ hcounters

/-- Where nobody is taken in and nothing is closed the record goes on as it is. -/
theorem kept (h : c.Recorded) (slots : c.slots.Kept d.slots)
    (present : d.slots.present = c.slots.present) (taken : d.taken = c.taken)
    (closings : d.closings = c.closings) (fired : d.fired = c.fired) : d.Recorded := by
  constructor
  · rw [taken, closings, present]
    exact h.taken
  · rw [taken]
    exact h.once
  · simp only [taken, slots.generation]
    exact h.old
  · rw [slots.accepted, taken, h.accepted]
  · rw [slots.closed, closings, h.closed]
  · rw [slots.idleEvictions, closings, h.idle]
  · rw [slots.queueRejections, closings, h.rejected]
  · rw [closings, fired, h.fired]

/-- The new connection is none of those that were taken in before: its generation is
higher. -/
theorem accept (h : c.Recorded) {fd generation : Nat}
    (opened : Slots.Opened fd generation c.slots d.slots)
    (taken : d.taken = c.taken ++ [⟨fd, generation⟩]) (closings : d.closings = c.closings)
    (fired : d.fired = c.fired) : d.Recorded := by
  have hnew : (⟨fd, generation⟩ : Tenancy) ∉ c.taken := by
    intro hmem
    have hold := h.old _ hmem
    rw [opened.next] at hold
    exact Nat.not_succ_le_self _ hold
  constructor
  · rw [taken, closings]
    have hleft := h.taken.append_right [(⟨fd, generation⟩ : Tenancy)]
    rw [List.append_assoc] at hleft
    exact hleft.trans (((List.perm_append_singleton _ _).trans opened.present.symm).append_left _)
  · rw [taken]
    exact (List.perm_append_singleton _ _).nodup_iff.mpr (List.nodup_cons.mpr ⟨hnew, h.once⟩)
  · intro x hx
    rw [taken] at hx
    rw [opened.generation]
    rcases List.mem_append.mp hx with hold | hlast
    · have hle := h.old x hold
      split
      · next hfd =>
        rw [hfd] at hle
        rw [opened.next]
        exact Nat.le_succ_of_le hle
      · exact hle
    · obtain rfl := List.mem_singleton.mp hlast
      rw [if_pos rfl]
  · rw [opened.counters, taken, List.length_append, ← h.accepted]
    rfl
  · rw [opened.counters, closings, ← h.closed]
    rfl
  · rw [opened.counters, closings, ← h.idle]
    rfl
  · rw [opened.counters, closings, ← h.rejected]
    rfl
  · rw [closings, fired, h.fired]

/-- A connection that is closed leaves those that are open for those that were closed. -/
theorem close (h : c.Recorded) {fd : Nat} {generation : Option Nat} {reason : CloseReason}
    (slots : d.slots = (c.slots.close fd generation reason).2) (taken : d.taken = c.taken)
    (closings : d.closings = c.noted (c.slots.close fd generation reason).1 fd reason)
    (fired : (d.closings.filter (·.reason = .idle)).map Closing.tenancy =
      d.fired.map Client.tenancy) : d.Recorded := by
  have hgeneration (x : Nat) : (d.slots.slotAt x).generation = (c.slots.slotAt x).generation := by
    rw [slots, Slots.generation_close]
  have hold : ∀ x ∈ d.taken, x.generation ≤ (d.slots.slotAt x.fd).generation := by
    simp only [taken, hgeneration]
    exact h.old
  by_cases hclosed : (c.slots.close fd generation reason).1 = true
  · obtain ⟨live, same⟩ := Slots.close_fst.mp hclosed
    obtain ⟨hpresent, -, hcounters, -⟩ := Slots.close_of_isLive live same reason
    rw [noted, if_pos hclosed] at closings
    rw [← slots] at hpresent hcounters
    refine ⟨?_, taken ▸ h.once, hold, ?_, ?_, ?_, ?_, fired⟩
    · rw [taken, closings, List.map_append, List.append_assoc]
      exact h.taken.trans (hpresent.append_left _)
    · rw [hcounters, taken, ← h.accepted]
      rfl
    · rw [hcounters, closings, List.length_append, ← h.closed]
      rfl
    · rw [hcounters, closings, List.countP_append, ← h.idle]
      simp only [Metrics.Counters.countClose, List.countP_singleton, decide_eq_true_eq]
      split <;> rfl
    · rw [hcounters, closings, List.countP_append, ← h.rejected]
      simp only [Metrics.Counters.countClose, List.countP_singleton, decide_eq_true_eq]
      split <;> rfl
  · rw [Slots.close_of_not hclosed] at slots
    rw [noted, if_neg hclosed] at closings
    refine ⟨?_, taken ▸ h.once, hold, ?_, ?_, ?_, ?_, fired⟩
    · rw [taken, closings, slots]
      exact h.taken
    · rw [slots, taken, h.accepted]
    · rw [slots, closings, h.closed]
    · rw [slots, closings, h.idle]
    · rw [slots, closings, h.rejected]

end Recorded

theorem idle_noted {reason : CloseReason} (plain : reason ≠ .idle) (closed : Bool) (fd : Nat) :
    (c.noted closed fd reason).filter (·.reason = .idle) =
      c.closings.filter (·.reason = .idle) := by
  rw [noted]
  split
  · simp [plain]
  · rfl

theorem Change.recorded (h : Change now c d) (whole : d.broken = false)
    {k : Timer.Registry Client} (times : c.reactor.Times c.active c.system.evicting k)
    (recorded : c.Recorded) : d.Recorded := by
  cases h with
  | quiet config timers timerIds slots present => exact recorded.kept slots present rfl rfl rfl
  | @touched t fd touch =>
    obtain ⟨timers, htouch⟩ := System.touch_eq now fd c.reactor
    rw [touch] at htouch
    have hslots : t.reactor.slots = c.slots := by rw [show t.reactor = _ from htouch]; rfl
    exact recorded.kept (hslots ▸ .refl c.slots) (congrArg Slots.present hslots) rfl rfl rfl
  | @swept t reactor =>
    have hslots : t.reactor.slots = c.slots := by rw [reactor]; rfl
    exact recorded.kept (hslots ▸ .refl c.slots) (congrArg Slots.present hslots) rfl rfl rfl
  | @accepted t slots expiry x room opened expires reactor =>
    have hslots : t.reactor.slots = slots := by rw [reactor]
    rw [← hslots] at opened
    exact recorded.accept opened rfl rfl rfl
  | broke => cases whole
  | @closed t fd reason plain reactor =>
    have hslots : t.reactor.slots = (c.slots.close fd none reason).2 := by rw [reactor]; rfl
    refine recorded.close hslots rfl rfl ?_
    exact (congrArg (List.map Closing.tenancy) (idle_noted plain _ fd)).trans recorded.fired
  | @evicted t x reactor evicting =>
    have hslots : t.reactor.slots = (c.slots.close x.fd (some x.generation) .idle).2 := by
      rw [reactor]
      rfl
    rw [evicting] at times
    have hclosed : (c.slots.close x.fd (some x.generation) .idle).1 = true := times.evict.1
    have hsame : c.slots.tenancy x.fd = x.tenancy :=
      congrArg (Tenancy.mk x.fd) ((Slots.close_fst.mp hclosed).2 x.generation rfl).symm
    refine recorded.close hslots rfl rfl ?_
    rw [noted, if_pos hclosed, hsame]
    simp [recorded.fired]

/-- The books are right, at least until a fault ends the reactor while it takes a client
in. -/
structure Faithful (c : Chronicle) : Prop where
  counted : c.slots.Counted
  room : c.slots.live ≤ c.reactor.config.maxFds
  slot : 1 ≤ c.reactor.config.timeslot
  once : (c.closings.map Closing.tenancy).Nodup
  halted : c.broken = true → c.system.halted = true
  times : c.broken = false → ∃ k, c.reactor.Times c.active c.system.evicting k
  recorded : c.broken = false → c.Recorded

theorem Faithful.whole (h : c.Faithful) (up : c.system.halted = false) : c.broken = false := by
  apply Bool.eq_false_iff.mpr
  intro hbroken
  have hhalted := h.halted hbroken
  rw [up] at hhalted
  cases hhalted

theorem faithful_start {r : Reactor} (h : r.Prepared) :
    Faithful { system := { reactor := r } } := by
  have hrecorded := Recorded.start h
  have hpresent : r.slots.present = [] := hrecorded.taken.symm.eq_nil
  obtain ⟨capacity, hslots⟩ := h.slots
  have hlive : r.slots.live = 0 := by rw [hslots]; rfl
  have hslot : 1 ≤ r.config.timeslot := by
    have hvalid := h.valid
    unfold Config.validate at hvalid
    by_contra hzero
    rw [if_pos (by omega : r.config.timeslot = 0)] at hvalid
    repeat' split at hvalid
    all_goals cases hvalid
  refine ⟨⟨?_, ?_⟩, ?_, hslot, List.nodup_nil, nofun, fun _ => ⟨{}, .start h _⟩, fun _ => hrecorded⟩
  · exact hlive.trans (congrArg List.length hpresent).symm
  · show r.slots.counters.accepted = r.slots.counters.closed + r.slots.live
    rw [hslots]
    rfl
  · exact (Nat.le_of_eq hlive).trans (Nat.zero_le _)

/-- A reactor that a fault has ended closes nothing. -/
theorem Next.closings_of_halted (h : Next now c d) (halted : c.system.halted = true) :
    d.closings = c.closings := by
  have hruns (runs : c.system.Runs) : d.closings = c.closings := by
    have hup := runs.up
    rw [halted] at hup
    cases hup
  cases h with
  | accept runs | act runs | actLate runs | stop runs => exact hruns runs
  | aside => rfl

theorem Faithful.next (h : c.Faithful) (hnext : Next now c d) (hchange : Change now c d) :
    d.Faithful := by
  have hhalted (hbroken : d.broken = true) : d.system.halted = true ∧ d.closings = c.closings := by
    cases hchange with
    | broke room opened reactor halted => exact ⟨halted, rfl⟩
    | quiet | accepted | touched | closed | swept | evicted =>
      have hbefore := h.halted hbroken
      exact ⟨hnext.step.halted hbefore, hnext.closings_of_halted hbefore⟩
  have hrecorded (whole : d.broken = false) : d.Recorded := by
    obtain ⟨k, htimes⟩ := h.times (hchange.broken whole)
    exact hchange.recorded whole htimes (h.recorded (hchange.broken whole))
  refine ⟨hchange.counted h.counted, hchange.room h.room, hchange.config ▸ h.slot, ?_,
    fun hbroken => (hhalted hbroken).1, ?_, hrecorded⟩
  · cases hbroken : d.broken with
    | true =>
      rw [(hhalted hbroken).2]
      exact h.once
    | false =>
      have htaken := (hrecorded hbroken).taken.nodup_iff.mp (hrecorded hbroken).once
      exact (List.nodup_append.mp htaken).1
  · intro whole
    obtain ⟨k, htimes⟩ := h.times (hchange.broken whole)
    exact hchange.times whole htimes

theorem Reached.faithful (h : c.Reached) : c.Faithful := by
  induction h with
  | start h => exact faithful_start h
  | next hreached hnext ih =>
    exact ih.next hnext (hnext.change hreached.system.sound hreached.system.orderly)

/-! ## The end -/

/-- The reactor has stopped, and what is left is still to be closed. -/
structure Leaving (c : Chronicle) : Prop where
  awake : c.system.waiting = false
  done : c.system.todo = []
  told : c.reactor.stopped = true
  whole : c.broken = false
  closing : ∃ fds : List Nat, c.system.later = fds.map .shut ∧
    ∀ fd, (c.slots.slotAt fd).isLive = true → fd ∈ fds

/-- Every open connection has a timer, so it is among those that are closed. -/
theorem Faithful.stopped (h : c.Faithful) (runs : c.system.Runs) (done : c.system.todo = [])
    (doneLate : c.system.later = []) (told : c.reactor.stopped = true) : c.stopped.Leaving := by
  have hwhole := h.whole runs.up
  refine ⟨runs.awake, done, told, hwhole, c.reactor.tracked, rfl, ?_⟩
  intro fd hlive
  obtain ⟨k, htimes⟩ := h.times hwhole
  rw [System.evicting, doneLate] at htimes
  rcases htimes.timed fd hlive with ⟨id, e, hid, -⟩ | ⟨x, hnone, -⟩
  · refine List.mem_filter.mpr ⟨List.mem_range.mpr (Reactor.lt_size_of_timerId? hid), ?_⟩
    rw [hid]
    rfl
  · cases hnone

theorem Leaving.next (h : c.Leaving) (hnext : Next now c d) (sound : c.system.Sound)
    (faithful : c.Faithful) : d.Leaving := by
  obtain ⟨hawake, hdone, -, htold⟩ := hnext.step.resting h.awake h.done (.inl h.told)
  replace htold := htold.trans h.told
  obtain ⟨fds, hlater, hlisted⟩ := h.closing
  have hafter := (hnext.step.leads sound).sound
  cases hnext with
  | accept runs first | act runs first =>
    rw [h.done] at first
    cases first
  | @actLate l rest runs done first =>
    refine ⟨hawake, hdone, htold, h.whole, ?_⟩
    cases fds with
    | nil =>
      rw [first] at hlater
      cases hlater
    | cons fd fds =>
      obtain ⟨rfl, rfl⟩ := List.cons.inj (first.symm.trans hlater)
      refine ⟨fds, rfl, ?_⟩
      intro x hlive
      obtain ⟨hmem, hne⟩ := Slots.mem_present_close_any.mp (Slots.tenancy_mem_present.mpr hlive)
      exact (List.mem_cons.mp (hlisted x (Slots.mem_present.mp hmem).1)).resolve_left hne
  | stop runs done doneLate told => exact faithful.stopped runs done doneLate told
  | @aside t step aside =>
    refine ⟨hawake, hdone, htold, h.whole, fds, aside.later.trans hlater, ?_⟩
    intro x hlive
    have hpresent : t.reactor.slots.present = c.slots.present :=
      aside.slots.present (fun fd => (sound.views fd).isLive_eq)
        fun fd => (hafter.views fd).isLive_eq
    have hmem : t.reactor.slots.tenancy x ∈ c.slots.present :=
      hpresent ▸ Slots.tenancy_mem_present.mpr hlive
    exact hlisted x (Slots.mem_present.mp hmem).1

theorem Reached.leaving (h : c.Reached) (left : c.leaving = true) : c.Leaving := by
  induction h with
  | start => cases left
  | @next c d now hreached hnext ih =>
    have hfaithful := hreached.faithful
    have hgo (left : c.leaving = true) : d.Leaving :=
      (ih left).next hnext hreached.system.sound hfaithful
    cases hnext with
    | stop runs done doneLate told => exact hfaithful.stopped runs done doneLate told
    | accept runs first fd peer free =>
      refine hgo ?_
      rw [welcomed] at left
      split at left <;> exact left
    | act | actLate | aside => exact hgo left

/-! ## The books -/

structure Balanced (c : Chronicle) : Prop where
  live : c.slots.live = c.slots.table.countP Slot.isLive
  room : c.slots.live ≤ c.reactor.config.maxFds
  accepted : c.slots.counters.accepted = c.slots.counters.closed + c.slots.live
  /-- An open connection that is not just being evicted has its timer. -/
  timed : c.broken = false → ∀ fd, (c.slots.slotAt fd).isLive = true →
    (∀ x ∈ c.system.evicting, x.fd ≠ fd) →
    ∃ id, c.reactor.timerId? fd = some id ∧ c.reactor.timers.isArmed id = true ∧
      ∃ n ∈ c.reactor.timers.nodes, n.id = id ∧ n.data.tenancy = c.slots.tenancy fd
  /-- An armed timer is that of one open connection. -/
  owned : c.broken = false → ∀ id, c.reactor.timers.isArmed id = true →
    ∃ n ∈ c.reactor.timers.nodes, n.id = id ∧ n.data.tenancy ∈ c.slots.present ∧
      ∀ fd, (c.slots.slotAt fd).isLive = true ∧ c.reactor.timerId? fd = some id ↔ fd = n.data.fd
  /-- A timer that has expired closes a connection. -/
  effective : c.broken = false → ∀ x ∈ c.system.evicting,
    (c.slots.close x.fd (some x.generation) .idle).1 = true
  evictions : c.broken = false → c.slots.counters.idleEvictions = c.fired.length ∧
    (c.closings.filter (·.reason = .idle)).map Closing.tenancy = c.fired.map Client.tenancy
  /-- Whoever was taken in is there or was closed once, and the closings are counted by
  reason. -/
  recorded : c.broken = false → c.Recorded
  ended : c.leaving = true → c.system.later = [] →
    (∀ fd, (c.slots.slotAt fd).isLive = false) ∧ c.slots.live = 0 ∧
      c.slots.counters.accepted = c.slots.counters.closed ∧
      (c.closings.map Closing.tenancy).Perm c.taken ∧ (c.closings.map Closing.tenancy).Nodup

theorem Recorded.idleEvictions (h : c.Recorded) :
    c.slots.counters.idleEvictions = c.fired.length := by
  have hlength := congrArg List.length h.fired
  rw [List.length_map, List.length_map] at hlength
  rw [h.idle, List.countP_eq_length_filter, hlength]

/-- However the clients, the events, the workers, the timers and the signals come one
after the other, the books of the reactor balance. -/
theorem Reached.balanced (h : c.Reached) : c.Balanced := by
  have hfaithful := h.faithful
  have hlive : c.slots.live = c.slots.table.countP Slot.isLive :=
    hfaithful.counted.live.trans (Slots.length_present _)
  refine ⟨hlive, hfaithful.room, hfaithful.counted.accepted, ?_, ?_, ?_, ?_, hfaithful.recorded, ?_⟩
  · intro whole fd hopen hstays
    obtain ⟨k, htimes⟩ := hfaithful.times whole
    rcases htimes.timed fd hopen with ⟨id, e, hid, he⟩ | ⟨x, hx, hfd⟩
    · obtain ⟨harmed, hdata⟩ := htimes.own fd id e hid he
      obtain ⟨n, hn, rfl, hentry⟩ := htimes.represents.timer_eq_some he
      obtain ⟨hmem, -⟩ := htimes.armed n.id e he harmed
      have hnode : n.data = e.data := congrArg Timer.Entry.data hentry
      refine ⟨n.id, hid, (congrArg Timer.Entry.armed hentry).trans harmed, n, hn, rfl, ?_⟩
      obtain ⟨-, hgeneration⟩ := Slots.mem_present.mp hmem
      rw [hnode, Slots.tenancy, ← hdata]
      exact congrArg (Tenancy.mk e.data.fd) hgeneration.symm
    · exact absurd hfd (hstays x hx)
  · intro whole id harmed
    obtain ⟨k, htimes⟩ := hfaithful.times whole
    obtain ⟨n, hn, rfl⟩ := Timer.Heap.mem_ids.mp
      (htimes.wellFormed.armed id (Timer.Heap.isArmed_iff.mp harmed))
    have he := htimes.represents.node n hn
    obtain ⟨hmem, hid, -⟩ := htimes.armed n.id _ he harmed
    refine ⟨n, hn, rfl, hmem, ?_⟩
    intro fd
    constructor
    · rintro ⟨-, hfd⟩
      exact htimes.fd_eq_of_timerId? hid hfd he
    · rintro rfl
      exact ⟨(Slots.mem_present.mp hmem).1, hid⟩
  · intro whole x hx
    obtain ⟨k, htimes⟩ := hfaithful.times whole
    obtain ⟨hopen, hgeneration⟩ := Slots.mem_present.mp (htimes.expired x hx).1
    refine Slots.close_fst.mpr ⟨hopen, ?_⟩
    rintro g ⟨⟩
    exact hgeneration.symm
  · intro whole
    exact ⟨(hfaithful.recorded whole).idleEvictions, (hfaithful.recorded whole).fired⟩
  · intro left ended
    have hleaving := h.leaving left
    have hrecorded := hfaithful.recorded hleaving.whole
    obtain ⟨fds, hlater, hlisted⟩ := hleaving.closing
    have hnone : fds = [] := List.map_eq_nil_iff.mp (hlater.symm.trans ended)
    have hoff (fd : Nat) : (c.slots.slotAt fd).isLive = false := by
      apply Bool.eq_false_iff.mpr
      intro hopen
      have hmem := hlisted fd hopen
      rw [hnone] at hmem
      cases hmem
    have hpresent : c.slots.present = [] := by
      apply List.eq_nil_iff_forall_not_mem.mpr
      intro x hx
      exact Bool.false_ne_true ((hoff x.fd).symm.trans (Slots.mem_present.mp hx).1)
    have hzero : c.slots.live = 0 := by rw [hfaithful.counted.live, hpresent, List.length_nil]
    have haccepted := hfaithful.counted.accepted
    rw [hzero] at haccepted
    have hperm := hrecorded.taken.symm
    rw [hpresent, List.append_nil] at hperm
    exact ⟨hoff, hzero, haccepted, hperm, hperm.nodup_iff.mpr hrecorded.once⟩

/-- A client has connected, and an alarm has been taken out of the pipe. -/
def alarmed : Reactor :=
  let r := (System.small.welcome 0 0 System.visitor).2
  ({ r with signals := r.signals.raise alarmNumber }).handleSignals.2

theorem prepared_small : System.small.Prepared :=
  ⟨⟨⟨1, rfl⟩, rfl, rfl, rfl, Nat.le_refl 1⟩, rfl, ⟨64, rfl⟩, rfl⟩

/-- An alarm comes while the reactor waits. -/
theorem steps_alarm {r : Reactor} (goesOn : r.stopped = false) (alarm : r.handleSignals.1 = true) :
    System.Steps { reactor := r } { reactor := r.handleSignals.2, later := [.sweep] } := by
  have hact := System.Step.act (s := { reactor := r, todo := [.signals] }) ⟨rfl, rfl⟩ rfl 0
  have hafter : System.acted 0 .signals [] { reactor := r, todo := [.signals] } =
      { reactor := r.handleSignals.2, later := [.sweep] } := by
    simp only [System.acted, Reactor.act, Reactor.alarms, alarm, if_true, List.append_nil]
  rw [hafter] at hact
  have hwait := System.Step.wait (s := { reactor := r }) ⟨rfl, rfl⟩ rfl rfl goesOn
  have hannounce := System.Step.announce (s := { reactor := r, waiting := true }) rfl (.inr rfl)
  have hwake := System.Step.wake (s := { reactor := r, waiting := true, todo := [.signals] }) rfl
  exact .head hwait (.head hannounce (.head hwake (.single hact)))

set_option maxRecDepth 20000 in
/-- The client has connected, and the timers are about to be looked at. -/
theorem steps_alarmed : System.Steps { reactor := System.small }
    { reactor := alarmed, later := [.sweep] } := by
  have hfree (slot : Slot) (hslot : System.small.slots.slot? 0 = some slot) :
      slot.isLive = false := by
    rw [← Slots.slotAt_of_slot? hslot]
    exact prepared_small.isLive_slotAt 0
  have hwelcome := (System.comes_welcome 0 0 System.visitor System.small rfl hfree).ok
    (x := .accepted 1) (by cbv)
  exact hwelcome.trans (.head (.raise alarmNumber) (steps_alarm (by cbv) (by cbv)))

set_option maxRecDepth 20000 in
/-- The client has been idle for too long: one timer has had its effect, and one
connection has been closed. -/
theorem Reached.balanced_swept : ∃ c : Chronicle, c.Reached ∧
    c.system = { reactor := alarmed.sweep System.afterwards } ∧ c.Balanced ∧ c.fired.length = 1 ∧
      c.slots.live = 0 := by
  have hsteps := steps_alarmed.trans (System.steps_sweep System.afterwards alarmed)
  obtain ⟨c, hreached, hsystem⟩ := (Reached.start prepared_small).exists_of_steps hsteps
  have hbalanced := hreached.balanced
  have hwhole : c.broken = false := hreached.faithful.whole (by rw [hsystem])
  have hslots : c.slots = (alarmed.sweep System.afterwards).slots := by
    rw [slots, reactor, hsystem]
  refine ⟨c, hreached, hsystem, hbalanced, ?_, ?_⟩
  · rw [← (hbalanced.evictions hwhole).1, hslots]
    cbv
  · rw [hslots]
    cbv

end Chronicle
end Server
end PageServer
