import PageServer.Proofs.Server.Balance

/-!
# Who is evicted for having been idle

When the timers are looked at, the connections that have not been active for three
timeslots are closed, and no others, whatever the workers and the clients do meanwhile.  A
connection is active when it is taken in, when a task for it has been queued, and when it
has been armed again.
-/

namespace PageServer
namespace Server

open Metrics (CloseReason)

namespace Reactor

variable {r : Reactor}

/-- The connections whose idle time is over. -/
theorem Times.mem_tick {active : Nat → Nat} {k : Timer.Registry Client} (h : r.Times active [] k)
    (now : Nat) {x : Tenancy} : x ∈ (r.timers.tick now).1.map Client.tenancy ↔
      x ∈ r.slots.present ∧ active x.fd + r.idleSpan ≤ now := by
  obtain ⟨hdue, -⟩ := h.represents.tick h.wellFormed now
  rw [r.timers.tick_fst, List.map_map, List.mem_map]
  constructor
  · rintro ⟨n, hn, rfl⟩
    obtain ⟨hholds, hpast⟩ := (hdue.mem_iff n).mp hn
    obtain ⟨hmem, -, hexpiry⟩ := h.armed n.id _ hholds rfl
    exact ⟨hmem, hexpiry ▸ hpast⟩
  · rintro ⟨hmem, hpast⟩
    obtain ⟨hlive, hgeneration⟩ := Slots.mem_present.mp hmem
    rcases h.timed x.fd hlive with ⟨id, e, hid, he⟩ | ⟨y, hnone, -⟩
    · obtain ⟨harmed, hfd⟩ := h.own x.fd id e hid he
      obtain ⟨hown, -, hexpiry⟩ := h.armed id e he harmed
      refine ⟨⟨id, e.expiry, e.data⟩, (hdue.mem_iff _).mpr ⟨?_, ?_⟩, ?_⟩
      · rw [Timer.Registry.Holds, he, ← harmed]
      · rw [hexpiry, hfd]
        exact hpast
      · have hsame := (Slots.mem_present.mp hown).2
        show (⟨e.data.fd, e.data.generation⟩ : Tenancy) = x
        rw [← show _ = e.data.generation from hsame, show e.data.tenancy.fd = x.fd from hfd,
          hgeneration]
        exact congrArg₂ Tenancy.mk hfd rfl
    · cases hnone

theorem le_ceilSeconds (nanos : Nat) : nanos ≤ ceilSeconds nanos * nanosPerSecond := by
  unfold ceilSeconds nanosPerSecond
  omega

/-- The first node is one that none expires before. -/
theorem top?_least {t : Timer.Heap Client} (wellFormed : t.WellFormed) {n : Timer.Node Client}
    (h : t.top? = some n) : n ∈ t.nodes ∧ ∀ m ∈ t.nodes, n.expiry ≤ m.expiry := by
  obtain ⟨hpos, rfl⟩ := Array.getElem?_eq_some_iff.mp h
  refine ⟨Array.getElem_mem hpos, ?_⟩
  intro m hm
  obtain ⟨i, hi, rfl⟩ := Array.mem_iff_getElem.mp hm
  have hle := wellFormed.ordered.expiryAt_zero_le hi
  rw [Timer.expiryAt_of_lt hi, Timer.expiryAt_of_lt hpos] at hle
  exact hle

/-- The next alarm comes within a timeslot, and not before the first timer expires unless
it may not come as late as that. -/
theorem alarm_schedule (now : Nat) (wellFormed : r.timers.WellFormed)
    (slot : 1 ≤ r.config.timeslot) :
    1 ≤ (r.schedule now).alarm ∧ (r.schedule now).alarm ≤ r.config.timeslot ∧
      ((r.schedule now).alarm = r.config.timeslot ∨ (r.schedule now).alarm = 0xFFFFFFFF ∨
        ∃ n ∈ r.timers.nodes, (∀ m ∈ r.timers.nodes, n.expiry ≤ m.expiry) ∧
          n.expiry ≤ now + (r.schedule now).alarm * nanosPerSecond) := by
  cases htop : r.timers.top? with
  | none =>
    have halarm : (r.schedule now).alarm = alarmDelay (min (max r.config.timeslot 1)
        (max r.config.timeslot 1)) := by
      rw [schedule, Timer.Heap.untilNext?, htop]
      rfl
    rw [halarm]
    unfold alarmDelay
    omega
  | some n =>
    have halarm : (r.schedule now).alarm =
        alarmDelay (min (max (ceilSeconds (n.expiry - now)) 1) (max r.config.timeslot 1)) := by
      rw [schedule, Timer.Heap.untilNext?, htop]
      rfl
    obtain ⟨hmem, hleast⟩ := top?_least wellFormed htop
    have hceil := le_ceilSeconds (n.expiry - now)
    rw [halarm]
    generalize ceilSeconds (n.expiry - now) = wish at hceil ⊢
    have hbounds : 1 ≤ alarmDelay (min (max wish 1) (max r.config.timeslot 1)) ∧
        alarmDelay (min (max wish 1) (max r.config.timeslot 1)) ≤ r.config.timeslot ∧
          (alarmDelay (min (max wish 1) (max r.config.timeslot 1)) = r.config.timeslot ∨
            alarmDelay (min (max wish 1) (max r.config.timeslot 1)) = 0xFFFFFFFF ∨
              wish ≤ alarmDelay (min (max wish 1) (max r.config.timeslot 1))) := by
      unfold alarmDelay
      omega
    obtain ⟨hpos, hslot, hlast⟩ := hbounds
    refine ⟨hpos, hslot, hlast.imp_right fun hlate => hlate.imp_right fun hwish => ?_⟩
    refine ⟨n, hmem, hleast, ?_⟩
    have hspan := Nat.mul_le_mul_right nanosPerSecond hwish
    omega

end Reactor

namespace Chronicle

variable {c d x y : Chronicle} {now t : Nat}

/-- What the server comes to while the timers are looked at: the reactor goes through
those that have expired, and the workers and the clients may do something in between. -/
inductive Sweeps (now : Nat) (c : Chronicle) : Chronicle → Prop
  | begin (runs : c.system.Runs) (done : c.system.todo = []) (due : c.system.later = [.sweep]) :
    Sweeps now c (c.actedLate now .sweep [])
  | next {x y : Chronicle} {t : Nat} (h : Sweeps now c x) (goesOn : x.system.later ≠ [])
    (hnext : Next t x y) : Sweeps now c y

/-- Some of the connections whose time is over have been closed, and the others are about
to be. -/
structure Midway (now : Nat) (c x : Chronicle) (gone pending : List Client) : Prop where
  awake : x.system.waiting = false
  up : x.system.halted = false
  done : x.system.todo = []
  fired : (c.reactor.timers.tick now).1 = gone ++ pending
  later : x.system.later = pending.map .evict ++ [.schedule now]
  config : x.reactor.config = c.reactor.config
  timers : x.reactor.timers = (c.reactor.timers.tick now).2
  active : x.active = c.active
  taken : x.taken = c.taken
  closings : x.closings = c.closings ++ gone.map fun z => ⟨z.tenancy, .idle⟩
  present : ∀ z, z ∈ x.slots.present ↔ z ∈ c.slots.present ∧ z ∉ gone.map Client.tenancy

theorem midway_begin (runs : c.system.Runs) (done : c.system.todo = []) :
    Midway now c (c.actedLate now .sweep []) [] (c.reactor.timers.tick now).1 := by
  refine ⟨runs.awake, runs.up, done, rfl, ?_, rfl, rfl, rfl, rfl, ?_, ?_⟩
  · simp only [actedLate, Reactor.actLate, List.append_nil]
  · exact (List.append_nil _).symm
  · intro z
    exact (and_iff_left List.not_mem_nil).symm

/-- The next of the connections whose time is over is closed. -/
theorem Midway.evict {gone pending : List Client} {z : Client}
    (h : Midway now c x gone (z :: pending))
    (closed : (x.slots.close z.fd (some z.generation) .idle).1 = true) :
    Midway now c (x.actedLate t (.evict z) (pending.map .evict ++ [.schedule now])) (gone ++ [z])
      pending := by
  have hsame : x.slots.tenancy z.fd = z.tenancy :=
    congrArg (Tenancy.mk z.fd) ((Slots.close_fst.mp closed).2 z.generation rfl).symm
  refine ⟨h.awake, h.up, h.done, ?_, rfl, h.config, h.timers, h.active, h.taken, ?_, ?_⟩
  · rw [h.fired, List.append_assoc, List.singleton_append]
  · show x.noted (x.slots.close z.fd (some z.generation) .idle).1 z.fd .idle = _
    rw [noted, if_pos closed, hsame, h.closings, List.map_append, List.append_assoc,
      List.map_singleton]
  · intro w
    rw [show (x.actedLate t (.evict z) (pending.map .evict ++ [.schedule now])).slots =
      (x.slots.close z.fd (some z.generation) .idle).2 from rfl, Slots.mem_present_close closed,
      h.present, and_assoc, List.map_append, List.map_singleton,
      List.mem_append, List.mem_singleton,
      not_or]
    refine and_congr_right fun hbefore => and_congr_right fun hleft => not_congr ?_
    constructor
    · intro hfd
      -- One connection is open at a descriptor, and that is the one which is closed.
      have hw := (Slots.mem_present.mp ((h.present w).mpr ⟨hbefore, hleft⟩)).2
      rw [← hsame, Slots.tenancy, ← hfd, hw]
    · rintro rfl
      rfl

/-- The workers and the clients leave the connections as they are. -/
theorem Midway.aside {gone pending : List Client} {s : System} (h : Midway now c x gone pending)
    (step : x.system.Step s) (aside : x.system.Undisturbed s) (sound : x.system.Sound) :
    Midway now c { x with system := s } gone pending := by
  have hbusy : x.system.later ≠ [] := by
    rw [h.later]
    exact List.append_ne_nil_of_right_ne_nil _ (List.cons_ne_nil _ _)
  obtain ⟨hawake, hdone, hup, -⟩ := step.resting h.awake h.done (.inr hbusy)
  have hafter := (step.leads sound).sound
  have hpresent : s.reactor.slots.present = x.slots.present :=
    aside.slots.present (fun fd => (sound.views fd).isLive_eq) fun fd => (hafter.views fd).isLive_eq
  refine ⟨hawake, hup.trans h.up, hdone, h.fired, aside.later.trans h.later,
    aside.config.trans h.config, aside.timers.trans h.timers, h.active, h.taken, h.closings, ?_⟩
  intro z
  rw [← h.present, ← hpresent]
  rfl

theorem Sweeps.reached (h : Sweeps now c x) (hc : c.Reached) : x.Reached := by
  induction h with
  | begin runs done first => exact hc.next (.actLate runs done first)
  | next _ _ hnext ih => exact ih.next hnext

/-- The timers are still looked at, or the next alarm has just been set. -/
theorem Sweeps.midway (h : Sweeps now c x) (hc : c.Reached) :
    (∃ gone pending, Midway now c x gone pending) ∨
      ∃ y, y.Reached ∧ Midway now c y (c.reactor.timers.tick now).1 [] ∧
        ∃ t, x = y.actedLate t (.schedule now) [] := by
  induction h with
  | begin runs done => exact .inl ⟨[], _, midway_begin runs done⟩
  | @next x y t h goesOn hnext ih =>
    rcases ih with ⟨gone, pending, hmid⟩ | ⟨y', -, -, t', rfl⟩
    · have hreached := h.reached hc
      cases hnext with
      | accept runs first | act runs first =>
        rw [hmid.done] at first
        cases first
      | stop runs done doneLate => exact absurd doneLate goesOn
      | aside step aside =>
        exact .inl ⟨gone, pending, hmid.aside step aside hreached.system.sound⟩
      | actLate runs done first =>
        have hlater := first.symm.trans hmid.later
        cases pending with
        | nil =>
          obtain ⟨rfl, rfl⟩ := List.cons.inj hlater
          have hall : (c.reactor.timers.tick now).1 = gone := hmid.fired.trans (List.append_nil _)
          exact .inr ⟨x, hreached, hall ▸ hmid, t, rfl⟩
        | cons z pending =>
          obtain ⟨rfl, rfl⟩ := List.cons.inj hlater
          obtain ⟨k, htimes⟩ := hreached.faithful.times (hreached.faithful.whole runs.up)
          have hevicting : x.system.evicting = z :: pending := by
            rw [System.evicting, hmid.later, List.filterMap_append, System.evicted?_map_evict]
            exact List.append_nil _
          rw [hevicting] at htimes
          exact .inl ⟨gone ++ [z], pending, hmid.evict htimes.evict.1⟩
    · exact absurd rfl goesOn

/-- What a look at the timers has done to the connections, where those of `due` were due. -/
structure Swept (now : Nat) (c d : Chronicle) (due : List Tenancy) : Prop where
  mem_iff : ∀ z, z ∈ due ↔ z ∈ c.slots.present ∧ c.active z.fd + c.reactor.idleSpan ≤ now
  once : due.Nodup
  closings : d.closings = c.closings ++ due.map fun z => ⟨z, .idle⟩
  present : ∀ z, z ∈ d.slots.present ↔ z ∈ c.slots.present ∧ z ∉ due
  taken : d.taken = c.taken
  active : d.active = c.active
  alarm_pos : 1 ≤ d.reactor.alarm
  alarm_le : d.reactor.alarm ≤ d.reactor.config.timeslot
  alarm_late : d.reactor.alarm = d.reactor.config.timeslot ∨ d.reactor.alarm = 0xFFFFFFFF ∨
    ∃ n ∈ d.reactor.timers.nodes, (∀ m ∈ d.reactor.timers.nodes, n.expiry ≤ m.expiry) ∧
      n.expiry ≤ now + d.reactor.alarm * nanosPerSecond

theorem Sweeps.start (h : Sweeps now c x) : c.system.Runs ∧ c.system.todo = [] ∧
    c.system.later = [.sweep] := by
  induction h with
  | begin runs done due => exact ⟨runs, done, due⟩
  | next _ _ _ ih => exact ih

/-- Just the connections whose idle time is over are closed. -/
theorem Sweeps.swept (h : Sweeps now c d) (hc : c.Reached) (ended : d.system.later = []) :
    Swept now c d ((c.reactor.timers.tick now).1.map Client.tenancy) := by
  obtain ⟨runs, -, due⟩ := h.start
  have hfaithful := hc.faithful
  obtain ⟨k, htimes⟩ := hfaithful.times (hfaithful.whole runs.up)
  rw [System.evicting_eq_nil (.inr due)] at htimes
  have hticked := htimes.tick now
  rcases h.midway hc with ⟨gone, pending, hmid⟩ | ⟨x, -, hmid, t, rfl⟩
  · rw [hmid.later] at ended
    exact absurd ended (List.append_ne_nil_of_right_ne_nil _ (List.cons_ne_nil _ _))
  · have hslot : 1 ≤ x.reactor.config.timeslot := hmid.config ▸ hfaithful.slot
    have hwell : x.reactor.timers.WellFormed := hmid.timers ▸ hticked.wellFormed
    obtain ⟨hpos, hle, hlate⟩ := Reactor.alarm_schedule now hwell hslot
    refine ⟨fun z => htimes.mem_tick now, ?_, ?_, hmid.present, hmid.taken, hmid.active, hpos, hle,
      hlate⟩
    · have hdistinct := hticked.distinct
      rw [show Client.fd = Tenancy.fd ∘ Client.tenancy from rfl, ← List.map_map] at hdistinct
      exact hdistinct.of_map _
    · rw [List.map_map]
      exact hmid.closings

/-- The reactor gets to the end of it if nobody else does anything. -/
theorem Midway.exists_end {gone pending : List Client} (hmid : Midway now c x gone pending)
    (h : Sweeps now c x) (hc : c.Reached) : ∃ d, Sweeps now c d ∧ d.system.later = [] ∧
      d.reactor = (pending.foldl Reactor.evict x.reactor).schedule now := by
  induction pending generalizing x gone with
  | nil =>
    have hlater : x.system.later ≠ [] := by
      rw [hmid.later]
      exact List.cons_ne_nil _ _
    have hnext : Next now x _ := .actLate ⟨hmid.awake, hmid.up⟩ hmid.done hmid.later
    exact ⟨_, h.next hlater hnext, rfl, rfl⟩
  | cons z pending ih =>
    have hlater : x.system.later ≠ [] := by
      rw [hmid.later]
      exact List.cons_ne_nil _ _
    have hnext : Next now x _ := .actLate ⟨hmid.awake, hmid.up⟩ hmid.done hmid.later
    have hreached := h.reached hc
    obtain ⟨k, htimes⟩ := hreached.faithful.times (hreached.faithful.whole hmid.up)
    have hevicting : x.system.evicting = z :: pending := by
      rw [System.evicting, hmid.later, List.filterMap_append, System.evicted?_map_evict]
      exact List.append_nil _
    rw [hevicting] at htimes
    exact ih (hmid.evict (t := now) htimes.evict.1) (h.next hlater hnext)

/-! ## Every run -/

/-- A connection is active when it is taken in and when it gets more time. -/
theorem Next.active (h : Next t c d) : d.active = c.active ∨
    ∃ fd, d.active = Function.update c.active fd t ∧
      ((∃ g, d.taken = c.taken ++ [⟨fd, g⟩]) ∨ ∃ rest, c.system.todo = .touch fd :: rest) := by
  cases h with
  | accept runs first fd peer =>
    rw [welcomed]
    split
    · next g _ => exact .inr ⟨fd, rfl, .inl ⟨g, rfl⟩⟩
    · exact .inl rfl
    · exact .inl rfl
  | @act a rest runs first =>
    cases a with
    | touch fd =>
      simp only [acted]
      split
      · exact .inr ⟨fd, rfl, .inr ⟨rest, first⟩⟩
      · exact .inl rfl
    | accept | signals | ready | queue | conclude | rearm | close => exact .inl rfl
  | actLate | stop | aside => exact .inl rfl

/-- Nobody is closed for having been idle except while the timers are looked at. -/
theorem Change.idle (h : Change t c d) (quiet : c.system.evicting = []) :
    d.closings.filter (·.reason = .idle) = c.closings.filter (·.reason = .idle) := by
  cases h with
  | quiet | accepted | broke | touched | swept => rfl
  | closed plain => exact idle_noted plain _ _
  | evicted reactor evicting =>
    rw [quiet] at evicting
    cases evicting

end Chronicle

namespace Reactor

theorem evict_other {r : Reactor} {x : Client} {fd : Nat} (h : fd ≠ x.fd) :
    (r.evict x).slots.slotAt fd = r.slots.slotAt fd ∧
      (r.evict x).slots.watch fd = r.slots.watch fd := by
  show (r.slots.close x.fd (some x.generation) .idle).2.slotAt fd = _ ∧
    (r.slots.close x.fd (some x.generation) .idle).2.watch fd = _
  by_cases hclosed : (r.slots.close x.fd (some x.generation) .idle).1 = true
  · obtain ⟨live, same⟩ := Slots.close_fst.mp hclosed
    have hupdates := Slots.updates_close (Slots.slot?_of_isLive live) live same .idle
    exact ⟨(hupdates.slot fd).trans (if_neg h), (hupdates.watch fd).trans (if_neg h)⟩
  · rw [Slots.close_of_not hclosed]
    exact ⟨rfl, rfl⟩

theorem foldl_evict (fired : List Client) (r : Reactor) :
    (fired.foldl evict r).timerIds = r.timerIds ∧
      ∀ fd, (∀ x ∈ fired, fd ≠ x.fd) → (fired.foldl evict r).slots.slotAt fd = r.slots.slotAt fd ∧
        (fired.foldl evict r).slots.watch fd = r.slots.watch fd := by
  induction fired generalizing r with
  | nil => exact ⟨rfl, fun _ _ => ⟨rfl, rfl⟩⟩
  | cons x fired ih =>
    obtain ⟨hids, hothers⟩ := ih (r.evict x)
    refine ⟨hids, fun fd hfd => ?_⟩
    obtain ⟨hslot, hwatch⟩ := hothers fd fun y hy => hfd y (List.mem_cons_of_mem x hy)
    obtain ⟨hslot', hwatch'⟩ := evict_other (r := r) (hfd x List.mem_cons_self)
    exact ⟨hslot.trans hslot', hwatch.trans hwatch'⟩

theorem sweep_eq (r : Reactor) (now : Nat) : r.sweep now =
    ((r.timers.tick now).1.foldl evict
      { r with timers := (r.timers.tick now).2 }).schedule now := by
  have huntil := congrArg (·.untilNext? now) (System.timers_foldl_evict (r.timers.tick now).1
    { r with timers := (r.timers.tick now).2 })
  rw [schedule, huntil]
  rfl

end Reactor

namespace Chronicle

variable {c d : Chronicle} {now t : Nat}

/-- A look at the timers leaves the connections alone whose idle time is not over. -/
theorem Reached.sweep_other (h : c.Reached) (runs : c.system.Runs)
    (due : c.system.later = [.sweep]) (now : Nat) {fd : Nat}
    (stays : (c.slots.slotAt fd).isLive = true → now < c.active fd + c.reactor.idleSpan) :
    (c.reactor.sweep now).slots.slotAt fd = c.slots.slotAt fd ∧
      (c.reactor.sweep now).slots.watch fd = c.slots.watch fd ∧
      (c.reactor.sweep now).timerId? fd = c.reactor.timerId? fd := by
  obtain ⟨k, htimes⟩ := h.faithful.times (h.faithful.whole runs.up)
  rw [System.evicting_eq_nil (.inr due)] at htimes
  have hother : ∀ x ∈ (c.reactor.timers.tick now).1, fd ≠ x.fd := by
    rintro x hx rfl
    obtain ⟨hmem, hpast⟩ := (htimes.mem_tick now).mp (List.mem_map_of_mem hx)
    exact Nat.not_le.mpr (stays (Slots.mem_present.mp hmem).1) hpast
  obtain ⟨hids, hslots⟩ := Reactor.foldl_evict (c.reactor.timers.tick now).1
    { c.reactor with timers := (c.reactor.timers.tick now).2 }
  obtain ⟨hslot, hwatch⟩ := hslots fd hother
  rw [Reactor.sweep_eq]
  exact ⟨hslot, hwatch, congrArg (fun ids => ids[fd]?.join) hids⟩

/-- Just those connections are closed for having been idle whose last activity is three
timeslots ago, whatever the order of the steps: the idle time begins anew where a client
is taken in, a task is queued or a connection is armed again; nobody is evicted while
there are events to be handled, nor outside of a look at the timers, and nobody twice. -/
theorem Reached.evicts_idle (h : c.Reached) :
    (∀ {t d}, Next t c d → d.active = c.active ∨
      ∃ fd, d.active = Function.update c.active fd t ∧
        ((∃ g, d.taken = c.taken ++ [⟨fd, g⟩]) ∨ ∃ rest, c.system.todo = .touch fd :: rest)) ∧
    (∀ {t a follow r}, c.reactor.act t a = (.ok follow, r) →
      ∀ b, b ∈ follow ↔ c.reactor.Follows t a b) ∧
    (c.system.todo ≠ [] → c.system.later = [] ∨ c.system.later = [.sweep]) ∧
    (∀ {t d}, Next t c d → c.system.evicting = [] →
      d.closings.filter (·.reason = .idle) = c.closings.filter (·.reason = .idle)) ∧
    (∀ {now d}, Sweeps now c d → d.system.later = [] → ∃ due, Swept now c d due) ∧
    (c.system.Runs → c.system.todo = [] → c.system.later = [.sweep] → ∀ now,
      (∃ d, Sweeps now c d ∧ d.system.later = [] ∧ d.reactor = c.reactor.sweep now) ∧
      ∀ fd, ((c.slots.slotAt fd).isLive = true → now < c.active fd + c.reactor.idleSpan) →
        (c.reactor.sweep now).slots.slotAt fd = c.slots.slotAt fd ∧
          (c.reactor.sweep now).slots.watch fd = c.slots.watch fd ∧
          (c.reactor.sweep now).timerId? fd = c.reactor.timerId? fd) ∧
    (c.closings.map Closing.tenancy).Nodup := by
  have hsystem := h.system
  refine ⟨fun hnext => hnext.active, fun hact b => Reactor.mem_follow_iff hact,
    fun hbusy => hsystem.orderly.agenda.busy hbusy, ?_, ?_, ?_, h.faithful.once⟩
  · intro t d hnext hquiet
    exact (hnext.change hsystem.sound hsystem.orderly).idle hquiet
  · intro now d hsweeps ended
    exact ⟨_, hsweeps.swept h ended⟩
  · intro runs done due now
    refine ⟨?_, fun fd hstays => h.sweep_other runs due now hstays⟩
    obtain ⟨d, hsweeps, ended, hreactor⟩ :=
      (midway_begin runs done).exists_end (.begin runs done due) h
    exact ⟨d, hsweeps, ended, hreactor.trans (c.reactor.sweep_eq now).symm⟩

set_option maxRecDepth 20000 in
/-- The only client has been idle for too long and is evicted. -/
theorem Reached.evicts_idle_alarmed : ∃ c d : Chronicle, c.Reached ∧
    c.system = { reactor := alarmed, later := [.sweep] } ∧ Sweeps System.afterwards c d ∧
      d.system.later = [] ∧ d.reactor = alarmed.sweep System.afterwards ∧
      Swept System.afterwards c d [⟨0, 1⟩] := by
  obtain ⟨c, hreached, hsystem⟩ := (Reached.start prepared_small).exists_of_steps steps_alarmed
  obtain ⟨-, -, -, -, hswept, hends, -⟩ := hreached.evicts_idle
  have hreactor : c.reactor = alarmed := congrArg System.reactor hsystem
  obtain ⟨d, hsweeps, ended, hd⟩ := (hends (by rw [hsystem]; exact ⟨rfl, rfl⟩) (by rw [hsystem])
    (by rw [hsystem]) System.afterwards).1
  obtain ⟨due, hdue⟩ := hswept hsweeps ended
  rw [hreactor] at hd
  have hbefore : c.slots.present = [⟨0, 1⟩] := by
    rw [slots, hreactor]
    cbv
  have hafter : d.slots.present = [] := by
    rw [slots, hd]
    cbv
  -- Who was there before and is not any more was due.
  have hmem (z : Tenancy) : z ∈ due ↔ z ∈ [⟨0, 1⟩] := by
    have hleft := hdue.present z
    rw [hafter, hbefore] at hleft
    constructor
    · intro hz
      exact hbefore ▸ ((hdue.mem_iff z).mp hz).1
    · intro hz
      by_contra hnot
      exact List.not_mem_nil (hleft.mpr ⟨hz, hnot⟩)
  have heq : due = [⟨0, 1⟩] := List.perm_singleton.mp
    ((List.perm_ext_iff_of_nodup hdue.once (List.nodup_singleton _)).mpr hmem)
  exact ⟨c, d, hreached, hsystem, hsweeps, ended, hd, heq ▸ hdue⟩

end Chronicle
end Server
end PageServer
