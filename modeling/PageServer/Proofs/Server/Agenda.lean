import PageServer.Proofs.Server.Chronicle

/-!
# What a step does to connections and timers

What the reactor puts off until all events have been handled comes in order: it looks at
the timers, evicts whoever has been idle for too long, and sets the next alarm; or it has
stopped, and closes what is left.  Of all that a step can do, little is about connections
and their timers: a client is taken in, a connection is closed or given more time, or the
timers are looked at.
-/

namespace PageServer
namespace Server

open Connection (WriteOutcome)
open Metrics (CloseReason)

/-- What is open is watched. -/
theorem View.Sound.isLive_eq {v : View} (h : v.Sound) : v.slot.isLive = v.watch.isSome := by
  have hlive := h.owned.isLive_iff
  cases h.owned with
  | nobody reached unwatched =>
    rw [unwatched]
    exact reached.isLive_closed
  | poller i armed idle untasked waits =>
    rw [armed, hlive.mpr waits.reached]
    rfl
  | reactor a stage open_ reached disarmed =>
    rw [disarmed, hlive.mpr ⟨stage, open_, reached⟩]
    rfl
  | worker t disarmed idle only reached =>
    rw [disarmed, hlive.mpr ⟨.processing, by decide, reached⟩]
    rfl

/-- Closing a connection for having been idle is the sweep's business only. -/
def Action.Plain : Action → Prop
  | .close _ reason => reason ≠ .idle
  | _ => True

def Late.evicted? : Late → Option Client
  | .evict x => some x
  | _ => none

theorem exists_of_map_eq_ok {α β : Type} {x : Except Fault α} {f : α → β} {y : β}
    (h : x.map f = .ok y) : ∃ a, x = .ok a ∧ f a = y := by
  cases x with
  | error e => cases h
  | ok a => exact ⟨a, rfl, Except.ok.inj h⟩

namespace Reactor

variable {r r' : Reactor} {now fd : Nat}

/-- What follows from an action: of a read that a task is queued, of a write what it has
come to, and of what is done with a connection then that it gets more time or is
closed. -/
inductive Follows (r : Reactor) (now : Nat) : Action → Action → Prop
  | hungUp {fd : Nat} {x : Readiness} (h : x.hungUp = true) :
    Follows r now (.ready fd x) (.close fd .peerClosed)
  | read {fd : Nat} {x : Readiness} {slot : Slot} (open_ : x.hungUp = false)
    (readable : x.readable = true) (there : r.slots.slot? fd = some slot)
    (ok : (slot.session.read now).1 = true) :
    Follows r now (.ready fd x) (.queue ⟨fd, slot.generation⟩)
  | unread {fd : Nat} {x : Readiness} {slot : Slot} (open_ : x.hungUp = false)
    (readable : x.readable = true) (there : r.slots.slot? fd = some slot)
    (failed : (slot.session.read now).1 = false) :
    Follows r now (.ready fd x) (.close fd .peerClosed)
  | written {fd : Nat} {x : Readiness} {slot : Slot} {o : WriteOutcome} (open_ : x.hungUp = false)
    (unreadable : x.readable = false) (writable : x.writable = true)
    (there : r.slots.slot? fd = some slot) (outcome : (slot.session.write now).1 = .ok o) :
    Follows r now (.ready fd x) (.conclude fd o)
  | queued {t : Task} (taken : (r.workers.append t).1 = true) :
    Follows r now (.queue t) (.touch t.fd)
  | full {t : Task} (refused : (r.workers.append t).1 = false) :
    Follows r now (.queue t) (.close t.fd .queueFull)
  | pending {fd : Nat} : Follows r now (.conclude fd .pending) (.rearm fd .write)
  | failed {fd : Nat} : Follows r now (.conclude fd .failed) (.close fd .writeFailed)
  | keepAlive {fd : Nat} {m : Connection.Summary} (stays : m.keepAlive = true) :
    Follows r now (.conclude fd (.complete m)) (.rearm fd .read)
  | complete {fd : Nat} {m : Connection.Summary} (leaves : m.keepAlive = false) :
    Follows r now (.conclude fd (.complete m)) (.close fd .completed)
  | rearmed {fd : Nat} {i : Interest} (armed : (r.slots.rearm fd i).1 = true) :
    Follows r now (.rearm fd i) (.touch fd)
  | unwatched {fd : Nat} {i : Interest} (unarmed : (r.slots.rearm fd i).1 = false) :
    Follows r now (.rearm fd i) (.close fd .peerClosed)

theorem follows_of_mem {a b : Action} {follow : List Action} (h : r.act now a = (.ok follow, r'))
    (hb : b ∈ follow) : r.Follows now a b := by
  cases a with
  | accept | signals | close =>
    cases h
    cases hb
  | ready fd x =>
    rw [act] at h
    cases hhung : x.hungUp with
    | true =>
      rw [hhung] at h
      cases h
      exact List.mem_singleton.mp hb ▸ .hungUp hhung
    | false =>
      simp only [hhung, Bool.false_eq_true, if_false] at h
      split at h
      · cases h
        cases hb
      · next slot hslot =>
        cases hreadable : x.readable with
        | true =>
          simp only [hreadable, if_true] at h
          obtain ⟨hfollow, -⟩ := Prod.mk.inj h
          obtain rfl := Except.ok.inj hfollow
          cases hok : (slot.session.read now).1 with
          | true =>
            rw [hok, if_pos rfl] at hb
            exact List.mem_singleton.mp hb ▸ .read hhung hreadable hslot hok
          | false =>
            rw [hok, if_neg Bool.false_ne_true] at hb
            exact List.mem_singleton.mp hb ▸ .unread hhung hreadable hslot hok
        | false =>
          simp only [hreadable, Bool.false_eq_true, if_false] at h
          split at h
          · next hwritable =>
            obtain ⟨hmap, -⟩ := Prod.mk.inj h
            obtain ⟨o, houtcome, rfl⟩ := exists_of_map_eq_ok hmap
            exact List.mem_singleton.mp hb ▸ .written hhung hreadable hwritable hslot houtcome
          · cases h
            cases hb
  | queue t =>
    rw [act] at h
    split at h
    · next happend =>
      cases h
      exact List.mem_singleton.mp hb ▸ .full (congrArg Prod.fst happend)
    · next happend =>
      cases h
      exact List.mem_singleton.mp hb ▸ .queued (congrArg Prod.fst happend)
  | conclude fd o =>
    cases o with
    | pending =>
      cases h
      exact List.mem_singleton.mp hb ▸ .pending
    | failed =>
      cases h
      exact List.mem_singleton.mp hb ▸ .failed
    | complete m =>
      obtain ⟨hmap, -⟩ := Prod.mk.inj h
      obtain ⟨u, -, rfl⟩ := exists_of_map_eq_ok hmap
      cases hkeep : m.keepAlive with
      | true =>
        rw [hkeep, if_pos rfl] at hb
        exact List.mem_singleton.mp hb ▸ .keepAlive hkeep
      | false =>
        rw [hkeep, if_neg Bool.false_ne_true] at hb
        exact List.mem_singleton.mp hb ▸ .complete hkeep
  | rearm fd i =>
    rw [act] at h
    split at h
    · next hrearm =>
      cases h
      exact List.mem_singleton.mp hb ▸ .rearmed (congrArg Prod.fst hrearm)
    · next hrearm =>
      cases h
      exact List.mem_singleton.mp hb ▸ .unwatched (congrArg Prod.fst hrearm)
  | touch fd =>
    obtain ⟨hmap, -⟩ := Prod.mk.inj h
    obtain ⟨u, -, rfl⟩ := exists_of_map_eq_ok hmap
    cases hb

/-- Nothing else comes of an action than the one that follows from it. -/
theorem follow_eq {a b : Action} {follow : List Action} (h : r.act now a = (.ok follow, r'))
    (hb : r.Follows now a b) : follow = [b] := by
  replace h := congrArg Prod.fst h
  cases hb with
  | hungUp hhung =>
    simp only [act, hhung, if_true, Except.ok.injEq] at h
    exact h.symm
  | read open_ readable there ok =>
    simp only [act, open_, readable, there, ok, if_true, Bool.false_eq_true, if_false,
      Except.ok.injEq] at h
    exact h.symm
  | unread open_ readable there failed =>
    simp only [act, open_, readable, there, failed, if_true, Bool.false_eq_true, if_false,
      Except.ok.injEq] at h
    exact h.symm
  | written open_ unreadable writable there outcome =>
    simp only [act, open_, unreadable, writable, there, outcome, if_true, Bool.false_eq_true,
      if_false, Except.map, Except.ok.injEq] at h
    exact h.symm
  | @queued t taken =>
    obtain ⟨workers, happend⟩ : ∃ workers, r.workers.append t = (true, workers) :=
      ⟨_, Prod.ext taken rfl⟩
    simp only [act, happend, Except.ok.injEq] at h
    exact h.symm
  | @full t refused =>
    obtain ⟨workers, happend⟩ : ∃ workers, r.workers.append t = (false, workers) :=
      ⟨_, Prod.ext refused rfl⟩
    simp only [act, happend, Except.ok.injEq] at h
    exact h.symm
  | pending | failed => exact (Except.ok.inj h).symm
  | keepAlive stays =>
    obtain ⟨u, -, hfollow⟩ := exists_of_map_eq_ok h
    rw [← hfollow, stays, if_pos rfl]
  | complete leaves =>
    obtain ⟨u, -, hfollow⟩ := exists_of_map_eq_ok h
    rw [← hfollow, leaves, if_neg Bool.false_ne_true]
  | @rearmed fd i armed =>
    obtain ⟨slots, hrearm⟩ : ∃ slots, r.slots.rearm fd i = (true, slots) := ⟨_, Prod.ext armed rfl⟩
    simp only [act, hrearm, Except.ok.injEq] at h
    exact h.symm
  | @unwatched fd i unarmed =>
    obtain ⟨slots, hrearm⟩ : ∃ slots, r.slots.rearm fd i = (false, slots) :=
      ⟨_, Prod.ext unarmed rfl⟩
    simp only [act, hrearm, Except.ok.injEq] at h
    exact h.symm

/-- Just these actions follow. -/
theorem mem_follow_iff {a b : Action} {follow : List Action} (h : r.act now a = (.ok follow, r')) :
    b ∈ follow ↔ r.Follows now a b :=
  ⟨follows_of_mem h, fun hb => follow_eq h hb ▸ List.mem_singleton_self b⟩

theorem Follows.plain {a b : Action} (h : r.Follows now a b) : b.Plain := by
  cases h <;> simp [Action.Plain]

theorem touch_error {f : Fault} (h : r.touch now fd = (.error f, r')) : r' = r := by
  rw [touch] at h
  split at h
  · cases h
  · split at h
    · exact (Prod.mk.inj h).2.symm
    · cases h

/-- All that an action does to connections and timers is in closing and in giving more
time. -/
theorem act_kept (now : Nat) {a : Action} (close : ∀ fd reason, a ≠ .close fd reason)
    (touch : ∀ fd, a ≠ .touch fd) (r : Reactor) :
    (r.act now a).2.config = r.config ∧ (r.act now a).2.timers = r.timers ∧
      (r.act now a).2.timerIds = r.timerIds ∧ r.slots.Kept (r.act now a).2.slots := by
  cases a with
  | accept | signals => exact ⟨rfl, rfl, rfl, .refl _⟩
  | close fd reason => exact absurd rfl (close fd reason)
  | touch fd => exact absurd rfl (touch fd)
  | ready fd x =>
    rw [act]
    split
    · exact ⟨rfl, rfl, rfl, .refl _⟩
    · split
      · exact ⟨rfl, rfl, rfl, .refl _⟩
      · split
        · exact ⟨rfl, rfl, rfl, Slots.kept_putSession _ _ _⟩
        · split
          · exact ⟨rfl, rfl, rfl, Slots.kept_putSession _ _ _⟩
          · exact ⟨rfl, rfl, rfl, .refl _⟩
  | queue t =>
    rw [act]
    split <;> exact ⟨rfl, rfl, rfl, .refl _⟩
  | conclude fd o =>
    cases o with
    | pending | failed => exact ⟨rfl, rfl, rfl, .refl _⟩
    | complete m =>
      refine ⟨rfl, rfl, rfl, ?_⟩
      simp only [act]
      cases m.status with
      | none => exact .refl _
      | some status => exact Slots.kept_countResponse _ _ _ _
  | rearm fd i =>
    have hkept := Slots.kept_rearm r.slots fd i
    rw [act]
    split <;>
    · next hrearm =>
      rw [hrearm] at hkept
      exact ⟨rfl, rfl, rfl, hkept⟩

/-- What becomes of a client whose descriptor is not watched. -/
theorem welcome_cases (now : Nat) (peer : Net.SocketAddress)
    (off : (r.slots.slotAt fd).isLive = false) (unwatched : r.slots.watch fd = none) :
    r.welcome now fd peer =
        (.ok .busy, { r with slots := { r.slots with counters := r.slots.counters.countBusy } }) ∨
      ∃ generation slots, r.slots.live < r.config.maxFds ∧
        Slots.Opened fd generation r.slots slots ∧
        ((∃ f, r.welcome now fd peer = (.error f, { r with slots })) ∨
          ∃ expiry, r.expiry now = .ok expiry ∧
            r.welcome now fd peer = (.ok (.accepted generation), { r with
              slots
              timers := (r.timers.add expiry ⟨fd, generation, peer⟩).2
              timerIds := r.timerIds.setIfInBounds fd
                (some (r.timers.add expiry ⟨fd, generation, peer⟩).1) })) := by
  rw [welcome]
  by_cases hfull :
      (decide (r.slots.capacity ≤ fd) || decide (r.config.maxFds ≤ r.slots.live)) = true
  · rw [if_pos hfull]
    exact .inl rfl
  · rw [if_neg hfull]
    right
    rw [Bool.or_eq_true, decide_eq_true_eq, decide_eq_true_eq, not_or,
      Nat.not_le, Nat.not_le] at hfull
    obtain ⟨slot, hslot⟩ : ∃ slot, r.slots.slot? fd = some slot :=
      ⟨_, Array.getElem?_eq_getElem hfull.1⟩
    obtain ⟨slots, hopen, hopened⟩ := Slots.opened_openSlot hslot
      (by rw [← Slots.slotAt_of_slot? hslot, off]) unwatched peer
    refine ⟨slot.generation + 1, slots, hfull.2, hopened, ?_⟩
    simp only [hopen]
    cases hexpiry : r.expiry now with
    | error f =>
      left
      refine ⟨f, ?_⟩
      rw [show expiry now { r with slots } = .error f from hexpiry]
    | ok e =>
      right
      refine ⟨e, rfl, ?_⟩
      rw [show expiry now { r with slots } = .ok e from hexpiry]

end Reactor

namespace System

variable {s t : System}

/-- What the reactor puts off comes in order, and evicting is no action among others. -/
inductive Agenda (s : System) : Prop
  | nothing (later : s.later = [])
  /-- An alarm was among the signals. -/
  | due (awake : s.waiting = false) (later : s.later = [.sweep])
  | sweeping (awake : s.waiting = false) (done : s.todo = []) (cs : List Client) (now : Nat)
    (later : s.later = cs.map .evict ++ [.schedule now])
  | closing (awake : s.waiting = false) (done : s.todo = []) (fds : List Nat)
    (later : s.later = fds.map .shut)

structure Orderly (s : System) : Prop where
  agenda : s.Agenda
  plain : ∀ a ∈ s.todo, a.Plain

/-- The clients whose timers have expired and whose connections are about to be closed. -/
def evicting (s : System) : List Client :=
  s.later.filterMap Late.evicted?

theorem evicted?_map_evict (cs : List Client) :
    (cs.map Late.evict).filterMap Late.evicted? = cs := by
  rw [List.filterMap_map]
  exact List.filterMap_some

theorem evicted?_map_shut (fds : List Nat) : (fds.map Late.shut).filterMap Late.evicted? = [] := by
  simp [List.filterMap_eq_nil_iff, Late.evicted?]

theorem evicting_eq_nil (h : s.later = [] ∨ s.later = [.sweep]) : s.evicting = [] := by
  rcases h with h | h <;>
  · rw [evicting, h]
    rfl

/-- While there are events to be handled the reactor puts off the look at the timers
only. -/
theorem Agenda.busy (h : s.Agenda) (busy : s.todo ≠ []) : s.later = [] ∨ s.later = [.sweep] := by
  cases h with
  | nothing later => exact .inl later
  | due awake later => exact .inr later
  | sweeping awake done | closing awake done => exact absurd done busy

theorem Agenda.later_acted (h : s.Agenda) (busy : s.todo ≠ []) (now : Nat) (a : Action)
    (rest : List Action) :
    (s.acted now a rest).later = [] ∨ (s.acted now a rest).later = [.sweep] := by
  rw [acted]
  split
  · exact h.busy busy
  · simp only
    split
    · exact .inr rfl
    · exact h.busy busy

theorem Agenda.acted (h : s.Agenda) (busy : s.todo ≠ []) (awake : s.waiting = false) (now : Nat)
    (a : Action) (rest : List Action) : (s.acted now a rest).Agenda := by
  have hawake : (s.acted now a rest).waiting = false := by
    rw [System.acted]
    split <;> exact awake
  exact (h.later_acted busy now a rest).elim .nothing (.due hawake)

theorem Agenda.actLate (h : s.Agenda) (done : s.todo = []) {l : Late}
    {rest : List Late} (first : s.later = l :: rest) (now : Nat) :
    Agenda { s with
      reactor := (s.reactor.actLate now l).2, later := (s.reactor.actLate now l).1 ++ rest } := by
  cases h with
  | nothing later =>
    rw [first] at later
    cases later
  | due awake later =>
    obtain ⟨rfl, rfl⟩ := List.cons.inj (first.symm.trans later)
    refine .sweeping awake done (s.reactor.timers.tick now).1 now ?_
    simp [Reactor.actLate]
  | sweeping awake done cs time later =>
    cases cs with
    | nil =>
      obtain ⟨rfl, rfl⟩ := List.cons.inj (first.symm.trans later)
      exact .nothing rfl
    | cons x cs =>
      obtain ⟨rfl, rfl⟩ := List.cons.inj (first.symm.trans later)
      exact .sweeping awake done cs time rfl
  | closing awake done fds later =>
    cases fds with
    | nil =>
      rw [first] at later
      cases later
    | cons fd fds =>
      obtain ⟨rfl, rfl⟩ := List.cons.inj (first.symm.trans later)
      exact .closing awake done fds rfl

theorem Step.agenda (hstep : Step s t) (h : s.Agenda) : t.Agenda := by
  -- Only what waits, stops or has come to the end of its events touches the order of the
  -- agenda.
  have hwaits (waits : s.waiting = true) : s.later = [] := by
    cases h with
    | nothing later => exact later
    | due awake | sweeping awake | closing awake =>
      rw [waits] at awake
      cases awake
  have hsame {t : System} (waiting : t.waiting = s.waiting) (todo : t.todo = s.todo)
      (later : t.later = s.later) : t.Agenda := by
    cases h with
    | nothing h => exact .nothing (later.trans h)
    | due awake h => exact .due (waiting.trans awake) (later.trans h)
    | sweeping awake done cs now h =>
      exact .sweeping (waiting.trans awake) (todo.trans done) cs now (later.trans h)
    | closing awake done fds h =>
      exact .closing (waiting.trans awake) (todo.trans done) fds (later.trans h)
  cases hstep with
  | report waits | announce waits | wake waits | fail waits => exact .nothing (hwaits waits)
  | wait runs done doneLate => exact .nothing doneLate
  | stop runs done => exact .closing runs.awake done s.reactor.tracked rfl
  | act runs first now => exact h.acted (first ▸ List.cons_ne_nil _ _) runs.awake now _ _
  | actLate runs done first now => exact h.actLate done first now
  | accept | take | lease | work | giveBack | raise | client | refresh | backend =>
    exact hsame rfl rfl rfl

theorem Step.plain (hstep : Step s t) (h : ∀ a ∈ s.todo, a.Plain) : ∀ a ∈ t.todo, a.Plain := by
  have hadded {a : Action} (ha : a.Plain) : ∀ b ∈ s.todo ++ [a], b.Plain := by
    intro b hb
    rcases List.mem_append.mp hb with hold | hnew
    · exact h b hold
    · exact List.mem_singleton.mp hnew ▸ ha
  cases hstep with
  | report => exact hadded trivial
  | announce waits which =>
    rcases which with rfl | rfl <;> exact hadded trivial
  | @act a rest runs first now =>
    have hrest : ∀ b ∈ rest, b.Plain := by
      intro b hb
      exact h b (first ▸ List.mem_cons_of_mem a hb)
    rw [System.acted]
    split
    · exact h
    · next follow hact =>
      intro b hb
      rcases List.mem_append.mp hb with hnew | hold
      · exact (Reactor.follows_of_mem (Prod.ext hact rfl) hnew).plain
      · exact hrest b hold
  | accept | wake | fail | actLate | wait | stop | take | lease | work | giveBack | raise | client
  | refresh | backend => exact h

theorem Reached.orderly (h : s.Reached) : s.Orderly := by
  induction h with
  | start fresh => exact ⟨.nothing rfl, nofun⟩
  | step _ hstep ih => exact ⟨hstep.agenda ih.agenda, hstep.plain ih.plain⟩

/-- A reactor that a fault has ended stays so. -/
theorem Step.halted (hstep : Step s t) (h : s.halted = true) : t.halted = true := by
  have hruns (runs : s.Runs) : t.halted = true := by
    have hup := runs.up
    rw [h] at hup
    cases hup
  cases hstep with
  | accept runs | act runs | actLate runs | wait runs | stop runs => exact hruns runs
  | fail => rfl
  | report | announce | wake | take | lease | work | giveBack | raise |
    client | refresh | backend =>
    exact h

/-- A reactor that has handled its events and does not wait goes on so while it has
something to do or has stopped. -/
theorem Step.resting (h : Step s t) (awake : s.waiting = false) (done : s.todo = [])
    (busy : s.reactor.stopped = true ∨ s.later ≠ []) :
    t.waiting = false ∧ t.todo = [] ∧ t.halted = s.halted ∧
      t.reactor.stopped = s.reactor.stopped := by
  cases h with
  | report waits | announce waits | wake waits | fail waits =>
    rw [awake] at waits
    cases waits
  | accept runs first | act runs first =>
    rw [done] at first
    cases first
  | wait runs done' doneLate goesOn =>
    rcases busy with told | hlater
    · rw [told] at goesOn
      cases goesOn
    · exact absurd doneLate hlater
  | @actLate l => cases l <;> exact ⟨awake, done, rfl, rfl⟩
  | stop | take | lease | work | giveBack | raise | client | refresh | backend =>
    exact ⟨awake, done, rfl, rfl⟩

end System

namespace Chronicle

variable {c d : Chronicle} {now : Nat}

/-- What a step does to the connections, to their timers and to the record. -/
inductive Change (now : Nat) (c : Chronicle) : Chronicle → Prop
  /-- Connections and timers are as they were. -/
  | quiet {t : System} {leaving : Bool} (config : t.reactor.config = c.reactor.config)
    (timers : t.reactor.timers = c.reactor.timers)
    (timerIds : t.reactor.timerIds = c.reactor.timerIds)
    (slots : c.slots.Kept t.reactor.slots) (present : t.reactor.slots.present = c.slots.present)
    (evicting : t.evicting = c.system.evicting) : Change now c { c with system := t, leaving }
  | accepted {t : System} {slots : Slots} {expiry : Nat} {x : Client}
    (room : c.slots.live < c.reactor.config.maxFds)
    (opened : Slots.Opened x.fd x.generation c.slots slots)
    (expires : c.reactor.expiry now = .ok expiry)
    (reactor : t.reactor = { c.reactor with
      slots
      timers := (c.reactor.timers.add expiry x).2
      timerIds := c.reactor.timerIds.setIfInBounds x.fd (some (c.reactor.timers.add expiry x).1) })
    (before : c.system.evicting = []) (after : t.evicting = []) :
    Change now c { c with
      system := t
      active := Function.update c.active x.fd now
      taken := c.taken ++ [x.tenancy] }
  /-- A client is taken in, and then a fault ends the reactor. -/
  | broke {t : System} {slots : Slots} {fd generation : Nat}
    (room : c.slots.live < c.reactor.config.maxFds)
    (opened : Slots.Opened fd generation c.slots slots)
    (reactor : t.reactor = { c.reactor with slots }) (halted : t.halted = true) :
    Change now c { c with system := t, broken := true }
  /-- A connection gets more time. -/
  | touched {t : System} {fd : Nat} (touch : c.reactor.touch now fd = (.ok (), t.reactor))
    (before : c.system.evicting = []) (after : t.evicting = []) :
    Change now c { c with system := t, active := Function.update c.active fd now }
  | closed {t : System} {fd : Nat} {reason : CloseReason} (plain : reason ≠ .idle)
    (reactor : t.reactor = (c.reactor.close fd reason).2)
    (before : c.system.evicting = []) (after : t.evicting = []) :
    Change now c { c with
      system := t
      closings := c.noted (c.reactor.close fd reason).1 fd reason }
  /-- The timers that have expired are taken out. -/
  | swept {t : System}
    (reactor : t.reactor = { c.reactor with timers := (c.reactor.timers.tick now).2 })
    (before : c.system.evicting = []) (after : t.evicting = (c.reactor.timers.tick now).1) :
    Change now c { c with system := t }
  | evicted {t : System} {x : Client} (reactor : t.reactor = c.reactor.evict x)
    (evicting : c.system.evicting = x :: t.evicting) :
    Change now c { c with
      system := t
      closings := c.noted (c.slots.close x.fd (some x.generation) .idle).1 x.fd .idle
      fired := c.fired ++ [x] }

/-- What leaves connections and timers alone. -/
theorem change_quiet (sound : c.system.Sound) {t : System} (after : t.Sound) {leaving : Bool}
    (config : t.reactor.config = c.reactor.config) (timers : t.reactor.timers = c.reactor.timers)
    (timerIds : t.reactor.timerIds = c.reactor.timerIds) (slots : c.slots.Kept t.reactor.slots)
    (evicting : t.evicting = c.system.evicting) : Change now c { c with system := t, leaving } :=
  .quiet config timers timerIds slots
    (slots.present (fun fd => (sound.views fd).isLive_eq) fun fd => (after.views fd).isLive_eq)
    evicting

theorem change_accept (sound : c.system.Sound) (agenda : c.system.Agenda) {rest : List Action}
    (first : c.system.todo = .accept :: rest) {fd : Nat} {peer : Net.SocketAddress}
    (free : ∀ slot, c.slots.slot? fd = some slot → slot.isLive = false) :
    Change now c (c.welcomed now fd peer) := by
  have hafter : (c.system.welcomed now fd peer).Sound := (sound.accept free).sound
  have hnone : c.system.evicting = [] :=
    System.evicting_eq_nil (agenda.busy (first ▸ List.cons_ne_nil _ _))
  have hoff : (c.slots.slotAt fd).isLive = false := by
    rw [Slots.slotAt]
    cases hslot : c.slots.slot? fd with
    | none => rfl
    | some slot => exact free slot hslot
  have hunwatched : c.slots.watch fd = none := by
    have hwatch : (c.slots.slotAt fd).isLive = (c.slots.watch fd).isSome :=
      (sound.views fd).isLive_eq
    rw [hoff] at hwatch
    exact Option.not_isSome_iff_eq_none.mp (by simp [← hwatch])
  have hevicting : (c.system.welcomed now fd peer).evicting = [] := hnone
  rw [welcomed]
  rcases Reactor.welcome_cases now peer hoff hunwatched with hbusy | ⟨g, slots, hroom, hopened, h⟩
  · rw [show (c.reactor.welcome now fd peer).1 = .ok .busy by rw [hbusy]]
    have hreactor : (c.system.welcomed now fd peer).reactor =
        { c.reactor with slots := { c.slots with counters := c.slots.counters.countBusy } } := by
      rw [System.welcomed]
      exact congrArg Prod.snd hbusy
    exact change_quiet sound hafter (by rw [hreactor]) (by rw [hreactor]) (by rw [hreactor])
      (by rw [hreactor]; exact { Slots.Kept.refl c.slots with }) rfl
  · rcases h with ⟨f, hwelcome⟩ | ⟨expiry, hexpiry, hwelcome⟩
    · rw [show (c.reactor.welcome now fd peer).1 = .error f by rw [hwelcome]]
      refine .broke hroom hopened (congrArg Prod.snd hwelcome) ?_
      rw [System.welcomed]
      exact congrArg (fun r => r.1.toOption.isNone) hwelcome
    · rw [show (c.reactor.welcome now fd peer).1 = .ok (.accepted g) by rw [hwelcome]]
      exact .accepted (x := ⟨fd, g, peer⟩) hroom hopened hexpiry (congrArg Prod.snd hwelcome) hnone
        hevicting

theorem change_act (sound : c.system.Sound) (orderly : c.system.Orderly) {a : Action}
    {rest : List Action} (first : c.system.todo = a :: rest) :
    Change now c (c.acted now a rest) := by
  have hafter := (sound.act first now).sound
  have hbusy : c.system.todo ≠ [] := first ▸ List.cons_ne_nil a rest
  have hbefore := System.evicting_eq_nil (orderly.agenda.busy hbusy)
  have hevicting := System.evicting_eq_nil (orderly.agenda.later_acted hbusy now a rest)
  have hreactor : (c.system.acted now a rest).reactor = (c.reactor.act now a).2 := by
    rw [System.acted]
    split <;> rfl
  by_cases hclose : ∃ fd reason, a = .close fd reason
  · obtain ⟨fd, reason, rfl⟩ := hclose
    have hplain : Action.Plain (.close fd reason) :=
      orderly.plain _ (first ▸ List.mem_cons_self)
    exact .closed hplain hreactor hbefore hevicting
  · by_cases htouch : ∃ fd, a = .touch fd
    · obtain ⟨fd, rfl⟩ := htouch
      cases hresult : c.reactor.touch now fd with
      | mk touched r =>
        cases touched with
        | ok u =>
          have hacted : c.acted now (.touch fd) rest = { c with
              system := c.system.acted now (.touch fd) rest
              active := Function.update c.active fd now } := by
            simp only [Chronicle.acted, hresult, Except.isOk, Except.toBool, if_true]
          rw [hacted]
          refine .touched ?_ hbefore hevicting
          rw [hreactor, Reactor.act, hresult]
        | error f =>
          have hacted : c.acted now (.touch fd) rest =
              { c with system := c.system.acted now (.touch fd) rest } := by
            simp only [Chronicle.acted, hresult, Except.isOk, Except.toBool, Bool.false_eq_true,
              if_false]
          have hsame : (c.system.acted now (.touch fd) rest).reactor = c.reactor := by
            rw [hreactor, Reactor.act, hresult]
            exact Reactor.touch_error hresult
          rw [hacted]
          exact change_quiet sound hafter (congrArg Reactor.config hsame)
            (congrArg Reactor.timers hsame) (congrArg Reactor.timerIds hsame)
            (hsame ▸ Slots.Kept.refl c.slots) (hevicting.trans hbefore.symm)
    · have hacted : c.acted now a rest = { c with system := c.system.acted now a rest } := by
        cases a with
        | touch fd => exact absurd ⟨fd, rfl⟩ htouch
        | close fd reason => exact absurd ⟨fd, reason, rfl⟩ hclose
        | accept | signals | ready | queue | conclude | rearm => rfl
      obtain ⟨hconfig, htimers, hids, hkept⟩ := c.reactor.act_kept now
        (fun fd reason h => hclose ⟨fd, reason, h⟩) fun fd h => htouch ⟨fd, h⟩
      rw [hacted]
      rw [← hreactor] at hconfig htimers hids hkept
      exact change_quiet sound hafter hconfig htimers hids hkept (hevicting.trans hbefore.symm)

theorem change_actLate (sound : c.system.Sound) (agenda : c.system.Agenda)
    (done : c.system.todo = []) {l : Late} {rest : List Late} (first : c.system.later = l :: rest) :
    Change now c (c.actedLate now l rest) := by
  have hafter := (sound.actLate done l rest now).sound
  have hevicting (l : Late) (rest : List Late) (h : c.system.later = l :: rest) :
      c.system.evicting = (l.evicted?.toList ++ rest.filterMap Late.evicted?) := by
    rw [System.evicting, h, List.filterMap_cons]
    cases l.evicted? <;> rfl
  cases agenda with
  | nothing later =>
    rw [first] at later
    cases later
  | due awake later =>
    obtain ⟨rfl, rfl⟩ := List.cons.inj (first.symm.trans later)
    refine .swept rfl (hevicting _ _ first) ?_
    rw [System.evicting]
    simp only [Reactor.actLate, List.append_nil, List.filterMap_append, System.evicted?_map_evict]
    exact List.append_nil _
  | sweeping awake done cs time later =>
    cases cs with
    | nil =>
      obtain ⟨rfl, rfl⟩ := List.cons.inj (first.symm.trans later)
      exact change_quiet sound hafter rfl rfl rfl (.refl _) (hevicting _ _ first).symm
    | cons x cs =>
      obtain ⟨rfl, rfl⟩ := List.cons.inj (first.symm.trans later)
      exact .evicted rfl (hevicting _ _ first)
  | closing awake done fds later =>
    cases fds with
    | nil =>
      rw [first] at later
      cases later
    | cons fd fds =>
      obtain ⟨rfl, rfl⟩ := List.cons.inj (first.symm.trans later)
      refine .closed (by decide) rfl ?_ (System.evicted?_map_shut fds)
      rw [hevicting _ _ first]
      exact System.evicted?_map_shut fds

/-- Every step is one of these changes. -/
theorem Next.change (h : Next now c d) (sound : c.system.Sound) (orderly : c.system.Orderly) :
    Change now c d := by
  have hafter := (h.step.leads sound).sound
  cases h with
  | accept runs first fd peer free => exact change_accept sound orderly.agenda first free
  | act runs first => exact change_act sound orderly first
  | actLate runs done first => exact change_actLate sound orderly.agenda done first
  | stop runs done doneLate told =>
    refine change_quiet sound hafter rfl rfl rfl (.refl _) ?_
    rw [System.evicting, System.evicting, doneLate]
    exact System.evicted?_map_shut _
  | aside step aside =>
    exact change_quiet sound hafter aside.config aside.timers aside.timerIds aside.slots
      (congrArg (List.filterMap Late.evicted?) aside.later)

end Chronicle
end Server
end PageServer
