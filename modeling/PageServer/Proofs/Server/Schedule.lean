import PageServer.Proofs.Server.Ownership
import PageServer.Server.Traffic

/-!
# What the server runs is one order of the steps

A turn of the reactor reports what is ready, handles it, looks at the timers and lets the
workers do what is queued.  Each part of it comes about in steps of the system, so what a
server comes to that runs turn after turn the system can come to.
-/

namespace PageServer
namespace Server

open Accounts (Handle)
open Connection (WriteOutcome)
open Metrics (CloseReason)

namespace System

/-! ## Actions in a row -/

/-- The reactor goes through the actions and comes to the result of a function, or stops
at the fault. -/
def Performs {α : Type} (todo : List Action) (r : Reactor) (result : Except Fault α × Reactor) :
    Prop :=
  ∀ rest later, match result.1 with
    | .ok _ => Steps { reactor := r, todo := todo ++ rest, later }
        { reactor := result.2, todo := rest, later }
    | .error _ => ∃ left, Steps { reactor := r, todo := todo ++ rest, later }
        { reactor := result.2, todo := left, later, halted := true }

section Performing

variable {α β : Type} {a : Action} {todo follow : List Action} {r r' : Reactor}
  {result : Except Fault α × Reactor}

theorem Performs.nil (x : α) : Performs [] r (.ok x, r) :=
  fun _ _ => .refl

theorem Performs.cons (now : Nat) (quiet : r.alarms a = false)
    (hact : r.act now a = (.ok follow, r')) (h : Performs (follow ++ todo) r' result) :
    Performs (a :: todo) r result := by
  intro rest later
  have hstep := Step.act (s := { reactor := r, todo := a :: (todo ++ rest), later })
    ⟨rfl, rfl⟩ rfl now
  simp only [acted, hact, quiet, ← List.append_assoc] at hstep
  have hrest := h rest later
  split at hrest
  · exact .head hstep hrest
  · obtain ⟨left, hsteps⟩ := hrest
    exact ⟨left, .head hstep hsteps⟩

theorem Performs.fault {f : Fault} (now : Nat) (hact : r.act now a = (.error f, r')) :
    Performs (a :: todo) r ((.error f : Except Fault α), r') := by
  intro rest later
  have hstep := Step.act (s := { reactor := r, todo := a :: (todo ++ rest), later })
    ⟨rfl, rfl⟩ rfl now
  simp only [acted, hact] at hstep
  exact ⟨_, .single hstep⟩

/-- The reactor is done with an action. -/
theorem Performs.done (now : Nat) (quiet : r.alarms a = false) (hact : r.act now a = (.ok [], r'))
    (x : α) : Performs [a] r (.ok x, r') :=
  .cons now quiet hact (.nil x)

theorem Performs.append {x : β} (h : Performs todo r (.ok x, r')) (h' : Performs follow r' result) :
    Performs (todo ++ follow) r result := by
  intro rest later
  have hfirst := h (follow ++ rest) later
  have hrest := h' rest later
  rw [List.append_assoc]
  split at hrest
  · exact .trans hfirst hrest
  · obtain ⟨left, hsteps⟩ := hrest
    exact ⟨left, .trans hfirst hsteps⟩

theorem Performs.stop {f : Fault} (h : Performs todo r ((.error f : Except Fault β), r')) :
    Performs (todo ++ follow) r ((.error f : Except Fault α), r') := by
  intro rest later
  rw [List.append_assoc]
  exact h (follow ++ rest) later

theorem Performs.map (h : Performs todo r result) (g : α → β) :
    Performs todo r (result.1.map g, result.2) := by
  obtain ⟨outcome, r'⟩ := result
  cases outcome with
  | ok x => exact h
  | error f => exact h

end Performing

/-! ## The events of connections -/

theorem performs_touch (now fd : Nat) (r : Reactor) :
    Performs [.touch fd] r (r.touch now fd) := by
  cases htouch : r.touch now fd with
  | mk touched r' =>
    cases touched with
    | ok u => exact .done now rfl (by rw [Reactor.act, htouch]; rfl) u
    | error f => exact .fault now (by rw [Reactor.act, htouch]; rfl)

theorem performs_close (now fd : Nat) (reason : CloseReason) (r : Reactor) {α : Type} (x : α) :
    Performs [.close fd reason] r (.ok x, (r.close fd reason).2) :=
  .done now rfl rfl x

theorem performs_rearm (now fd : Nat) (i : Interest) (r : Reactor) :
    Performs [.rearm fd i] r (r.rearm now fd i) := by
  cases hrearm : r.slots.rearm fd i with
  | mk watched slots =>
    rw [Reactor.rearm, hrearm]
    cases watched with
    | true => exact .cons now rfl (by rw [Reactor.act, hrearm]) (performs_touch now fd _)
    | false => exact .cons now rfl (by rw [Reactor.act, hrearm]) (performs_close now fd _ _ ())

/-- A response has been sent and counted. -/
theorem performs_complete (now fd : Nat) (m : Connection.Summary) {r r' : Reactor}
    (hact : r.act now (.conclude fd (.complete m)) =
      (.ok [if m.keepAlive then .rearm fd .read else .close fd .completed], r')) :
    Performs [.conclude fd (.complete m)] r
      (if m.keepAlive then r'.rearm now fd .read else (.ok (), (r'.close fd .completed).2)) := by
  cases hkeep : m.keepAlive with
  | true =>
    rw [hkeep] at hact
    exact .cons now rfl hact (performs_rearm now fd .read r')
  | false =>
    rw [hkeep] at hact
    exact .cons now rfl hact (performs_close now fd .completed r' ())

theorem performs_conclude (now fd : Nat) (o : WriteOutcome) (r : Reactor) :
    Performs [.conclude fd o] r (r.afterWrite now fd o) := by
  cases o with
  | pending => exact .cons now rfl rfl (performs_rearm now fd .write r)
  | failed => exact .cons now rfl rfl (performs_close now fd .writeFailed r ())
  | complete m =>
    rw [Reactor.afterWrite]
    cases hstatus : m.status with
    | none =>
      refine performs_complete now fd m ?_
      simp only [Reactor.act, hstatus, Except.map]
    | some status =>
      cases hcount : r.slots.counters.countResponse status.code m.bytes m.latency with
      | mk counted counters =>
        cases counted with
        | error f =>
          simp only [hcount]
          refine .fault now ?_
          simp only [Reactor.act, hstatus, hcount, Except.map]
        | ok u =>
          simp only [hcount]
          refine performs_complete now fd m ?_
          simp only [Reactor.act, hstatus, hcount, Except.map]

theorem performs_read (now fd : Nat) {x : Readiness} (hhung : x.hungUp = false)
    (hreadable : x.readable = true) (r : Reactor) :
    Performs [.ready fd x] r (r.handleRead now fd) := by
  cases hslot : r.slots.slot? fd with
  | none =>
    rw [Reactor.handleRead, hslot]
    exact .done now rfl (by rw [Reactor.act, hslot, hhung]; rfl) ()
  | some slot =>
    obtain ⟨ok, session, hread⟩ : ∃ ok session, slot.session.read now = (ok, session) :=
      ⟨_, _, rfl⟩
    have hact : r.act now (.ready fd x) =
        (.ok (if ok then [.queue ⟨fd, slot.generation⟩] else [.close fd .peerClosed]),
          { r with slots := r.slots.putSession fd session }) := by
      rw [Reactor.act, hslot, hhung]
      simp only [hreadable, hread, if_true, Bool.false_eq_true, if_false]
    rw [Reactor.handleRead, hslot]
    simp only [hread]
    cases ok with
    | false => exact .cons now rfl hact (performs_close now fd .peerClosed _ ())
    | true =>
      refine .cons now rfl hact ?_
      cases happend : r.workers.append ⟨fd, slot.generation⟩ with
      | mk taken workers =>
        simp only [Bool.not_true, Bool.false_eq_true, if_false]
        cases taken with
        | false =>
          exact .cons now rfl (by rw [Reactor.act, happend]) (performs_close now fd .queueFull _ ())
        | true => exact .cons now rfl (by rw [Reactor.act, happend]) (performs_touch now fd _)

theorem performs_write (now fd : Nat) {x : Readiness} (hhung : x.hungUp = false)
    (hreadable : x.readable = false) (hwritable : x.writable = true) (r : Reactor) :
    Performs [.ready fd x] r (r.handleWrite now fd) := by
  cases hslot : r.slots.slot? fd with
  | none =>
    rw [Reactor.handleWrite, hslot]
    exact .done now rfl (by rw [Reactor.act, hslot, hhung]; rfl) ()
  | some slot =>
    obtain ⟨outcome, session, hwrite⟩ : ∃ outcome session,
      slot.session.write now = (outcome, session) := ⟨_, _, rfl⟩
    have hact : r.act now (.ready fd x) = (outcome.map fun o => [.conclude fd o],
        { r with slots := r.slots.putSession fd session }) := by
      rw [Reactor.act, hslot, hhung]
      simp only [hreadable, hwritable, hwrite, if_true, Bool.false_eq_true, if_false]
    rw [Reactor.handleWrite, hslot]
    simp only [hwrite]
    cases outcome with
    | error f => exact .fault now hact
    | ok o => exact .cons now rfl hact (performs_conclude now fd o _)

/-- The event of a connection. -/
theorem performs_ready (now fd : Nat) (x : Readiness) (r : Reactor) :
    (∀ alarm, (r.handle now (.ready fd x)).1 = .ok alarm → alarm = false) ∧
      Performs [.ready fd x] r (r.handle now (.ready fd x)) := by
  have hquiet {result : Except Fault Unit × Reactor} (h : Performs [.ready fd x] r result) :
      (∀ alarm, result.1.map (fun _ => false) = .ok alarm → alarm = false) ∧
        Performs [.ready fd x] r (result.1.map fun _ => false, result.2) := by
    refine ⟨?_, h.map fun _ => false⟩
    intro alarm halarm
    cases houtcome : result.1 with
    | error f =>
      rw [houtcome] at halarm
      cases halarm
    | ok u =>
      rw [houtcome] at halarm
      exact (Except.ok.inj halarm).symm
  have hfalse : ∀ alarm, (Except.ok false : Except Fault Bool) = .ok alarm → alarm = false :=
    fun alarm halarm => (Except.ok.inj halarm).symm
  rw [Reactor.handle]
  cases hhung : x.hungUp with
  | true =>
    have hact : r.act now (.ready fd x) = (.ok [.close fd .peerClosed], r) := by
      rw [Reactor.act, if_pos hhung]
    exact ⟨hfalse, .cons now rfl hact (performs_close now fd .peerClosed r false)⟩
  | false =>
    cases hreadable : x.readable with
    | true => exact hquiet (performs_read now fd hhung hreadable r)
    | false =>
      cases hwritable : x.writable with
      | true => exact hquiet (performs_write now fd hhung hreadable hwritable r)
      | false =>
        refine ⟨hfalse, .done now rfl ?_ false⟩
        rw [Reactor.act, hhung, hreadable, hwritable]
        cases r.slots.slot? fd <;> rfl

/-- The events of connections, in turn. -/
theorem performs_all (now : Nat) (ready : List (Nat × Readiness)) (r : Reactor) :
    (∀ alarm, (Reactor.handleAll now (ready.map fun e => .ready e.1 e.2) r).1 = .ok alarm →
        alarm = false) ∧
      Performs (ready.map fun e => .ready e.1 e.2) r
        (Reactor.handleAll now (ready.map fun e => .ready e.1 e.2) r) := by
  induction ready generalizing r with
  | nil => exact ⟨fun alarm halarm => (Except.ok.inj halarm).symm, .nil false⟩
  | cons e ready ih =>
    obtain ⟨hquiet, hfirst⟩ := performs_ready now e.1 e.2 r
    simp only [List.map_cons, Reactor.handleAll]
    cases hhandle : r.handle now (.ready e.1 e.2) with
    | mk outcome r' =>
      rw [hhandle] at hquiet hfirst
      cases outcome with
      | error f => exact ⟨nofun, hfirst.stop⟩
      | ok alarm =>
        obtain rfl := hquiet alarm rfl
        obtain ⟨hquiet', hrest⟩ := ih r'
        -- No event of a connection brings an alarm, so only the alarms of the rest count.
        have hmap : (fun alarm => false || alarm) = id := by
          funext alarm
          exact Bool.false_or alarm
        simp only [hmap, Except.map_id]
        exact ⟨hquiet', hfirst.append hrest⟩

/-! ## The timers -/

theorem steps_evict (fired : List Client) (r : Reactor) (later : List Late) :
    Steps { reactor := r, later := fired.map .evict ++ later }
      { reactor := fired.foldl Reactor.evict r, later } := by
  induction fired generalizing r with
  | nil => exact .refl
  | cons c fired ih =>
    have hstep := Step.actLate
      (s := { reactor := r, later := .evict c :: (fired.map .evict ++ later) })
      ⟨rfl, rfl⟩ rfl rfl 0
    exact .head hstep (ih (r.evict c))

theorem timers_foldl_evict (fired : List Client) (r : Reactor) :
    (fired.foldl Reactor.evict r).timers = r.timers := by
  induction fired generalizing r with
  | nil => rfl
  | cons c fired ih => exact ih (r.evict c)

theorem steps_sweep (now : Nat) (r : Reactor) :
    Steps { reactor := r, later := [.sweep] } { reactor := r.sweep now } := by
  have hsweep := Step.actLate (s := { reactor := r, later := [.sweep] }) ⟨rfl, rfl⟩ rfl rfl now
  simp only [Reactor.actLate, List.append_nil] at hsweep
  refine .head hsweep (.trans (steps_evict _ _ _) (.single ?_))
  have hschedule := Step.actLate (s := {
    reactor := (r.timers.tick now).1.foldl Reactor.evict { r with timers := (r.timers.tick now).2 }
    later := [.schedule now] }) ⟨rfl, rfl⟩ rfl rfl now
  have hset : ((r.timers.tick now).1.foldl Reactor.evict
      { r with timers := (r.timers.tick now).2 }).schedule now = r.sweep now := by
    have huntil := congrArg (·.untilNext? now) (timers_foldl_evict (r.timers.tick now).1
      { r with timers := (r.timers.tick now).2 })
    rw [Reactor.schedule, huntil]
    rfl
  rw [← hset]
  exact hschedule

/-- The system comes to the result of a function, or stops at the fault. -/
def Comes {α : Type} (s : System) (later : α → List Late)
    (result : Except Fault α × Reactor) : Prop :=
  match result with
  | (.ok x, r) => Steps s { reactor := r, later := later x }
  | (.error _, r) => ∃ left late,
      Steps s { reactor := r, todo := left, later := late, halted := true }

theorem Comes.head {α : Type} {s t : System} {later : α → List Late}
    {result : Except Fault α × Reactor} (hsteps : Steps s t) (h : Comes t later result) :
    Comes s later result := by
  rcases result with ⟨f | x, r⟩
  · obtain ⟨left, late, hrest⟩ := h
    exact ⟨left, late, .trans hsteps hrest⟩
  · exact .trans hsteps h

theorem Comes.ok {α : Type} {s : System} {later : α → List Late} {result : Except Fault α × Reactor}
    (h : Comes s later result) {x : α} (hok : result.1 = .ok x) :
    Steps s { reactor := result.2, later := later x } := by
  rcases result with ⟨f | y, r⟩
  · cases hok
  · obtain rfl := Except.ok.inj hok
    exact h

/-- The events of a wait: the signals, if there are any, and then those of connections. -/
def eventsOf (signals : Bool) (ready : List (Nat × Readiness)) : List Event :=
  (if signals then [.signals] else []) ++ ready.map fun e => .ready e.1 e.2

def actionsOf (signals : Bool) (ready : List (Nat × Readiness)) : List Action :=
  (if signals then [.signals] else []) ++ ready.map fun e => .ready e.1 e.2

theorem comes_events (now : Nat) (signals : Bool) (ready : List (Nat × Readiness)) (r : Reactor) :
    Comes { reactor := r, todo := actionsOf signals ready }
      (fun alarm => if alarm then [.sweep] else [])
      (Reactor.handleAll now (eventsOf signals ready) r) := by
  cases signals with
  | false =>
    obtain ⟨hquiet, hready⟩ := performs_all now ready r
    have hrun := hready [] []
    rw [List.append_nil] at hrun
    rw [show eventsOf false ready = ready.map fun e => .ready e.1 e.2 from rfl]
    cases hall : Reactor.handleAll now (ready.map fun e => .ready e.1 e.2) r with
    | mk outcome r' =>
      rw [hall] at hquiet hrun
      cases outcome with
      | error f =>
        obtain ⟨left, hsteps⟩ := hrun
        exact ⟨left, [], hsteps⟩
      | ok alarm =>
        obtain rfl := hquiet alarm rfl
        exact hrun
  | true =>
    have hfirst := Step.act (s := { reactor := r, todo := actionsOf true ready }) ⟨rfl, rfl⟩ rfl now
    obtain ⟨hquiet, hready⟩ := performs_all now ready r.handleSignals.2
    have hrun := hready [] (if r.handleSignals.1 then [.sweep] else [])
    rw [List.append_nil] at hrun
    refine .head (.single hfirst) ?_
    rw [show eventsOf true ready = .signals :: ready.map fun e => .ready e.1 e.2 from rfl,
      Reactor.handleAll, Reactor.handle]
    cases hall : Reactor.handleAll now (ready.map fun e => .ready e.1 e.2) r.handleSignals.2 with
    | mk outcome r' =>
      rw [hall] at hquiet hrun
      simp only [hall]
      cases outcome with
      | error f =>
        obtain ⟨left, hsteps⟩ := hrun
        exact ⟨left, _, hsteps⟩
      | ok alarm =>
        obtain rfl := hquiet alarm rfl
        simp only [Except.map, Bool.or_false]
        exact hrun

/-- All events of one wait, and a look at the timers if an alarm is among them. -/
theorem comes_batch (now : Nat) (signals : Bool) (ready : List (Nat × Readiness)) (r : Reactor) :
    Comes { reactor := r, todo := actionsOf signals ready } (fun _ => [])
      (r.batch now (eventsOf signals ready)) := by
  have hevents := comes_events now signals ready r
  rw [Reactor.batch]
  cases hall : Reactor.handleAll now (eventsOf signals ready) r with
  | mk outcome r' =>
    rw [hall] at hevents
    cases outcome with
    | error f => exact hevents
    | ok alarm =>
      cases alarm with
      | false => exact hevents
      | true => exact .trans hevents (steps_sweep now r')

/-! ## The poller -/

/-- What is ready and armed is reported one after the other. -/
theorem steps_report (ready : List (Nat × Readiness)) (hkeys : (ready.map (·.1)).Nodup)
    (r : Reactor)
    (todo : List Action) (harmed : ∀ e ∈ ready, ∃ i, r.slots.poller.armed? e.1 = some i ∧
      readiness? i (r.slots.stream e.1) = some e.2) :
    Steps { reactor := r, waiting := true, todo }
      { reactor := { r with slots := { r.slots with
          poller := ready.foldl (fun p e => p.disarm e.1) r.slots.poller } }
        waiting := true, todo := todo ++ ready.map fun e => .ready e.1 e.2 } := by
  induction ready generalizing r todo with
  | nil =>
    rw [List.map_nil, List.append_nil]
    exact .refl
  | cons e ready ih =>
    obtain ⟨hnew, hkeys⟩ := List.nodup_cons.mp hkeys
    obtain ⟨i, harmed_e, hready_e⟩ := harmed e List.mem_cons_self
    -- The report disarms one descriptor, and the others are as they were since no two are
    -- the same.
    have hstep := Step.report (s := { reactor := r, waiting := true, todo }) rfl harmed_e hready_e
    refine .head hstep ?_
    have hrest := ih hkeys
      { r with slots := { r.slots with poller := r.slots.poller.disarm e.1 } }
      (todo ++ [.ready e.1 e.2]) ?_
    · rw [List.append_assoc] at hrest
      exact hrest
    · intro e' he'
      obtain ⟨i', harmed', hready'⟩ := harmed e' (List.mem_cons_of_mem e he')
      refine ⟨i', ?_, hready'⟩
      have hne : e'.1 ≠ e.1 := fun heq => hnew (List.mem_map.mpr ⟨e', he', heq⟩)
      rw [Poller.armed?, Poller.disarm, Poller.lookup_mark, if_neg hne]
      exact harmed'

/-! ## The workers -/

/-- The workers go on until they are idle or wait for a handle. -/
theorem steps_settle (r : Reactor)
    {exec : Slots × Accounts.Backend → Task → Handle →
      Workers.Progress Handle × Slots × Accounts.Backend}
    (hexec : ∀ s t h, exec s t h = (.done h, (t.run r.config.docRoot s.1 s.2).2))
    (s : Slots × Accounts.Backend) (w : Workers Task Handle)
    (fits : w.handles.Fits) :
    Steps { reactor := { r with slots := s.1, backend := s.2, workers := w } }
      { reactor := { r with
          slots := (Workers.settle exec s w).1.1
          backend := (Workers.settle exec s w).1.2
          workers := (Workers.settle exec s w).2 } } := by
  fun_induction Workers.settle exec s w with
  | case1 s w t handle w' hlease e ih =>
    obtain ⟨rest, handles, hwaiting, hacquire, rfl⟩ := Workers.lease?_eq_some hlease
    obtain ⟨released, hrelease, hfits⟩ :=
      Pool.release_ok (fits.acquire? hacquire) handle
    have hplace : (w.running ++ [(t, handle)])[w.running.length]? = some (t, handle) :=
      List.getElem?_concat_length
    have hheld : [handle] = [] ++ handle :: [] := rfl
    refine .head (.lease (s := { reactor := { r with slots := s.1, backend := s.2, workers := w } })
      hlease) (.head (.work hplace) (.head (.giveBack hheld hrelease) ?_))
    rw [show e = (.done handle, (t.run r.config.docRoot s.1 s.2).2) from hexec s t handle] at ih ⊢
    simp only [Workers.settleTask, Workers.finish, hrelease, Except.map] at ih ⊢
    exact ih hfits
  | case2 s w hlease w' htake ih =>
    obtain ⟨t, rest, hqueue, rfl⟩ := Workers.take?_eq_some htake
    exact .head (.take (s := { reactor := { r with slots := s.1, backend := s.2, workers := w } })
      htake) (ih fits)
  | case3 s w hlease htake => exact .refl

theorem steps_work (r : Reactor) (fits : r.workers.handles.Fits) :
    Steps { reactor := r } { reactor := r.work } :=
  steps_settle r (fun _ _ _ => rfl) (r.slots, r.backend) r.workers fits

/-! ## A turn -/

theorem handles_act (now : Nat) (a : Action) (r : Reactor) :
    (r.act now a).2.workers.handles = r.workers.handles := by
  cases a with
  | accept | signals | close => rfl
  | ready fd x =>
    rw [Reactor.act]
    split
    · rfl
    · split
      · rfl
      · split
        · rfl
        · split <;> rfl
  | queue t =>
    rw [Reactor.act, Workers.append]
    by_cases hfull : r.workers.maxQueued ≤ r.workers.queue.length
    · rw [if_pos hfull]
    · rw [if_neg hfull]
  | conclude fd o => cases o <;> rfl
  | rearm fd i =>
    rw [Reactor.act]
    split <;> rfl
  | touch fd =>
    obtain ⟨timers, htouch⟩ := touch_eq now fd r
    rw [Reactor.act, htouch]

theorem Step.fits {s t : System} (hstep : Step s t) (h : s.reactor.workers.handles.Fits) :
    t.reactor.workers.handles.Fits := by
  cases hstep with
  | report | announce | wake | fail | wait | stop | work | raise | client | refresh | backend =>
    exact h
  | accept runs first now fd peer =>
    rw [welcomed, (welcome_eq s.reactor now fd peer).1]
    exact h
  | @act a rest runs first now =>
    have hacted : (s.acted now a rest).reactor = (s.reactor.act now a).2 := by
      rw [acted]
      split <;> rfl
    rw [hacted, handles_act]
    exact h
  | @actLate l => cases l <;> exact h
  | take htake =>
    obtain ⟨t, rest, -, rfl⟩ := Workers.take?_eq_some htake
    exact h
  | lease hlease =>
    obtain ⟨rest, handles, -, hacquire, rfl⟩ := Workers.lease?_eq_some hlease
    exact Nat.le_of_lt (h.acquire? hacquire)
  | @giveBack before after handle handles held hrelease =>
    by_cases hroom : s.reactor.workers.handles.freeCount < s.reactor.workers.handles.capacity
    · obtain ⟨handles', hrelease', hfits⟩ := Pool.release_ok hroom handle
      obtain rfl := Except.ok.inj (hrelease.symm.trans hrelease')
      exact hfits
    · rw [Pool.release, Pool.pushFree, if_neg hroom] at hrelease
      cases hrelease

theorem fits_of_steps {s t : System} (run : Steps s t) (h : s.reactor.workers.handles.Fits) :
    t.reactor.workers.handles.Fits := by
  induction run with
  | refl => exact h
  | tail _ hstep ih => exact hstep.fits ih

/-- What the reactor itself does in a turn: it looks for what is ready and handles it. -/
def attend (now : Nat) (r : Reactor) : Except Fault Unit × Reactor :=
  { r with slots := r.slots.poll.2 }.batch now
    (eventsOf (!r.signals.waiting.isEmpty) r.slots.poll.1)

theorem turn_eq (now : Nat) (r : Reactor) : r.turn now = match attend now r with
    | (.error f, r') => (.error f, r')
    | (.ok _, r') =>
      (.ok !(eventsOf (!r.signals.waiting.isEmpty) r.slots.poll.1).isEmpty, r'.work) := by
  have hevents : (if r.signals.waiting.isEmpty then [] else [Event.signals]) ++
      r.slots.poll.1.map (fun e => .ready e.1 e.2) =
        eventsOf (!r.signals.waiting.isEmpty) r.slots.poll.1 := by
    rw [eventsOf]
    cases r.signals.waiting.isEmpty <;> rfl
  simp only [Reactor.turn, hevents]
  rfl

theorem comes_attend (now : Nat) (r : Reactor) (goesOn : r.stopped = false)
    (distinct : r.slots.poller.Distinct) :
    Comes { reactor := r } (fun _ => []) (attend now r) := by
  obtain ⟨hkeys, harmed⟩ := Slots.poll_ready r.slots distinct
  have hwait := Step.wait (s := { reactor := r }) ⟨rfl, rfl⟩ rfl rfl goesOn
  rw [attend]
  generalize (!r.signals.waiting.isEmpty) = signals
  have hannounce : Steps { reactor := r, waiting := true }
      { reactor := r, waiting := true, todo := if signals then [.signals] else [] } := by
    cases signals with
    | false => exact .refl
    | true => exact .single (.announce (s := { reactor := r, waiting := true }) rfl (.inr rfl))
  have hreport := steps_report r.slots.poll.1 hkeys r (if signals then [.signals] else []) harmed
  have hwake := Step.wake (s := {
    reactor := { r with slots := r.slots.poll.2 }, waiting := true
    todo := actionsOf signals r.slots.poll.1 }) rfl
  exact .head (.head hwait (.trans hannounce (.trans hreport (.single hwake))))
    (comes_batch now signals r.slots.poll.1 { r with slots := r.slots.poll.2 })

theorem comes_turn (now : Nat) (r : Reactor) (goesOn : r.stopped = false)
    (distinct : r.slots.poller.Distinct) (fits : r.workers.handles.Fits) :
    Comes { reactor := r } (fun _ => []) (r.turn now) := by
  have hattend := comes_attend now r goesOn distinct
  rw [turn_eq]
  cases hresult : attend now r with
  | mk outcome r' =>
    rw [hresult] at hattend
    cases outcome with
    | error f => exact hattend
    | ok u => exact .trans hattend (steps_work r' (fits_of_steps hattend fits))

/-! ## Clients and the end -/

theorem comes_welcome (now fd : Nat) (peer : Net.SocketAddress) (r : Reactor)
    (goesOn : r.stopped = false)
    (free : ∀ slot, r.slots.slot? fd = some slot → slot.isLive = false) :
    Comes { reactor := r } (fun _ => []) (r.welcome now fd peer) := by
  have haccept := Step.accept (s := { reactor := r, todo := [.accept] }) ⟨rfl, rfl⟩ rfl now fd peer
    free
  have hsteps : Steps { reactor := r } _ :=
    .head (.wait ⟨rfl, rfl⟩ rfl rfl goesOn) (.head (.announce rfl (.inl rfl))
      (.head (.wake rfl) (.single haccept)))
  refine .head hsteps ?_
  rw [welcomed]
  cases hwelcome : r.welcome now fd peer with
  | mk outcome r' =>
    simp only
    cases outcome with
    | error f => exact ⟨_, [], .refl⟩
    | ok a => exact .single (.act (a := .accept) ⟨rfl, rfl⟩ rfl now)

theorem free_freeDescriptor (r : Reactor) (slot : Slot)
    (h : r.slots.slot? r.freeDescriptor = some slot) : slot.isLive = false := by
  rw [Reactor.freeDescriptor] at h
  cases hfree : r.slots.table.findIdx? (!·.isLive) with
  | none =>
    rw [hfree, Option.getD_none, Slots.slot?, Slots.capacity, Array.getElem?_size] at h
    cases h
  | some fd =>
    obtain ⟨hlt, hoff, -⟩ := Array.findIdx?_eq_some_iff_getElem.mp hfree
    rw [hfree, Option.getD_some, Slots.slot?, Array.getElem?_eq_getElem hlt] at h
    obtain rfl := Option.some.inj h
    simpa using hoff

theorem steps_onStream {α : Type} (r : Reactor) (client : Client) (absent : α)
    (f : Net.Stream → α × Net.Stream) (hcut : ∀ stream, (f stream).2.cut = stream.cut) :
    Steps { reactor := r } { reactor := (r.onStream client absent f).2 } := by
  rw [Reactor.onStream]
  split
  · exact .refl
  · next slot hslot =>
    split
    · exact .refl
    · exact .single (.client (s := { reactor := r }) hslot _ (hcut _))

theorem steps_deliver (r : Reactor) (client : Client) (data : Option Bytes) :
    Steps { reactor := r } { reactor := r.deliver client data } := by
  apply steps_onStream
  intro stream
  cases data with
  | none => rfl
  | some data =>
    unfold Net.Stream.clientSend
    repeat' split
    all_goals rfl

theorem steps_collect (r : Reactor) (client : Client) :
    Steps { reactor := r } { reactor := (r.collect client).2 } := by
  apply steps_onStream
  intro stream
  unfold Net.Stream.clientReceive
  split <;> rfl

theorem steps_closeAll (r : Reactor) (told : r.stopped = true) :
    Steps { reactor := r } { reactor := (r.closeAll .shutdown).2 } := by
  have hall (fds : List Nat) (acc : Nat × Reactor) :
      Steps { reactor := acc.2, later := (fds.filter fun fd => (r.timerId? fd).isSome).map .shut }
        { reactor := (fds.foldl (fun (acc : Nat × Reactor) fd =>
            if (r.timerId? fd).isSome then
              let c := acc.2.close fd .shutdown
              (if c.1 then acc.1 + 1 else acc.1, c.2)
            else acc) acc).2 } := by
    induction fds generalizing acc with
    | nil => exact .refl
    | cons fd fds ih =>
      rw [List.foldl_cons, List.filter_cons]
      cases htimer : (r.timerId? fd).isSome with
      | false => exact ih acc
      | true =>
        have hstep := Step.actLate (s := {
          reactor := acc.2
          later := .shut fd :: (fds.filter fun fd => (r.timerId? fd).isSome).map .shut })
          ⟨rfl, rfl⟩ rfl rfl 0
        exact .head hstep (ih (if (acc.2.close fd .shutdown).1 then acc.1 + 1 else acc.1,
          (acc.2.close fd .shutdown).2))
  exact .head (.stop (s := { reactor := r }) ⟨rfl, rfl⟩ rfl rfl told) (hall _ (0, r))

/-! ## The running server -/

theorem fits_useHandle {ρ : Type} {p : Pool ρ} (h : p.Fits) : (useHandle p).Fits := by
  rw [useHandle]
  split
  · exact h
  · next a q hacquire =>
    obtain ⟨released, hrelease, hfits⟩ := Pool.release_ok (h.acquire? hacquire) a
    rw [hrelease]
    exact hfits

theorem openWorkers_ok {c : Config} {handles : List Handle} {w : Workers Task Handle}
    (h : openWorkers c handles = .ok w) :
    w = { threads := w.threads, maxQueued := w.maxQueued
          handles := useHandle (Pool.ofList handles) } := by
  unfold openWorkers at h
  cases hroom : (reserve c.maxFds slotSize).mapError Failure.fault with
  | error e =>
    rw [hroom] at h
    cases h
  | ok u =>
    rw [hroom] at h
    replace h : Workers.start c.threads c.maxRequests (useHandle (Pool.ofList handles)) = .ok w := h
    unfold Workers.start at h
    split at h
    · cases h
    · split at h
      · cases h
      · obtain rfl := Except.ok.inj h
        rfl

/-- A reactor that has been set up is fresh. -/
theorem fresh_start {system : Net.SocketAddress → Except IoError Net.SocketAddress} {c : Config}
    {d : Disk} {r : Reactor} (h : (Reactor.start system c d).1 = .ok r) : r.Fresh := by
  unfold Reactor.start at h
  split at h
  · cases h
  · simp only at h
    split at h
    · cases h
    · next hworkers =>
      obtain rfl := Except.ok.inj h
      have heq := openWorkers_ok hworkers
      refine ⟨⟨_, rfl⟩, congrArg Workers.queue heq, congrArg Workers.waiting heq,
        congrArg Workers.running heq, ?_⟩
      rw [congrArg Workers.handles heq]
      exact fits_useHandle (Nat.le_refl _)

end System

/-- What a reactor comes to that has been set up and runs. -/
inductive Reactor.Served : Reactor → Prop
  | start {system : Net.SocketAddress → Except IoError Net.SocketAddress} {c : Config} {d : Disk}
    {r : Reactor} (h : (Reactor.start system c d).1 = .ok r) : Served r
  | welcome {r r' : Reactor} {a : Admission} (h : Served r) (goesOn : r.stopped = false) (now : Nat)
    (peer : Net.SocketAddress) (ok : r.welcome now r.freeDescriptor peer = (.ok a, r')) : Served r'
  | deliver {r : Reactor} (h : Served r) (client : Client) (data : Option Bytes) :
    Served (r.deliver client data)
  | collect {r : Reactor} (h : Served r) (client : Client) : Served (r.collect client).2
  | backend {r : Reactor} (h : Served r) (backend : Accounts.Backend) : Served { r with backend }
  | raise {r : Reactor} (h : Served r) (number : UInt8) :
    Served { r with signals := r.signals.raise number }
  | turn {r r' : Reactor} {busy : Bool} (h : Served r) (goesOn : r.stopped = false) (now : Nat)
    (ok : r.turn now = (.ok busy, r')) : Served r'
  | shutDown {r : Reactor} (h : Served r) (told : r.stopped = true) : Served r.shutDown.1

namespace System

/-- Whatever a server comes to, the system can come to. -/
theorem reached_of_served {r : Reactor} (h : r.Served) :
    Reached { reactor := r } ∧ r.workers.handles.Fits := by
  have hgo {r r' : Reactor} (h : Reached { reactor := r } ∧ r.workers.handles.Fits)
      (hsteps : Steps { reactor := r } { reactor := r' }) :
      Reached { reactor := r' } ∧ r'.workers.handles.Fits :=
    ⟨h.1.steps hsteps, fits_of_steps hsteps h.2⟩
  induction h with
  | start h => exact ⟨.start (fresh_start h), (fresh_start h).handles⟩
  | welcome _ goesOn now peer ok ih =>
    have hcomes := comes_welcome now _ peer _ goesOn (free_freeDescriptor _)
    rw [ok] at hcomes
    exact hgo ih hcomes
  | deliver _ client data ih => exact hgo ih (steps_deliver _ client data)
  | collect _ client ih => exact hgo ih (steps_collect _ client)
  | backend _ backend ih => exact hgo ih (.single (.backend backend))
  | raise _ number ih => exact hgo ih (.single (.raise number))
  | turn _ goesOn now ok ih =>
    have hcomes := comes_turn now _ goesOn ih.1.sound.distinct ih.2
    rw [ok] at hcomes
    exact hgo ih hcomes
  | shutDown _ told ih => exact hgo ih (steps_closeAll _ told)

end System
end Server
end PageServer
