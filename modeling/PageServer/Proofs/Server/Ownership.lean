import PageServer.Proofs.Server.Handover

/-!
# Each step leaves one owner

A step changes what there is at one descriptor at most, and hands its connection on.  So
at every descriptor somebody has the connection all the time, and a task whose connection
has gone does not get it back.
-/

namespace PageServer
namespace Server

open Accounts (Handle)
open Connection (WriteOutcome)
open Metrics (CloseReason)

namespace System

variable {s t : System}

theorem slotAt_eq_of_slot? {fd : Nat} {slot : Slot}
    (h : s.reactor.slots.slot? fd = some slot) : (s.view fd).slot = slot :=
  Slots.slotAt_of_slot? h

/-! ### The poller -/

theorem Sound.report (h : s.Sound) {fd : Nat} {i : Interest} {r : Readiness}
    (armed : s.reactor.slots.poller.armed? fd = some i)
    (ready : readiness? i (s.reactor.slots.stream fd) = some r) :
    s.Leads { s.withSlots { s.reactor.slots with poller := s.reactor.slots.poller.disarm fd } with
      todo := s.todo ++ [.ready fd r] } := by
  have hwatch : (s.view fd).watch = some (some i) := Option.join_eq_some_iff.mp armed
  refine h.update ((h.views fd).report hwatch ready fd) (.refl _) (Slots.updates_disarm hwatch)
    ?_ ?_
  · intro x
    simp only [actions, List.filter_append]
    by_cases hx : x = fd
    · subst hx
      simp [view, actions, Action.handled?]
    · simp [hx, Ne.symm hx, Action.handled?]
  · exact eq_ite_at s.tasksOf fd

/-! ### The reactor -/

section Handling

variable {a : Action} {rest : List Action} {fd : Nat}

theorem actions_eq_of_first (first : s.todo = a :: rest) (x : Nat) :
    s.actions x = (if a.handled? = some x then [a] else []) ++
      rest.filter (·.handled? == some x) := by
  rw [actions, first, List.filter_cons]
  by_cases hx : a.handled? = some x <;> simp [hx]

/-- The action that comes first is the only one for its connection. -/
theorem Sound.only (h : s.Sound) (first : s.todo = a :: rest) (ha : a.handled? = some fd) :
    (s.view fd).actions = [a] := by
  have hmem : a ∈ (s.view fd).actions := by
    rw [show (s.view fd).actions = s.actions fd from rfl, actions_eq_of_first first, if_pos ha]
    exact List.mem_cons_self
  obtain ⟨-, -, only, -⟩ := (h.views fd).handling hmem
  exact only

theorem Sound.handled (h : s.Sound) (first : s.todo = a :: rest) (ha : a.handled? = some fd) :
    (s.view fd).slot.isLive = true ∧ (s.view fd).watch = some none ∧ (s.view fd).current = [] ∧
      (s.view fd).Due a :=
  (h.views fd).handled (h.only first ha)

/-- What follows from the first action takes its place. -/
theorem Sound.actions_follow (h : s.Sound) (first : s.todo = a :: rest)
    (ha : a.handled? = some fd) {follow : List Action} (todo : t.todo = follow ++ rest)
    (hfollow : ∀ b ∈ follow, ∀ x, b.handled? = some x → x = fd) (x : Nat) :
    t.actions x =
      if x = fd then follow.filter (·.handled? == some fd) else s.actions x := by
  -- Nothing behind the first action is for its connection, so `follow` is all that there
  -- is.
  have honly := h.only first ha
  rw [show (s.view fd).actions = s.actions fd from rfl, actions_eq_of_first first, if_pos ha,
    List.cons_append, List.nil_append, List.cons.injEq] at honly
  rw [actions, todo, List.filter_append]
  by_cases hx : x = fd
  · subst hx
    rw [if_pos rfl, honly.2, List.append_nil]
  · have hnone : follow.filter (·.handled? == some x) = [] := by
      apply List.filter_eq_nil_iff.mpr
      intro b hb
      simp only [beq_iff_eq]
      exact fun heq => hx (hfollow b hb x heq)
    have hne : ¬a.handled? = some x := by
      rw [ha]
      exact fun heq => hx (Option.some.inj heq).symm
    rw [if_neg hx, hnone, actions_eq_of_first first, if_neg hne]

theorem acted_ok {now : Nat} {r : Reactor} {follow : List Action}
    (hact : s.reactor.act now a = (.ok follow, r)) (ha : a.handled? = some fd) :
    s.acted now a rest = { s with reactor := r, todo := follow ++ rest } := by
  have hquiet : s.reactor.alarms a = false := by
    cases a with
    | signals => cases ha
    | _ => rfl
  rw [acted, hact]
  simp only [hquiet, Bool.false_eq_true, if_false]

/-- What the reactor does to the slots leaves the tasks as they are. -/
theorem tasksOf_eq_ite {r : Reactor} (hworkers : r.workers = s.reactor.workers) (x : Nat) :
    { s with reactor := r }.tasksOf x = if x = fd then s.tasksOf fd else s.tasksOf x := by
  have hsame : { s with reactor := r }.tasksOf x = s.tasksOf x := by
    simp only [tasksOf, tasks, hworkers]
  rw [hsame]
  exact eq_ite_at s.tasksOf fd x

/-- The reactor goes on with the same connection. -/
theorem Sound.goOn (h : s.Sound) (first : s.todo = a :: rest) (ha : a.handled? = some fd)
    {now : Nat} {r : Reactor} {a' : Action} (hact : s.reactor.act now a = (.ok [a'], r))
    (ha' : a'.handled? = some fd) (hworkers : r.workers = s.reactor.workers) {slot : Slot}
    (slots : Slots.Updates fd slot (s.reactor.slots.watch fd) s.reactor.slots r.slots)
    (generation : slot.generation = (s.view fd).slot.generation)
    (sound : View.Sound { s.view fd with slot, actions := [a'] }) :
    s.Leads (s.acted now a rest) := by
  rw [acted_ok hact ha]
  refine h.update sound (.inl ⟨generation, fun _ => (h.handled first ha).1⟩) slots ?_ ?_
  · intro x
    have hactions := h.actions_follow (t := { s with reactor := r, todo := [a'] ++ rest })
      first ha rfl (fun b hb x hx => by
        rw [List.mem_singleton.mp hb, ha'] at hx
        exact (Option.some.inj hx).symm) x
    rw [hactions, List.filter_cons_of_pos (by simp [ha'])]
    rfl
  · exact tasksOf_eq_ite hworkers

/-- The reactor is done with the connection. -/
theorem Sound.letGo (h : s.Sound) (first : s.todo = a :: rest) (ha : a.handled? = some fd)
    {now : Nat} {r : Reactor} {follow : List Action}
    (hact : s.reactor.act now a = (.ok follow, r)) (hfollow : ∀ b ∈ follow, b.handled? = none)
    {slot : Slot} {watch : Option (Option Interest)} {named : List Task}
    (slots : Slots.Updates fd slot watch s.reactor.slots r.slots)
    (generation : slot.generation = (s.view fd).slot.generation)
    (tasks : ∀ x, { s with reactor := r }.tasksOf x = if x = fd then named else s.tasksOf x)
    (sound : View.Sound { slot, watch, actions := [], tasks := named }) :
    s.Leads (s.acted now a rest) := by
  rw [acted_ok hact ha]
  refine h.update sound (.inl ⟨generation, fun _ => (h.handled first ha).1⟩) slots ?_ tasks
  intro x
  have hactions := h.actions_follow (t := { s with reactor := r, todo := follow ++ rest })
    first ha rfl (fun b hb x hx => by rw [hfollow b hb] at hx; cases hx) x
  have hnone : follow.filter (·.handled? == some fd) = [] := by
    apply List.filter_eq_nil_iff.mpr
    intro b hb
    simp [hfollow b hb]
  rw [hactions, hnone]

end Handling

theorem Sound.act_ready (h : s.Sound) {fd : Nat} {x : Readiness} {rest : List Action}
    (first : s.todo = .ready fd x :: rest) (now : Nat) :
    s.Leads (s.acted now (.ready fd x) rest) := by
  have only := h.only first rfl
  obtain ⟨hlive, -, -, due⟩ := h.handled first rfl
  have hslot := Slots.slot?_of_isLive hlive
  by_cases hhung : x.hungUp = true
  · have hact : s.reactor.act now (.ready fd x) = (.ok [.close fd .peerClosed], s.reactor) := by
      rw [Reactor.act, if_pos hhung]
    exact h.goOn first rfl hact rfl rfl (.refl _ fd) rfl ((h.views fd).follow only trivial)
  · rcases due with hhung' | ⟨hreadable, hready⟩ | ⟨hreadable, hwritable, hready⟩
    · exact absurd hhung' hhung
    · obtain ⟨ok, session, hread, hok⟩ := (h.views fd).read only hready now
      have hact : s.reactor.act now (.ready fd x) =
          (.ok (if ok then [.queue ⟨fd, (s.view fd).slot.generation⟩] else [.close fd .peerClosed]),
            { s.reactor with slots := s.reactor.slots.putSession fd session }) := by
        rw [Reactor.act, if_neg hhung, hslot]
        simp only [hreadable, if_true]
        rw [show (s.reactor.slots.slotAt fd).session.read now = (ok, session) from hread]
        rfl
      have hslots := Slots.updates_putSession hslot session
      cases ok with
      | true => exact h.goOn first rfl hact rfl rfl hslots rfl (hok fd)
      | false => exact h.goOn first rfl hact rfl rfl hslots rfl (hok fd)
    · obtain ⟨o, session, hwrite, hsound⟩ := (h.views fd).write only hready now
      have hact : s.reactor.act now (.ready fd x) = (.ok [.conclude fd o],
          { s.reactor with slots := s.reactor.slots.putSession fd session }) := by
        rw [Reactor.act, if_neg hhung, hslot]
        simp only [hreadable, hwritable, if_true, Bool.false_eq_true, if_false]
        rw [show (s.reactor.slots.slotAt fd).session.write now = (.ok o, session) from hwrite]
        rfl
      exact h.goOn first rfl hact rfl rfl (Slots.updates_putSession hslot session) rfl (hsound fd)

theorem Sound.act_queue (h : s.Sound) {t : Task} {rest : List Action}
    (first : s.todo = .queue t :: rest) (now : Nat) :
    s.Leads (s.acted now (.queue t) rest) := by
  have only := h.only first rfl
  by_cases hfull : s.reactor.workers.maxQueued ≤ s.reactor.workers.queue.length
  · have hact : s.reactor.act now (.queue t) = (.ok [.close t.fd .queueFull], s.reactor) := by
      rw [Reactor.act, Workers.append, if_pos hfull]
    exact h.goOn first rfl hact rfl rfl (.refl _ t.fd) rfl ((h.views t.fd).follow only trivial)
  · have hact : s.reactor.act now (.queue t) = (.ok [.touch t.fd], { s.reactor with
        workers := { s.reactor.workers with queue := s.reactor.workers.queue ++ [t] } }) := by
      rw [Reactor.act, Workers.append, if_neg hfull]
    refine h.letGo first rfl hact ?_ (.refl _ t.fd) rfl ?_ ((h.views t.fd).queue only)
    · intro b hb
      rw [List.mem_singleton.mp hb]
      rfl
    · intro x
      simp only [tasksOf, tasks, view, List.filter_append]
      by_cases hx : x = t.fd
      · simp [hx]
      · simp [hx, Ne.symm hx]

theorem Sound.act_conclude (h : s.Sound) {fd : Nat} {o : WriteOutcome} {rest : List Action}
    (first : s.todo = .conclude fd o :: rest) (now : Nat) :
    s.Leads (s.acted now (.conclude fd o) rest) := by
  have only := h.only first rfl
  obtain ⟨-, -, -, due⟩ := h.handled first rfl
  cases o with
  | pending =>
    have hact : s.reactor.act now (.conclude fd .pending) = (.ok [.rearm fd .write], s.reactor) :=
      rfl
    exact h.goOn first rfl hact rfl rfl (.refl _ fd) rfl ((h.views fd).follow only due)
  | failed =>
    have hact : s.reactor.act now (.conclude fd .failed) =
        (.ok [.close fd .writeFailed], s.reactor) := rfl
    exact h.goOn first rfl hact rfl rfl (.refl _ fd) rfl ((h.views fd).follow only trivial)
  | complete m =>
    obtain ⟨counted, counters, hact⟩ : ∃ counted counters,
      s.reactor.act now (.conclude fd (.complete m)) =
        (Except.map (fun _ : Unit =>
            [if m.keepAlive then .rearm fd .read else .close fd .completed]) counted,
          { s.reactor with slots := { s.reactor.slots with counters } }) := ⟨_, _, rfl⟩
    have hslots : Slots.Updates fd (s.reactor.slots.slotAt fd) (s.reactor.slots.watch fd)
      s.reactor.slots { s.reactor.slots with counters } := { Slots.Updates.refl _ fd with }
    cases counted with
    | error f =>
      rw [acted, hact]
      exact h.of_eq rfl rfl (fun _ => rfl) rfl
    | ok u =>
      cases hkeep : m.keepAlive with
      | true =>
        rw [hkeep] at hact
        exact h.goOn first rfl hact rfl rfl hslots rfl ((h.views fd).follow only (due hkeep))
      | false =>
        rw [hkeep] at hact
        exact h.goOn first rfl hact rfl rfl hslots rfl ((h.views fd).follow only trivial)

theorem Sound.act_rearm (h : s.Sound) {fd : Nat} {i : Interest} {rest : List Action}
    (first : s.todo = .rearm fd i :: rest) (now : Nat) :
    s.Leads (s.acted now (.rearm fd i) rest) := by
  have only := h.only first rfl
  obtain ⟨-, watched, -⟩ := h.handled first rfl
  obtain ⟨slots, hrearm, hslots⟩ := Slots.rearm_of_watch watched i
  have hact : s.reactor.act now (.rearm fd i) = (.ok [.touch fd], { s.reactor with slots }) := by
    rw [Reactor.act, hrearm]
  refine h.letGo first rfl hact ?_ hslots rfl (tasksOf_eq_ite rfl) ((h.views fd).rearm only)
  intro b hb
  rw [List.mem_singleton.mp hb]
  rfl

theorem Sound.act_close (h : s.Sound) {fd : Nat} {reason : CloseReason} {rest : List Action}
    (first : s.todo = .close fd reason :: rest) (now : Nat) :
    s.Leads (s.acted now (.close fd reason) rest) := by
  obtain ⟨hlive, -⟩ := h.handled first rfl
  have hany : ∀ g ∈ (none : Option Nat), g = (s.reactor.slots.slotAt fd).generation := nofun
  have hslots := Slots.updates_close (Slots.slot?_of_isLive hlive) hlive hany reason
  have hact : s.reactor.act now (.close fd reason) = (.ok [], (s.reactor.close fd reason).2) := rfl
  exact h.letGo first rfl hact nofun hslots rfl (tasksOf_eq_ite rfl) (h.views fd).close

theorem touch_eq (now fd : Nat) (r : Reactor) :
    ∃ timers, (r.touch now fd).2 = { r with timers } := by
  unfold Reactor.touch
  split
  · exact ⟨_, rfl⟩
  · split <;> exact ⟨_, rfl⟩

/-- What is not about an event has nothing to do with the slots and the tasks. -/
theorem Sound.act_aside (h : s.Sound) {a : Action} {rest : List Action}
    (first : s.todo = a :: rest) (aside : a.handled? = none) (now : Nat) :
    s.Leads (s.acted now a rest) := by
  have hsame : (s.reactor.act now a).2.slots = s.reactor.slots ∧
      (s.reactor.act now a).2.workers = s.reactor.workers ∧
      ∀ follow, (s.reactor.act now a).1 = .ok follow → follow = [] := by
    cases a with
    | accept | signals => exact ⟨rfl, rfl, fun follow hok => (Except.ok.inj hok).symm⟩
    | touch fd =>
      obtain ⟨timers, htouch⟩ := touch_eq now fd s.reactor
      refine ⟨by rw [Reactor.act, htouch], by rw [Reactor.act, htouch], ?_⟩
      intro follow hok
      rw [Reactor.act] at hok
      cases htouched : (s.reactor.touch now fd).1 with
      | error f => simp [htouched, Except.map] at hok
      | ok u => simpa [htouched, Except.map, eq_comm] using hok
    | ready | queue | conclude | rearm | close => cases aside
  obtain ⟨hslots, hworkers, hfollow⟩ := hsame
  have htasks (r : Reactor) (hr : r.workers = s.reactor.workers) :
      { s with reactor := r }.tasks = s.tasks := by
    rw [tasks, hr, tasks]
  rw [acted]
  cases hact : (s.reactor.act now a).1 with
  | error f => exact h.of_eq (by rw [hslots]) (by rw [hslots]) (fun _ => rfl) (htasks _ hworkers)
  | ok follow =>
    refine h.of_eq (by rw [hslots]) (by rw [hslots]) ?_ (htasks _ hworkers)
    intro x
    have hrest := actions_eq_of_first first x
    rw [aside, if_neg (by simp)] at hrest
    rw [hrest, hfollow follow hact]
    rfl

/-- Each action of the reactor. -/
theorem Sound.act (h : s.Sound) {a : Action} {rest : List Action} (first : s.todo = a :: rest)
    (now : Nat) : s.Leads (s.acted now a rest) := by
  cases a with
  | accept | signals | touch => exact h.act_aside first rfl now
  | ready => exact h.act_ready first now
  | queue => exact h.act_queue first now
  | conclude => exact h.act_conclude first now
  | rearm => exact h.act_rearm first now
  | close => exact h.act_close first now

/-! ### Clients that come in -/

theorem welcome_eq (r : Reactor) (now fd : Nat) (peer : Net.SocketAddress) :
    (r.welcome now fd peer).2.workers = r.workers ∧
      ((r.welcome now fd peer).2.slots =
          { r.slots with counters := r.slots.counters.countBusy } ∨
        fd < r.slots.capacity ∧
          (r.welcome now fd peer).2.slots = (r.slots.openSlot fd peer).2) := by
  unfold Reactor.welcome
  split
  · exact ⟨rfl, .inl rfl⟩
  · next hroom =>
    have hlt : fd < r.slots.capacity := by
      rw [Bool.or_eq_true, decide_eq_true_eq, decide_eq_true_eq, not_or] at hroom
      omega
    split
    · next hopen => exact ⟨rfl, .inr ⟨hlt, by rw [hopen]⟩⟩
    · next hopen =>
      simp only
      split <;> exact ⟨rfl, .inr ⟨hlt, by rw [hopen]⟩⟩

theorem Sound.accept (h : s.Sound) {now fd : Nat} {peer : Net.SocketAddress}
    (free : ∀ slot, s.reactor.slots.slot? fd = some slot → slot.isLive = false) :
    s.Leads (s.welcomed now fd peer) := by
  obtain ⟨hworkers, hslots⟩ := welcome_eq s.reactor now fd peer
  have htasks : (s.welcomed now fd peer).tasks = s.tasks := by
    simp only [tasks, welcomed, hworkers]
  rcases hslots with hbusy | ⟨hlt, hopen⟩
  · exact h.of_eq (by rw [welcomed, hbusy]) (by rw [welcomed, hbusy]) (fun _ => rfl) htasks
  · obtain ⟨slot, hslot⟩ : ∃ slot, s.reactor.slots.slot? fd = some slot :=
      ⟨_, Array.getElem?_eq_getElem hlt⟩
    have hoff : (s.view fd).slot.isLive = false := by
      rw [slotAt_eq_of_slot? hslot]
      exact free slot hslot
    obtain ⟨-, hunwatched, -⟩ := (h.views fd).nobody hoff
    have hsound := (h.views fd).attach hoff fd peer
    have hslots := Slots.updates_openSlot hslot hunwatched peer
    rw [slotAt_eq_of_slot? hslot] at hsound
    refine h.update hsound ?_ (by rw [welcomed, hopen]; exact hslots) (eq_ite_at s.actions fd)
      (tasksOf_eq_ite hworkers)
    right
    rw [slotAt_eq_of_slot? hslot]
    exact Nat.lt_succ_self _

/-! ### The timers and the end -/

/-- A connection is closed whose event nobody handles, if it is open and is meant. -/
theorem Sound.closed (h : s.Sound) {fd : Nat} (idle : s.actions fd = []) {generation : Option Nat}
    {reason : CloseReason}
    (slots : t.reactor.slots = (s.reactor.slots.close fd generation reason).2)
    (actions : ∀ x, t.actions x = s.actions x) (tasks : t.tasks = s.tasks) : s.Leads t := by
  by_cases hmeant : (s.view fd).slot.isLive = true ∧
    ∀ g ∈ generation, g = (s.view fd).slot.generation
  · obtain ⟨hlive, hsame⟩ := hmeant
    have hslots := Slots.updates_close (Slots.slot?_of_isLive hlive) hlive hsame reason
    rw [← slots] at hslots
    refine h.update (h.views fd).close (.inl ⟨rfl, fun _ => hlive⟩) hslots ?_ ?_
    · intro x
      rw [actions, ← idle]
      exact eq_ite_at s.actions fd x
    · intro x
      rw [tasksOf, tasks]
      exact eq_ite_at s.tasksOf fd x
  · have hself : (s.reactor.slots.close fd generation reason).2 = s.reactor.slots := by
      apply Slots.close_eq_self
      intro slot hslot hlive
      rw [not_and, slotAt_eq_of_slot? hslot] at hmeant
      simpa using hmeant hlive
    rw [hself] at slots
    exact h.of_eq (by rw [slots]) (by rw [slots]) actions tasks

theorem Sound.actLate (h : s.Sound) (done : s.todo = []) (l : Late) (rest : List Late) (now : Nat) :
    s.Leads { s with
      reactor := (s.reactor.actLate now l).2, later := (s.reactor.actLate now l).1 ++ rest } := by
  have hidle (fd : Nat) : s.actions fd = [] := by
    rw [actions, done, List.filter_nil]
  cases l with
  | sweep | schedule => exact h.of_eq rfl rfl (fun _ => rfl) rfl
  | evict c => exact h.closed (hidle c.fd) rfl (fun _ => rfl) rfl
  | shut fd => exact h.closed (hidle fd) rfl (fun _ => rfl) rfl

/-! ### The workers -/

theorem tasks_take? {w : Workers Task Handle} (h : s.reactor.workers.take? = some w) :
    (s.withWorkers w).tasks = s.tasks := by
  obtain ⟨t, rest, hqueue, rfl⟩ := Workers.take?_eq_some h
  simp [tasks, withWorkers, hqueue]

theorem tasks_lease? {t : Task} {r : Handle} {w : Workers Task Handle}
    (h : s.reactor.workers.lease? = some (t, r, w)) : (s.withWorkers w).tasks = s.tasks := by
  obtain ⟨rest, handles, hwaiting, -, rfl⟩ := Workers.lease?_eq_some h
  simp [tasks, withWorkers, hwaiting]

theorem tasks_worked {place : Nat} {t : Task} {r : Handle}
    (runs : s.reactor.workers.running[place]? = some (t, r)) :
    ∃ before after, s.tasks = before ++ t :: after ∧
      (s.worked place t r).tasks = before ++ after := by
  obtain ⟨hlt, hget⟩ := List.getElem?_eq_some_iff.mp runs
  have hsplit := calc s.reactor.workers.running.map (·.1)
    _ = (s.reactor.workers.running.take place ++
        s.reactor.workers.running.drop place).map (·.1) := by
      rw [List.take_append_drop]
    _ = (s.reactor.workers.running.take place).map (·.1) ++
        t :: (s.reactor.workers.running.drop (place + 1)).map (·.1) := by
      rw [List.drop_eq_getElem_cons hlt, hget, List.map_append, List.map_cons]
  refine ⟨(s.reactor.workers.running.take place).map (·.1),
    (s.reactor.workers.running.drop (place + 1)).map (·.1) ++ s.reactor.workers.waiting ++
      s.reactor.workers.queue, ?_, ?_⟩
  · rw [tasks, hsplit]
    simp
  · simp [tasks, worked, List.eraseIdx_eq_take_drop_succ]

theorem Sound.work (h : s.Sound) {place : Nat} {t : Task} {r : Handle}
    (runs : s.reactor.workers.running[place]? = some (t, r)) :
    s.Leads (s.worked place t r) := by
  obtain ⟨before, after, hbefore, hafter⟩ := tasks_worked runs
  have htasks : (s.view t.fd).tasks =
      before.filter (·.fd == t.fd) ++ t :: after.filter (·.fd == t.fd) := by
    rw [view, tasksOf, hbefore, List.filter_append, List.filter_cons_of_pos (by simp)]
  have hothers (x : Nat) : (s.worked place t r).tasksOf x = if x = t.fd then
      before.filter (·.fd == t.fd) ++ after.filter (·.fd == t.fd) else s.tasksOf x := by
    rw [tasksOf, tasksOf, hafter, hbefore]
    by_cases hx : x = t.fd
    · rw [if_pos hx, hx, List.filter_append]
    · rw [if_neg hx, List.filter_append, List.filter_append,
        List.filter_cons_of_neg (by simpa using Ne.symm hx)]
  by_cases hcurrent : t.Current s.reactor.slots
  · obtain ⟨slot, hslot, hgeneration, hlive⟩ := hcurrent
    have hview : (s.view t.fd).slot = slot := slotAt_eq_of_slot? hslot
    obtain ⟨hwatch, o, houtcome, hsound⟩ := (h.views t.fd).work htasks (hview ▸ hgeneration.symm)
      (hview ▸ hlive) s.reactor.config.docRoot s.reactor.backend
    rw [hview] at houtcome hsound
    refine h.update hsound (.inl ⟨?_, fun _ => hview ▸ hlive⟩)
      (Task.run_current hslot hgeneration hlive hwatch houtcome) (eq_ite_at s.actions t.fd) hothers
    rw [hview]
  · have hstale (hlive : (s.view t.fd).slot.isLive = true) :
        t.generation ≠ (s.view t.fd).slot.generation := fun heq =>
      hcurrent ⟨_, Slots.slot?_of_isLive hlive, heq.symm, hlive⟩
    refine h.update ((h.views t.fd).drop htasks hstale) (.refl _) ?_ (eq_ite_at s.actions t.fd)
      hothers
    rw [worked, Task.run_stale hcurrent]
    exact .refl _ t.fd

/-! ### The clients and the files -/

theorem Sound.putSession (h : s.Sound) {fd : Nat} {slot : Slot}
    (present : s.reactor.slots.slot? fd = some slot) {session : Session}
    (live : session.connection.isLive = slot.isLive)
    (sound : View.Sound { s.view fd with slot := { slot with session } }) :
    s.Leads (s.withSlots (s.reactor.slots.putSession fd session)) := by
  refine h.update sound (.inl ?_) (Slots.updates_putSession present session)
    (eq_ite_at s.actions fd) (eq_ite_at s.tasksOf fd)
  rw [slotAt_eq_of_slot? present]
  exact ⟨rfl, fun hlive => live ▸ hlive⟩

/-! ### All steps -/

theorem Step.leads (h : s.Sound) (hstep : Step s t) : s.Leads t := by
  cases hstep with
  | report waits armed ready => exact h.report armed ready
  | @announce a waits which =>
    refine h.of_eq rfl rfl ?_ rfl
    intro x
    have haside : a.handled? = none := by
      rcases which with rfl | rfl <;> rfl
    simp [actions, haside]
  | wake | fail | wait | stop | raise | backend => exact h.of_eq rfl rfl (fun _ => rfl) rfl
  | accept runs first now fd peer free => exact h.accept free
  | act runs first now => exact h.act first now
  | @actLate l rest runs done first now => exact h.actLate done l rest now
  | take htake => exact h.of_eq rfl rfl (fun _ => rfl) (tasks_take? htake)
  | lease hlease => exact h.of_eq rfl rfl (fun _ => rfl) (tasks_lease? hlease)
  | work runs => exact h.work runs
  | giveBack held hrelease => exact h.of_eq rfl rfl (fun _ => rfl) rfl
  | @client fd slot present stream cut =>
    have hview := slotAt_eq_of_slot? present
    refine h.putSession present rfl ?_
    have hsound := (h.views fd).withSession { slot.session with stream }
    rw [View.connection, hview] at hsound
    exact hsound (fun _ hreached => hreached) id fun hcut => cut.trans hcut
  | @refresh fd slot present d =>
    have hview := slotAt_eq_of_slot? present
    refine h.putSession present rfl ?_
    have hsound := (h.views fd).withSession (slot.session.refresh d)
    rw [View.connection, hview] at hsound
    exact hsound (fun _ hreached => hreached.step (.refresh d)) (·.refresh d) id

/-- Where no connection has been taken in nobody has any. -/
theorem sound_start {r : Reactor} (fresh : r.Fresh) : Sound { reactor := r } := by
  obtain ⟨capacity, hslots⟩ := fresh.slots
  have hslot (fd : Nat) : r.slots.slotAt fd = {} := by
    rw [hslots, Slots.slotAt, Slots.slot?, Slots.ofCapacity, Array.getElem?_replicate]
    split <;> rfl
  have htasks (fd : Nat) : tasksOf { reactor := r } fd = [] := by
    rw [tasksOf, tasks, fresh.running, fresh.waiting, fresh.queue]
    rfl
  constructor
  · intro fd
    constructor
    · intro t ht
      rw [view, htasks] at ht
      cases ht
    · refine .nobody ?_ ?_ rfl
      · rw [View.connection, view, hslot]
        exact .start
      · rw [view, hslots]
        rfl
  · rw [hslots]
    exact List.nodup_nil

theorem Reached.sound (h : s.Reached) : s.Sound := by
  induction h with
  | start fresh => exact sound_start fresh
  | step _ hstep ih => exact (hstep.leads ih).sound

theorem Reached.steps (h : s.Reached) (run : Steps s t) : t.Reached := by
  induction run with
  | refl => exact h
  | tail _ hstep ih => exact ih.step hstep

/-- A task whose connection has gone never gets it back: what the descriptor is given out
for is newer. -/
theorem Reached.not_current (h : s.Reached) {k : Task} (hk : k ∈ s.tasks)
    (stale : ¬k.Current s.reactor.slots) (run : Steps s t) : ¬k.Current t.reactor.slots := by
  have hold : k.generation ≤ (s.view k.fd).slot.generation :=
    (h.sound.views k.fd).old k (List.mem_filter.mpr ⟨hk, by simp⟩)
  -- Generations only grow, and within one generation a connection that has closed stays
  -- closed.
  suffices hpast : k.generation ≤ (t.view k.fd).slot.generation ∧ ¬k.Current t.reactor.slots from
    hpast.2
  induction run with
  | refl => exact ⟨hold, stale⟩
  | @tail u w run hstep ih =>
    obtain ⟨hle, hgone⟩ := ih
    have hleads := (hstep.leads (h.steps run).sound).later k.fd
    refine ⟨?_, ?_⟩
    · rcases hleads with ⟨heq, -⟩ | hlt
      · exact heq ▸ hle
      · exact Nat.le_of_lt (Nat.lt_of_le_of_lt hle hlt)
    · rintro ⟨slot, hslot, hgeneration, hlive⟩
      rw [slotAt_eq_of_slot? hslot] at hleads
      rcases hleads with ⟨heq, hbefore⟩ | hlt
      · have hopen := hbefore hlive
        exact hgone ⟨_, Slots.slot?_of_isLive hopen, heq.symm.trans hgeneration, hopen⟩
      · rw [hgeneration] at hlt
        exact Nat.not_lt_of_le hle hlt

end System
end Server
end PageServer
