import PageServer.Proofs.Server.Views

/-!
# Handing a connection on

What becomes of one descriptor when its connection is taken in, is reported, is read from
and written to, is worked on, is armed again or is closed: from an owner it always comes
to one owner.
-/

namespace PageServer
namespace Server

open Connection (Sending afterRead afterWrite)

namespace View

variable {v : View}

theorem Sound.reached (h : v.Sound) : ∃ stage, Connection.Reached stage v.connection := by
  cases h.owned with
  | nobody reached => exact ⟨_, reached⟩
  | poller i armed idle untasked waits =>
    obtain ⟨stage, -, hreached⟩ := waits.reached
    exact ⟨stage, hreached⟩
  | reactor a stage open_ reached => exact ⟨stage, reached⟩
  | worker t disarmed idle only reached => exact ⟨_, reached⟩

/-- A connection that is closed leaves no owner, and its tasks stay. -/
theorem Sound.close (h : v.Sound) : Sound {
    slot := { v.slot with session := v.slot.session.close.2 }
    watch := none, actions := [], tasks := v.tasks } := by
  obtain ⟨stage, hreached⟩ := h.reached
  exact ⟨h.old, .nobody (hreached.step .detach) rfl rfl⟩

/-- What is not open has nobody. -/
theorem Sound.nobody (h : v.Sound) (hoff : v.slot.isLive = false) :
    Connection.Reached .closed v.connection ∧ v.watch = none ∧ v.actions = [] := by
  have hdead := h.owned.isLive_iff
  rw [hoff] at hdead
  cases h.owned with
  | nobody reached unwatched idle => exact ⟨reached, unwatched, idle⟩
  | poller i armed idle untasked waits => cases hdead.mpr waits.reached
  | reactor a stage open_ reached => cases hdead.mpr ⟨stage, open_, reached⟩
  | worker t disarmed idle only reached => cases hdead.mpr ⟨.processing, by decide, reached⟩

/-- A descriptor that is given out again has no task of the new connection. -/
theorem Sound.attach (h : v.Sound) (hoff : v.slot.isLive = false) (fd : Nat)
    (peer : Net.SocketAddress) : Sound {
      slot := ⟨v.slot.generation + 1, v.slot.session.attach fd peer⟩
      watch := some (some .read), actions := v.actions, tasks := v.tasks } := by
  obtain ⟨hreached, -, hidle⟩ := h.nobody hoff
  -- Tasks of all earlier connections may be left; that they are older is what makes them
  -- stale.
  refine ⟨fun t ht => Nat.le_succ_of_le (h.old t ht), ?_⟩
  refine .poller .read rfl hidle ?_ (.inl (hreached.step (.attach fd peer)))
  apply List.filter_eq_nil_iff.mpr
  intro t ht
  have hle := h.old t ht
  simp only [beq_iff_eq]
  omega

/-- A task of another connection than the present can go. -/
theorem Sound.drop (h : v.Sound) {t : Task} {before after : List Task}
    (tasks : v.tasks = before ++ t :: after)
    (stale : v.slot.isLive = true → t.generation ≠ v.slot.generation) :
    Sound { v with tasks := before ++ after } := by
  have hold := h.old_of_eq tasks
  cases hlive : v.slot.isLive with
  | false =>
    obtain ⟨hreached, hunwatched, hidle⟩ := h.nobody hlive
    exact ⟨hold, .nobody hreached hunwatched hidle⟩
  | true =>
    have hcurrent : current { v with tasks := before ++ after } = v.current := by
      have hgone : (t.generation == v.slot.generation) = false := by simpa using stale hlive
      simp only [current, tasks, List.filter_append, List.filter_cons, hgone, Bool.false_eq_true,
        if_false]
    refine ⟨hold, ?_⟩
    cases h.owned with
    | nobody reached unwatched idle => exact .nobody reached unwatched idle
    | poller i armed idle untasked waits =>
      refine .poller i armed idle (hcurrent.trans untasked) ?_
      exact waits
    | reactor a stage open_ reached disarmed only untasked due =>
      refine .reactor a stage open_ reached disarmed only (hcurrent.trans untasked) ?_
      exact due
    | worker t' disarmed idle only reached =>
      exact .worker t' disarmed idle (hcurrent.trans only) reached

/-- A change of the session that leaves the connection where it is leaves it with its
owner. -/
theorem Sound.withSession (h : v.Sound) (session : Session)
    (reached : ∀ stage, Connection.Reached stage v.connection →
      Connection.Reached stage session.connection)
    (sending : Sending v.connection → Sending session.connection)
    (cut : v.slot.session.stream.cut = true → session.stream.cut = true) :
    Sound { v with slot := { v.slot with session } } := by
  have hready {i : Interest} (hr : v.Ready i) :
      Ready { v with slot := { v.slot with session } } i := by
    cases i with
    | read => exact reached _ hr
    | write => exact ⟨reached _ hr.1, sending hr.2⟩
  refine ⟨h.old, ?_⟩
  cases h.owned with
  | nobody hreached unwatched idle => exact .nobody (reached _ hreached) unwatched idle
  | poller i armed idle untasked waits =>
    refine .poller i armed idle untasked ?_
    exact waits.imp hready fun ⟨hi, hreached, hcut⟩ => ⟨hi, reached _ hreached, cut hcut⟩
  | reactor a stage open_ hreached disarmed only untasked due =>
    refine .reactor a stage open_ (reached _ hreached) disarmed only untasked ?_
    cases a with
    | ready fd r =>
      exact due.imp id (.imp (fun ⟨hr, h⟩ => ⟨hr, hready h⟩) fun ⟨hr, hw, h⟩ => ⟨hr, hw, hready h⟩)
    | queue t => exact ⟨due.1, reached _ due.2⟩
    | conclude fd o =>
      cases o with
      | pending => exact hready (i := .write) due
      | complete m => exact fun hkeep => hready (i := .read) (due hkeep)
      | failed => trivial
    | rearm fd i => exact hready due
    | close | accept | signals | touch => exact due
  | worker t disarmed idle only hreached => exact .worker t disarmed idle only (reached _ hreached)

theorem readiness?_eq_some {i : Interest} {stream : Net.Stream} {r : Readiness}
    (h : readiness? i stream = some r) :
    r = ⟨decide (i = .read), decide (i = .write), stream.ended⟩ := by
  unfold readiness? at h
  cases i with
  | read | write =>
    simp only at h
    split at h
    · exact (Option.some.inj h).symm
    · cases h

/-- An armed descriptor that is reported is the reactor's. -/
theorem Sound.report (h : v.Sound) {i : Interest} (armed : v.watch = some (some i)) {r : Readiness}
    (ready : readiness? i v.slot.session.stream = some r) (fd : Nat) :
    Sound { v with watch := some none, actions := v.actions ++ [.ready fd r] } := by
  refine ⟨h.old, ?_⟩
  cases h.owned with
  | nobody reached unwatched => cases unwatched.symm.trans armed
  | reactor a stage open_ reached disarmed => cases disarmed.symm.trans armed
  | worker t disarmed => cases disarmed.symm.trans armed
  | poller i' armed' idle untasked waits =>
    obtain rfl : i' = i := Option.some.inj (Option.some.inj (armed'.symm.trans armed))
    obtain ⟨stage, hopen, hreached⟩ := waits.reached
    refine .reactor (.ready fd r) stage hopen hreached rfl ?_ untasked ?_
    · rw [idle, List.nil_append]
    · rw [readiness?_eq_some ready]
      -- A connection that a worker gave up is armed too, but all that is reported of it
      -- is its end.
      rcases waits with hready | ⟨-, -, hcut⟩
      · cases i' with
        | read => exact .inr (.inl ⟨rfl, hready⟩)
        | write => exact .inr (.inr ⟨rfl, rfl, hready⟩)
      · left
        simp [Net.Stream.ended, hcut]

theorem Sound.handled (h : v.Sound) {a : Action} (only : v.actions = [a]) :
    v.slot.isLive = true ∧ v.watch = some none ∧ v.current = [] ∧ v.Due a := by
  have hmem : a ∈ v.actions := by
    rw [only]
    exact List.mem_singleton_self a
  obtain ⟨hlive, hwatch, -, hcurrent, hdue⟩ := h.handling hmem
  exact ⟨hlive, hwatch, hcurrent, hdue⟩

/-- The reactor goes on with the connection. -/
theorem Sound.goOn (h : v.Sound) {a a' : Action} (only : v.actions = [a])
    (session : Session) {stage : Stage} (reached : Connection.Reached stage session.connection)
    (open_ : stage ≠ .closed)
    (due : Due { v with slot := { v.slot with session }, actions := [a'] } a') :
    Sound { v with slot := { v.slot with session }, actions := [a'] } := by
  obtain ⟨-, disarmed, untasked, -⟩ := h.handled only
  exact ⟨h.old, .reactor a' stage open_ reached disarmed rfl untasked due⟩

/-- The reactor goes on to something that is right for the same connection. -/
theorem Sound.follow (h : v.Sound) {a a' : Action} (only : v.actions = [a]) (due : v.Due a') :
    Sound { v with actions := [a'] } := by
  obtain ⟨hlive, -⟩ := h.handled only
  obtain ⟨stage, hopen, hreached⟩ := h.owned.isLive_iff.mp hlive
  refine h.goOn only v.slot.session hreached hopen ?_
  cases a' with
  | conclude fd o => cases o <;> exact due
  | _ => exact due

/-- The reactor reads, and then queues a task or closes. -/
theorem Sound.read (h : v.Sound) {a : Action} (only : v.actions = [a]) (ready : v.Ready .read)
    (now : Nat) : ∃ ok session, v.slot.session.read now = (ok, session) ∧ ∀ fd, Sound { v with
      slot := { v.slot with session }
      actions := [if ok then .queue ⟨fd, v.slot.generation⟩ else .close fd .peerClosed] } := by
  have hstep : Connection.Reached (afterRead (v.slot.session.read now).1)
      (v.slot.session.read now).2.connection :=
    Connection.Reached.step ready (.read now (v.slot.session.stream.readReplies
      v.slot.session.connection.room))
  generalize v.slot.session.read now = result at hstep ⊢
  obtain ⟨ok, session⟩ := result
  refine ⟨ok, session, rfl, ?_⟩
  intro fd
  cases ok with
  | true =>
    have hprocessing : Connection.Reached .processing session.connection := hstep
    exact h.goOn only session hprocessing (by decide) ⟨rfl, hprocessing⟩
  | false =>
    have hclosing : Connection.Reached .closing session.connection := hstep
    exact h.goOn only session hclosing (by decide) trivial

/-- The reactor writes, which meets no fault. -/
theorem Sound.write (h : v.Sound) {a : Action} (only : v.actions = [a]) (ready : v.Ready .write)
    (now : Nat) : ∃ o session, v.slot.session.write now = (.ok o, session) ∧ ∀ fd, Sound { v with
      slot := { v.slot with session }, actions := [.conclude fd o] } := by
  obtain ⟨hreached, hsending⟩ : Connection.Reached .writing v.slot.session.connection ∧
    Sending v.slot.session.connection := ready
  obtain ⟨replies, honest, houtcome, hconnection⟩ := Session.write_eq hsending now
  have hstep := hreached.step (.write now replies)
  have hpending := Sending.pending hsending now honest
  obtain ⟨hfaultless, -⟩ := Sending.write_taken now hsending honest
  rw [← houtcome, ← hconnection] at hstep hpending
  rw [← houtcome] at hfaultless
  generalize v.slot.session.write now = result at hstep hpending hfaultless ⊢
  obtain ⟨outcome, session⟩ := result
  cases outcome with
  | error f => exact absurd rfl (hfaultless f)
  | ok o =>
    refine ⟨o, session, rfl, ?_⟩
    intro fd
    cases o with
    | pending =>
      have hwriting : Connection.Reached .writing session.connection := hstep
      exact h.goOn only session hwriting (by decide) ⟨hwriting, hpending rfl⟩
    | failed =>
      have hclosing : Connection.Reached .closing session.connection := hstep
      exact h.goOn only session hclosing (by decide) trivial
    | complete m =>
      have hends : Connection.Reached (if m.keepAlive then .reading else .closing)
        session.connection := hstep
      cases hkeep : m.keepAlive with
      | true =>
        rw [hkeep, if_pos rfl] at hends
        exact h.goOn only session hends (by decide) fun _ => hends
      | false =>
        rw [hkeep, if_neg (by decide)] at hends
        refine h.goOn only session hends (by decide) ?_
        intro hkept
        rw [hkeep] at hkept
        cases hkept

/-- The reactor hands the connection on to a worker. -/
theorem Sound.queue (h : v.Sound) {t : Task} (only : v.actions = [.queue t]) :
    Sound { v with actions := [], tasks := v.tasks ++ [t] } := by
  obtain ⟨-, disarmed, untasked, hgeneration, hreached⟩ := h.handled only
  constructor
  · intro t' ht'
    rcases List.mem_append.mp ht' with hold | hnew
    · exact h.old t' hold
    · rw [List.mem_singleton.mp hnew]
      exact Nat.le_of_eq hgeneration
  · refine .worker t disarmed rfl ?_ hreached
    have hone : [t].filter (·.generation == v.slot.generation) = [t] := by simp [hgeneration]
    rw [current] at untasked ⊢
    rw [List.filter_append, untasked, hone, List.nil_append]

/-- The reactor hands the connection on to the poller. -/
theorem Sound.rearm (h : v.Sound) {fd : Nat} {i : Interest} (only : v.actions = [.rearm fd i]) :
    Sound { v with watch := some (some i), actions := [] } := by
  obtain ⟨-, -, untasked, due⟩ := h.handled only
  refine ⟨h.old, .poller i rfl rfl untasked (.inl ?_)⟩
  cases i <;> exact due

/-- A worker hands the connection on to the poller. -/
theorem Sound.work (h : v.Sound) {t : Task} {before after : List Task}
    (tasks : v.tasks = before ++ t :: after) (generation : t.generation = v.slot.generation)
    (live : v.slot.isLive = true) (root : String) (b : Accounts.Backend) :
    v.watch = some none ∧ ∃ o, (v.slot.session.process root b).1 = .ok o ∧
      let session := (v.slot.session.process root b).2.1
      Sound {
        slot := { v.slot with session := if o = .abort then session.cut else session }
        watch := some (some (Task.interestAfter o)), actions := v.actions
        tasks := before ++ after } := by
  have hmem : t ∈ v.current := by
    rw [current, tasks, List.mem_filter]
    exact ⟨List.mem_append_right _ List.mem_cons_self, by simp [generation]⟩
  obtain ⟨disarmed, idle, only, reached⟩ := h.working hmem live
  refine ⟨disarmed, ?_⟩
  -- The task was the only current one, so what is left around it has none.
  have huntasked : (before ++ after).filter (·.generation == v.slot.generation) = [] := by
    have hlength := congrArg List.length only
    rw [current, tasks, List.filter_append, List.filter_cons_of_pos (by simp [generation])]
      at hlength
    rw [List.filter_append, ← List.length_eq_zero_iff, List.length_append]
    simp only [List.length_append, List.length_cons, List.length_nil] at hlength
    omega
  have hstep := reached.step (.process root b)
  cases houtcome : (v.connection.process root b).1 with
  | error f => exact absurd houtcome (reached.unanswered.2.2.2 root b f)
  | ok o =>
    rw [houtcome] at hstep
    refine ⟨o, houtcome, h.old_of_eq tasks, .poller _ rfl idle huntasked ?_⟩
    cases o with
    | needInput => exact .inl hstep
    | readyToWrite =>
      have hreceiving : Connection.Receiving v.connection := reached.consistent
      exact .inl ⟨hstep, (hreceiving.sending houtcome).1⟩
    | abort =>
      have hcut : (v.slot.session.process root b).2.1.cut =
          { (v.slot.session.process root b).2.1 with
            stream := (v.slot.session.process root b).2.1.stream.serverCut } :=
        if_pos (hstep.isLive_iff.mpr (by decide))
      right
      simp only [if_true, connection, hcut]
      exact ⟨rfl, hstep, rfl⟩

end View

end Server
end PageServer
