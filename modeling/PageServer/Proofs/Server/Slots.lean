import PageServer.Server.Slots

/-!
# What changes at one descriptor

Each operation on the slots and the poller is about one descriptor.  Here is what it does
to the slot of that descriptor and to its entry with the poller; at every other descriptor
all stays as it is.
-/

namespace PageServer
namespace Server

open Metrics (CloseReason)

/-- What does not change changes at one descriptor to what it is there. -/
theorem eq_ite_at {α : Type} (f : Nat → α) (fd x : Nat) :
    f x = if x = fd then f fd else f x := by
  by_cases h : x = fd
  · rw [if_pos h, h]
  · rw [if_neg h]

/-- No descriptor is watched twice. -/
def Poller.Distinct (p : Poller) : Prop :=
  (p.entries.map (·.1)).Nodup

namespace Slots

/-- The slot of a descriptor, an unused one where there is none. -/
def slotAt (s : Slots) (fd : Nat) : Slot :=
  (s.slot? fd).getD {}

/-- How a descriptor is watched, if it is. -/
def watch (s : Slots) (fd : Nat) : Option (Option Interest) :=
  s.poller.entries.lookup fd

/-- A descriptor has come to have this slot and to be watched so, and all is as it was at
others. -/
structure Updates (fd : Nat) (slot : Slot) (watch : Option (Option Interest)) (s s' : Slots) :
    Prop where
  slot : ∀ x, s'.slotAt x = if x = fd then slot else s.slotAt x
  watch : ∀ x, s'.watch x = if x = fd then watch else s.watch x
  distinct : s.poller.Distinct → s'.poller.Distinct

end Slots

/-! ## The poller -/

namespace Poller

variable {l : List (Nat × Option Interest)}

theorem lookup_cons_eq (key x : Nat) (v : Option Interest) :
    ((key, v) :: l).lookup x = if x = key then some v else l.lookup x := by
  rw [List.lookup_cons]
  by_cases h : x = key
  · rw [if_pos h, beq_iff_eq.mpr h]
  · rw [if_neg h, beq_eq_false_iff_ne.mpr h]

theorem any_eq_isSome_lookup (fd : Nat) : l.any (·.1 == fd) = (l.lookup fd).isSome := by
  induction l with
  | nil => rfl
  | cons e l ih =>
    obtain ⟨key, armed⟩ := e
    rw [List.any_cons, lookup_cons_eq, ih]
    by_cases h : fd = key
    · simp [h]
    · simp [h, Ne.symm h]

theorem isWatched_eq (p : Poller) (fd : Nat) : p.isWatched fd = (p.entries.lookup fd).isSome :=
  any_eq_isSome_lookup fd

theorem lookup_mark (fd : Nat) (v : Option Interest) (x : Nat) :
    (l.map fun e => if e.1 = fd then (fd, v) else e).lookup x =
      if x = fd then (l.lookup fd).map fun _ => v else l.lookup x := by
  induction l with
  | nil => simp
  | cons e l ih =>
    obtain ⟨key, armed⟩ := e
    rw [List.map_cons, lookup_cons_eq, lookup_cons_eq]
    by_cases hkey : key = fd
    · subst hkey
      rw [if_pos rfl, lookup_cons_eq, if_pos rfl, ih]
      by_cases hx : x = key <;> simp [hx]
    · rw [if_neg hkey, lookup_cons_eq, if_neg (Ne.symm hkey), ih]
      by_cases hx : x = fd
      · subst hx
        simp [Ne.symm hkey]
      · simp [hx]

theorem lookup_filter (fd x : Nat) :
    (l.filter (·.1 != fd)).lookup x = if x = fd then none else l.lookup x := by
  induction l with
  | nil => simp
  | cons e l ih =>
    obtain ⟨key, armed⟩ := e
    rw [lookup_cons_eq]
    by_cases hkey : key = fd
    · subst hkey
      rw [List.filter_cons_of_neg (by simp), ih]
      by_cases hx : x = key <;> simp [hx]
    · rw [List.filter_cons_of_pos (by simpa using hkey), lookup_cons_eq, ih]
      by_cases hx : x = fd
      · subst hx
        simp [Ne.symm hkey]
      · simp [hx]

theorem lookup_place {fd : Nat} (i : Interest) (h : l.lookup fd = none) (x : Nat) :
    (place fd i l).lookup x = if x = fd then some (some i) else l.lookup x := by
  induction l with
  | nil => exact lookup_cons_eq fd x (some i)
  | cons e l ih =>
    obtain ⟨key, armed⟩ := e
    rw [lookup_cons_eq] at h
    by_cases hkey : fd = key
    · simp [hkey] at h
    · rw [if_neg hkey] at h
      rw [place]
      split
      · rw [lookup_cons_eq]
      · rw [lookup_cons_eq, lookup_cons_eq, ih h]
        by_cases hx : x = fd
        · subst hx
          simp [hkey]
        · simp [hx]

theorem keys_mark (fd : Nat) (v : Option Interest) :
    (l.map fun e => if e.1 = fd then (fd, v) else e).map (·.1) = l.map (·.1) := by
  rw [List.map_map]
  apply List.map_congr_left
  intro e _
  by_cases h : e.1 = fd <;> simp [h]

theorem place_perm (fd : Nat) (i : Interest) : (place fd i l).Perm ((fd, some i) :: l) := by
  induction l with
  | nil => exact .refl _
  | cons e l ih =>
    rw [place]
    split
    · exact .refl _
    · exact (ih.cons e).trans (.swap _ _ _)

theorem notMem_of_lookup {fd : Nat} (h : l.lookup fd = none) : fd ∉ l.map (·.1) := by
  induction l with
  | nil => exact List.not_mem_nil
  | cons e l ih =>
    obtain ⟨key, armed⟩ := e
    rw [lookup_cons_eq] at h
    by_cases hkey : fd = key
    · simp [hkey] at h
    · rw [if_neg hkey] at h
      exact List.not_mem_cons_of_ne_of_not_mem hkey (ih h)

theorem lookup_of_mem (h : (l.map (·.1)).Nodup) {e : Nat × Option Interest} (he : e ∈ l) :
    l.lookup e.1 = some e.2 := by
  induction l with
  | nil => cases he
  | cons first l ih =>
    obtain ⟨hnew, hrest⟩ := List.nodup_cons.mp h
    obtain ⟨key, armed⟩ := first
    rw [lookup_cons_eq]
    rcases List.mem_cons.mp he with rfl | hmem
    · rw [if_pos rfl]
    · have hne : e.1 ≠ key := fun heq => hnew (List.mem_map.mpr ⟨e, hmem, heq⟩)
      rw [if_neg hne]
      exact ih hrest hmem

/-- What is found out about some descriptors names them in order. -/
theorem keys_filterMap_sublist {α : Type} (f : Nat × Option Interest → Option α) :
    ((l.filterMap fun e => (f e).map fun x => (e.1, x)).map (·.1)).Sublist (l.map (·.1)) := by
  induction l with
  | nil => exact List.Sublist.slnil
  | cons e l ih =>
    rw [List.filterMap_cons]
    cases f e with
    | none => exact ih.cons _
    | some x => exact ih.cons_cons _

theorem Distinct.disarm {p : Poller} (h : p.Distinct) (fd : Nat) : (p.disarm fd).Distinct := by
  rw [Distinct, Poller.disarm, keys_mark]
  exact h

end Poller

/-! ## Slots -/

namespace Slots

variable {s : Slots} {fd : Nat} {slot : Slot}

theorem slotAt_of_slot? (h : s.slot? fd = some slot) : s.slotAt fd = slot := by
  rw [slotAt, h, Option.getD_some]

theorem slot?_of_isLive (h : (s.slotAt fd).isLive = true) : s.slot? fd = some (s.slotAt fd) := by
  rw [slotAt] at h ⊢
  cases hslot : s.slot? fd with
  | none =>
    rw [hslot] at h
    cases h
  | some slot => rfl

theorem slotAt_put (h : s.slot? fd = some slot) (slot' : Slot) (x : Nat) :
    (s.put fd slot').slotAt x = if x = fd then slot' else s.slotAt x := by
  obtain ⟨hlt, -⟩ := Array.getElem?_eq_some_iff.mp h
  by_cases hx : x = fd
  · subst hx
    simp [slotAt, slot?, put, hlt]
  · simp [slotAt, slot?, put, hx, Ne.symm hx]

theorem slotAt_putSession (h : s.slot? fd = some slot) (session : Session) (x : Nat) :
    (s.putSession fd session).slotAt x =
      if x = fd then { slot with session } else s.slotAt x := by
  obtain ⟨hlt, hget⟩ := Array.getElem?_eq_some_iff.mp h
  by_cases hx : x = fd
  · subst hx
    simp [slotAt, slot?, putSession, Array.getElem_modify, hlt, hget]
  · simp [slotAt, slot?, putSession, Array.getElem?_modify, hx, Ne.symm hx]

theorem updates_putSession (h : s.slot? fd = some slot) (session : Session) :
    Updates fd { slot with session } (s.watch fd) s (s.putSession fd session) where
  slot := slotAt_putSession h session
  distinct := id
  watch := eq_ite_at (s.watch ·) fd

/-- Closes what is open, unless another generation is meant. -/
theorem updates_close (h : s.slot? fd = some slot) (live : slot.isLive = true)
    {generation : Option Nat} (same : ∀ g ∈ generation, g = slot.generation)
    (reason : CloseReason) :
    Updates fd { slot with session := slot.session.close.2 } none s
      (s.close fd generation reason).2 := by
  have hsame : generation.any (· != slot.generation) = false := by
    cases generation with
    | none => rfl
    | some g => simp [same g rfl]
  rw [close, h]
  simp only [hsame, live, Bool.not_true, Bool.or_self, Bool.false_eq_true, if_false]
  refine ⟨slotAt_putSession h _, ?_, ?_⟩
  · intro x
    exact Poller.lookup_filter fd x
  · intro hdistinct
    exact List.Nodup.sublist (List.filter_sublist.map _) hdistinct

/-- What is closed, or of another generation, is left alone. -/
theorem close_eq_self (h : ∀ slot, s.slot? fd = some slot → slot.isLive = true →
    ∃ g ∈ generation, g ≠ slot.generation) (reason : CloseReason) :
    (s.close fd generation reason).2 = s := by
  rw [close]
  split
  · rfl
  · next slot hslot =>
    cases hlive : slot.isLive with
    | false => simp
    | true =>
      obtain ⟨g, hg, hne⟩ := h slot hslot hlive
      simp [Option.mem_def.mp hg, hne]

/-- Takes in a connection where the descriptor is not watched. -/
theorem updates_openSlot (h : s.slot? fd = some slot) (unwatched : s.watch fd = none)
    (peer : Net.SocketAddress) :
    Updates fd ⟨slot.generation + 1, slot.session.attach fd peer⟩ (some (some .read)) s
      (s.openSlot fd peer).2 := by
  have hadd : s.poller.add fd .read =
      .ok { entries := Poller.place fd .read s.poller.entries } := by
    rw [Poller.add, Poller.isWatched_eq, show s.poller.entries.lookup fd = none from unwatched]
    rfl
  rw [openSlot, h]
  simp only [hadd]
  refine ⟨slotAt_put h _, ?_, ?_⟩
  · intro x
    exact Poller.lookup_place .read unwatched x
  · intro hdistinct
    apply ((Poller.place_perm fd .read).map _).nodup_iff.mpr
    exact List.nodup_cons.mpr ⟨Poller.notMem_of_lookup unwatched, hdistinct⟩

/-- A watched descriptor can be armed. -/
theorem rearm_of_watch {armed : Option Interest} (watched : s.watch fd = some armed)
    (i : Interest) :
    ∃ s', s.rearm fd i = (true, s') ∧ Updates fd (s.slotAt fd) (some (some i)) s s' := by
  have hwatched : s.poller.isWatched fd = true := by
    rw [Poller.isWatched_eq, show s.poller.entries.lookup fd = some armed from watched]
    rfl
  refine ⟨{ s with poller := { entries := s.poller.entries.map fun e =>
    if e.1 = fd then (fd, some i) else e } }, ?_, ?_, ?_, ?_⟩
  · rw [rearm, Poller.rearm, if_pos hwatched]
  · exact eq_ite_at (s.slotAt ·) fd
  · intro x
    refine (Poller.lookup_mark fd (some i) x).trans ?_
    rw [show s.poller.entries.lookup fd = some armed from watched]
    rfl
  · intro hdistinct
    rw [Poller.Distinct, Poller.keys_mark]
    exact hdistinct

/-- A watched descriptor can be disarmed. -/
theorem updates_disarm {armed : Option Interest} (watched : s.watch fd = some armed) :
    Updates fd (s.slotAt fd) (some none) s { s with poller := s.poller.disarm fd } := by
  constructor
  · exact eq_ite_at (s.slotAt ·) fd
  · intro x
    refine (Poller.lookup_mark fd none x).trans ?_
    rw [show s.poller.entries.lookup fd = some armed from watched]
    rfl
  · intro hdistinct
    exact hdistinct.disarm fd

/-- A look at the armed descriptors reports none of them twice, and of each what it is
armed for. -/
theorem poll_ready (s : Slots) (distinct : s.poller.Distinct) :
    (s.poll.1.map (·.1)).Nodup ∧ ∀ e ∈ s.poll.1, ∃ i, s.poller.armed? e.1 = some i ∧
      readiness? i (s.stream e.1) = some e.2 := by
  constructor
  · exact List.Nodup.sublist (Poller.keys_filterMap_sublist _) distinct
  · intro e he
    obtain ⟨entry, hentry, hfound⟩ := List.mem_filterMap.mp he
    obtain ⟨x, hx, rfl⟩ := Option.map_eq_some_iff.mp hfound
    obtain ⟨i, harmed, hready⟩ := Option.bind_eq_some_iff.mp hx
    refine ⟨i, ?_, hready⟩
    rw [Poller.armed?, Poller.lookup_of_mem distinct hentry, harmed]
    rfl

theorem Updates.refl (s : Slots) (fd : Nat) : Updates fd (s.slotAt fd) (s.watch fd) s s := by
  exact ⟨eq_ite_at (s.slotAt ·) fd, eq_ite_at (s.watch ·) fd, id⟩

theorem Updates.trans {slot' : Slot} {watch watch' : Option (Option Interest)} {s' s'' : Slots}
    (h : Updates fd slot watch s s') (h' : Updates fd slot' watch' s' s'') :
    Updates fd slot' watch' s s'' := by
  refine ⟨?_, ?_, h'.distinct ∘ h.distinct⟩
  · intro x
    rw [h'.slot, h.slot]
    by_cases hx : x = fd <;> simp [hx]
  · intro x
    rw [h'.watch, h.watch]
    by_cases hx : x = fd <;> simp [hx]

end Slots

/-! ## Tasks -/

/-- The connection that a task is about is still there. -/
def Task.Current (t : Task) (s : Slots) : Prop :=
  ∃ slot, s.slot? t.fd = some slot ∧ slot.generation = t.generation ∧ slot.isLive = true

theorem Task.run_stale {t : Task} {s : Slots} (h : ¬t.Current s) (root : String)
    (b : Accounts.Backend) : t.run root s b = (.ok (), s, b) := by
  rw [Task.run]
  split
  · rfl
  · next slot hslot =>
    rw [if_pos]
    rw [Bool.or_eq_true, bne_iff_ne, Bool.not_eq_true']
    by_cases hgeneration : slot.generation = t.generation
    · right
      apply Bool.eq_false_iff.mpr
      intro hlive
      exact h ⟨slot, hslot, hgeneration, hlive⟩
    · exact .inl hgeneration

/-- Working on a request ends with the connection armed again. -/
theorem Task.run_current {t : Task} {s : Slots} {slot : Slot} {armed : Option Interest}
    (hslot : s.slot? t.fd = some slot) (hgeneration : slot.generation = t.generation)
    (hlive : slot.isLive = true) (watched : s.watch t.fd = some armed) {root : String}
    {b : Accounts.Backend} {o : Connection.ProcessOutcome}
    (houtcome : (slot.session.process root b).1 = .ok o) :
    let session := (slot.session.process root b).2.1
    Slots.Updates t.fd { slot with session := if o = .abort then session.cut else session }
      (some (some (interestAfter o))) s (t.run root s b).2.1 := by
  intro session
  rcases hprocess : slot.session.process root b with ⟨outcome, session', b'⟩
  rw [hprocess] at houtcome
  simp only at houtcome
  subst houtcome
  have hsession : session = session' := by
    rw [show session = (slot.session.process root b).2.1 from rfl, hprocess]
  subst hsession
  have hstays : ¬(slot.generation != t.generation || !slot.isLive) = true := by
    simp [hgeneration, hlive]
  have hput := Slots.updates_putSession hslot (if o = .abort then session.cut else session)
  have hwatch := hput.watch t.fd
  rw [if_pos rfl, watched] at hwatch
  obtain ⟨s', hrearm, hupdates⟩ := Slots.rearm_of_watch hwatch (interestAfter o)
  rw [hput.slot, if_pos rfl] at hupdates
  rw [Task.run, hslot]
  simp only [if_neg hstays, hprocess]
  rw [Slots.rearmAfter, hrearm]
  exact hput.trans hupdates

end Server
end PageServer
