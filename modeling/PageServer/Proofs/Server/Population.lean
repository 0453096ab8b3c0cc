import PageServer.Proofs.Connection.Standing
import PageServer.Proofs.Server.Slots

/-!
# Who is connected

The connections that are open, each told apart by its generation from those that its
descriptor had before.  Taking a client in adds one to them, closing takes one away, and
both are counted.  Whatever else is done to the slots leaves the connections and the
counts alone.
-/

namespace PageServer
namespace Server

open Metrics (CloseReason)

/-- One of the connections that a descriptor has had. -/
structure Tenancy where
  fd : Nat
  generation : Nat
  deriving DecidableEq, Repr

namespace Slots

variable {s s' s'' : Slots} {fd : Nat} {slot : Slot}

/-- The latest connection of a descriptor. -/
def tenancy (s : Slots) (fd : Nat) : Tenancy :=
  ⟨fd, (s.slotAt fd).generation⟩

/-- The connections that are open. -/
def present (s : Slots) : List Tenancy :=
  ((List.range s.capacity).filter fun fd => (s.slotAt fd).isLive).map s.tenancy

theorem lt_capacity_of_isLive (h : (s.slotAt fd).isLive = true) : fd < s.capacity :=
  (Array.getElem?_eq_some_iff.mp (slot?_of_isLive h)).1

theorem mem_present {x : Tenancy} :
    x ∈ s.present ↔ (s.slotAt x.fd).isLive = true ∧ (s.slotAt x.fd).generation = x.generation := by
  rw [present, List.mem_map]
  constructor
  · rintro ⟨fd, hfd, rfl⟩
    exact ⟨(List.mem_filter.mp hfd).2, rfl⟩
  · rintro ⟨hlive, hgeneration⟩
    refine ⟨x.fd, List.mem_filter.mpr ⟨List.mem_range.mpr (lt_capacity_of_isLive hlive), hlive⟩, ?_⟩
    rw [tenancy, hgeneration]

theorem tenancy_mem_present : s.tenancy fd ∈ s.present ↔ (s.slotAt fd).isLive = true := by
  rw [mem_present]
  exact and_iff_left rfl

theorem nodup_present (s : Slots) : s.present.Nodup := by
  have hrange : (List.range s.capacity).Nodup := List.nodup_range
  have happart (x y : Nat) (hne : x ≠ y) : s.tenancy x ≠ s.tenancy y :=
    fun heq => hne (congrArg Tenancy.fd heq)
  exact List.Pairwise.map s.tenancy happart (hrange.filter _)

theorem length_present (s : Slots) : s.present.length = s.table.countP Slot.isLive := by
  have htable : (List.range s.capacity).map s.slotAt = s.table.toList := by
    apply List.ext_getElem
    · simp [capacity]
    · intro fd hfd hlt
      rw [Array.length_toList] at hlt
      simp [slotAt, slot?, hlt]
  rw [present, List.length_map, ← List.countP_eq_length_filter, ← Array.countP_toList, ← htable,
    List.countP_map]
  rfl

/-- What is open in one place and nothing else is open in the other. -/
theorem present_perm_cons {x : Tenancy} (absent : x ∉ s'.present)
    (mem : ∀ y, y ∈ s.present ↔ y = x ∨ y ∈ s'.present) : s.present.Perm (x :: s'.present) := by
  rw [List.perm_ext_iff_of_nodup (nodup_present s) (List.nodup_cons.mpr ⟨absent, nodup_present s'⟩)]
  intro y
  rw [mem y, List.mem_cons]

/-- One connection less. -/
theorem Updates.present_of_closed {watch : Option (Option Interest)}
    (h : Updates fd slot watch s s') (before : (s.slotAt fd).isLive = true)
    (after : slot.isLive = false) : s.present.Perm (s.tenancy fd :: s'.present) := by
  have hslot (x : Nat) := h.slot x
  apply present_perm_cons
  · rw [mem_present, hslot, if_pos (show (s.tenancy fd).fd = fd from rfl), after]
    exact fun hmem => Bool.false_ne_true hmem.1
  · rintro ⟨y, generation⟩
    rw [mem_present, mem_present, hslot]
    by_cases hy : y = fd
    · subst hy
      simp [before, after, tenancy, eq_comm]
    · simp [hy, tenancy]

/-- One connection more. -/
theorem Updates.present_of_opened {watch : Option (Option Interest)}
    (h : Updates fd slot watch s s') (before : (s.slotAt fd).isLive = false)
    (after : slot.isLive = true) : s'.present.Perm (⟨fd, slot.generation⟩ :: s.present) := by
  have hslot (x : Nat) := h.slot x
  apply present_perm_cons
  · rw [mem_present, before]
    exact fun hmem => Bool.false_ne_true hmem.1
  · rintro ⟨y, generation⟩
    rw [mem_present, mem_present, hslot]
    by_cases hy : y = fd
    · subst hy
      simp [before, after, eq_comm]
    · simp [hy]

/-! ## What leaves the connections alone -/

/-- No connection has been taken in or closed. -/
structure Kept (s s' : Slots) : Prop where
  capacity : s'.capacity = s.capacity
  generation : ∀ fd, (s'.slotAt fd).generation = (s.slotAt fd).generation
  watched : ∀ fd, (s'.watch fd).isSome = (s.watch fd).isSome
  live : s'.live = s.live
  accepted : s'.counters.accepted = s.counters.accepted
  closed : s'.counters.closed = s.counters.closed
  idleEvictions : s'.counters.idleEvictions = s.counters.idleEvictions
  queueRejections : s'.counters.queueRejections = s.counters.queueRejections

theorem Kept.refl (s : Slots) : Kept s s :=
  ⟨rfl, fun _ => rfl, fun _ => rfl, rfl, rfl, rfl, rfl, rfl⟩

theorem Kept.trans (h : Kept s s') (h' : Kept s' s'') : Kept s s'' where
  capacity := h'.capacity.trans h.capacity
  generation fd := (h'.generation fd).trans (h.generation fd)
  watched fd := (h'.watched fd).trans (h.watched fd)
  live := h'.live.trans h.live
  accepted := h'.accepted.trans h.accepted
  closed := h'.closed.trans h.closed
  idleEvictions := h'.idleEvictions.trans h.idleEvictions
  queueRejections := h'.queueRejections.trans h.queueRejections

/-- Where what is watched is open, the same connections are open as before. -/
theorem Kept.present (h : Kept s s') (before : ∀ fd, (s.slotAt fd).isLive = (s.watch fd).isSome)
    (after : ∀ fd, (s'.slotAt fd).isLive = (s'.watch fd).isSome) : s'.present = s.present := by
  have hlive : (fun fd => (s'.slotAt fd).isLive) = fun fd => (s.slotAt fd).isLive := by
    funext fd
    rw [after, h.watched, before]
  have htenancy : s'.tenancy = s.tenancy := by
    funext fd
    rw [tenancy, h.generation, tenancy]
  rw [Slots.present, Slots.present, h.capacity, hlive, htenancy]

/-- Where there is no slot there is nothing to replace. -/
theorem putSession_of_slot? (h : s.slot? fd = none) (session : Session) :
    s.putSession fd session = s := by
  rw [slot?, Array.getElem?_eq_none_iff] at h
  simp [putSession, Array.modify, Array.modifyM, Nat.not_lt.mpr h]

theorem kept_putSession (s : Slots) (fd : Nat) (session : Session) :
    Kept s (s.putSession fd session) := by
  refine { Kept.refl s with capacity := ?_, generation := ?_, watched := fun _ => rfl }
  · simp [putSession, Slots.capacity]
  · intro x
    cases hslot : s.slot? fd with
    | none => rw [putSession_of_slot? hslot]
    | some slot =>
      rw [slotAt_putSession hslot]
      split
      · next hx => rw [hx, slotAt_of_slot? hslot]
      · rfl

/-- Arming and disarming are no concern of the connections. -/
theorem kept_mark (s : Slots) {fd : Nat} {v : Option Interest} {p : Poller}
    (h : p.entries = s.poller.entries.map fun e => if e.1 = fd then (fd, v) else e) :
    Kept s { s with poller := p } := by
  refine { Kept.refl s with capacity := rfl, generation := fun _ => rfl, watched := ?_ }
  intro x
  rw [watch, watch, h, Poller.lookup_mark]
  split
  · next hx => rw [hx, Option.isSome_map]
  · rfl

theorem kept_rearm (s : Slots) (fd : Nat) (i : Interest) : Kept s (s.rearm fd i).2 := by
  rw [rearm, Poller.rearm]
  by_cases hwatched : s.poller.isWatched fd = true
  · rw [if_pos hwatched]
    exact kept_mark s rfl
  · rw [if_neg hwatched]
    exact .refl s

theorem kept_rearmAfter (s : Slots) (fd : Nat) (i : Interest) : Kept s (s.rearmAfter fd i) := by
  have hkept := kept_rearm s fd i
  rw [rearmAfter]
  cases hrearm : s.rearm fd i with
  | mk armed s' =>
    rw [hrearm] at hkept
    cases armed with
    | true => exact hkept
    | false => exact hkept.trans (kept_putSession s' fd _)

/-- Working on a request takes nobody in and closes nothing. -/
theorem kept_run (t : Task) (root : String) (s : Slots) (b : Accounts.Backend) :
    Kept s (t.run root s b).2.1 := by
  rw [Task.run]
  split
  · exact .refl s
  · split
    · exact .refl s
    · split
      · exact kept_putSession s t.fd _
      · exact (kept_putSession s t.fd _).trans (kept_rearmAfter _ t.fd _)

theorem kept_countResponse (s : Slots) (code bytes : Nat) (latency : Option Nat) :
    Kept s { s with counters := (s.counters.countResponse code bytes latency).2 } := by
  unfold Metrics.Counters.countResponse
  simp only
  split <;> exact { Kept.refl s with }

/-! ## What takes in or closes a connection -/

theorem capacity_openSlot (s : Slots) (fd : Nat) (peer : Net.SocketAddress) :
    (s.openSlot fd peer).2.capacity = s.capacity := by
  rw [openSlot]
  split
  · rfl
  · simp only
    split <;> simp [Slots.capacity, put]

/-- A client has been taken in at a descriptor that had no open connection. -/
structure Opened (fd generation : Nat) (s s' : Slots) : Prop where
  off : (s.slotAt fd).isLive = false
  next : generation = (s.slotAt fd).generation + 1
  capacity : s'.capacity = s.capacity
  present : s'.present.Perm (⟨fd, generation⟩ :: s.present)
  generation : ∀ x, (s'.slotAt x).generation =
    if x = fd then generation else (s.slotAt x).generation
  live : s'.live = s.live + 1
  counters : s'.counters = s.counters.countAccept

theorem opened_openSlot (h : s.slot? fd = some slot) (off : slot.isLive = false)
    (unwatched : s.watch fd = none) (peer : Net.SocketAddress) :
    ∃ s', s.openSlot fd peer = (.ok (slot.generation + 1), s') ∧
      Opened fd (slot.generation + 1) s s' := by
  have hadd : s.poller.add fd .read =
      .ok { entries := Poller.place fd .read s.poller.entries } := by
    rw [Poller.add, Poller.isWatched_eq, show s.poller.entries.lookup fd = none from unwatched]
    rfl
  have hslot := slotAt_of_slot? h
  have hupdates := updates_openSlot h unwatched peer
  have hcapacity := capacity_openSlot s fd peer
  obtain ⟨s', hopen, hlive, hcounters⟩ :
      ∃ s', s.openSlot fd peer = (.ok (slot.generation + 1), s') ∧
      s'.live = s.live + 1 ∧ s'.counters = s.counters.countAccept := by
    rw [openSlot, h]
    simp only [hadd]
    exact ⟨_, rfl, rfl, rfl⟩
  rw [hopen] at hupdates hcapacity
  have hbefore : (s.slotAt fd).isLive = false := by rw [hslot, off]
  refine ⟨s', hopen, hbefore, by rw [hslot], hcapacity,
    hupdates.present_of_opened hbefore rfl, ?_, hlive, hcounters⟩
  intro x
  rw [hupdates.slot]
  split <;> rfl

/-- Whether a connection is closed: it is open, and no other generation is meant. -/
theorem close_fst {generation : Option Nat} {reason : CloseReason} :
    (s.close fd generation reason).1 = true ↔
      (s.slotAt fd).isLive = true ∧ ∀ g ∈ generation, g = (s.slotAt fd).generation := by
  rw [close]
  cases hslot : s.slot? fd with
  | none =>
    simp only [Bool.false_eq_true, false_iff, slotAt, hslot, Option.getD_none]
    exact fun hopen => Bool.false_ne_true hopen.1
  | some slot =>
    rw [slotAt_of_slot? hslot]
    cases generation with
    | none => cases hlive : slot.isLive <;> simp [hlive]
    | some g => by_cases hg : g = slot.generation <;> cases hlive : slot.isLive <;> simp [hg, hlive]

theorem close_of_not {generation : Option Nat} {reason : CloseReason}
    (h : ¬(s.close fd generation reason).1 = true) : (s.close fd generation reason).2 = s := by
  rw [close] at h ⊢
  split
  · rfl
  · split
    · rfl
    · next hslot hopen => exact absurd (by rw [hslot]; simp only [if_neg hopen]) h

/-- What is closed is not open any more, and it is counted. -/
theorem close_of_isLive (live : (s.slotAt fd).isLive = true) {generation : Option Nat}
    (same : ∀ g ∈ generation, g = (s.slotAt fd).generation) (reason : CloseReason) :
    let s' := (s.close fd generation reason).2
    s.present.Perm (s.tenancy fd :: s'.present) ∧ s'.live = s.live - 1 ∧
      s'.counters = s.counters.countClose reason ∧ s'.capacity = s.capacity := by
  intro s'
  have hslot := slot?_of_isLive live
  have hupdates := updates_close hslot live same reason
  have hoff : Slot.isLive { s.slotAt fd with session := (s.slotAt fd).session.close.2 } = false :=
    Connection.isLive_detach _
  refine ⟨hupdates.present_of_closed live hoff, ?_⟩
  have hsame : generation.any (· != (s.slotAt fd).generation) = false := by
    cases generation with
    | none => rfl
    | some g => simp [same g rfl]
  have hs' : s' = { s.putSession fd (s.slotAt fd).session.close.2 with
      poller := s.poller.delete fd
      live := s.live - 1
      counters := s.counters.countClose reason } := by
    rw [show s' = (s.close fd generation reason).2 from rfl, close, hslot]
    simp only [hsame, live, Bool.not_true, Bool.or_self, Bool.false_eq_true, if_false]
  rw [hs']
  refine ⟨rfl, rfl, ?_⟩
  simp [Slots.capacity, putSession]

/-- The others stay open. -/
theorem mem_present_close {generation : Option Nat} {reason : CloseReason}
    (closed : (s.close fd generation reason).1 = true) {x : Tenancy} :
    x ∈ (s.close fd generation reason).2.present ↔ x ∈ s.present ∧ x.fd ≠ fd := by
  obtain ⟨live, same⟩ := close_fst.mp closed
  obtain ⟨hpresent, -⟩ := close_of_isLive live same reason
  have hnodup := (hpresent.nodup_iff.mp (nodup_present s))
  rw [hpresent.mem_iff, List.mem_cons]
  constructor
  · intro hx
    refine ⟨.inr hx, ?_⟩
    intro hfd
    have hbefore : x ∈ s.present := hpresent.mem_iff.mpr (List.mem_cons_of_mem _ hx)
    obtain ⟨-, hgeneration⟩ := mem_present.mp hbefore
    have heq : s.tenancy fd = x := by
      rw [tenancy, ← hfd, hgeneration]
    exact (List.nodup_cons.mp hnodup).1 (heq ▸ hx)
  · rintro ⟨rfl | hx, hne⟩
    · exact absurd rfl hne
    · exact hx

theorem mem_present_close_any {reason : CloseReason} {x : Tenancy} :
    x ∈ (s.close fd none reason).2.present ↔ x ∈ s.present ∧ x.fd ≠ fd := by
  by_cases hclosed : (s.close fd none reason).1 = true
  · exact mem_present_close hclosed
  · rw [close_of_not hclosed]
    refine ⟨fun hx => ⟨hx, ?_⟩, And.left⟩
    rintro rfl
    exact hclosed (close_fst.mpr ⟨(mem_present.mp hx).1, nofun⟩)

theorem capacity_close (s : Slots) (fd : Nat) (generation : Option Nat) (reason : CloseReason) :
    (s.close fd generation reason).2.capacity = s.capacity := by
  by_cases hclosed : (s.close fd generation reason).1 = true
  · obtain ⟨live, same⟩ := close_fst.mp hclosed
    exact (close_of_isLive live same reason).2.2.2
  · rw [close_of_not hclosed]

theorem generation_close (s : Slots) (fd : Nat) (generation : Option Nat) (reason : CloseReason)
    (x : Nat) :
    ((s.close fd generation reason).2.slotAt x).generation = (s.slotAt x).generation := by
  by_cases hclosed : (s.close fd generation reason).1 = true
  · obtain ⟨live, same⟩ := close_fst.mp hclosed
    rw [(updates_close (slot?_of_isLive live) live same reason).slot]
    split
    · next hx => rw [hx]
    · rfl
  · rw [close_of_not hclosed]

/-- The count of connections is right, and so are those of clients taken in and of
connections closed. -/
structure Counted (s : Slots) : Prop where
  live : s.live = s.present.length
  accepted : s.counters.accepted = s.counters.closed + s.live

theorem Counted.close (h : s.Counted) (fd : Nat) (generation : Option Nat) (reason : CloseReason) :
    (s.close fd generation reason).2.Counted := by
  by_cases hclosed : (s.close fd generation reason).1 = true
  · obtain ⟨live, same⟩ := close_fst.mp hclosed
    obtain ⟨hpresent, hlive, hcounters, -⟩ := close_of_isLive live same reason
    have hlength := hpresent.length_eq
    have hcount := h.live
    have haccepted := h.accepted
    rw [List.length_cons] at hlength
    constructor
    · rw [hlive]
      omega
    · rw [hcounters, hlive]
      simp only [Metrics.Counters.countClose]
      omega
  · rw [close_of_not hclosed]
    exact h

theorem Counted.opened {generation : Nat} (h : s.Counted) (opened : Opened fd generation s s') :
    s'.Counted := by
  have hlength := opened.present.length_eq
  have hlive := h.live
  have haccepted := h.accepted
  rw [List.length_cons] at hlength
  constructor
  · rw [opened.live]
    omega
  · rw [opened.counters, opened.live]
    simp only [Metrics.Counters.countAccept]
    omega

theorem live_close_le (s : Slots) (fd : Nat) (generation : Option Nat) (reason : CloseReason) :
    (s.close fd generation reason).2.live ≤ s.live := by
  by_cases hclosed : (s.close fd generation reason).1 = true
  · obtain ⟨live, same⟩ := close_fst.mp hclosed
    rw [(close_of_isLive live same reason).2.1]
    exact Nat.sub_le _ _
  · exact Nat.le_of_eq (congrArg Slots.live (close_of_not hclosed))

end Slots
end Server
end PageServer
