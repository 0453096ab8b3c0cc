import Mathlib.Data.List.Nodup
import PageServer.Proofs.Connection.Attachment
import PageServer.Proofs.Server.Population
import PageServer.Proofs.Server.Views

/-!
# Slots that are used again

The system gives a descriptor out again as soon as it is free, while tasks and timers of
earlier connections still name it.  They name a generation as well: a connection that is
over stays over, whatever becomes of its slot, and a reference to it has no effect.
-/

namespace PageServer
namespace Server

open Metrics (CloseReason)

/-- The slots, and what requests are worked on with. -/
structure Shared where
  slots : Slots
  backend : Accounts.Backend

/-- What may be done to the slots, by whoever holds a reference to one of them. -/
inductive Call
  | takeIn (raw : Int) (peer : Net.SocketAddress)
  | close (raw : Int) (generation : Option Nat) (reason : CloseReason)
  | work (raw : Int) (generation : Nat)
  | read (now fd : Nat)
  | write (now fd : Nat)
  | rearm (fd : Nat) (i : Interest)
  | poll
  /-- The client sends, reads, ends its side or goes away. -/
  | client (fd : Nat) (stream : Net.Stream)
  /-- The file of a connection changes. -/
  | refresh (fd : Nat) (d : Disk)
  /-- The disk or the accounts change. -/
  | backend (b : Accounts.Backend)

inductive Answer
  | generation (r : Except ServerError Nat)
  | closed (yes : Bool)
  | worked (r : Except Fault Unit)
  | done

namespace Shared

/-- Changes the session of a slot, if there is the slot. -/
def onSession (fd : Nat) (f : Session → Session) (w : Shared) : Shared :=
  match w.slots.slot? fd with
  | none => w
  | some slot => { w with slots := w.slots.putSession fd (f slot.session) }

def call (root : String) (w : Shared) : Call → Answer × Shared
  | .takeIn raw peer =>
    (.generation (w.slots.openRaw raw peer).1, { w with slots := (w.slots.openRaw raw peer).2 })
  | .close raw generation reason =>
    (.closed (w.slots.closeRaw raw generation reason).1,
      { w with slots := (w.slots.closeRaw raw generation reason).2 })
  | .work raw generation =>
    let r := Task.runRaw root raw generation w.slots w.backend
    (.worked r.1, ⟨r.2.1, r.2.2⟩)
  | .read now fd => (.done, w.onSession fd fun s => (s.read now).2)
  | .write now fd => (.done, w.onSession fd fun s => (s.write now).2)
  | .rearm fd i => (.done, { w with slots := (w.slots.rearm fd i).2 })
  | .poll => (.done, { w with slots := w.slots.poll.2 })
  | .client fd stream => (.done, w.onSession fd fun s => { s with stream })
  | .refresh fd d => (.done, w.onSession fd (·.refresh d))
  | .backend b => (.done, { w with backend := b })

/-- The connection that a call takes in. -/
def taken? (root : String) (w : Shared) (c : Call) : Option Tenancy :=
  match c, (w.call root c).1 with
  | .takeIn raw _, .generation (.ok generation) => raw.toNat?.map (⟨·, generation⟩)
  | _, _ => none

/-- The connection that a call closes. -/
def closed? (root : String) (w : Shared) (c : Call) : Option Tenancy :=
  match c, (w.call root c).1 with
  | .close raw _ _, .closed true => raw.toNat?.map w.slots.tenancy
  | _, _ => none

end Shared

/-- The slots with a record of the connections that were taken in and of those that were
closed. -/
structure Register where
  shared : Shared
  taken : List Tenancy := []
  closed : List Tenancy := []

namespace Register

def start (capacity : Nat) (b : Accounts.Backend) : Register where
  shared := ⟨.ofCapacity capacity, b⟩

def call (root : String) (r : Register) (c : Call) : Register where
  shared := (r.shared.call root c).2
  taken := r.taken ++ (r.shared.taken? root c).toList
  closed := r.closed ++ (r.shared.closed? root c).toList

/-- The register behind calls in a row. -/
def after (root : String) (r : Register) (calls : List Call) : Register :=
  calls.foldl (call root) r

end Register

/-! ## What a change of the slots leaves alone -/

namespace Slots

variable {s s' s'' : Slots} {fd : Nat}

/-- No connection has been taken in or closed, and no slot has lost its connection. -/
structure Still (s s' : Slots) : Prop where
  capacity : s'.capacity = s.capacity
  generation : ∀ fd, (s'.slotAt fd).generation = (s.slotAt fd).generation
  isLive : ∀ fd, (s'.slotAt fd).isLive = (s.slotAt fd).isLive

theorem Still.refl (s : Slots) : Still s s :=
  ⟨rfl, fun _ => rfl, fun _ => rfl⟩

theorem Still.trans (h : Still s s') (h' : Still s' s'') : Still s s'' where
  capacity := h'.capacity.trans h.capacity
  generation fd := (h'.generation fd).trans (h.generation fd)
  isLive fd := (h'.isLive fd).trans (h.isLive fd)

theorem still_putSession {session : Session}
    (h : session.connection.isLive = (s.slotAt fd).isLive) : Still s (s.putSession fd session) := by
  have hkept := kept_putSession s fd session
  refine ⟨hkept.capacity, hkept.generation, ?_⟩
  intro x
  cases hslot : s.slot? fd with
  | none => rw [putSession_of_slot? hslot]
  | some slot =>
    rw [slotAt_putSession hslot]
    split
    · next hx => rw [hx, ← h, Slot.isLive]
    · rfl

theorem still_rearm (s : Slots) (fd : Nat) (i : Interest) : Still s (s.rearm fd i).2 := by
  rw [rearm]
  split
  · exact ⟨rfl, fun _ => rfl, fun _ => rfl⟩
  · exact .refl s

theorem still_rearmAfter (s : Slots) (fd : Nat) (i : Interest) : Still s (s.rearmAfter fd i) := by
  have hrearm := still_rearm s fd i
  rw [rearmAfter]
  generalize s.rearm fd i = r at hrearm
  obtain ⟨armed, s'⟩ := r
  cases armed with
  | true => exact hrearm
  | false =>
    apply hrearm.trans
    apply still_putSession
    rw [Session.connection_cut]
    rfl

/-- Working on a request leaves every connection in its slot. -/
theorem still_run (t : Task) (root : String) (s : Slots) (b : Accounts.Backend) :
    Still s (t.run root s b).2.1 := by
  rw [Task.run]
  cases hslot : s.slot? t.fd with
  | none => exact .refl s
  | some slot =>
    have hlive := slot.session.isLive_process root b
    simp only
    split
    · exact .refl s
    · generalize slot.session.process root b = p at hlive
      obtain ⟨outcome, session, b'⟩ := p
      have hsession : session.connection.isLive = (s.slotAt t.fd).isLive := by
        rw [slotAt_of_slot? hslot]
        exact hlive
      cases outcome with
      | error f => exact still_putSession hsession
      | ok o =>
        refine (still_putSession ?_).trans (still_rearmAfter _ _ _)
        split
        · rw [Session.connection_cut, hsession]
        · exact hsession

/-! ## What takes in or closes a connection -/

theorem generation_openSlot {slot : Slot} (h : s.slot? fd = some slot) (peer : Net.SocketAddress)
    (x : Nat) : ((s.openSlot fd peer).2.slotAt x).generation =
      if x = fd then slot.generation + 1 else (s.slotAt x).generation := by
  rw [openSlot, h]
  cases s.poller.add fd .read with
  | error kind =>
    refine (congrArg Slot.generation (slotAt_put h _ x)).trans ?_
    split <;> rfl
  | ok poller =>
    refine (congrArg Slot.generation (slotAt_put h _ x)).trans ?_
    split <;> rfl

/-- What is open after a connection was taken in, or was not, has been open before or is
the new one. -/
theorem mem_present_openSlot {peer : Net.SocketAddress} {x : Tenancy}
    (h : x ∈ (s.openSlot fd peer).2.present) :
    x ∈ s.present ∨ x.fd = fd ∧ (s.openSlot fd peer).1 = .ok x.generation := by
  rw [openSlot] at h ⊢
  cases hslot : s.slot? fd with
  | none =>
    rw [hslot] at h
    exact .inl h
  | some slot =>
    rw [hslot] at h
    simp only at h ⊢
    rw [mem_present] at h ⊢
    by_cases hx : x.fd = fd
    · split at h
      · -- The poller has refused the descriptor, and the connection was given up at once.
        rw [slotAt_put hslot, if_pos hx] at h
        have hoff := Connection.isLive_detach (slot.session.attach fd peer).connection
        exact absurd (h.1.symm.trans hoff) (by decide)
      · next p hadd =>
        right
        refine ⟨hx, ?_⟩
        have hslot' := slotAt_put hslot ⟨slot.generation + 1, slot.session.attach fd peer⟩ x.fd
        rw [if_pos hx] at hslot'
        exact congrArg Except.ok ((congrArg Slot.generation hslot').symm.trans h.2)
    · left
      split at h
      · rwa [slotAt_put hslot, if_neg hx] at h
      · have hslot' := slotAt_put hslot ⟨slot.generation + 1, slot.session.attach fd peer⟩ x.fd
        rw [if_neg hx] at hslot'
        rw [← hslot']
        exact h

/-- A connection is closed by its generation exactly when it is open. -/
theorem close_some_iff {generation : Nat} {reason : CloseReason} :
    (s.close fd (some generation) reason).1 = true ↔ ⟨fd, generation⟩ ∈ s.present := by
  rw [close_fst, mem_present]
  exact and_congr_right fun _ => ⟨fun h => (h generation rfl).symm,
    fun h g hg => (Option.some.inj hg).symm.trans h.symm⟩

theorem mem_present_of_mem_close {generation : Option Nat} {reason : CloseReason} {x : Tenancy}
    (h : x ∈ (s.close fd generation reason).2.present) : x ∈ s.present := by
  by_cases hclosed : (s.close fd generation reason).1 = true
  · exact ((mem_present_close hclosed).mp h).1
  · rwa [close_of_not hclosed] at h

theorem Still.mem_present (h : Still s s') {x : Tenancy} : x ∈ s'.present ↔ x ∈ s.present := by
  rw [Slots.mem_present, Slots.mem_present, h.isLive, h.generation]

/-! ## Connections that are over -/

/-- The connection has been taken in, and is not open. -/
def Over (s : Slots) (x : Tenancy) : Prop :=
  x.generation ≤ (s.slotAt x.fd).generation ∧ x ∉ s.present

/-- A task of a connection that is over finds it gone. -/
theorem Over.run {x : Tenancy} (h : s.Over x) (root : String) (b : Accounts.Backend) :
    Task.run root ⟨x.fd, x.generation⟩ s b = (.ok (), s, b) := by
  apply Task.run_stale
  rintro ⟨slot, hslot, hgeneration, hlive⟩
  apply h.2
  rw [mem_present, slotAt_of_slot? hslot]
  exact ⟨hlive, hgeneration⟩

theorem Over.close {x : Tenancy} (h : s.Over x) (reason : CloseReason) :
    s.close x.fd (some x.generation) reason = (false, s) := by
  have hclosed : ¬(s.close x.fd (some x.generation) reason).1 = true :=
    fun hclosed => h.2 (close_some_iff.mp hclosed)
  exact Prod.ext (Bool.eq_false_iff.mpr hclosed) (close_of_not hclosed)

/-! ## Any change -/

/-- What may become of the slots, with the connection that has been taken in and the one
that has been closed. -/
inductive Change (s : Slots) : Slots → Option Tenancy → Option Tenancy → Prop
  | takeIn (fd : Nat) (peer : Net.SocketAddress) :
    Change s (s.openSlot fd peer).2 ((s.openSlot fd peer).1.toOption.map (⟨fd, ·⟩)) none
  | close (fd : Nat) (generation : Option Nat) (reason : CloseReason) :
    Change s (s.close fd generation reason).2 none
      (if (s.close fd generation reason).1 then some (s.tenancy fd) else none)
  | still {s' : Slots} (h : Still s s') : Change s s' none none

namespace Change

variable {taken closed : Option Tenancy} {x : Tenancy}

theorem capacity (h : Change s s' taken closed) : s'.capacity = s.capacity := by
  cases h with
  | takeIn fd peer => exact capacity_openSlot s fd peer
  | close fd generation reason => exact capacity_close s fd generation reason
  | still h => exact h.capacity

/-- No generation is lowered. -/
theorem generation_le (h : Change s s' taken closed) (x : Nat) :
    (s.slotAt x).generation ≤ (s'.slotAt x).generation := by
  cases h with
  | takeIn fd peer =>
    cases hslot : s.slot? fd with
    | none =>
      exact Nat.le_of_eq (by rw [openSlot, hslot])
    | some slot =>
      rw [generation_openSlot hslot]
      split
      · next hx =>
        rw [hx, slotAt_of_slot? hslot]
        exact Nat.le_succ _
      · exact Nat.le_refl _
  | close fd generation reason =>
    exact Nat.le_of_eq (generation_close s fd generation reason x).symm
  | still h => exact Nat.le_of_eq (h.generation x).symm

/-- What has been taken in is newer than all that its slot has had. -/
theorem newer (h : Change s s' taken closed) (hx : taken = some x) :
    x.generation = (s'.slotAt x.fd).generation ∧ (s.slotAt x.fd).generation < x.generation := by
  cases h with
  | close fd generation reason => cases hx
  | still h => cases hx
  | takeIn fd peer =>
    obtain ⟨g, hg, rfl⟩ := Option.map_eq_some_iff.mp hx
    cases hslot : s.slot? fd with
    | none =>
      rw [openSlot, hslot] at hg
      cases hg
    | some slot =>
      have hgeneration : g = slot.generation + 1 := by
        rw [openSlot, hslot] at hg
        simp only at hg
        split at hg <;> cases hg
        rfl
      rw [generation_openSlot hslot, if_pos rfl, slotAt_of_slot? hslot]
      exact ⟨hgeneration, hgeneration ▸ Nat.lt_succ_self _⟩

/-- What is open has been open before or has been taken in. -/
theorem present (h : Change s s' taken closed) (hx : x ∈ s'.present) :
    x ∈ s.present ∨ taken = some x := by
  cases h with
  | takeIn fd peer =>
    refine (mem_present_openSlot hx).imp_right ?_
    rintro ⟨rfl, hopen⟩
    rw [hopen]
    rfl
  | close fd generation reason => exact .inl (mem_present_of_mem_close hx)
  | still h => exact .inl (h.mem_present.mp hx)

/-- What is over stays over. -/
theorem stays_over (h : Change s s' taken closed) (hx : s.Over x) : s'.Over x := by
  refine ⟨Nat.le_trans hx.1 (h.generation_le x.fd), ?_⟩
  intro hpresent
  rcases h.present hpresent with hbefore | hnew
  · exact hx.2 hbefore
  · exact absurd hx.1 (Nat.not_le.mpr (h.newer hnew).2)

/-- What has been closed was open, and is over. -/
theorem ended (h : Change s s' taken closed) (hx : closed = some x) :
    x ∈ s.present ∧ s'.Over x := by
  cases h with
  | takeIn fd peer => cases hx
  | still h => cases hx
  | close fd generation reason =>
    split at hx
    · next hclosed =>
      obtain rfl := Option.some.inj hx
      refine ⟨tenancy_mem_present.mpr (close_fst.mp hclosed).1, ?_, ?_⟩
      · exact Nat.le_of_eq (generation_close s fd generation reason fd).symm
      · rw [mem_present_close hclosed]
        exact fun hmem => hmem.2 rfl
    · cases hx

end Change
end Slots

/-- A timer of a connection that is over evicts nobody. -/
theorem Reactor.evict_over {r : Reactor} {x : Client} (h : r.slots.Over ⟨x.fd, x.generation⟩) :
    r.evict x = r := by
  rw [Reactor.evict, h.close .idle]

/-! ## One call -/

namespace Shared

variable {root : String} {w : Shared} {fd : Nat}

theorem still_onSession {f : Session → Session}
    (h : ∀ s, (f s).connection.isLive = s.connection.isLive) (fd : Nat) (w : Shared) :
    w.slots.Still (w.onSession fd f).slots := by
  unfold onSession
  cases hslot : w.slots.slot? fd with
  | none => exact .refl _
  | some slot =>
    apply Slots.still_putSession
    rw [Slots.slotAt_of_slot? hslot, h]
    rfl

/-- A call that is not about a descriptor of the table is refused. -/
theorem call_outside {raw : Int} (h : ∀ fd, raw.toNat? = some fd → w.slots.capacity ≤ fd) :
    (∀ peer, w.call root (.takeIn raw peer) = (.generation (.error .slotTableFull), w)) ∧
      (∀ generation reason, w.call root (.close raw generation reason) = (.closed false, w)) ∧
      ∀ generation, w.call root (.work raw generation) = (.worked (.ok ()), w) := by
  simp only [call, Slots.openRaw, Slots.closeRaw, Task.runRaw]
  cases hraw : raw.toNat? with
  | none => exact ⟨fun _ => rfl, fun _ _ => rfl, fun _ => rfl⟩
  | some fd =>
    have hslot : w.slots.slot? fd = none := Array.getElem?_eq_none (h fd hraw)
    simp only [Slots.openSlot, Slots.close, Task.run, hslot, implies_true, and_self]

/-- Every call takes a connection in, closes one, or leaves all in place. -/
theorem change_call (root : String) (w : Shared) (c : Call) :
    w.slots.Change (w.call root c).2.slots (w.taken? root c) (w.closed? root c) := by
  cases c with
  | takeIn raw peer =>
    cases hraw : raw.toNat? with
    | none =>
      simp only [call, taken?, closed?, Slots.openRaw, hraw]
      exact .still (.refl _)
    | some fd =>
      have htaken : w.taken? root (.takeIn raw peer) =
          (w.slots.openSlot fd peer).1.toOption.map (⟨fd, ·⟩) := by
        simp only [call, taken?, Slots.openRaw, hraw]
        cases (w.slots.openSlot fd peer).1 with
        | error e => rfl
        | ok generation => simp only [hraw]; rfl
      simp only [htaken, call, closed?, Slots.openRaw, hraw]
      exact .takeIn fd peer
  | close raw generation reason =>
    cases hraw : raw.toNat? with
    | none =>
      simp only [call, taken?, closed?, Slots.closeRaw, hraw]
      exact .still (.refl _)
    | some fd =>
      have hclosed : w.closed? root (.close raw generation reason) =
          if (w.slots.close fd generation reason).1 then some (w.slots.tenancy fd) else none := by
        simp only [call, closed?, Slots.closeRaw, hraw]
        cases (w.slots.close fd generation reason).1 with
        | false => rfl
        | true => simp only [hraw]; rfl
      simp only [hclosed, call, taken?, Slots.closeRaw, hraw]
      exact .close fd generation reason
  | work raw generation =>
    simp only [call, taken?, closed?, Task.runRaw]
    cases raw.toNat? with
    | none => exact .still (.refl _)
    | some fd => exact .still (Slots.still_run _ root _ _)
  | read now fd => exact .still (still_onSession (·.isLive_read now) fd w)
  | write now fd => exact .still (still_onSession (·.isLive_write now) fd w)
  | rearm fd i => exact .still (Slots.still_rearm _ fd i)
  | poll => exact .still ⟨rfl, fun _ => rfl, fun _ => rfl⟩
  | client fd stream =>
    exact .still (still_onSession (f := fun s => { s with stream }) (fun _ => rfl) fd w)
  | refresh fd d => exact .still (still_onSession (f := (·.refresh d)) (fun _ => rfl) fd w)
  | backend b => exact .still (.refl _)

end Shared

/-! ## Any number of calls -/

namespace Register

variable {root : String} {r : Register}

/-- The record is right: each connection that is open has been taken in, each that was
closed is over, and none is recorded twice. -/
structure Faithful (r : Register) : Prop where
  old : ∀ x ∈ r.taken, x.generation ≤ (r.shared.slots.slotAt x.fd).generation
  takenOnce : r.taken.Nodup
  present : ∀ x ∈ r.shared.slots.present, x ∈ r.taken
  closedOver : ∀ x ∈ r.closed, r.shared.slots.Over x
  closedOnce : r.closed.Nodup
  closedTaken : ∀ x ∈ r.closed, x ∈ r.taken

theorem faithful_start (capacity : Nat) (b : Accounts.Backend) : (start capacity b).Faithful := by
  have hpresent : ∀ x, x ∉ (start capacity b).shared.slots.present := by
    intro x hx
    have hlive := (Slots.mem_present.mp hx).1
    simp only [start, Slots.slotAt, Slots.slot?, Slots.ofCapacity,
      Array.getElem?_replicate] at hlive
    split at hlive <;> cases hlive
  have hnobody {P : Tenancy → Prop} : ∀ x ∈ ([] : List Tenancy), P x :=
    fun _ hx => absurd hx List.not_mem_nil
  exact ⟨hnobody, List.nodup_nil, fun x hx => absurd hx (hpresent x), hnobody, List.nodup_nil,
    hnobody⟩

theorem Faithful.call (h : r.Faithful) (root : String) (c : Call) : (r.call root c).Faithful := by
  have hchange := r.shared.change_call root c
  have hold (x : Tenancy) (hx : x ∈ r.taken) :=
    Nat.le_trans (h.old x hx) (hchange.generation_le x.fd)
  have hmem (x : Tenancy) : x ∈ (r.call root c).taken ↔
      x ∈ r.taken ∨ r.shared.taken? root c = some x := by
    simp [Register.call]
  have hmem' (x : Tenancy) : x ∈ (r.call root c).closed ↔
      x ∈ r.closed ∨ r.shared.closed? root c = some x := by
    simp [Register.call]
  constructor
  · intro x hx
    rcases (hmem x).mp hx with hx | hx
    · exact hold x hx
    · exact Nat.le_of_eq (hchange.newer hx).1
  · cases htaken : r.shared.taken? root c with
    | none => simpa [Register.call, htaken] using h.takenOnce
    | some x =>
      have hnew : x ∉ r.taken := by
        intro hx
        exact absurd (h.old x hx) (Nat.not_le.mpr (hchange.newer htaken).2)
      simp only [Register.call, htaken, Option.toList_some, ← List.concat_eq_append]
      exact List.Nodup.concat hnew h.takenOnce
  · intro x hx
    rw [hmem]
    exact (hchange.present hx).imp_left (h.present x)
  · intro x hx
    rcases (hmem' x).mp hx with hx | hx
    · exact hchange.stays_over (h.closedOver x hx)
    · exact (hchange.ended hx).2
  · cases hclosed : r.shared.closed? root c with
    | none => simpa [Register.call, hclosed] using h.closedOnce
    | some x =>
      have hnew : x ∉ r.closed := fun hx => (h.closedOver x hx).2 (hchange.ended hclosed).1
      simp only [Register.call, hclosed, Option.toList_some, ← List.concat_eq_append]
      exact List.Nodup.concat hnew h.closedOnce
  · intro x hx
    rw [hmem]
    rcases (hmem' x).mp hx with hx | hx
    · exact .inl (h.closedTaken x hx)
    · exact .inl (h.present x (hchange.ended hx).1)

theorem Faithful.after (h : r.Faithful) (root : String) (calls : List Call) :
    (r.after root calls).Faithful := by
  induction calls generalizing r with
  | nil => exact h
  | cons c calls ih => exact ih (h.call root c)

theorem capacity_after (root : String) (r : Register) (calls : List Call) :
    (r.after root calls).shared.slots.capacity = r.shared.slots.capacity := by
  induction calls generalizing r with
  | nil => rfl
  | cons c calls ih => exact (ih (r.call root c)).trans (r.shared.change_call root c).capacity

/-- Whatever was done to the slots, on whatever descriptors, in whatever order: taking a
connection in raises the generation of its slot, and nothing lowers it; a generation is
closed exactly if it is open, so each connection is taken in once and closed at most once;
a task or a timer of a connection that was closed has no effect; and what is not in the
table is refused. -/
theorem stale_reference_no_effect (root : String) (capacity : Nat) (b : Accounts.Backend)
    (calls : List Call) :
    let r := (start capacity b).after root calls
    let w := r.shared
    let generation (w : Shared) (fd : Nat) := (w.slots.slotAt fd).generation
    (∀ fd < capacity, ∀ peer,
      generation (w.call root (.takeIn fd peer)).2 fd = generation w fd + 1) ∧
    (∀ c fd, generation w fd ≤ generation (w.call root c).2 fd) ∧
    (∀ (raw : Int) g reason, (w.call root (.close raw (some g) reason)).1 = .closed true ↔
      ∃ fd slot, raw.toNat? = some fd ∧ w.slots.slot? fd = some slot ∧ slot.isLive = true ∧
        slot.generation = g) ∧
    (r.taken.Nodup ∧ r.closed.Nodup ∧ ∀ x ∈ r.closed, x ∈ r.taken) ∧
    (∀ x ∈ r.closed,
      w.call root (.work x.fd x.generation) = (.worked (.ok ()), w) ∧
      (∀ reason, w.call root (.close x.fd (some x.generation) reason) = (.closed false, w)) ∧
      ∀ reactor : Reactor, reactor.slots = w.slots → ∀ peer,
        reactor.evict ⟨x.fd, x.generation, peer⟩ = reactor) ∧
    ∀ raw : Int, raw < 0 ∨ capacity ≤ raw →
      (∀ peer, w.call root (.takeIn raw peer) = (.generation (.error .slotTableFull), w)) ∧
      ∀ generation reason, w.call root (.close raw generation reason) = (.closed false, w) := by
  intro r w generation
  have hfaithful : r.Faithful := (faithful_start capacity b).after root calls
  have hcapacity : w.slots.capacity = capacity := by
    rw [show w.slots.capacity = _ from capacity_after root _ calls]
    exact Array.size_replicate
  refine ⟨?_, fun c fd => (w.change_call root c).generation_le fd, ?_,
    ⟨hfaithful.takenOnce, hfaithful.closedOnce, hfaithful.closedTaken⟩, ?_, ?_⟩
  · intro fd hfd peer
    have hslot : w.slots.slot? fd = some (w.slots.slotAt fd) := by
      have hlt : fd < w.slots.table.size := Nat.lt_of_lt_of_eq hfd hcapacity.symm
      rw [Slots.slotAt, Slots.slot?, Array.getElem?_eq_getElem hlt, Option.getD_some]
    have hgeneration := Slots.generation_openSlot hslot peer fd
    rw [if_pos rfl] at hgeneration
    exact hgeneration
  · intro raw g reason
    simp only [Shared.call, Slots.closeRaw]
    cases hraw : raw.toNat? with
    | none => simp
    | some fd =>
      simp only [Answer.closed.injEq, Slots.close_some_iff, Slots.mem_present, Option.some.injEq]
      constructor
      · rintro ⟨hlive, hgeneration⟩
        exact ⟨fd, _, rfl, Slots.slot?_of_isLive hlive, hlive, hgeneration⟩
      · rintro ⟨_, slot, rfl, hslot, hlive, hgeneration⟩
        rw [Slots.slotAt_of_slot? hslot]
        exact ⟨hlive, hgeneration⟩
  · intro x hx
    have hover : w.slots.Over x := hfaithful.closedOver x hx
    refine ⟨?_, ?_, ?_⟩
    · simp only [Shared.call, Task.runRaw, Int.toNat?]
      rw [hover.run]
    · intro reason
      simp only [Shared.call, Slots.closeRaw, Int.toNat?]
      rw [hover.close]
    · intro reactor hreactor peer
      apply Reactor.evict_over
      rw [hreactor]
      exact hover
  · intro raw hraw
    have houtside : ∀ fd, raw.toNat? = some fd → w.slots.capacity ≤ fd := by
      intro fd hfd
      have hvalue := Int.mem_toNat?.mp hfd
      omega
    exact ⟨(Shared.call_outside houtside).1, (Shared.call_outside houtside).2.1⟩

end Register
end Server
end PageServer
