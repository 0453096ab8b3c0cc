import PageServer.Proofs.Config.Limits
import PageServer.Proofs.Server.Chronicle
import PageServer.Proofs.Timer.Refinement

/-!
# The timers of connections

Each open connection has one armed timer, which expires when the connection has been idle
for too long, and each armed timer is that of an open connection.  Of connections that are
gone a descriptor may still name a timer, but none whose node is left.  While the timers
are looked at, those that have expired are already out of the heap and their connections
are about to be closed.
-/

namespace PageServer
namespace Server

open Metrics (CloseReason)
open Timer (Registry Represents)

namespace Reactor

variable {r : Reactor} {now fd id : Nat}

/-- Nanoseconds that a connection may be idle. -/
def idleSpan (r : Reactor) : Nat :=
  3 * r.config.timeslot * nanosPerSecond

theorem expiry_eq {e : Nat} (h : r.expiry now = .ok e) : e = now + r.idleSpan :=
  (expiry_eq_ok_iff.mp h).1

theorem timerId?_eq_some : r.timerId? fd = some id ↔ r.timerIds[fd]? = some (some id) :=
  Option.join_eq_some_iff

theorem lt_size_of_timerId? (h : r.timerId? fd = some id) : fd < r.timerIds.size :=
  (Array.getElem?_eq_some_iff.mp (timerId?_eq_some.mp h)).1

theorem timerId?_set (h : fd < r.timerIds.size) (v : Option Nat) (x : Nat) :
    timerId? { r with timerIds := r.timerIds.setIfInBounds fd v } x =
      if x = fd then v else r.timerId? x := by
  by_cases hx : x = fd
  · subst hx
    simp [timerId?, h]
  · simp [timerId?, hx, Ne.symm hx]

theorem timerId?_set_none (fd x : Nat) :
    timerId? { r with timerIds := r.timerIds.setIfInBounds fd none } x =
      if x = fd then none else r.timerId? x := by
  by_cases hfd : fd < r.timerIds.size
  · exact timerId?_set hfd none x
  · by_cases hx : x = fd
    · subst hx
      simp [timerId?, hfd]
    · simp [timerId?, hx, Ne.symm hx]

/-- The timers say of each connection when it has been idle for too long, if `active` says
when it was active last and the clients of `evicting` are about to be closed. -/
structure Times (r : Reactor) (active : Nat → Nat) (evicting : List Client) (k : Registry Client) :
    Prop where
  wellFormed : r.timers.WellFormed
  represents : Represents k r.timers
  size : r.timerIds.size = r.slots.capacity
  issued : ∀ fd id, r.timerId? fd = some id → id < k.issued
  armed : ∀ id e, k.timer id = some e → e.armed = true → e.data.tenancy ∈ r.slots.present ∧
    r.timerId? e.data.fd = some id ∧ e.expiry = active e.data.fd + r.idleSpan
  own : ∀ fd id e, r.timerId? fd = some id → k.timer id = some e → e.armed = true ∧ e.data.fd = fd
  timed : ∀ fd, (r.slots.slotAt fd).isLive = true →
    (∃ id e, r.timerId? fd = some id ∧ k.timer id = some e) ∨ ∃ x ∈ evicting, x.fd = fd
  expired : ∀ x ∈ evicting, x.tenancy ∈ r.slots.present ∧
    ∀ id, r.timerId? x.fd = some id → k.timer id = none
  distinct : (evicting.map Client.fd).Nodup

namespace Times

variable {active : Nat → Nat} {evicting : List Client} {k : Registry Client}

theorem start (h : r.Prepared) (active : Nat → Nat) : r.Times active [] {} := by
  obtain ⟨capacity, htimers⟩ := h.timers
  have hnone (fd : Nat) : r.timerId? fd = none := by
    rw [timerId?, h.timerIds, Array.getElem?_replicate]
    split <;> rfl
  constructor
  · rw [htimers]
    exact Timer.Heap.wellFormed_new capacity
  · rw [htimers]
    exact Represents.new capacity
  · rw [h.timerIds, Array.size_replicate]
  · intro fd id hid
    rw [hnone] at hid
    cases hid
  · intro id e he
    cases he
  · intro fd id e hid
    rw [hnone] at hid
    cases hid
  · intro fd hlive
    rw [h.isLive_slotAt] at hlive
    cases hlive
  · exact nofun
  · exact List.nodup_nil

/-- What leaves the timers and the connections alone leaves this alone. -/
theorem congr (h : r.Times active evicting k) {r' : Reactor} (config : r'.config = r.config)
    (timers : r'.timers = r.timers) (timerIds : r'.timerIds = r.timerIds)
    (capacity : r'.slots.capacity = r.slots.capacity)
    (present : r'.slots.present = r.slots.present) : r'.Times active evicting k := by
  have hid (fd : Nat) : r'.timerId? fd = r.timerId? fd := by
    rw [timerId?, timerIds, timerId?]
  have hspan : r'.idleSpan = r.idleSpan := by
    rw [idleSpan, config, idleSpan]
  constructor
  · rw [timers]
    exact h.wellFormed
  · rw [timers]
    exact h.represents
  · rw [timerIds, capacity]
    exact h.size
  · simpa only [hid] using h.issued
  · simpa only [hid, hspan, present] using h.armed
  · simpa only [hid] using h.own
  · intro fd
    rw [← Slots.tenancy_mem_present, present, hid]
    intro hmem
    exact h.timed fd ((Slots.mem_present.mp hmem).1)
  · simpa only [hid, present] using h.expired
  · exact h.distinct

/-- No two descriptors name a timer whose node is left. -/
theorem fd_eq_of_timerId? (h : r.Times active evicting k) {x : Nat} {e : Timer.Entry Client}
    (hid : r.timerId? fd = some id) (hx : r.timerId? x = some id) (he : k.timer id = some e) :
    x = fd :=
  (h.own x id e hx he).2.symm.trans (h.own fd id e hid he).2

/-! ### More time -/

/-- Where no timer is named there is none whose expiry could tell when the connection was
active. -/
theorem update_active (h : r.Times active evicting k) (hid : r.timerId? fd = none) (now : Nat) :
    r.Times (Function.update active fd now) evicting k := by
  refine { h with armed := ?_ }
  intro i e he harmed
  obtain ⟨hmem, hnamed, hexpiry⟩ := h.armed i e he harmed
  have hne : e.data.fd ≠ fd := by
    intro hfd
    rw [hfd, hid] at hnamed
    cases hnamed
  exact ⟨hmem, hnamed, by rw [Function.update_of_ne hne, hexpiry]⟩

/-- The timer that a descriptor names expires later, and nobody else's does. -/
theorem adjust (h : r.Times active evicting k) (hid : r.timerId? fd = some id) {expiry : Nat}
    (hexpiry : r.expiry now = .ok expiry) :
    Times { r with timers := (r.timers.adjust id expiry).2 }
      (Function.update active fd now) evicting
      (k.adjust id expiry) := by
  refine ⟨h.wellFormed.adjust id expiry, (h.represents.adjust h.wellFormed id expiry).2, h.size,
    h.issued, ?_, ?_, ?_, ?_, h.distinct⟩
  · intro i e he harmed
    rw [Registry.timer_adjust] at he
    obtain ⟨e, hbefore, rfl⟩ := Option.map_eq_some_iff.mp he
    by_cases hi : i = id
    · subst hi
      obtain ⟨htrue, rfl⟩ := h.own fd i e hid hbefore
      obtain ⟨hmem, hnamed, -⟩ := h.armed i e hbefore htrue
      simp only [if_true, Function.update_self]
      exact ⟨hmem, hnamed, expiry_eq hexpiry⟩
    · rw [if_neg hi] at harmed ⊢
      obtain ⟨hmem, hnamed, hlast⟩ := h.armed i e hbefore harmed
      have hne : e.data.fd ≠ fd := by
        intro hfd
        rw [hfd, hid] at hnamed
        exact hi (Option.some.inj hnamed).symm
      rw [Function.update_of_ne hne]
      exact ⟨hmem, hnamed, hlast⟩
  · intro x i e hx he
    rw [Registry.timer_adjust] at he
    obtain ⟨e, hbefore, rfl⟩ := Option.map_eq_some_iff.mp he
    split <;> exact h.own x i e hx hbefore
  · intro x hlive
    refine (h.timed x hlive).imp_left ?_
    rintro ⟨i, e, hx, he⟩
    exact ⟨i, _, hx, by rw [Registry.timer_adjust, he]; rfl⟩
  · intro x hx
    refine (h.expired x hx).imp_right fun hgone i hi => ?_
    rw [Registry.timer_adjust, hgone i hi]
    rfl

/-- Where a connection is given more time it has been active now. -/
theorem touch (h : r.Times active evicting k) {r' : Reactor}
    (htouch : r.touch now fd = (.ok (), r')) :
    ∃ k, r'.Times (Function.update active fd now) evicting k := by
  rw [Reactor.touch] at htouch
  cases hid : r.timerId? fd with
  | none =>
    rw [hid] at htouch
    cases htouch
    exact ⟨k, h.update_active hid now⟩
  | some id =>
    rw [hid] at htouch
    cases hexpiry : r.expiry now with
    | error f =>
      simp only [hexpiry] at htouch
      cases htouch
    | ok expiry =>
      simp only [hexpiry] at htouch
      cases htouch
      exact ⟨_, h.adjust hid hexpiry⟩

/-! ### Taking in and closing -/

/-- A client that is taken in gets a timer. -/
theorem add (h : r.Times active [] k) {slots : Slots} {expiry : Nat} {x : Client}
    (hexpiry : r.expiry now = .ok expiry) (capacity : slots.capacity = r.slots.capacity)
    (off : (r.slots.slotAt x.fd).isLive = false)
    (present : slots.present.Perm (x.tenancy :: r.slots.present)) :
    Times { r with
      slots, timers := (r.timers.add expiry x).2
      timerIds := r.timerIds.setIfInBounds x.fd (some (r.timers.add expiry x).1) }
      (Function.update active x.fd now) [] (k.add expiry x) := by
  have hmem (y : Tenancy) : y ∈ slots.present ↔ y = x.tenancy ∨ y ∈ r.slots.present := by
    rw [present.mem_iff, List.mem_cons]
  have hlive : (slots.slotAt x.fd).isLive = true :=
    (Slots.mem_present.mp ((hmem x.tenancy).mpr (.inl rfl))).1
  have hlt : x.fd < r.timerIds.size := by
    rw [h.size, ← capacity]
    exact Slots.lt_capacity_of_isLive hlive
  have hnew : (r.timers.add expiry x).1 = k.issued := h.represents.issued.symm
  have hold {i : Nat} {e : Timer.Entry Client} (he : k.timer i = some e) : i ≠ k.issued :=
    Nat.ne_of_lt ((h.represents.bounded h.wellFormed).lt he)
  have htimer (i : Nat) : (k.add expiry x).timer i =
      if i = k.issued then some ⟨expiry, x, true⟩ else k.timer i := rfl
  have hnamed (y : Nat) : timerId? { r with
      slots, timers := (r.timers.add expiry x).2
      timerIds := r.timerIds.setIfInBounds x.fd (some (r.timers.add expiry x).1) } y =
        if y = x.fd then some k.issued else r.timerId? y := by
    rw [← hnew]
    exact timerId?_set hlt _ y
  refine ⟨h.wellFormed.add expiry x, h.represents.add h.wellFormed expiry x, ?_, ?_, ?_, ?_, ?_,
    nofun, List.nodup_nil⟩
  · rw [Array.size_setIfInBounds, h.size, capacity]
  · intro y i hi
    rw [hnamed] at hi
    split at hi
    · rw [← Option.some.inj hi]
      exact Nat.lt_succ_self _
    · exact Nat.lt_succ_of_lt (h.issued y i hi)
  · intro i e he harmed
    rw [htimer] at he
    rw [hmem, hnamed]
    split at he
    · next hi =>
      obtain rfl := Option.some.inj he
      simp only [if_true, Function.update_self, hi, true_and]
      exact ⟨.inl trivial, expiry_eq hexpiry⟩
    · obtain ⟨hpresent, hid, hbefore⟩ := h.armed i e he harmed
      have hne : e.data.fd ≠ x.fd := by
        intro hfd
        have hon := (Slots.mem_present.mp hpresent).1
        rw [show e.data.tenancy.fd = x.fd from hfd, off] at hon
        cases hon
      rw [if_neg hne, Function.update_of_ne hne]
      exact ⟨.inr hpresent, hid, hbefore⟩
  · intro y i e hy he
    rw [htimer] at he
    rw [hnamed] at hy
    by_cases hyx : y = x.fd
    · rw [if_pos hyx] at hy
      rw [if_pos (Option.some.inj hy).symm] at he
      obtain rfl := Option.some.inj he
      exact ⟨rfl, hyx.symm⟩
    · rw [if_neg hyx] at hy
      rw [if_neg (Nat.ne_of_lt (h.issued y i hy))] at he
      exact h.own y i e hy he
  · intro y hy
    left
    simp only [hnamed, htimer]
    by_cases hyx : y = x.fd
    · exact ⟨k.issued, _, if_pos hyx, if_pos rfl⟩
    · have hbefore : slots.tenancy y ∈ r.slots.present :=
        ((hmem _).mp (Slots.tenancy_mem_present.mpr hy)).resolve_left
          fun heq => hyx (congrArg Tenancy.fd heq)
      rcases h.timed y (Slots.mem_present.mp hbefore).1 with ⟨i, e, hi, he⟩ | ⟨x', hnone, -⟩
      · exact ⟨i, e, by rw [if_neg hyx, hi], by rw [if_neg (hold he), he]⟩
      · cases hnone

/-- With a connection its timer goes, and nobody else's does. -/
theorem without (h : r.Times active evicting k) (others : ∀ x ∈ evicting, x.fd ≠ fd)
    {slots : Slots} (capacity : slots.capacity = r.slots.capacity)
    (present : ∀ x, x ∈ slots.present ↔ x ∈ r.slots.present ∧ x.fd ≠ fd)
    {timers : Timer.Heap Client} {k' : Registry Client} (wellFormed : timers.WellFormed)
    (represents : Represents k' timers) (issued : k'.issued = k.issued)
    (timer : ∀ i, k'.timer i = (k.timer i).map fun e =>
      if r.timerId? fd = some i then { e with armed := false } else e) :
    Times { r with slots, timers, timerIds := r.timerIds.setIfInBounds fd none } active evicting
      k' := by
  have hnamed {x i : Nat} (hi : timerId? { r with
      slots, timers, timerIds := r.timerIds.setIfInBounds fd none } x = some i) :
      x ≠ fd ∧ r.timerId? x = some i := by
    have hset := (timerId?_set_none fd x).symm.trans hi
    by_cases hx : x = fd
    · rw [if_pos hx] at hset
      cases hset
    · rw [if_neg hx] at hset
      exact ⟨hx, hset⟩
  have hkept {x i : Nat} (hx : x ≠ fd) (hi : r.timerId? x = some i) : timerId? { r with
      slots, timers, timerIds := r.timerIds.setIfInBounds fd none } x = some i :=
    ((timerId?_set_none fd x).trans (if_neg hx)).trans hi
  refine ⟨wellFormed, represents, ?_, ?_, ?_, ?_, ?_, ?_, h.distinct⟩
  · rw [Array.size_setIfInBounds, h.size, capacity]
  · intro x i hi
    rw [issued]
    exact h.issued x i (hnamed hi).2
  · intro i e he harmed
    rw [timer] at he
    obtain ⟨e, hbefore, rfl⟩ := Option.map_eq_some_iff.mp he
    by_cases hi : r.timerId? fd = some i
    · rw [if_pos hi] at harmed
      cases harmed
    · rw [if_neg hi] at harmed ⊢
      obtain ⟨hmem, hid, hlast⟩ := h.armed i e hbefore harmed
      have hne : e.data.fd ≠ fd := by
        intro hfd
        exact hi (hfd ▸ hid)
      exact ⟨(present _).mpr ⟨hmem, hne⟩, hkept hne hid, hlast⟩
  · intro x i e hx he
    obtain ⟨hne, hx⟩ := hnamed hx
    rw [timer] at he
    obtain ⟨e, hbefore, rfl⟩ := Option.map_eq_some_iff.mp he
    have hother : ¬r.timerId? fd = some i := fun hi => hne (h.fd_eq_of_timerId? hi hx hbefore)
    rw [if_neg hother]
    exact h.own x i e hx hbefore
  · intro x hlive
    obtain ⟨hmem, hne⟩ := (present _).mp (Slots.tenancy_mem_present.mpr hlive)
    refine (h.timed x (Slots.mem_present.mp hmem).1).imp_left ?_
    rintro ⟨i, e, hi, he⟩
    exact ⟨i, _, hkept hne hi, by rw [timer, he]; rfl⟩
  · intro x hx
    obtain ⟨hmem, hgone⟩ := h.expired x hx
    refine ⟨(present _).mpr ⟨hmem, others x hx⟩, fun i hi => ?_⟩
    rw [timer, hgone i (hnamed hi).2]
    rfl

theorem close (h : r.Times active evicting k) (others : ∀ x ∈ evicting, x.fd ≠ fd)
    (reason : CloseReason) : ∃ k, (r.close fd reason).2.Times active evicting k := by
  have hcapacity := Slots.capacity_close r.slots fd none reason
  rw [Reactor.close]
  cases hid : r.timerId? fd with
  | none =>
    refine ⟨k, h.without others hcapacity (fun _ => Slots.mem_present_close_any) h.wellFormed
      h.represents rfl ?_⟩
    intro i
    simp [hid]
  | some id =>
    refine ⟨k.disarm id, h.without others hcapacity (fun _ => Slots.mem_present_close_any)
      (h.wellFormed.disarm id) (h.represents.disarm id) rfl ?_⟩
    intro i
    rw [Registry.timer_disarm, hid]
    simp only [Option.some.injEq, eq_comm]

/-! ### Looking at the timers -/

/-- The timers that have expired leave, and their connections are about to be closed. -/
theorem tick (h : r.Times active [] k) (now : Nat) :
    Times { r with timers := (r.timers.tick now).2 } active (r.timers.tick now).1
      (k.expire now) := by
  obtain ⟨hdue, hrepresents⟩ := h.represents.tick h.wellFormed now
  have hfired := r.timers.tick_fst now
  have hleft {i : Nat} {e : Timer.Entry Client} :
      (k.expire now).timer i = some e ↔ k.timer i = some e ∧ now < e.expiry := by
    rw [show (k.expire now).timer i = (k.timer i).filter fun e => decide (now < e.expiry) from rfl,
      Option.filter_eq_some_iff, decide_eq_true_eq]
  have hnode {n : Timer.Node Client} (hn : n ∈ r.timers.fired now) :
      n.data.tenancy ∈ r.slots.present ∧ r.timerId? n.data.fd = some n.id := by
    obtain ⟨hholds, -⟩ := (hdue.mem_iff n).mp hn
    obtain ⟨hmem, hid, -⟩ := h.armed n.id _ hholds rfl
    exact ⟨hmem, hid⟩
  refine ⟨h.wellFormed.tick now, hrepresents, h.size, h.issued, ?_, ?_, ?_, ?_, ?_⟩
  · intro i e he
    exact h.armed i e (hleft.mp he).1
  · intro x i e hx he
    exact h.own x i e hx (hleft.mp he).1
  · intro x hlive
    rcases h.timed x hlive with ⟨i, e, hi, he⟩ | ⟨x', hnone, -⟩
    · by_cases hlate : now < e.expiry
      · exact .inl ⟨i, e, hi, hleft.mpr ⟨he, hlate⟩⟩
      · obtain ⟨harmed, hfd⟩ := h.own x i e hi he
        right
        rw [hfired]
        refine ⟨e.data, List.mem_map.mpr ⟨⟨i, e.expiry, e.data⟩, ?_, rfl⟩, hfd⟩
        refine (hdue.mem_iff _).mpr ⟨?_, Nat.not_lt.mp hlate⟩
        rw [Registry.Holds, he, ← harmed]
    · cases hnone
  · intro x hx
    rw [hfired] at hx
    obtain ⟨n, hn, rfl⟩ := List.mem_map.mp hx
    obtain ⟨hmem, hid⟩ := hnode hn
    refine ⟨hmem, fun i hi => ?_⟩
    obtain rfl : n.id = i := Option.some.inj (hid.symm.trans hi)
    cases he : (k.expire now).timer n.id with
    | none => rfl
    | some e =>
      obtain ⟨hholds, hpast⟩ := (hdue.mem_iff n).mp hn
      obtain ⟨hbefore, hlate⟩ := hleft.mp he
      obtain rfl := Option.some.inj (hholds.symm.trans hbefore)
      exact absurd hpast (Nat.not_le.mpr hlate)
  · rw [hfired, List.map_map]
    refine List.pairwise_map.mpr ((List.pairwise_map.mp hdue.once).imp_of_mem ?_)
    intro m n hm hn hne hfd
    have hid := (hnode hm).2
    rw [show m.data.fd = n.data.fd from hfd, (hnode hn).2] at hid
    exact hne (Option.some.inj hid).symm

/-- A connection whose timer has expired is closed. -/
theorem evict {x : Client} (h : r.Times active (x :: evicting) k) :
    (r.slots.close x.fd (some x.generation) .idle).1 = true ∧
      (r.evict x).Times active evicting k := by
  obtain ⟨hmem, hgone⟩ := h.expired x List.mem_cons_self
  obtain ⟨hlive, hgeneration⟩ := Slots.mem_present.mp hmem
  have hclosed : (r.slots.close x.fd (some x.generation) .idle).1 = true := by
    refine Slots.close_fst.mpr ⟨hlive, ?_⟩
    rintro g ⟨⟩
    exact hgeneration.symm
  have hpresent {y : Tenancy} := Slots.mem_present_close hclosed (x := y)
  obtain ⟨hnew, hdistinct⟩ := List.nodup_cons.mp h.distinct
  refine ⟨hclosed, h.wellFormed, h.represents, ?_, h.issued, ?_, h.own, ?_, ?_, hdistinct⟩
  · exact h.size.trans (Slots.capacity_close _ _ _ _).symm
  · intro i e he harmed
    obtain ⟨hopen, hid, hlast⟩ := h.armed i e he harmed
    refine ⟨hpresent.mpr ⟨hopen, ?_⟩, hid, hlast⟩
    intro hfd
    have hnone := hgone i (hfd ▸ hid)
    rw [he] at hnone
    cases hnone
  · intro y hy
    obtain ⟨hbefore, hne⟩ := hpresent.mp (Slots.tenancy_mem_present.mpr hy)
    refine (h.timed y (Slots.mem_present.mp hbefore).1).imp_right ?_
    rintro ⟨x', hx', rfl⟩
    rcases List.mem_cons.mp hx' with rfl | hrest
    · exact absurd rfl hne
    · exact ⟨x', hrest, rfl⟩
  · intro y hy
    obtain ⟨hopen, hnone⟩ := h.expired y (List.mem_cons_of_mem x hy)
    refine ⟨hpresent.mpr ⟨hopen, ?_⟩, hnone⟩
    intro hfd
    exact hnew (hfd ▸ List.mem_map_of_mem hy)

end Times
end Reactor
end Server
end PageServer
