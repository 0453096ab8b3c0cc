import PageServer.Proofs.Timer.Registry
import PageServer.Proofs.Timer.Representation

/-!
# A heap answers as its register

The nodes and the armed handles of a heap, wherever the sifts have put them, are what the
register of its timers knows.  So each operation has an answer that the register allows,
and changes what is known as the register says.
-/

namespace PageServer
namespace Timer

variable {α : Type} {t : Heap α} {r : Registry α}

/-- What is known of the timer of a node. -/
def Node.entry (armed : Bool) (n : Node α) : Entry α :=
  ⟨n.expiry, n.data, armed⟩

/-- The register knows of the nodes of the heap, and of nothing else. -/
structure Represents (r : Registry α) (t : Heap α) : Prop where
  issued : r.issued = t.nextId
  node : ∀ n ∈ t.nodes, r.timer n.id = some (n.entry (t.isArmed n.id))
  absent : ∀ id, id ∉ t.ids → r.timer id = none

namespace Heap

theorem isArmed_iff {id : Nat} : t.isArmed id = true ↔ id ∈ t.armed :=
  List.contains_iff_mem

theorem isArmed_disarmed (armed : List Nat) (id i : Nat) :
    (armed.filter (· != id)).contains i = (armed.contains i && i != id) := by
  rw [Bool.eq_iff_iff]
  simp

theorem mem_nodes_add {n : Node α} {expiry : Nat} {data : α} :
    n ∈ (t.add expiry data).2.nodes ↔ n = ⟨t.nextId, expiry, data⟩ ∨ n ∈ t.nodes := by
  rw [← Array.mem_toList_iff, (perm_add t expiry data).mem_iff, List.mem_cons,
    Array.mem_toList_iff]

theorem mem_nodes_pop (h : 0 < t.nodes.size) {n : Node α} :
    n ∈ t.nodes ↔ n = t.nodes[0] ∨ n ∈ t.pop?.2.nodes := by
  rw [← Array.mem_toList_iff, (perm_pop? h).mem_iff, List.mem_cons, Array.mem_toList_iff]

end Heap

namespace Represents

open Heap

theorem new (capacity : Nat) : Represents ({} : Registry α) (Heap.new capacity) where
  issued := rfl
  node := by simp [Heap.new]
  absent := fun _ _ => rfl

theorem timer_eq_some (h : Represents r t) {id : Nat} {e : Entry α} (he : r.timer id = some e) :
    ∃ n ∈ t.nodes, n.id = id ∧ n.entry (t.isArmed id) = e := by
  by_cases hid : id ∈ t.ids
  · obtain ⟨n, hn, rfl⟩ := mem_ids.mp hid
    rw [h.node n hn] at he
    exact ⟨n, hn, rfl, Option.some.inj he⟩
  · rw [h.absent id hid] at he
    cases he

theorem isSome_iff (h : Represents r t) {id : Nat} :
    (r.timer id).isSome = true ↔ id ∈ t.ids := by
  constructor
  · intro hsome
    obtain ⟨e, he⟩ := Option.isSome_iff_exists.mp hsome
    obtain ⟨n, hn, hid, -⟩ := h.timer_eq_some he
    exact mem_ids.mpr ⟨n, hn, hid⟩
  · intro hid
    obtain ⟨n, hn, rfl⟩ := mem_ids.mp hid
    rw [h.node n hn]
    rfl

theorem bounded (h : Represents r t) (hwell : WellFormed t) : r.Bounded := by
  intro id hid
  apply h.absent
  intro hmem
  have hlt := hwell.issued id hmem
  rw [← h.issued] at hlt
  exact Nat.not_lt_of_le hid hlt

theorem isArmed_eq (h : Represents r t) (hwell : WellFormed t) (id : Nat) :
    r.isArmed id = t.isArmed id := by
  by_cases hid : id ∈ t.ids
  · obtain ⟨n, hn, rfl⟩ := mem_ids.mp hid
    rw [Registry.isArmed, h.node n hn]
    rfl
  · have hoff : t.isArmed id = false := by
      apply Bool.eq_false_iff.mpr
      intro harmed
      exact hid (hwell.armed id (isArmed_iff.mp harmed))
    rw [Registry.isArmed, h.absent id hid, hoff]
    rfl

theorem length_eq (h : Represents r t) (hwell : WellFormed t) : r.length = t.length := by
  have hperm : ((List.range r.issued).filter fun id => (r.timer id).isSome).Perm t.ids := by
    rw [List.perm_ext_iff_of_nodup (List.nodup_range.sublist List.filter_sublist) hwell.distinct]
    intro id
    rw [List.mem_filter, List.mem_range, h.isSome_iff, h.issued]
    exact ⟨And.right, fun hid => ⟨hwell.issued id hid, hid⟩⟩
  rw [Registry.length, List.countP_eq_length_filter, hperm.length_eq]
  simp [ids, length]

/-- The root is a timer that none expires before. -/
theorem first_root (h : Represents r t) (hwell : WellFormed t) (hpos : 0 < t.nodes.size) :
    r.First (some t.nodes[0]) := by
  refine ⟨⟨_, h.node _ (Array.getElem_mem hpos)⟩, ?_⟩
  intro id e he
  obtain ⟨n, hn, -, rfl⟩ := h.timer_eq_some he
  obtain ⟨i, hi, rfl⟩ := Array.mem_iff_getElem.mp hn
  have hle := hwell.ordered.expiryAt_zero_le hi
  rw [expiryAt_of_lt hi, expiryAt_of_lt hpos] at hle
  exact hle

theorem first_none (h : Represents r t) (hempty : t.nodes.size = 0) : r.First none := by
  intro id
  apply h.absent
  intro hid
  obtain ⟨n, hn, -⟩ := mem_ids.mp hid
  rw [Array.eq_empty_of_size_eq_zero hempty] at hn
  exact absurd hn (Array.not_mem_empty n)

theorem first (h : Represents r t) (hwell : WellFormed t) : r.First t.top? := by
  rw [top?]
  by_cases hpos : 0 < t.nodes.size
  · rw [Array.getElem?_eq_getElem hpos]
    exact h.first_root hwell hpos
  · rw [Array.getElem?_eq_none (by omega)]
    exact h.first_none (by omega)

theorem add (h : Represents r t) (hwell : WellFormed t) (expiry : Nat) (data : α) :
    Represents (r.add expiry data) (t.add expiry data).2 where
  issued := congrArg (· + 1) h.issued
  node := by
    intro n hn
    rcases mem_nodes_add.mp hn with rfl | hold
    · have harmed : (t.add expiry data).2.isArmed t.nextId = true :=
        isArmed_iff.mpr List.mem_cons_self
      rw [harmed]
      exact if_pos h.issued.symm
    · have hne : n.id ≠ t.nextId :=
        Nat.ne_of_lt (hwell.issued _ (mem_ids.mpr ⟨n, hold, rfl⟩))
      have hsame : (t.add expiry data).2.isArmed n.id = t.isArmed n.id := by
        simp [Heap.isArmed, Heap.add, hne]
      rw [hsame, ← h.node n hold]
      exact if_neg (by rw [h.issued]; exact hne)
  absent := by
    intro id hid
    rw [(ids_add_perm t expiry data).mem_iff, List.mem_cons, not_or, ← h.issued] at hid
    exact (if_neg hid.1).trans (h.absent id hid.2)

theorem disarm (h : Represents r t) (id : Nat) :
    Represents (r.disarm id) (t.disarm id).2 where
  issued := h.issued
  node := by
    intro n hn
    have harmed : (t.disarm id).2.isArmed n.id = (t.isArmed n.id && n.id != id) :=
      isArmed_disarmed t.armed id n.id
    rw [harmed]
    by_cases hid : n.id = id
    · subst hid
      refine (if_pos rfl).trans ?_
      rw [h.node n hn, bne_self_eq_false, Bool.and_false]
      rfl
    · refine (if_neg hid).trans ?_
      rw [h.node n hn, bne_iff_ne.mpr hid, Bool.and_true]
  absent := by
    intro i hi
    have hnone := h.absent i hi
    by_cases hid : i = id
    · subst hid
      refine (if_pos rfl).trans ?_
      rw [hnone, Option.map_none]
    · exact (if_neg hid).trans hnone

theorem adjust (h : Represents r t) (hwell : WellFormed t) (id expiry : Nat) :
    (t.adjust id expiry).1 = (r.timer id).isSome ∧
      Represents (r.adjust id expiry) (t.adjust id expiry).2 := by
  by_cases hmem : id ∈ t.ids
  · obtain ⟨n, hn, rfl⟩ := mem_ids.mp hmem
    obtain ⟨nodes, heq, hperm, -⟩ := adjust_present hwell.distinct hn expiry
    rw [heq]
    refine ⟨(h.isSome_iff.mpr hmem).symm, h.issued, ?_, ?_⟩
    · intro m' hm'
      rw [← Array.mem_toList_iff, hperm.mem_iff, List.mem_map] at hm'
      obtain ⟨m, hm, rfl⟩ := hm'
      rw [id_postpone]
      have hnode := h.node m (Array.mem_toList_iff.mp hm)
      by_cases hid : m.id = n.id
      · rw [postpone, if_pos hid, hid]
        refine (if_pos rfl).trans ?_
        rw [← hid, hnode]
        rfl
      · rw [postpone, if_neg hid]
        exact (if_neg hid).trans hnode
    · intro i hi
      have hids : i ∉ t.ids := by
        have hmap := hperm.map Node.id
        rw [map_id_postpone] at hmap
        exact fun hold => hi (hmap.mem_iff.mpr hold)
      have hne : i ≠ n.id := by
        rintro rfl
        exact hids hmem
      exact (if_neg hne).trans (h.absent i hids)
  · have hnone := h.absent id hmem
    rw [adjust_absent expiry fun n hn hid => hmem (mem_ids.mpr ⟨n, hn, hid⟩), hnone]
    refine ⟨rfl, h.issued, ?_, ?_⟩
    · intro n hn
      have hne : n.id ≠ id := fun hid => hmem (mem_ids.mpr ⟨n, hn, hid⟩)
      exact (if_neg hne).trans (h.node n hn)
    · intro i hi
      by_cases hid : i = id
      · subst hid
        refine (if_pos rfl).trans ?_
        rw [hnone, Option.map_none]
      · exact (if_neg hid).trans (h.absent i hi)

/-- The root leaves the heap and the register. -/
theorem pop_root (h : Represents r t) (hwell : WellFormed t) (hpos : 0 < t.nodes.size) :
    Represents (r.remove t.nodes[0].id) t.pop?.2 := by
  have hids := ids_pop_perm hpos
  have hroot := (List.nodup_cons.mp (hids.nodup_iff.mp hwell.distinct)).1
  constructor
  · rw [pop?_of_pos hpos]
    exact h.issued
  · intro n hn
    have hne : n.id ≠ t.nodes[0].id := fun hid => hroot (hid ▸ mem_ids.mpr ⟨n, hn, rfl⟩)
    have harmed : t.pop?.2.isArmed n.id = t.isArmed n.id := by
      rw [pop?_of_pos hpos, Heap.isArmed, isArmed_disarmed, bne_iff_ne.mpr hne, Bool.and_true]
      rfl
    rw [harmed]
    exact (if_neg hne).trans (h.node n ((mem_nodes_pop hpos).mpr (.inr hn)))
  · intro i hi
    by_cases hid : i = t.nodes[0].id
    · exact if_pos hid
    · refine (if_neg hid).trans (h.absent i ?_)
      intro hold
      exact hi (List.mem_of_ne_of_mem hid (hids.mem_iff.mp hold))

theorem pop (h : Represents r t) (hwell : WellFormed t) :
    r.First t.pop?.1 ∧ Represents (r.next .pop (.node t.pop?.1)) t.pop?.2 := by
  by_cases hpos : 0 < t.nodes.size
  · have hfirst : t.pop?.1 = some t.nodes[0] := by rw [pop?_of_pos hpos]
    rw [hfirst]
    exact ⟨h.first_root hwell hpos, h.pop_root hwell hpos⟩
  · rw [pop?_of_empty (by omega)]
    exact ⟨h.first_none (by omega), h⟩

/-- Without an expired root nothing has expired. -/
theorem lt_expiry (h : Represents r t) (hwell : WellFormed t) {now : Nat}
    (hrest : ∀ h : 0 < t.nodes.size, now < t.nodes[0].expiry) {id : Nat} {e : Entry α}
    (he : r.timer id = some e) : now < e.expiry := by
  have hpos : 0 < t.nodes.size := by
    obtain ⟨n, hn, -⟩ := h.timer_eq_some he
    exact Array.size_pos_of_mem hn
  exact Nat.lt_of_lt_of_le (hrest hpos) ((h.first_root hwell hpos).2 id e he)

/-- An expired timer that leaves before a tick makes no difference to what is left. -/
theorem expire_remove {id now : Nat} {e : Entry α} (he : r.timer id = some e)
    (hle : e.expiry ≤ now) : (r.remove id).expire now = r.expire now := by
  have htimer : ((r.remove id).expire now).timer = (r.expire now).timer := by
    funext i
    by_cases hid : i = id
    · subst hid
      have hgone : (r.remove i).timer i = none := if_pos rfl
      have hpast : ¬now < e.expiry := Nat.not_lt.mpr hle
      simp only [Registry.expire, hgone, he, Option.filter_none, Option.filter_some, hpast,
        decide_false, Bool.false_eq_true, if_false]
    · have hkept : (r.remove id).timer i = r.timer i := if_neg hid
      simp only [Registry.expire, hkept]
  exact congrArg (Registry.mk r.issued) htimer

/-- The root has its effect first, if it is armed; then come those that are due without
it. -/
theorem due_root (h : Represents r t) (hwell : WellFormed t) (hpos : 0 < t.nodes.size) {now : Nat}
    (hdue : t.nodes[0].expiry ≤ now) {later : List (Node α)}
    (hlater : (r.remove t.nodes[0].id).Due now later) :
    r.Due now (if t.isArmed t.nodes[0].id then t.nodes[0] :: later else later) := by
  have hroot := h.node _ (Array.getElem_mem hpos)
  have hmin := (h.first_root hwell hpos).2
  have hmem : ∀ n, n ∈ later ↔ n.id ≠ t.nodes[0].id ∧ r.Holds n true ∧ n.expiry ≤ now := by
    intro n
    rw [hlater.mem_iff n]
    by_cases hid : n.id = t.nodes[0].id
    · have hgone : ¬(r.remove t.nodes[0].id).Holds n true := by
        intro hholds
        cases (if_pos hid).symm.trans hholds
      simp [hid, hgone]
    · have hkept : (r.remove t.nodes[0].id).timer n.id = r.timer n.id := if_neg hid
      simp only [ne_eq, hid, not_false_eq_true, true_and, Registry.Holds, hkept]
  split
  · next harmed =>
    rw [harmed] at hroot
    refine ⟨?_, ?_, ?_⟩
    · intro n
      rw [List.mem_cons, hmem n]
      constructor
      · rintro (rfl | ⟨-, hn⟩)
        · exact ⟨hroot, hdue⟩
        · exact hn
      · intro hn
        by_cases hid : n.id = t.nodes[0].id
        · left
          have hsame := hn.1.symm.trans (hid ▸ hroot)
          obtain ⟨id, expiry, data⟩ := n
          simp only [Node.entry, Option.some.injEq, Entry.mk.injEq, and_true] at hsame
          simp only at hid
          rw [hid, hsame.1, hsame.2]
        · exact .inr ⟨hid, hn⟩
    · rw [List.map_cons, List.nodup_cons]
      refine ⟨?_, hlater.once⟩
      intro hagain
      obtain ⟨n, hn, hid⟩ := List.mem_map.mp hagain
      exact ((hmem n).mp hn).1 hid
    · rw [List.pairwise_cons]
      refine ⟨?_, hlater.sorted⟩
      intro n hn
      exact hmin n.id _ ((hmem n).mp hn).2.1
  · next hoff =>
    refine ⟨?_, hlater.once, hlater.sorted⟩
    intro n
    rw [hmem n]
    refine ⟨And.right, fun hn => ⟨?_, hn⟩⟩
    intro hid
    rw [Registry.Holds, hid, hroot] at hn
    exact hoff (congrArg Entry.armed (Option.some.inj hn.1))

theorem tick (h : Represents r t) (hwell : WellFormed t) (now : Nat) :
    r.Due now (t.fired now) ∧ Represents (r.expire now) (t.tick now).2 := by
  induction t using tick_induction now generalizing r with
  | rest t hrest =>
    have hlate : ∀ {id e}, r.timer id = some e → now < e.expiry := h.lt_expiry hwell hrest
    have hsame : r.expire now = r := by
      have htimer : (r.expire now).timer = r.timer := by
        funext id
        cases he : r.timer id with
        | none => simp only [Registry.expire, he, Option.filter_none]
        | some e =>
          simp only [Registry.expire, he, Option.filter_some, hlate he, decide_true, if_true]
      exact congrArg (Registry.mk r.issued) htimer
    rw [fired_of_not_due hrest, tick_of_not_due hrest, hsame]
    refine ⟨⟨?_, List.nodup_nil, List.Pairwise.nil⟩, h⟩
    intro n
    refine ⟨fun hn => absurd hn List.not_mem_nil, ?_⟩
    rintro ⟨hholds, hle⟩
    exact absurd hle (Nat.not_le.mpr (hlate hholds))
  | due t hpos hdue ih =>
    obtain ⟨hlater, hafter⟩ := ih (h.pop_root hwell hpos) hwell.pop
    rw [expire_remove (h.node _ (Array.getElem_mem hpos)) hdue] at hafter
    rw [fired_of_due hpos hdue, tick_of_due hpos hdue]
    exact ⟨h.due_root hwell hpos hdue hlater, hafter⟩

/-- An operation on a heap has an answer that the register allows, and the register knows
what the heap is like afterwards. -/
theorem perform (h : Represents r t) (hwell : WellFormed t) (op : Operation α) :
    r.Allows op (t.perform op).1 ∧ Represents (r.next op (t.perform op).1) (t.perform op).2 := by
  cases op with
  | add expiry data =>
    rw [Heap.perform, show (t.add expiry data).1 = r.issued from h.issued.symm]
    exact ⟨.add expiry data, h.add hwell expiry data⟩
  | disarm id =>
    rw [Heap.perform, show (t.disarm id).1 = r.isArmed id from (h.isArmed_eq hwell id).symm]
    exact ⟨.disarm id, h.disarm id⟩
  | adjust id expiry =>
    obtain ⟨hanswer, hafter⟩ := h.adjust hwell id expiry
    rw [Heap.perform, hanswer]
    exact ⟨.adjust id expiry, hafter⟩
  | isArmed id =>
    rw [Heap.perform, ← h.isArmed_eq hwell id]
    exact ⟨.isArmed id, h⟩
  | pop => exact ⟨.pop (h.pop hwell).1, (h.pop hwell).2⟩
  | top => exact ⟨.top (h.first hwell), h⟩
  | untilNext now => exact ⟨.untilNext now (h.first hwell), h⟩
  | length =>
    rw [Heap.perform, ← h.length_eq hwell]
    exact ⟨.length, h⟩
  | tick now => exact ⟨.tick (h.tick hwell now).1, (h.tick hwell now).2⟩

theorem explains (h : Represents r t) (hwell : WellFormed t) (ops : List (Operation α)) :
    r.Explains (t.history ops) := by
  induction ops generalizing r t with
  | nil => trivial
  | cons op ops ih =>
    obtain ⟨hallows, hafter⟩ := h.perform hwell op
    exact ⟨hallows, ih hafter (hwell.perform op)⟩

end Represents

/-- From an empty heap on, every answer is one that the register of the timers allows, so
handles are given out once and each timer has its effect at most once, neither after it
was disarmed or taken out nor before the expiry set last for it. -/
theorem Heap.history_new_explained (capacity : Nat) (ops : List (Operation α)) :
    let history := (Heap.new capacity : Heap α).history ops
    Registry.Explains {} history ∧
      (∀ (t : Heap α) (now : Nat), (t.tick now).1 = (t.fired now).map Node.data) ∧
      (handles history).Nodup ∧
      (effects history).Nodup ∧
      (∀ before after id answer, history = before ++ (.disarm id, answer) :: after →
        id ∈ handles before → id ∉ effects after) ∧
      (∀ before after n, history = before ++ (.pop, .node (some n)) :: after →
        n.id ∉ effects after) ∧
      ∀ before after now nodes, history = before ++ (.tick now, .fired nodes) :: after →
        ∀ n ∈ nodes, lastExpiry n.id before = some n.expiry ∧ n.expiry ≤ now := by
  intro history
  have hexplains : Registry.Explains {} history :=
    (Represents.new capacity).explains (wellFormed_new capacity) ops
  refine ⟨hexplains, Heap.tick_fst, ?_, hexplains.nodup_effects Registry.bounded_empty, ?_, ?_, ?_⟩
  · rw [hexplains.handles_eq]
    exact List.nodup_range'
  · intro before after id answer heq hid
    rw [heq] at hexplains
    exact hexplains.not_mem_effects_of_disarm hid
  · intro before after n heq
    rw [heq] at hexplains
    exact hexplains.not_mem_effects_of_pop
  · intro before after now nodes heq n hn
    rw [heq] at hexplains
    exact hexplains.lastExpiry_of_effect hn

end Timer
end PageServer
