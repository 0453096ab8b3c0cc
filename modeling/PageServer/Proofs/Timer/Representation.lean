import Mathlib
import PageServer.Proofs.Timer.Operations

/-!
# The representation of a timer heap

Whatever is asked of a heap, in whatever order, its nodes stay in order and their handles
distinct, only nodes that are there are armed, and the capacity is the first one called
for, doubled as often as the largest length so far has made necessary.
-/

namespace PageServer
namespace Timer
namespace Heap

variable {α : Type} {t : Heap α}

/-- The handles of the nodes, from the root on. -/
def ids (t : Heap α) : List Nat :=
  t.nodes.toList.map Node.id

/-- The nodes are in order, their handles are distinct and have been given out, and only
nodes that are there are armed. -/
structure WellFormed (t : Heap α) : Prop where
  ordered : Ordered t.nodes
  distinct : t.ids.Nodup
  issued : ∀ id ∈ t.ids, id < t.nextId
  armed : ∀ id ∈ t.armed, id ∈ t.ids
  once : t.armed.Nodup

theorem wellFormed_new (capacity : Nat) : WellFormed (new capacity : Heap α) where
  ordered := fun i _ hi => absurd hi (Nat.not_lt_zero i)
  distinct := List.nodup_nil
  issued := by simp [ids, new]
  armed := by simp [new]
  once := List.nodup_nil

/-- A heap that there is room for is a new one. -/
theorem allocate_eq_ok {nodeSize capacity : Nat} : allocate nodeSize capacity = .ok t ↔
    max capacity 1 * nodeSize ≤ memoryLimit ∧ t = new capacity := by
  rw [allocate]
  by_cases hroom : max capacity 1 * nodeSize ≤ memoryLimit
  · rw [reserve_ok hroom]
    simp [Except.map, hroom, eq_comm]
  · rw [reserve_error hroom]
    simp [Except.map, hroom]

theorem allocate_eq_error {nodeSize capacity : Nat} {f : Fault} :
    (allocate nodeSize capacity : Except Fault (Heap α)) = .error f ↔
      memoryLimit < max capacity 1 * nodeSize ∧ f = .capacityOverflow := by
  rw [allocate]
  by_cases hroom : max capacity 1 * nodeSize ≤ memoryLimit
  · rw [reserve_ok hroom]
    simp [Except.map, hroom]
  · rw [reserve_error hroom]
    simp [Except.map, Nat.not_le.mp hroom, eq_comm]

theorem mem_ids {id : Nat} : id ∈ t.ids ↔ ∃ n ∈ t.nodes, n.id = id := by
  simp [ids]

theorem ids_add_perm (t : Heap α) (expiry : Nat) (data : α) :
    (t.add expiry data).2.ids.Perm (t.nextId :: t.ids) :=
  (perm_add t expiry data).map Node.id

theorem ids_pop_perm (h : 0 < t.nodes.size) :
    t.ids.Perm (t.nodes[0].id :: t.pop?.2.ids) :=
  (perm_pop? h).map Node.id

theorem map_id_postpone (id expiry : Nat) (nodes : List (Node α)) :
    (nodes.map (postpone id expiry)).map Node.id = nodes.map Node.id := by
  rw [List.map_map]
  exact List.map_congr_left fun n _ => id_postpone id expiry n

/-! ## Each operation -/

theorem WellFormed.add (h : WellFormed t) (expiry : Nat) (data : α) :
    WellFormed (t.add expiry data).2 := by
  have hids := ids_add_perm t expiry data
  have hfresh : t.nextId ∉ t.ids := fun hmem => Nat.lt_irrefl _ (h.issued _ hmem)
  constructor
  · exact (h.ordered.upOrder_push _).ordered_siftUp _
  · rw [hids.nodup_iff, List.nodup_cons]
    exact ⟨hfresh, h.distinct⟩
  · intro id hid
    rcases List.mem_cons.mp (hids.mem_iff.mp hid) with rfl | hid
    · exact Nat.lt_succ_self _
    · exact Nat.lt_succ_of_lt (h.issued id hid)
  · intro id hid
    rw [hids.mem_iff]
    rcases List.mem_cons.mp hid with rfl | hid
    · exact List.mem_cons_self
    · exact List.mem_cons_of_mem _ (h.armed id hid)
  · exact List.nodup_cons.mpr ⟨fun hmem => hfresh (h.armed _ hmem), h.once⟩

theorem WellFormed.disarm (h : WellFormed t) (id : Nat) : WellFormed (t.disarm id).2 :=
  ⟨h.ordered, h.distinct, h.issued, fun i hi => h.armed i (List.mem_filter.mp hi).1,
    h.once.sublist List.filter_sublist⟩

theorem WellFormed.adjust (h : WellFormed t) (id expiry : Nat) :
    WellFormed (t.adjust id expiry).2 := by
  by_cases hmem : ∃ n ∈ t.nodes, n.id = id
  · obtain ⟨n, hn, rfl⟩ := hmem
    obtain ⟨nodes, heq, hperm, hordered⟩ := adjust_present h.distinct hn expiry
    have hids : (nodes.toList.map Node.id).Perm t.ids := by
      have hmap := hperm.map Node.id
      rwa [map_id_postpone] at hmap
    rw [heq]
    constructor
    · exact hordered h.ordered
    · exact hids.nodup_iff.mpr h.distinct
    · intro id hid
      exact h.issued id (hids.mem_iff.mp hid)
    · intro id hid
      exact hids.mem_iff.mpr (h.armed id hid)
    · exact h.once
  · rw [adjust_absent expiry fun n hn hid => hmem ⟨n, hn, hid⟩]
    exact h

theorem WellFormed.pop (h : WellFormed t) : WellFormed t.pop?.2 := by
  by_cases hpos : 0 < t.nodes.size
  · have hids := ids_pop_perm hpos
    have hdistinct := List.nodup_cons.mp (hids.nodup_iff.mp h.distinct)
    rw [pop?_of_pos hpos] at hids hdistinct ⊢
    constructor
    · exact h.ordered.removeRoot hpos
    · exact hdistinct.2
    · intro id hid
      exact h.issued id (hids.mem_iff.mpr (List.mem_cons_of_mem _ hid))
    · intro id hid
      rw [List.mem_filter, bne_iff_ne] at hid
      exact List.mem_of_ne_of_mem hid.2 (hids.mem_iff.mp (h.armed id hid.1))
    · exact h.once.sublist List.filter_sublist
  · rw [pop?_of_empty (by omega)]
    exact h

theorem WellFormed.tick (h : WellFormed t) (now : Nat) : WellFormed (t.tick now).2 := by
  induction t using tick_induction now with
  | rest t hrest =>
    rw [tick_of_not_due hrest]
    exact h
  | due t hpos hdue ih =>
    rw [tick_of_due hpos hdue]
    exact ih h.pop

theorem WellFormed.perform (h : WellFormed t) (op : Operation α) :
    WellFormed (t.perform op).2 := by
  cases op with
  | add expiry data => exact h.add expiry data
  | disarm id => exact h.disarm id
  | adjust id expiry => exact h.adjust id expiry
  | pop => exact h.pop
  | tick now => exact h.tick now
  | isArmed | top | untilNext | length => exact h

theorem WellFormed.after (h : WellFormed t) (ops : List (Operation α)) :
    WellFormed (t.after ops) := by
  induction ops generalizing t with
  | nil => exact h
  | cons op ops ih => exact ih (h.perform op)

/-! ## The capacity -/

/-- There have been at most `most` nodes, and the capacity is the first one, doubled as
often as these have made necessary. -/
structure Sized (first most : Nat) (t : Heap α) : Prop where
  length_le : t.length ≤ most
  doubled : ∃ k, t.capacity = first * 2 ^ k ∧ most ≤ first * 2 ^ k ∧
    ∀ j, most ≤ first * 2 ^ j → k ≤ j

variable {first most : Nat}

theorem Sized.of_length_le (h : Sized first most t) {t' : Heap α}
    (hcapacity : t'.capacity = t.capacity) (hlength : t'.length ≤ t.length) :
    Sized first (max most t'.length) t' := by
  have hle := Nat.le_trans hlength h.length_le
  rw [Nat.max_eq_left hle]
  exact ⟨hle, by rw [hcapacity]; exact h.doubled⟩

theorem length_add (t : Heap α) (expiry : Nat) (data : α) :
    (t.add expiry data).2.length = t.length + 1 := by
  simp [add, length]

/-- A heap grows only when it is full, and by as much as it needs. -/
theorem Sized.add (h : Sized first most t) (hfirst : 0 < first) (expiry : Nat) (data : α) :
    Sized first (max most (t.add expiry data).2.length) (t.add expiry data).2 := by
  obtain ⟨k, hcapacity, hfits, hleast⟩ := h.doubled
  have hlength := h.length_le
  have hpos : 0 < first * 2 ^ k := Nat.mul_pos hfirst (Nat.two_pow_pos k)
  rw [length_add]
  refine ⟨by rw [length_add]; exact Nat.le_max_right _ _, ?_⟩
  by_cases hfull : t.capacity ≤ t.length
  · have hdouble : (t.add expiry data).2.capacity = t.capacity * 2 := if_pos hfull
    refine ⟨k + 1, ?_, ?_, ?_⟩
    · rw [hdouble, hcapacity, Nat.pow_succ, Nat.mul_assoc]
    · rw [Nat.pow_succ, ← Nat.mul_assoc]
      omega
    · intro j hj
      have hlt : first * 2 ^ k < first * 2 ^ j := by omega
      exact (Nat.pow_lt_pow_iff_right Nat.one_lt_two).mp (Nat.lt_of_mul_lt_mul_left hlt)
  · have hsame : (t.add expiry data).2.capacity = t.capacity := if_neg hfull
    refine ⟨k, ?_, ?_, ?_⟩
    · rw [hsame, hcapacity]
    · omega
    · intro j hj
      exact hleast j (Nat.le_trans (Nat.le_max_left _ _) hj)

theorem capacity_pop (t : Heap α) : t.pop?.2.capacity = t.capacity := by
  unfold pop?
  split <;> rfl

theorem tick_capacity_length (t : Heap α) (now : Nat) :
    (t.tick now).2.capacity = t.capacity ∧ (t.tick now).2.length ≤ t.length := by
  induction t using tick_induction now with
  | rest t hrest =>
    rw [tick_of_not_due hrest]
    exact ⟨rfl, Nat.le_refl _⟩
  | due t hpos hdue ih =>
    rw [tick_of_due hpos hdue]
    have hsize := size_pop? t
    rw [length, capacity_pop] at ih
    exact ⟨ih.1, by simp only [length] at ih ⊢; omega⟩

theorem adjust_capacity_length (t : Heap α) (id expiry : Nat) :
    (t.adjust id expiry).2.capacity = t.capacity ∧ (t.adjust id expiry).2.length = t.length := by
  unfold adjust
  split
  · exact ⟨rfl, rfl⟩
  · refine ⟨rfl, ?_⟩
    simp only [length]
    split <;> simp

theorem Sized.perform (h : Sized first most t) (hfirst : 0 < first) (op : Operation α) :
    Sized first (max most (t.perform op).2.length) (t.perform op).2 := by
  cases op with
  | add expiry data => exact h.add hfirst expiry data
  | adjust id expiry =>
    obtain ⟨hcapacity, hlength⟩ := adjust_capacity_length t id expiry
    exact h.of_length_le hcapacity (Nat.le_of_eq hlength)
  | pop =>
    have hlength : t.pop?.2.length ≤ t.length := by
      rw [length, size_pop?]
      exact Nat.sub_le _ _
    exact h.of_length_le (capacity_pop t) hlength
  | tick now =>
    obtain ⟨hcapacity, hlength⟩ := tick_capacity_length t now
    exact h.of_length_le hcapacity hlength
  | disarm | isArmed | top | untilNext | length => exact h.of_length_le rfl (Nat.le_refl _)

theorem length_le_peak (t : Heap α) (ops : List (Operation α)) : t.length ≤ t.peak ops := by
  cases ops with
  | nil => exact Nat.le_refl _
  | cons op ops => exact Nat.le_max_left _ _

theorem Sized.after (h : Sized first most t) (hfirst : 0 < first) (ops : List (Operation α)) :
    Sized first (max most (t.peak ops)) (t.after ops) := by
  induction ops generalizing most t with
  | nil =>
    rw [peak, Nat.max_eq_left h.length_le]
    exact h
  | cons op ops ih =>
    have hall := ih (h.perform hfirst op)
    -- The peak of the rest counts the length it begins with, so that length is not lost
    -- here.
    have hnext := length_le_peak (t.perform op).2 ops
    have hlength := h.length_le
    have hmost : max most (t.peak (op :: ops)) =
        max (max most (t.perform op).2.length) ((t.perform op).2.peak ops) := by
      rw [peak]
      omega
    rw [hmost]
    exact hall

theorem sized_new (capacity : Nat) : Sized (max capacity 1) 0 (new capacity : Heap α) :=
  ⟨Nat.le_refl 0, 0, (Nat.mul_one _).symm, Nat.zero_le _, fun j _ => Nat.zero_le j⟩

theorem Sized.capacity_le (h : Sized first most t) : t.capacity ≤ max first (2 * most) := by
  obtain ⟨k, hcapacity, -, hleast⟩ := h.doubled
  cases k with
  | zero =>
    rw [hcapacity, Nat.pow_zero, Nat.mul_one]
    exact Nat.le_max_left _ _
  | succ k =>
    -- one doubling less has not been enough
    have hfew : first * 2 ^ k < most := by
      rw [← Nat.not_le]
      exact fun hle => Nat.not_succ_le_self k (hleast k hle)
    rw [hcapacity, Nat.pow_succ, ← Nat.mul_assoc]
    omega

/-- A heap that there is room for never asks for more than there can be, as long as its
nodes leave half of that free. -/
theorem capacity_after_allocate {nodeSize capacity : Nat}
    (hmade : allocate nodeSize capacity = .ok t) (ops : List (Operation α))
    (hfew : 2 * t.peak ops * nodeSize ≤ memoryLimit) :
    (t.after ops).capacity * nodeSize ≤ memoryLimit := by
  obtain ⟨hroom, rfl⟩ := allocate_eq_ok.mp hmade
  have hsized := (sized_new capacity).after (by omega) ops
  rw [Nat.zero_max] at hsized
  refine Nat.le_trans (Nat.mul_le_mul_right nodeSize hsized.capacity_le) ?_
  rcases Nat.le_total (max capacity 1) (2 * (new capacity : Heap α).peak ops) with hle | hle
  · rw [Nat.max_eq_right hle]
    exact hfew
  · rw [Nat.max_eq_left hle]
    exact hroom

/-- An armed timer has one node, since handles are distinct. -/
theorem WellFormed.only_node (h : WellFormed t) {id : Nat} (hid : id ∈ t.armed) :
    ∃ (i : Nat) (hi : i < t.nodes.size), t.nodes[i].id = id ∧
      ∀ (j : Nat) (hj : j < t.nodes.size), t.nodes[j].id = id → j = i := by
  obtain ⟨n, hn, rfl⟩ := mem_ids.mp (h.armed id hid)
  obtain ⟨i, hi, rfl⟩ := Array.mem_iff_getElem.mp hn
  exact ⟨i, hi, rfl, fun j hj heq => index_eq_of_id_eq h.distinct hj hi heq⟩

/-- Whatever is asked of a new heap: no node expires before its parent, handles are
distinct and have been given out, each armed timer has one node, and the capacity is the
first one, doubled as often as the largest length so far has made necessary. -/
theorem after_new_ordered_and_sized (capacity : Nat) (ops : List (Operation α)) :
    let start : Heap α := new capacity
    let t := start.after ops
    (∀ i, 0 < i → i < t.length → expiryAt t.nodes ((i - 1) / 2) ≤ expiryAt t.nodes i) ∧
      (t.ids.Nodup ∧ ∀ id ∈ t.ids, id < t.nextId) ∧
      (t.armed.Nodup ∧ ∀ id ∈ t.armed, ∃! i : Fin t.nodes.size, t.nodes[i].id = id) ∧
      t.length ≤ t.capacity ∧
      ∃ k, t.capacity = max capacity 1 * 2 ^ k ∧ start.peak ops ≤ max capacity 1 * 2 ^ k ∧
        ∀ j, start.peak ops ≤ max capacity 1 * 2 ^ j → k ≤ j := by
  intro start t
  have hwell : WellFormed t := (wellFormed_new capacity).after ops
  have hsized : Sized (max capacity 1) (max 0 (start.peak ops)) t :=
    (sized_new capacity).after (by omega) ops
  rw [Nat.zero_max] at hsized
  obtain ⟨k, hcapacity, hfits, hleast⟩ := hsized.doubled
  refine ⟨hwell.ordered, ⟨hwell.distinct, hwell.issued⟩, ⟨hwell.once, ?_⟩, ?_,
    k, hcapacity, hfits, hleast⟩
  · intro id hid
    obtain ⟨i, hi, hid, honly⟩ := hwell.only_node hid
    exact ⟨⟨i, hi⟩, hid, fun j hj => Fin.ext (honly j j.isLt hj)⟩
  · rw [hcapacity]
    exact Nat.le_trans hsized.length_le hfits

end Heap
end Timer
end PageServer
