import PageServer.Proofs.Timer.Refinement

/-!
# What a tick sweeps out

A tick looks at the root and at nothing else.  In a heap that is in order this is enough:
when the root has not expired nothing has, so all that has expired leaves, the earliest
first, and the rest stays as it was.
-/

namespace PageServer
namespace Timer
namespace Heap

variable {α : Type} {t : Heap α} {now : Nat}

/-- The nodes that a tick leaves alone. -/
def pending (t : Heap α) (now : Nat) : List (Node α) :=
  t.nodes.toList.filter fun n => now < n.expiry

/-- The nodes that a tick takes out with their effect. -/
def due (t : Heap α) (now : Nat) : List (Node α) :=
  t.nodes.toList.filter fun n => n.expiry ≤ now && t.isArmed n.id

theorem mem_pending {n : Node α} : n ∈ t.pending now ↔ n ∈ t.nodes ∧ now < n.expiry := by
  rw [pending, List.mem_filter, decide_eq_true_iff, Array.mem_toList_iff]

theorem mem_due {n : Node α} :
    n ∈ t.due now ↔ n ∈ t.nodes ∧ n.expiry ≤ now ∧ t.isArmed n.id = true := by
  rw [due, List.mem_filter, Bool.and_eq_true, decide_eq_true_iff, Array.mem_toList_iff]

/-! ## The root -/

theorem WellFormed.root_le (h : WellFormed t) (hpos : 0 < t.nodes.size) {n : Node α}
    (hn : n ∈ t.nodes) : t.nodes[0].expiry ≤ n.expiry := by
  obtain ⟨i, hi, rfl⟩ := Array.mem_iff_getElem.mp hn
  have hle := h.ordered.expiryAt_zero_le hi
  rw [expiryAt_of_lt hpos, expiryAt_of_lt hi] at hle
  exact hle

/-- Nothing has expired when the root has not. -/
theorem WellFormed.lt_expiry (h : WellFormed t)
    (hrest : ∀ h : 0 < t.nodes.size, now < t.nodes[0].expiry) {n : Node α} (hn : n ∈ t.nodes) :
    now < n.expiry := by
  have hpos : 0 < t.nodes.size := Array.size_pos_of_mem hn
  exact Nat.lt_of_lt_of_le (hrest hpos) (h.root_le hpos hn)

/-- The root is the only node of its handle. -/
theorem WellFormed.id_ne_root (h : WellFormed t) (hpos : 0 < t.nodes.size) {n : Node α}
    (hn : n ∈ t.pop?.2.nodes) : n.id ≠ t.nodes[0].id := by
  intro hid
  have hdistinct := (ids_pop_perm hpos).nodup_iff.mp h.distinct
  exact (List.nodup_cons.mp hdistinct).1 (hid ▸ mem_ids.mpr ⟨n, hn, rfl⟩)

theorem isArmed_pop (hpos : 0 < t.nodes.size) (id : Nat) :
    t.pop?.2.isArmed id = (t.isArmed id && id != t.nodes[0].id) := by
  rw [pop?_of_pos hpos]
  exact isArmed_disarmed t.armed t.nodes[0].id id

/-- An expired root is the first to leave, and is not waited for afterwards. -/
theorem pending_pop (hpos : 0 < t.nodes.size) (hdue : t.nodes[0].expiry ≤ now) :
    (t.pop?.2.pending now).Perm (t.pending now) := by
  have hperm := (perm_pop? hpos).filter fun n => decide (now < n.expiry)
  rw [List.filter_cons_of_neg (by simpa using hdue)] at hperm
  exact hperm.symm

/-- With an expired root, those due are the root, if it is armed, and those due without
it. -/
theorem WellFormed.due_pop (h : WellFormed t) (hpos : 0 < t.nodes.size)
    (hdue : t.nodes[0].expiry ≤ now) :
    (t.due now).Perm
      (if t.isArmed t.nodes[0].id then t.nodes[0] :: t.pop?.2.due now else t.pop?.2.due now) := by
  have hrest : t.pop?.2.nodes.toList.filter (fun n => n.expiry ≤ now && t.isArmed n.id) =
      t.pop?.2.due now := by
    apply List.filter_congr
    intro n hn
    have hne := h.id_ne_root hpos (Array.mem_toList_iff.mp hn)
    rw [isArmed_pop hpos, bne_iff_ne.mpr hne, Bool.and_true]
  have hperm := (perm_pop? hpos).filter fun n => n.expiry ≤ now && t.isArmed n.id
  rw [List.filter_cons, hrest, decide_eq_true hdue, Bool.true_and] at hperm
  exact hperm

/-! ## The whole tick -/

/-- The nodes left are those that have not expired. -/
theorem WellFormed.perm_tick (h : WellFormed t) (now : Nat) :
    (t.tick now).2.nodes.toList.Perm (t.pending now) := by
  induction t using tick_induction now with
  | rest t hrest =>
    have hall : t.pending now = t.nodes.toList := by
      apply List.filter_eq_self.mpr
      intro n hn
      exact decide_eq_true (h.lt_expiry hrest (Array.mem_toList_iff.mp hn))
    rw [tick_of_not_due hrest, hall]
  | due t hpos hdue ih =>
    rw [tick_of_due hpos hdue]
    exact (ih h.pop).trans (pending_pop hpos hdue)

/-- The timers that have their effect are those that are armed and have expired. -/
theorem WellFormed.perm_fired (h : WellFormed t) (now : Nat) :
    (t.fired now).Perm (t.due now) := by
  induction t using tick_induction now with
  | rest t hrest =>
    have hnone : t.due now = [] := by
      apply List.filter_eq_nil_iff.mpr
      intro n hn
      have hlate := h.lt_expiry hrest (Array.mem_toList_iff.mp hn)
      simp [Nat.not_le.mpr hlate]
    rw [fired_of_not_due hrest, hnone]
  | due t hpos hdue ih =>
    rw [fired_of_due hpos hdue]
    refine List.Perm.trans ?_ (h.due_pop hpos hdue).symm
    split
    · exact (ih h.pop).cons _
    · exact ih h.pop

theorem WellFormed.mem_of_mem_fired (h : WellFormed t) {n : Node α} (hn : n ∈ t.fired now) :
    n ∈ t.nodes :=
  (mem_due.mp ((h.perm_fired now).mem_iff.mp hn)).1

/-- No timer has its effect before one that expires earlier. -/
theorem WellFormed.fired_sorted (h : WellFormed t) (now : Nat) :
    (t.fired now).Pairwise (·.expiry ≤ ·.expiry) := by
  induction t using tick_induction now with
  | rest t hrest =>
    rw [fired_of_not_due hrest]
    exact List.Pairwise.nil
  | due t hpos hdue ih =>
    rw [fired_of_due hpos hdue]
    split
    · refine List.pairwise_cons.mpr ⟨?_, ih h.pop⟩
      intro n hn
      have hlater := h.pop.mem_of_mem_fired hn
      exact h.root_le hpos ((mem_nodes_pop hpos).mpr (.inr hlater))
    · exact ih h.pop

theorem WellFormed.fired_once (h : WellFormed t) (now : Nat) :
    ((t.fired now).map Node.id).Nodup := by
  rw [((h.perm_fired now).map Node.id).nodup_iff]
  exact h.distinct.sublist (List.filter_sublist.map Node.id)

/-- A tick takes the effect only from nodes that have expired. -/
theorem WellFormed.isArmed_tick (h : WellFormed t) {n : Node α} (hn : n ∈ t.nodes)
    (hlate : now < n.expiry) : (t.tick now).2.isArmed n.id = t.isArmed n.id := by
  induction t using tick_induction now with
  | rest t hrest => rw [tick_of_not_due hrest]
  | due t hpos hdue ih =>
    have hkept : n ∈ t.pop?.2.nodes := by
      rcases (mem_nodes_pop hpos).mp hn with rfl | hkept
      · exact absurd hdue (Nat.not_le.mpr hlate)
      · exact hkept
    rw [tick_of_due hpos hdue]
    refine (ih h.pop hkept).trans ?_
    rw [isArmed_pop hpos, bne_iff_ne.mpr (h.id_ne_root hpos hkept), Bool.and_true]

/-- What is left when a tick is over was there before, and has not expired. -/
theorem WellFormed.mem_nodes_tick (h : WellFormed t) {n : Node α} :
    n ∈ (t.tick now).2.nodes ↔ n ∈ t.nodes ∧ now < n.expiry := by
  rw [← Array.mem_toList_iff, (h.perm_tick now).mem_iff, mem_pending]

/-- The armed timers left are those that were armed and have not expired. -/
theorem WellFormed.isArmed_tick_iff (h : WellFormed t) (now id : Nat) :
    (t.tick now).2.isArmed id = true ↔
      t.isArmed id = true ∧ ∃ n ∈ t.nodes, n.id = id ∧ now < n.expiry := by
  constructor
  · intro harmed
    obtain ⟨n, hn, rfl⟩ := mem_ids.mp ((h.tick now).armed id (isArmed_iff.mp harmed))
    obtain ⟨hold, hlate⟩ := h.mem_nodes_tick.mp hn
    rw [h.isArmed_tick hold hlate] at harmed
    exact ⟨harmed, n, hold, rfl, hlate⟩
  · rintro ⟨harmed, n, hn, rfl, hlate⟩
    rw [h.isArmed_tick hn hlate]
    exact harmed

/-- A tick has nothing to do right after a tick. -/
theorem WellFormed.tick_tick (h : WellFormed t) (now : Nat) :
    (t.tick now).2.tick now = ([], (t.tick now).2) :=
  tick_of_not_due fun hpos => (h.mem_nodes_tick.mp (Array.getElem_mem hpos)).2

/-- Whatever was asked of a new heap: a tick takes out the nodes that have expired and no
others.  Those of them that were armed have their effect, each once and none before one
that expires earlier, and they are counted.  The other nodes are as before and as armed as
before, the first of them expires later than now, and a second tick changes nothing. -/
theorem tick_sweeps (capacity : Nat) (ops : List (Operation α)) (now : Nat) :
    let t := (new capacity : Heap α).after ops
    let left := (t.tick now).2
    (left.nodes.toList.Perm (t.pending now) ∧
      ∀ id, left.isArmed id = true ↔
        t.isArmed id = true ∧ ∃ n ∈ t.nodes, n.id = id ∧ now < n.expiry) ∧
    ((t.tick now).1 = (t.fired now).map Node.data ∧
      (t.fired now).Perm (t.due now) ∧
      ((t.fired now).map Node.id).Nodup ∧
      (t.fired now).Pairwise (·.expiry ≤ ·.expiry)) ∧
    (t.tick now).1.length = (t.due now).length ∧
    (∀ n ∈ left.top?, now < n.expiry) ∧
    left.tick now = ([], left) := by
  intro t left
  have hwell : WellFormed t := (wellFormed_new capacity).after ops
  have hfired := hwell.perm_fired now
  refine ⟨⟨hwell.perm_tick now, hwell.isArmed_tick_iff now⟩,
    ⟨tick_fst t now, hfired, hwell.fired_once now, hwell.fired_sorted now⟩, ?_, ?_,
    hwell.tick_tick now⟩
  · rw [tick_fst, List.length_map, hfired.length_eq]
  · intro n hn
    exact (hwell.mem_nodes_tick.mp (Array.mem_of_getElem? hn)).2

end Heap
end Timer
end PageServer
