import PageServer.Proofs.Timer.Representation

/-!
# Timers that stay where they are

An adjustment moves a node only past one that expires strictly later or earlier.  In a
heap that is in order there is no such node next to one that keeps its expiry, whatever
else expires together with it, so the nodes stay at their places.  Hence an adjustment
made again changes nothing.
-/

namespace PageServer
namespace Timer

variable {α : Type} {a : Array (Node α)}

/-- In a heap that is in order nothing moves down. -/
theorem Ordered.siftDown_eq (h : Ordered a) (hole : Nat) : siftDown a hole = a := by
  unfold siftDown
  split
  · next hchild =>
    have hc := firstChild_lt_size a hole hchild
    have hpos : 0 < firstChild a hole hchild :=
      Nat.lt_of_le_of_lt (Nat.zero_le hole) (lt_firstChild a hole hchild)
    have hkept : a[hole].expiry ≤ a[firstChild a hole hchild].expiry := by
      have horder := h _ hpos hc
      rwa [parent_firstChild hchild, expiryAt_of_lt (by omega), expiryAt_of_lt hc] at horder
    simp [Nat.not_lt.mpr hkept]
  · rfl

namespace Heap

variable {t : Heap α}

/-- An adjustment to the expiry that a timer has finds it and leaves the heap as it is. -/
theorem WellFormed.adjust_same (h : WellFormed t) {n : Node α} (hn : n ∈ t.nodes) :
    t.adjust n.id n.expiry = (true, t) := by
  obtain ⟨hole, hfind⟩ : ∃ hole, t.nodes.findFinIdx? (·.id == n.id) = some hole := by
    apply Option.ne_none_iff_exists'.mp
    intro hnone
    rw [Array.findFinIdx?_eq_none_iff] at hnone
    exact hnone n hn (beq_self_eq_true n.id)
  obtain ⟨i, hi, rfl⟩ := Array.mem_iff_getElem.mp hn
  have hid : t.nodes[hole].id = t.nodes[i].id := by
    simpa using (Array.findFinIdx?_eq_some_iff.mp hfind).1
  -- Handles are distinct, so the node that is found is the one whose expiry is set.
  obtain rfl : i = hole.val := (index_eq_of_id_eq h.distinct hole.isLt hi hid).symm
  have hset : t.nodes.set hole { t.nodes[hole.val] with expiry := t.nodes[hole.val].expiry } =
      t.nodes := Array.set_getElem_self hole.isLt
  simp only [Heap.adjust, hfind, Fin.getElem_fin, Nat.lt_irrefl, if_false, hset,
    h.ordered.siftDown_eq]

/-- A timer that has been found has the expiry that was asked for. -/
theorem WellFormed.exists_of_adjust (h : WellFormed t) {id expiry : Nat}
    (hfound : (t.adjust id expiry).1 = true) :
    ∃ n ∈ (t.adjust id expiry).2.nodes, n.id = id ∧ n.expiry = expiry := by
  by_cases hmem : ∃ n ∈ t.nodes, n.id = id
  · obtain ⟨n, hn, rfl⟩ := hmem
    obtain ⟨nodes, heq, hperm, -⟩ := adjust_present h.distinct hn expiry
    refine ⟨postpone n.id expiry n, ?_, id_postpone _ _ _, ?_⟩
    · rw [heq, ← Array.mem_toList_iff, hperm.mem_iff]
      exact List.mem_map_of_mem (Array.mem_toList_iff.mpr hn)
    · simp [postpone]
  · rw [adjust_absent expiry fun n hn hid => hmem ⟨n, hn, hid⟩] at hfound
    cases hfound

theorem adjust_not_found {id expiry : Nat} (h : (t.adjust id expiry).1 = false) :
    t.adjust id expiry = (false, t) := by
  unfold adjust at h ⊢
  split
  · rfl
  · next hfind => simp [hfind] at h

/-- An adjustment made twice in a row is made once. -/
theorem WellFormed.adjust_twice (h : WellFormed t) (id expiry : Nat) :
    (t.adjust id expiry).2.adjust id expiry = t.adjust id expiry := by
  cases hfound : (t.adjust id expiry).1 with
  | true =>
    obtain ⟨n, hn, rfl, rfl⟩ := h.exists_of_adjust hfound
    rw [(h.adjust _ _).adjust_same hn, ← hfound]
  | false =>
    have hkept := adjust_not_found hfound
    rw [hkept]
    exact hkept

/-- Whatever has been asked of a heap: setting the expiry that a timer has finds the timer
and leaves every node at its place, with all handles and effects, and setting any expiry
twice in a row is setting it once. -/
theorem adjust_settled (capacity : Nat) (ops : List (Operation α)) :
    let t : Heap α := (new capacity).after ops
    (∀ n ∈ t.nodes, t.adjust n.id n.expiry = (true, t)) ∧
      ∀ id expiry, (t.adjust id expiry).2.adjust id expiry = t.adjust id expiry := by
  intro t
  have hwell : WellFormed t := (wellFormed_new capacity).after ops
  exact ⟨fun n hn => hwell.adjust_same hn, hwell.adjust_twice⟩

theorem adjust_settled_together :
    let t : Heap Char := (new 8).after [.add 5 'a', .add 5 'b', .add 5 'c', .disarm 0]
    (⟨0, 5, 'a'⟩ : Node Char) ∈ t.nodes ∧ t.adjust 0 5 = (true, t) := by
  intro t
  have hroot : t.nodes[0]? = some ⟨0, 5, 'a'⟩ := by
    simp only [t]
    cbv
  have hmem := Array.mem_of_getElem? hroot
  exact ⟨hmem, (adjust_settled 8 _).1 _ hmem⟩

end Heap
end Timer
end PageServer
