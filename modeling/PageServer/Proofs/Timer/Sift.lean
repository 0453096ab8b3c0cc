import PageServer.Timer.Heap

/-!
# Sifting

A sift repairs a heap around one node that is out of place.  It only moves nodes, and it
ends with the heap in order where all was in order but for that node: against its parent
for a sift up, against its children for a sift down.  The children of the node must fit
below its parent, since one of them or of the parent's may end next to the other.
-/

namespace PageServer
namespace Timer

variable {α : Type} {a : Array (Node α)} {hole : Nat}

/-- The expiry of the node at a place, zero behind the last node. -/
def expiryAt (a : Array (Node α)) (i : Nat) : Nat :=
  if h : i < a.size then a[i].expiry else 0

theorem expiryAt_of_lt {i : Nat} (h : i < a.size) : expiryAt a i = a[i].expiry :=
  dif_pos h

theorem expiryAt_swap {i j : Nat} (hi : i < a.size) (hj : j < a.size) (k : Nat) :
    expiryAt (a.swap i j hi hj) k =
      if k = i then expiryAt a j else if k = j then expiryAt a i else expiryAt a k := by
  by_cases hk : k < a.size
  · rw [expiryAt_of_lt (by simpa using hk), expiryAt_of_lt hi, expiryAt_of_lt hj,
      expiryAt_of_lt hk, Array.getElem_swap]
    split
    · rfl
    · split <;> rfl
  · have hki : k ≠ i := by
      rintro rfl
      exact hk hi
    have hkj : k ≠ j := by
      rintro rfl
      exact hk hj
    rw [if_neg hki, if_neg hkj, expiryAt, expiryAt, dif_neg hk, dif_neg (by simpa using hk)]

/-- No node expires before its parent. -/
def Ordered (a : Array (Node α)) : Prop :=
  ∀ i, 0 < i → i < a.size → expiryAt a (parent i) ≤ expiryAt a i

/-- The first node expires first. -/
theorem Ordered.expiryAt_zero_le (h : Ordered a) {i : Nat} (hi : i < a.size) :
    expiryAt a 0 ≤ expiryAt a i := by
  induction i using Nat.strongRecOn with
  | ind i ih =>
    by_cases hzero : i = 0
    · subst hzero
      exact Nat.le_refl _
    · have hparent := parent_lt hzero
      exact Nat.le_trans (ih (parent i) hparent (by omega)) (h i (by omega) hi)

/-- All is in order but the node at the hole against its parent. -/
structure UpOrder (a : Array (Node α)) (hole : Nat) : Prop where
  elsewhere : ∀ i, 0 < i → i < a.size → i ≠ hole → expiryAt a (parent i) ≤ expiryAt a i
  across : 0 < hole → ∀ i, 0 < i → i < a.size → parent i = hole →
    expiryAt a (parent hole) ≤ expiryAt a i

/-- All is in order but the node at the hole against its children. -/
structure DownOrder (a : Array (Node α)) (hole : Nat) : Prop where
  elsewhere : ∀ i, 0 < i → i < a.size → parent i ≠ hole → expiryAt a (parent i) ≤ expiryAt a i
  across : 0 < hole → ∀ i, 0 < i → i < a.size → parent i = hole →
    expiryAt a (parent hole) ≤ expiryAt a i

/-! ## Up -/

theorem UpOrder.ordered (h : UpOrder a hole)
    (hstop : 0 < hole → expiryAt a (parent hole) ≤ expiryAt a hole) : Ordered a := by
  intro i hpos hi
  by_cases hhole : i = hole
  · rw [hhole] at hpos ⊢
    exact hstop hpos
  · exact h.elsewhere i hpos hi hhole

theorem UpOrder.swap (h : UpOrder a hole) (hpos : hole ≠ 0) (hp : parent hole < a.size)
    (hlt : hole < a.size) (hbefore : expiryAt a hole < expiryAt a (parent hole)) :
    UpOrder (a.swap (parent hole) hole hp hlt) (parent hole) := by
  have hup := parent_lt hpos
  -- What hangs on the parent, or is the parent, was in order with it.
  have hsibling (i : Nat) (hi0 : 0 < i) (hi : i < a.size) (hne : i ≠ hole)
      (hparent : parent i = parent hole) : expiryAt a (parent hole) ≤ expiryAt a i := by
    have := h.elsewhere i hi0 hi hne
    rwa [hparent] at this
  constructor
  · intro i hi0 hi hne
    rw [Array.size_swap] at hi
    simp only [expiryAt_swap, if_neg hne]
    by_cases hhole : i = hole
    · rw [if_pos hhole, hhole, if_pos rfl]
      exact Nat.le_of_lt hbefore
    · rw [if_neg hhole]
      by_cases hunder : parent i = parent hole
      · rw [if_pos hunder]
        exact Nat.le_trans (Nat.le_of_lt hbefore) (hsibling i hi0 hi hhole hunder)
      · rw [if_neg hunder]
        by_cases hbelow : parent i = hole
        · rw [if_pos hbelow]
          exact h.across (by omega) i hi0 hi hbelow
        · rw [if_neg hbelow]
          exact h.elsewhere i hi0 hi hhole
  · intro hp0 i hi0 hi hparent
    rw [Array.size_swap] at hi
    have hgrand := parent_lt (Nat.ne_of_gt hp0)
    have habove := h.elsewhere (parent hole) hp0 hp (Nat.ne_of_lt hup)
    have hchild := parent_lt (Nat.ne_of_gt hi0)
    simp only [expiryAt_swap]
    rw [if_neg (by omega), if_neg (by omega), if_neg (by omega)]
    by_cases hhole : i = hole
    · rw [if_pos hhole]
      exact habove
    · rw [if_neg hhole]
      exact Nat.le_trans habove (hsibling i hi0 hi hhole hparent)

theorem UpOrder.ordered_siftUp (h : UpOrder a hole) (hlt : hole < a.size) :
    Ordered (siftUp a hole hlt) := by
  fun_induction siftUp a hole hlt with
  | case1 a hlt => exact h.ordered (fun hpos => absurd hpos (Nat.lt_irrefl 0))
  | case2 a hole hlt hpos hp hle =>
    apply h.ordered
    intro _
    rw [expiryAt_of_lt hp, expiryAt_of_lt hlt]
    exact hle
  | case3 a hole hlt hpos hp hbefore ih =>
    apply ih
    apply h.swap hpos
    rw [expiryAt_of_lt hp, expiryAt_of_lt hlt]
    exact Nat.not_le.mp hbefore

theorem siftUp_perm (a : Array (Node α)) (hole : Nat) (h : hole < a.size) :
    (siftUp a hole h).Perm a := by
  fun_induction siftUp a hole h with
  | case1 a h => exact .refl a
  | case2 a hole h hpos hp hle => exact .refl a
  | case3 a hole h hpos hp hbefore ih => exact ih.trans (Array.swap_perm hp h)

/-! ## Down -/

theorem DownOrder.ordered (h : DownOrder a hole)
    (hstop : ∀ i, 0 < i → i < a.size → parent i = hole → expiryAt a hole ≤ expiryAt a i) :
    Ordered a := by
  intro i hpos hi
  by_cases hhole : parent i = hole
  · rw [hhole]
    exact hstop i hpos hi hhole
  · exact h.elsewhere i hpos hi hhole

theorem parent_firstChild (h : 2 * hole + 1 < a.size) : parent (firstChild a hole h) = hole := by
  unfold firstChild
  split
  · split <;> (unfold parent; omega)
  · unfold parent; omega

/-- The first child expires no later than any other. -/
theorem expiryAt_firstChild_le (h : 2 * hole + 1 < a.size) {i : Nat} (hpos : 0 < i)
    (hi : i < a.size) (hparent : parent i = hole) :
    expiryAt a (firstChild a hole h) ≤ expiryAt a i := by
  have hside : i = 2 * hole + 1 ∨ i = 2 * hole + 2 := by
    unfold parent at hparent
    omega
  unfold firstChild
  split
  · next hright =>
    rw [← expiryAt_of_lt hright, ← expiryAt_of_lt h]
    split
    · next hlt =>
      rcases hside with rfl | rfl
      · exact Nat.le_of_lt hlt
      · exact Nat.le_refl _
    · next hge =>
      rcases hside with rfl | rfl
      · exact Nat.le_refl _
      · exact Nat.not_lt.mp hge
  · next hlast =>
    obtain rfl : i = 2 * hole + 1 := by omega
    exact Nat.le_refl _

theorem DownOrder.swap (h : DownOrder a hole) {child : Nat} (hparent : parent child = hole)
    (hpos : 0 < child) (hlt : hole < a.size) (hc : child < a.size)
    (hfirst : ∀ i, 0 < i → i < a.size → parent i = hole → expiryAt a child ≤ expiryAt a i)
    (hbefore : expiryAt a child < expiryAt a hole) :
    DownOrder (a.swap hole child hlt hc) child := by
  have hdown := parent_lt (Nat.ne_of_gt hpos)
  rw [hparent] at hdown
  constructor
  · intro i hi0 hi hne
    rw [Array.size_swap] at hi
    simp only [expiryAt_swap, if_neg hne]
    by_cases hunder : parent i = hole
    · have hup := parent_lt (Nat.ne_of_gt hi0)
      rw [if_pos hunder, if_neg (by omega)]
      by_cases hchild : i = child
      · rw [if_pos hchild]
        exact Nat.le_of_lt hbefore
      · rw [if_neg hchild]
        exact hfirst i hi0 hi hunder
    · have hchild : i ≠ child := by
        rintro rfl
        exact hunder hparent
      rw [if_neg hunder, if_neg hchild]
      by_cases hhole : i = hole
      · rw [if_pos hhole, hhole]
        -- What comes up from below has to be in order with the parent of the hole as well.
        exact h.across (by omega) child hpos hc hparent
      · rw [if_neg hhole]
        exact h.elsewhere i hi0 hi hunder
  · intro _ i hi0 hi hunder
    rw [Array.size_swap] at hi
    have hup := parent_lt (Nat.ne_of_gt hi0)
    have horder := h.elsewhere i hi0 hi (by omega)
    rw [hunder] at horder
    simp only [expiryAt_swap, hparent, if_true]
    rw [if_neg (by omega), if_neg (by omega)]
    exact horder

theorem DownOrder.ordered_siftDown (h : DownOrder a hole) : Ordered (siftDown a hole) := by
  fun_induction siftDown a hole with
  | case1 a hole hchild hc hbefore ih =>
    have hfirst := lt_firstChild a hole hchild
    apply ih
    apply h.swap (parent_firstChild hchild) (by omega) (by omega) hc
    · intro i hpos hi hparent
      exact expiryAt_firstChild_le hchild hpos hi hparent
    · rw [expiryAt_of_lt hc, expiryAt_of_lt (by omega)]
      exact hbefore
  | case2 a hole hchild hc hstop =>
    apply h.ordered
    intro i hpos hi hparent
    have hfirst := expiryAt_firstChild_le hchild hpos hi hparent
    rw [← expiryAt_of_lt hc, ← expiryAt_of_lt] at hstop
    exact Nat.le_trans (Nat.not_lt.mp hstop) hfirst
  | case3 a hole hleaf =>
    apply h.ordered
    intro i hpos hi hparent
    unfold parent at hparent
    omega

theorem siftDown_perm (a : Array (Node α)) (hole : Nat) : (siftDown a hole).Perm a := by
  fun_induction siftDown a hole with
  | case1 a hole hchild hc hbefore ih => exact ih.trans (Array.swap_perm _ hc)
  | case2 a hole hchild hc hstop => exact .refl a
  | case3 a hole hleaf => exact .refl a

/-! ## Where a node comes to be out of place -/

/-- A node behind the last one is in order but against its parent. -/
theorem Ordered.upOrder_push (h : Ordered a) (n : Node α) : UpOrder (a.push n) a.size := by
  have hsame (i : Nat) (hi : i < a.size) : expiryAt (a.push n) i = expiryAt a i := by
    rw [expiryAt_of_lt hi, expiryAt_of_lt (by rw [Array.size_push]; omega),
      Array.getElem_push_lt hi]
  constructor
  · intro i hpos hi hne
    rw [Array.size_push] at hi
    have hup := parent_lt (Nat.ne_of_gt hpos)
    rw [hsame i (by omega), hsame (parent i) (by omega)]
    exact h i hpos (by omega)
  · intro _ i hpos hi hparent
    have hup := parent_lt (Nat.ne_of_gt hpos)
    rw [Array.size_push] at hi
    omega

theorem expiryAt_set {i : Nat} (hi : i < a.size) (n : Node α) (k : Nat) :
    expiryAt (a.set i n hi) k = if k = i then n.expiry else expiryAt a k := by
  by_cases hk : k < a.size
  · rw [expiryAt_of_lt (by simpa using hk), expiryAt_of_lt hk, Array.getElem_set]
    by_cases hki : k = i
    · rw [if_pos hki, if_pos hki.symm]
    · rw [if_neg hki, if_neg (Ne.symm hki)]
  · have hki : k ≠ i := by
      rintro rfl
      exact hk hi
    rw [if_neg hki, expiryAt, expiryAt, dif_neg hk, dif_neg (by simpa using hk)]

/-- The children of a node fit below its parent. -/
theorem Ordered.across (h : Ordered a) {i : Nat} (hhole : 0 < hole) (hpos : 0 < i)
    (hi : i < a.size) (hparent : parent i = hole) : expiryAt a (parent hole) ≤ expiryAt a i := by
  have hup := parent_lt (Nat.ne_of_gt hpos)
  have hchild := h i hpos hi
  rw [hparent] at hchild
  exact Nat.le_trans (h hole hhole (by omega)) hchild

section Set

variable (h : Ordered a) (hlt : hole < a.size) {n : Node α}

include h

/-- A node that expires earlier than before is in order but against its parent. -/
theorem Ordered.upOrder_set (hearlier : n.expiry ≤ expiryAt a hole) :
    UpOrder (a.set hole n hlt) hole := by
  constructor
  · intro i hpos hi hne
    rw [Array.size_set] at hi
    have horder := h i hpos hi
    rw [expiryAt_set, expiryAt_set, if_neg hne]
    by_cases hparent : parent i = hole
    · rw [if_pos hparent]
      rw [hparent] at horder
      exact Nat.le_trans hearlier horder
    · rw [if_neg hparent]
      exact horder
  · intro hhole i hpos hi hparent
    rw [Array.size_set] at hi
    have hup := parent_lt (Nat.ne_of_gt hpos)
    have hgrand := parent_lt (Nat.ne_of_gt hhole)
    rw [expiryAt_set, expiryAt_set, if_neg (by omega), if_neg (by omega)]
    exact h.across hhole hpos hi hparent

/-- A node that expires later than before is in order but against its children. -/
theorem Ordered.downOrder_set (hlater : expiryAt a hole ≤ n.expiry) :
    DownOrder (a.set hole n hlt) hole := by
  constructor
  · intro i hpos hi hne
    rw [Array.size_set] at hi
    have horder := h i hpos hi
    rw [expiryAt_set, expiryAt_set, if_neg hne]
    by_cases hhole : i = hole
    · rw [if_pos hhole]
      rw [hhole] at horder ⊢
      exact Nat.le_trans horder hlater
    · rw [if_neg hhole]
      exact horder
  · intro hhole i hpos hi hparent
    rw [Array.size_set] at hi
    have hup := parent_lt (Nat.ne_of_gt hpos)
    have hgrand := parent_lt (Nat.ne_of_gt hhole)
    rw [expiryAt_set, expiryAt_set, if_neg (by omega), if_neg (by omega)]
    exact h.across hhole hpos hi hparent

end Set

/-- With the last node in place of the root, all is in order but the root against its
children. -/
theorem Ordered.downOrder_pop (h : Ordered a) (hpos : 0 < a.size) :
    DownOrder (a.swap 0 (a.size - 1) hpos (Nat.sub_one_lt_of_lt hpos)).pop 0 := by
  have hsame (i : Nat) (hi0 : 0 < i) (hi : i < a.size - 1) :
      expiryAt (a.swap 0 (a.size - 1) hpos (Nat.sub_one_lt_of_lt hpos)).pop i = expiryAt a i := by
    rw [expiryAt_of_lt (by simpa using hi), expiryAt_of_lt (by omega), Array.getElem_pop,
      Array.getElem_swap, if_neg (by omega), if_neg (by omega)]
  constructor
  · intro i hi0 hi hne
    rw [Array.size_pop, Array.size_swap] at hi
    have hup := parent_lt (Nat.ne_of_gt hi0)
    rw [hsame i hi0 hi, hsame (parent i) (by omega) (by omega)]
    exact h i hi0 (by omega)
  · intro hzero
    exact absurd hzero (Nat.lt_irrefl 0)

/-- Taking out the root leaves the other nodes, in order. -/
theorem Ordered.removeRoot (h : Ordered a) (hpos : 0 < a.size) : Ordered (removeRoot a hpos) :=
  (h.downOrder_pop hpos).ordered_siftDown

/-- The root and what is left when it is taken out are the nodes of the heap. -/
theorem perm_removeRoot (h : 0 < a.size) : a.toList.Perm (a[0] :: (removeRoot a h).toList) := by
  have hswap := (Array.swap_perm h (show a.size - 1 < a.size by omega)).toList
  have hsift := (siftDown_perm (a.swap 0 (a.size - 1) h (by omega)).pop 0).toList
  have hpush : a.swap 0 (a.size - 1) h (by omega) =
      (a.swap 0 (a.size - 1) h (by omega)).pop.push a[0] := by
    apply Array.ext
    · rw [Array.size_push, Array.size_pop, Array.size_swap]
      omega
    · intro i hi hi'
      rw [Array.size_swap] at hi
      rw [Array.getElem_push]
      split
      · rw [Array.getElem_pop]
      · next hlast =>
        rw [Array.size_pop, Array.size_swap] at hlast
        rw [Array.getElem_swap]
        split
        · next hzero => simp only [show a.size - 1 = 0 by omega]
        · rw [if_pos (by omega)]
  rw [hpush, Array.toList_push] at hswap
  exact hswap.symm.trans ((List.perm_append_singleton _ _).trans (hsift.symm.cons _))

end Timer
end PageServer
