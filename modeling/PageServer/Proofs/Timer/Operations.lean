import PageServer.Proofs.Timer.Sift

/-!
# Operations on a timer heap

What a caller may ask of a heap, and any number of such requests in a row.  For each
operation that changes the heap a lemma says which nodes are there afterwards; where they
are is up to the sifts.
-/

namespace PageServer
namespace Timer

variable {α : Type}

inductive Operation (α : Type)
  | add (expiry : Nat) (data : α)
  | disarm (id : Nat)
  | adjust (id expiry : Nat)
  | isArmed (id : Nat)
  | pop
  | top
  | untilNext (now : Nat)
  | length
  | tick (now : Nat)

inductive Answer (α : Type)
  | handle (id : Nat)
  | flag (yes : Bool)
  | node (first : Option (Node α))
  | wait (time : Option Nat)
  | count (n : Nat)
  /-- The timers that had their effect, in order. -/
  | fired (nodes : List (Node α))

namespace Heap

theorem size_pop? (t : Heap α) : t.pop?.2.nodes.size = t.nodes.size - 1 := by
  unfold pop?
  split
  · exact size_removeRoot _ _
  · next h => simp only; omega

/-- The timers that a tick gives their effect, in the order in which they leave. -/
def fired (t : Heap α) (now : Nat) : List (Node α) :=
  if h : 0 < t.nodes.size then
    let root := t.nodes[0]
    if root.expiry ≤ now then
      let later := t.pop?.2.fired now
      if t.isArmed root.id then root :: later else later
    else []
  else []
termination_by t.nodes.size
decreasing_by
  rw [size_pop?]
  omega

/-- The answer to an operation, and the heap behind it. -/
def perform (t : Heap α) : Operation α → Answer α × Heap α
  | .add expiry data => (.handle (t.add expiry data).1, (t.add expiry data).2)
  | .disarm id => (.flag (t.disarm id).1, (t.disarm id).2)
  | .adjust id expiry => (.flag (t.adjust id expiry).1, (t.adjust id expiry).2)
  | .isArmed id => (.flag (t.isArmed id), t)
  | .pop => (.node t.pop?.1, t.pop?.2)
  | .top => (.node t.top?, t)
  | .untilNext now => (.wait (t.untilNext? now), t)
  | .length => (.count t.length, t)
  | .tick now => (.fired (t.fired now), (t.tick now).2)

/-- The heap behind operations in a row. -/
def after (t : Heap α) (ops : List (Operation α)) : Heap α :=
  ops.foldl (fun t op => (t.perform op).2) t

/-- Operations in a row, each with its answer. -/
def history (t : Heap α) : List (Operation α) → List (Operation α × Answer α)
  | [] => []
  | op :: ops => (op, (t.perform op).1) :: (t.perform op).2.history ops

/-- The largest length on the way through operations in a row. -/
def peak (t : Heap α) : List (Operation α) → Nat
  | [] => t.length
  | op :: ops => max t.length ((t.perform op).2.peak ops)

variable {t : Heap α}

/-! ## The nodes behind an operation -/

theorem perm_add (t : Heap α) (expiry : Nat) (data : α) :
    (t.add expiry data).2.nodes.toList.Perm (⟨t.nextId, expiry, data⟩ :: t.nodes.toList) := by
  have hsift := (siftUp_perm (t.nodes.push ⟨t.nextId, expiry, data⟩) t.nodes.size (by simp)).toList
  rw [Array.toList_push] at hsift
  exact hsift.trans (List.perm_append_singleton _ _)

theorem pop?_of_pos (h : 0 < t.nodes.size) :
    t.pop? = (some t.nodes[0], { t with
      nodes := removeRoot t.nodes h, armed := t.armed.filter (· != t.nodes[0].id) }) := by
  rw [pop?, dif_pos h]

theorem pop?_of_empty (h : t.nodes.size = 0) : t.pop? = (none, t) := by
  rw [pop?, dif_neg (by omega)]

/-- The root leaves, and its effect with it; the other nodes stay. -/
theorem perm_pop? (h : 0 < t.nodes.size) :
    t.nodes.toList.Perm (t.nodes[0] :: t.pop?.2.nodes.toList) := by
  rw [pop?_of_pos h]
  exact perm_removeRoot h

/-- The node with another expiry, if it is the one of the handle. -/
def postpone (id expiry : Nat) (n : Node α) : Node α :=
  if n.id = id then { n with expiry } else n

@[simp] theorem id_postpone (id expiry : Nat) (n : Node α) : (postpone id expiry n).id = n.id := by
  unfold postpone
  split <;> rfl

theorem adjust_absent {id : Nat} (expiry : Nat) (h : ∀ n ∈ t.nodes, n.id ≠ id) :
    t.adjust id expiry = (false, t) := by
  have hnone : t.nodes.findFinIdx? (·.id == id) = none := by
    rw [Array.findFinIdx?_eq_none_iff]
    intro n hn
    simp [h n hn]
  rw [adjust, hnone]

theorem index_eq_of_id_eq (hdistinct : (t.nodes.toList.map Node.id).Nodup) {i j : Nat}
    (hi : i < t.nodes.size) (hj : j < t.nodes.size) (heq : t.nodes[i].id = t.nodes[j].id) :
    i = j := by
  have hlength : (t.nodes.toList.map Node.id).length = t.nodes.size := by simp
  have hi' : i < (t.nodes.toList.map Node.id).length := hlength ▸ hi
  have hj' : j < (t.nodes.toList.map Node.id).length := hlength ▸ hj
  have hsame : (t.nodes.toList.map Node.id)[i] = (t.nodes.toList.map Node.id)[j] := by
    simpa using heq
  exact (List.getElem_inj hdistinct).mp hsame

/-- Where handles are distinct, an adjustment changes no other node. -/
theorem set_eq_map_postpone (hdistinct : (t.nodes.toList.map Node.id).Nodup) {i : Nat}
    (hi : i < t.nodes.size) (expiry : Nat) :
    (t.nodes.set i { t.nodes[i] with expiry }).toList =
      t.nodes.toList.map (postpone t.nodes[i].id expiry) := by
  apply List.ext_getElem
  · simp
  · intro k hk hk'
    rw [Array.length_toList, Array.size_set] at hk
    rw [List.getElem_map, Array.getElem_toList, Array.getElem_toList, Array.getElem_set, postpone]
    by_cases hki : i = k
    · subst hki
      rw [if_pos rfl, if_pos rfl]
    · have hid : t.nodes[k].id ≠ t.nodes[i].id := by
        intro heq
        exact hki (index_eq_of_id_eq hdistinct hk hi heq).symm
      rw [if_neg hki, if_neg hid]

/-- An adjustment finds its node and gives it the new expiry. -/
theorem adjust_present (hdistinct : (t.nodes.toList.map Node.id).Nodup) {n : Node α}
    (hn : n ∈ t.nodes) (expiry : Nat) :
    ∃ nodes : Array (Node α), t.adjust n.id expiry = (true, { t with nodes }) ∧
      nodes.toList.Perm (t.nodes.toList.map (postpone n.id expiry)) ∧
      (Ordered t.nodes → Ordered nodes) := by
  cases hfind : t.nodes.findFinIdx? (·.id == n.id) with
  | none =>
    rw [Array.findFinIdx?_eq_none_iff] at hfind
    exact absurd (beq_self_eq_true n.id) (hfind n hn)
  | some hole =>
    have hid : t.nodes[hole].id = n.id := by
      simpa using (Array.findFinIdx?_eq_some_iff.mp hfind).1
    have hset := set_eq_map_postpone hdistinct hole.isLt expiry
    rw [adjust, hfind]
    refine ⟨_, rfl, ?_, ?_⟩
    · rw [← hid]
      simp only [Fin.getElem_fin]
      rw [← hset]
      split
      · exact (siftUp_perm _ _ _).toList
      · exact (siftDown_perm _ _).toList
    · intro hordered
      split
      · next hearlier =>
        apply UpOrder.ordered_siftUp
        apply hordered.upOrder_set
        rw [expiryAt_of_lt hole.isLt]
        exact Nat.le_of_lt hearlier
      · next hlater =>
        apply DownOrder.ordered_siftDown
        apply hordered.downOrder_set
        rw [expiryAt_of_lt hole.isLt]
        exact Nat.not_lt.mp hlater

/-! ## What a tick does -/

/-- A tick takes out the root as long as it has expired. -/
theorem tick_of_due (h : 0 < t.nodes.size) {now : Nat} (hdue : t.nodes[0].expiry ≤ now) :
    t.tick now =
      let later := t.pop?.2.tick now
      (if t.isArmed t.nodes[0].id then t.nodes[0].data :: later.1 else later.1, later.2) := by
  rw [tick, dif_pos h, pop?_of_pos h]
  simp only [if_pos hdue]

theorem tick_of_not_due {now : Nat} (h : ∀ h : 0 < t.nodes.size, now < t.nodes[0].expiry) :
    t.tick now = ([], t) := by
  rw [tick]
  split
  · next hpos =>
    simp only
    rw [if_neg (Nat.not_le.mpr (h hpos))]
  · rfl

theorem fired_of_due (h : 0 < t.nodes.size) {now : Nat} (hdue : t.nodes[0].expiry ≤ now) :
    t.fired now =
      if t.isArmed t.nodes[0].id then t.nodes[0] :: t.pop?.2.fired now else t.pop?.2.fired now := by
  rw [fired, dif_pos h]
  simp only [if_pos hdue]

theorem fired_of_not_due {now : Nat} (h : ∀ h : 0 < t.nodes.size, now < t.nodes[0].expiry) :
    t.fired now = [] := by
  rw [fired]
  split
  · next hpos =>
    simp only
    rw [if_neg (Nat.not_le.mpr (h hpos))]
  · rfl

/-- What holds of a heap where nothing has expired, and of one whose root has if it holds
of the heap without the root, holds of every heap. -/
theorem tick_induction {motive : Heap α → Prop} (now : Nat)
    (rest : ∀ t : Heap α, (∀ h : 0 < t.nodes.size, now < t.nodes[0].expiry) → motive t)
    (due : ∀ (t : Heap α) (h : 0 < t.nodes.size), t.nodes[0].expiry ≤ now → motive t.pop?.2 →
      motive t) (t : Heap α) : motive t := by
  -- On the number of nodes: a tick takes out one root after the other.
  induction hsize : t.nodes.size using Nat.strongRecOn generalizing t with
  | ind n ih =>
    by_cases hdue : ∃ h : 0 < t.nodes.size, t.nodes[0].expiry ≤ now
    · obtain ⟨h, hle⟩ := hdue
      have hsmaller : t.pop?.2.nodes.size < n := by
        rw [size_pop?]
        omega
      exact due t h hle (ih _ hsmaller t.pop?.2 rfl)
    · apply rest
      intro h
      exact Nat.not_le.mp fun hle => hdue ⟨h, hle⟩

/-- The data that a tick gives are those of the timers that have their effect. -/
theorem tick_fst (t : Heap α) (now : Nat) : (t.tick now).1 = (t.fired now).map Node.data := by
  induction t using tick_induction now with
  | rest t h => rw [tick_of_not_due h, fired_of_not_due h, List.map_nil]
  | due t h hdue ih =>
    rw [tick_of_due h hdue, fired_of_due h hdue]
    simp only [ih]
    split
    · rw [List.map_cons]
    · rfl

end Heap
end Timer
end PageServer
