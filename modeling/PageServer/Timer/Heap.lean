import PageServer.Fault

/-!
# Timer heaps

Timers in a binary min-heap ordered by expiry. A timer is named by its handle and never by
its position, which every sift changes. Disarming is lazy: the node stays until it reaches
the root.
-/

namespace PageServer
namespace Timer

structure Node (α : Type) where
  id : Nat
  expiry : Nat
  data : α
  deriving Repr

structure Heap (α : Type) where
  nodes : Array (Node α) := #[]
  capacity : Nat
  /-- Handles that still have an effect when they expire. -/
  armed : List Nat := []
  /-- The handle that is given out next. It is not bounded by a word: no heap lives to see
  as many timers as a word has values. -/
  nextId : Nat := 0

variable {α : Type}

def parent (i : Nat) : Nat :=
  (i - 1) / 2

theorem parent_lt {i : Nat} (h : i ≠ 0) : parent i < i := by
  unfold parent; omega

/-- Moves the node at `hole` up past every later parent. -/
def siftUp (a : Array (Node α)) (hole : Nat) (h : hole < a.size) : Array (Node α) :=
  if h0 : hole = 0 then a
  else
    have hp : parent hole < a.size := Nat.lt_trans (parent_lt h0) h
    if a[parent hole].expiry ≤ a[hole].expiry then a
    else siftUp (a.swap (parent hole) hole hp h) (parent hole) (by simpa using hp)
termination_by hole
decreasing_by exact parent_lt h0

/-- The child of `hole` that expires first, the left one of two equals. -/
def firstChild (a : Array (Node α)) (hole : Nat) (h : 2 * hole + 1 < a.size) : Nat :=
  if hr : 2 * hole + 2 < a.size then
    if a[2 * hole + 2].expiry < a[2 * hole + 1].expiry then 2 * hole + 2 else 2 * hole + 1
  else 2 * hole + 1

theorem firstChild_lt_size (a : Array (Node α)) (hole : Nat) (h : 2 * hole + 1 < a.size) :
    firstChild a hole h < a.size := by
  unfold firstChild; split
  · split <;> assumption
  · exact h

theorem lt_firstChild (a : Array (Node α)) (hole : Nat) (h : 2 * hole + 1 < a.size) :
    hole < firstChild a hole h := by
  unfold firstChild; split
  · split <;> omega
  · omega

/-- Moves the node at `hole` down past every earlier child. -/
def siftDown (a : Array (Node α)) (hole : Nat) : Array (Node α) :=
  if h : 2 * hole + 1 < a.size then
    have hc := firstChild_lt_size a hole h
    if a[firstChild a hole h].expiry < a[hole].expiry then
      siftDown (a.swap hole (firstChild a hole h) (by omega) hc) (firstChild a hole h)
    else a
  else a
termination_by a.size - hole
decreasing_by
  have := lt_firstChild a hole h
  simp only [Array.size_swap]; omega

@[simp] theorem size_siftUp (a : Array (Node α)) (hole : Nat) (h : hole < a.size) :
    (siftUp a hole h).size = a.size := by
  fun_induction siftUp a hole h <;> simp_all

@[simp] theorem size_siftDown (a : Array (Node α)) (hole : Nat) :
    (siftDown a hole).size = a.size := by
  fun_induction siftDown a hole <;> simp_all

/-- Takes the root out; the last node takes its place and is sifted down. -/
def removeRoot (a : Array (Node α)) (h : 0 < a.size) : Array (Node α) :=
  siftDown (a.swap 0 (a.size - 1) h (by omega)).pop 0

@[simp] theorem size_removeRoot (a : Array (Node α)) (h : 0 < a.size) :
    (removeRoot a h).size = a.size - 1 := by
  simp [removeRoot]

namespace Heap

/-- An empty heap; a capacity of zero counts as one. -/
def new (capacity : Nat) : Heap α :=
  { capacity := max capacity 1 }

/-- A new heap, if there is room for its first nodes of `nodeSize` bytes each. Later
doublings are not checked: a full heap has nodes for half of that room already. -/
def allocate (nodeSize capacity : Nat) : Except Fault (Heap α) :=
  (reserve (max capacity 1) nodeSize).map fun _ => new capacity

def length (t : Heap α) : Nat :=
  t.nodes.size

def isEmpty (t : Heap α) : Bool :=
  t.nodes.isEmpty

/-- Adds an armed timer and gives its handle. A full heap doubles its capacity. -/
def add (t : Heap α) (expiry : Nat) (data : α) : Nat × Heap α :=
  let nodes := t.nodes.push ⟨t.nextId, expiry, data⟩
  (t.nextId,
    { nodes := siftUp nodes t.nodes.size (by simp [nodes])
      capacity := if t.capacity ≤ t.nodes.size then t.capacity * 2 else t.capacity
      armed := t.nextId :: t.armed
      nextId := t.nextId + 1 })

def isArmed (t : Heap α) (id : Nat) : Bool :=
  t.armed.contains id

/-- Takes away a timer's effect and leaves its node; tells whether it had one. -/
def disarm (t : Heap α) (id : Nat) : Bool × Heap α :=
  (t.isArmed id, { t with armed := t.armed.filter (· != id) })

/-- Sets the expiry of a timer whose node is still there. -/
def adjust (t : Heap α) (id expiry : Nat) : Bool × Heap α :=
  match t.nodes.findFinIdx? (·.id == id) with
  | none => (false, t)
  | some hole =>
    let old := t.nodes[hole].expiry
    let nodes := t.nodes.set hole { t.nodes[hole] with expiry }
    (true, { t with
      nodes := if expiry < old then siftUp nodes hole (by simp [nodes]) else siftDown nodes hole })

/-- The timer that expires first. -/
def top? (t : Heap α) : Option (Node α) :=
  t.nodes[0]?

/-- Takes the first timer out together with its effect. -/
def pop? (t : Heap α) : Option (Node α) × Heap α :=
  if h : 0 < t.nodes.size then
    let root := t.nodes[0]
    (some root,
      { t with nodes := removeRoot t.nodes h, armed := t.armed.filter (· != root.id) })
  else (none, t)

theorem size_removeRoot_lt (a : Array (Node α)) (h : 0 < a.size) :
    (removeRoot a h).size < a.size := by
  rw [size_removeRoot]; omega

/-- Takes out every timer that has expired at `now`; gives the data of those still armed,
in the order in which they left. -/
def tick (t : Heap α) (now : Nat) : List α × Heap α :=
  if h : 0 < t.nodes.size then
    let root := t.nodes[0]
    if root.expiry ≤ now then
      let rest : Heap α :=
        { t with nodes := removeRoot t.nodes h, armed := t.armed.filter (· != root.id) }
      let later := rest.tick now
      (if t.isArmed root.id then root.data :: later.1 else later.1, later.2)
    else ([], t)
  else ([], t)
termination_by t.nodes.size
decreasing_by exact size_removeRoot_lt t.nodes h

/-- Time until the first expiry, zero if that has passed. -/
def untilNext? (t : Heap α) (now : Nat) : Option Nat :=
  t.top?.map (·.expiry - now)

/-- No node expires before its parent. -/
def isOrdered (t : Heap α) : Bool :=
  (List.range t.nodes.size).all fun i =>
    i == 0 || match t.nodes[parent i]?, t.nodes[i]? with
      | some p, some c => p.expiry ≤ c.expiry
      | _, _ => true

end Heap
end Timer
end PageServer
