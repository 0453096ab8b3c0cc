import Mathlib.Data.List.Perm.Basic
import PageServer.Proofs.Workers.Operations

/-!
# Lending to threads

Any number of threads take handles out of a pool and put them back.  Each takes a permit
before it takes a handle, and posts one after it has put a handle back, and between the
two any other thread may do something.  What threads in between are about to do makes up
for what the permits and the free list differ by.
-/

namespace PageServer

namespace Pool

variable {α : Type} {p q : Pool α} {a : α}

theorem popFree?_eq_some (h : p.popFree? = some (a, q)) :
    ∃ rest, p.free = a :: rest ∧ q = { p with free := rest } := by
  unfold popFree? at h
  split at h
  · cases h
  · next hfree =>
    cases h
    exact ⟨_, hfree, rfl⟩

theorem pushFree_eq_ok (h : p.pushFree a = .ok q) : q = { p with free := p.free ++ [a] } := by
  unfold pushFree at h
  split at h
  · exact (Except.ok.inj h).symm
  · cases h

end Pool

/-- How far a thread is with a pool. -/
inductive Lending.Stage (α : Type)
  | ready
  /-- It waits for a permit. -/
  | acquiring
  /-- It has a permit, and takes a handle next. -/
  | popping
  /-- It puts a handle back next. -/
  | releasing (a : α)
  /-- It has put a handle back, and posts a permit next. -/
  | posting

namespace Lending.Stage

variable {α : Type}

def carried : Stage α → List α
  | releasing a => [a]
  | _ => []

def isPopping : Stage α → Bool
  | popping => true
  | _ => false

def isPosting : Stage α → Bool
  | posting => true
  | _ => false

end Lending.Stage

/-- A thread that uses a pool. -/
structure Borrower (α : Type) where
  held : List α := []
  stage : Lending.Stage α := .ready

/-- The handles of a thread. -/
def Borrower.handles {α : Type} (b : Borrower α) : List α :=
  b.held ++ b.stage.carried

theorem Borrower.mem_handles {α : Type} {b : Borrower α} {a : α} (h : b.stage = .releasing a) :
    a ∈ b.handles := by
  rw [handles, h]
  exact List.mem_append_right b.held (List.mem_singleton_self a)

structure Lending (α : Type) where
  pool : Pool α
  borrowers : List (Borrower α)
  /-- The handles that have been taken out of the free list, in order. -/
  lent : List α := []
  /-- The handles that have been put back, in order. -/
  returned : List α := []

namespace Lending

variable {α ι : Type}

/-- The handles that threads have. -/
def held (s : Lending α) : List α :=
  s.borrowers.flatMap Borrower.handles

def popping (s : Lending α) : Nat :=
  s.borrowers.countP (·.stage.isPopping)

def posting (s : Lending α) : Nat :=
  s.borrowers.countP (·.stage.isPosting)

/-- One section under the lock of the free list or of the permits, or something that a
thread does with what it has.  A handle keeps its name whatever a thread does to it. -/
inductive Step (name : α → ι) : Lending α → Lending α → Prop
  | acquire {s : Lending α} {before after : List (Borrower α)} {b : Borrower α}
    (who : s.borrowers = before ++ b :: after) (ready : b.stage = .ready) :
    Step name s { s with borrowers := before ++ { b with stage := .acquiring } :: after }
  | wait {s : Lending α} {before after : List (Borrower α)} {b : Borrower α} {pool : Pool α}
    (who : s.borrowers = before ++ b :: after) (waits : b.stage = .acquiring)
    (h : s.pool.takePermit? = some pool) :
    Step name s { s with pool, borrowers := before ++ { b with stage := .popping } :: after }
  | pop {s : Lending α} {before after : List (Borrower α)} {b : Borrower α} {a : α} {pool : Pool α}
    (who : s.borrowers = before ++ b :: after) (pops : b.stage = .popping)
    (h : s.pool.popFree? = some (a, pool)) :
    Step name s { s with
      pool
      borrowers := before ++ { held := b.held ++ [a] } :: after
      lent := s.lent ++ [a] }
  /-- The free list is empty although there was a permit. -/
  | retry {s : Lending α} {before after : List (Borrower α)} {b : Borrower α}
    (who : s.borrowers = before ++ b :: after) (pops : b.stage = .popping)
    (h : s.pool.popFree? = none) :
    Step name s { s with borrowers := before ++ { b with stage := .acquiring } :: after }
  | release {s : Lending α} {before after : List (Borrower α)} {b : Borrower α}
    {left right : List α}
    {a : α} (who : s.borrowers = before ++ b :: after) (ready : b.stage = .ready)
    (has : b.held = left ++ a :: right) :
    Step name s { s with
      borrowers := before ++ { held := left ++ right, stage := .releasing a } :: after }
  | push {s : Lending α} {before after : List (Borrower α)} {b : Borrower α} {a : α} {pool : Pool α}
    (who : s.borrowers = before ++ b :: after) (pushes : b.stage = .releasing a)
    (h : s.pool.pushFree a = .ok pool) :
    Step name s { s with
      pool
      borrowers := before ++ { b with stage := .posting } :: after
      returned := s.returned ++ [a] }
  /-- The free list is full although the thread has a handle of it, which is lost. -/
  | overflow {s : Lending α} {before after : List (Borrower α)} {b : Borrower α} {a : α} {f : Fault}
    (who : s.borrowers = before ++ b :: after) (pushes : b.stage = .releasing a)
    (h : s.pool.pushFree a = .error f) :
    Step name s { s with borrowers := before ++ { b with stage := .ready } :: after }
  | post {s : Lending α} {before after : List (Borrower α)} {b : Borrower α}
    (who : s.borrowers = before ++ b :: after) (posts : b.stage = .posting) :
    Step name s { s with
      pool := s.pool.postPermit
      borrowers := before ++ { b with stage := .ready } :: after }
  /-- A thread does something to a handle that it has. -/
  | use {s : Lending α} {before after : List (Borrower α)} {b : Borrower α} {left right : List α}
    {a a' : α} (who : s.borrowers = before ++ b :: after) (has : b.held = left ++ a :: right)
    (same : name a' = name a) :
    Step name s { s with borrowers := before ++ { b with held := left ++ a' :: right } :: after }
  /-- Threads pass on what they have. -/
  | pass {s : Lending α} (borrowers : List (Borrower α))
    (stages : borrowers.map Borrower.stage = s.borrowers.map Borrower.stage)
    (has : (borrowers.flatMap Borrower.held).Perm (s.borrowers.flatMap Borrower.held)) :
    Step name s { s with borrowers }
  /-- A value that is not from the pool is refused where the free list is full. -/
  | refuse {s : Lending α} (a : α) {f : Fault} (h : s.pool.pushFree a = .error f) : Step name s s

/-- What comes of threads that have nothing yet and a pool with these handles. -/
inductive Reached (name : α → ι) (handles : List α) : Lending α → Prop
  | start (threads : Nat) : Reached name handles
    { pool := Pool.ofList handles, borrowers := List.replicate threads {} }
  | step {s t : Lending α} (h : Reached name handles s) (hstep : Step name s t) :
    Reached name handles t

/-- No handle is lost, they come out in the order in which they came in, and permits and
threads in between add up to the free list. -/
structure Sound (name : α → ι) (handles : List α) (s : Lending α) : Prop where
  kept : ((s.pool.free ++ s.held).map name).Perm (handles.map name)
  order : handles ++ s.returned = s.lent ++ s.pool.free
  permits : s.pool.permits + s.popping + s.posting = s.pool.free.length
  capacity : s.pool.capacity = handles.length

variable {name : α → ι} {handles : List α} {s t : Lending α} {before after : List (Borrower α)}
  {b b' : Borrower α} {a : α}

/-- What all have is what one has and what the others have. -/
theorem flatMap_split {β γ : Type} (f : β → List γ) (before after : List β) (b : β) :
    ((before ++ b :: after).flatMap f).Perm (f b ++ (before ++ after).flatMap f) := by
  rw [List.flatMap_append, List.flatMap_cons, List.flatMap_append]
  exact List.perm_append_comm_assoc _ _ _

theorem countP_split {β : Type} (p : β → Bool) (before after : List β) (b : β) :
    (before ++ b :: after).countP p = (before ++ after).countP p + if p b then 1 else 0 := by
  rw [List.countP_append, List.countP_cons, List.countP_append]
  omega

theorem held_split (who : s.borrowers = before ++ b :: after) :
    s.held.Perm (b.handles ++ (before ++ after).flatMap Borrower.handles) := by
  rw [held, who]
  exact flatMap_split _ _ _ _

theorem popping_split (who : s.borrowers = before ++ b :: after) :
    s.popping = (before ++ after).countP (·.stage.isPopping) +
      if b.stage.isPopping then 1 else 0 := by
  rw [popping, who]
  exact countP_split _ _ _ _

theorem posting_split (who : s.borrowers = before ++ b :: after) :
    s.posting = (before ++ after).countP (·.stage.isPosting) +
      if b.stage.isPosting then 1 else 0 := by
  rw [posting, who]
  exact countP_split _ _ _ _

namespace Sound

/-- The thread has what the threads have, and so has the pool. -/
theorem length_held (h : Sound name handles s) :
    s.pool.free.length + s.held.length = handles.length := by
  have hlength := h.kept.length_eq
  rwa [List.length_map, List.length_append, List.length_map] at hlength

/-- What one thread does keeps the balance where its share of it stays the same. -/
theorem update (h : Sound name handles s) (who : s.borrowers = before ++ b :: after) {pool : Pool α}
    {lent returned : List α}
    (kept : ((pool.free ++ b'.handles).map name).Perm ((s.pool.free ++ b.handles).map name))
    (order : handles ++ returned = lent ++ pool.free)
    (permits : pool.permits + (if b'.stage.isPopping then 1 else 0) +
        (if b'.stage.isPosting then 1 else 0) + s.pool.free.length =
      s.pool.permits + (if b.stage.isPopping then 1 else 0) +
        (if b.stage.isPosting then 1 else 0) + pool.free.length)
    (capacity : pool.capacity = s.pool.capacity) :
    Sound name handles { pool, borrowers := before ++ b' :: after, lent, returned } := by
  have hafter : (Lending.mk pool (before ++ b' :: after) lent returned).borrowers =
      before ++ b' :: after := rfl
  refine ⟨?_, order, ?_, capacity.trans h.capacity⟩
  · have hbefore := (held_split who).append_left s.pool.free
    have hnow := (held_split hafter).append_left pool.free
    rw [← List.append_assoc] at hbefore hnow
    refine (hnow.map name).trans (.trans ?_ ((hbefore.map name).symm.trans h.kept))
    simpa only [List.map_append] using kept.append_right _
  · have hbefore := h.permits
    rw [popping_split who, posting_split who] at hbefore
    rw [popping_split hafter, posting_split hafter]
    show pool.permits + _ + _ = pool.free.length
    omega

theorem start (name : α → ι) (handles : List α) (threads : Nat) : Sound name handles
    { pool := Pool.ofList handles, borrowers := List.replicate threads {} } := by
  refine ⟨?_, by simp [Pool.ofList], ?_, rfl⟩
  · have hnone : (List.replicate threads ({} : Borrower α)).flatMap Borrower.handles = [] := by
      simp [List.flatMap_eq_nil_iff, Borrower.handles, Stage.carried]
    rw [held, hnone, List.append_nil]
    exact .refl _
  · have hpopping : (List.replicate threads ({} : Borrower α)).countP (·.stage.isPopping) = 0 :=
      List.countP_eq_zero.mpr fun b hb => by simp [List.eq_of_mem_replicate hb, Stage.isPopping]
    have hposting : (List.replicate threads ({} : Borrower α)).countP (·.stage.isPosting) = 0 :=
      List.countP_eq_zero.mpr fun b hb => by simp [List.eq_of_mem_replicate hb, Stage.isPosting]
    rw [popping, posting, hpopping, hposting]
    rfl

/-- A thread that has a permit finds a handle. -/
theorem popFree? (h : Sound name handles s) (who : s.borrowers = before ++ b :: after)
    (pops : b.stage = .popping) : ∃ a rest, s.pool.free = a :: rest := by
  have hpermits := h.permits
  rw [popping_split who, pops] at hpermits
  simp only [Stage.isPopping, if_true] at hpermits
  cases hfree : s.pool.free with
  | nil =>
    rw [hfree, List.length_nil] at hpermits
    omega
  | cons a rest => exact ⟨a, rest, rfl⟩

/-- There is room in the free list for a handle that a thread has. -/
theorem room (h : Sound name handles s) (who : s.borrowers = before ++ b :: after)
    (has : a ∈ b.handles) : s.pool.freeCount < s.pool.capacity := by
  have hlength := h.length_held
  have hheld := (held_split who).length_eq
  have hpos := List.length_pos_of_mem has
  rw [List.length_append] at hheld
  rw [Pool.freeCount, h.capacity]
  omega

theorem step (h : Sound name handles s) (hstep : Step name s t) : Sound name handles t := by
  cases hstep with
  | acquire who ready =>
    refine h.update who ?_ h.order ?_ rfl
    · simp [Borrower.handles, ready, Stage.carried]
    · simp [ready, Stage.isPopping, Stage.isPosting]
  | wait who waits htake =>
    have hpermits := Pool.permits_lt_of_takePermit? htake
    obtain rfl := Pool.takePermit?_eq_some htake
    refine h.update who ?_ h.order ?_ rfl
    · simp [Borrower.handles, waits, Stage.carried]
    · simp only [waits, Stage.isPopping, Stage.isPosting, if_true, Bool.false_eq_true, if_false]
      omega
  | pop who pops hpop =>
    obtain ⟨rest, hfree, rfl⟩ := Pool.popFree?_eq_some hpop
    refine h.update who ?_ ?_ ?_ rfl
    · rw [hfree]
      simp only [Borrower.handles, pops, Stage.carried, List.append_nil, ← List.append_assoc]
      exact (List.perm_append_singleton _ _).map name
    · rw [h.order, hfree, List.append_assoc, List.singleton_append]
    · simp only [hfree, pops, Stage.isPopping, Stage.isPosting, if_true,
        Bool.false_eq_true, if_false,
        List.length_cons]
      omega
  | retry who pops hnone =>
    obtain ⟨a, rest, hfree⟩ := h.popFree? who pops
    rw [Pool.popFree?, hfree] at hnone
    cases hnone
  | release who ready has =>
    refine h.update who ?_ h.order ?_ rfl
    · refine (List.Perm.append_left _ ?_).map name
      simp only [Borrower.handles, ready, has, Stage.carried, List.append_nil]
      exact (List.perm_append_singleton _ _).trans List.perm_middle.symm
    · simp [ready, Stage.isPopping, Stage.isPosting]
  | push who pushes hpush =>
    obtain rfl := Pool.pushFree_eq_ok hpush
    refine h.update who ?_ ?_ ?_ rfl
    · refine List.Perm.map name ?_
      simp only [Borrower.handles, pushes, Stage.carried, List.append_nil, List.append_assoc]
      exact List.perm_append_comm.append_left _
    · rw [← List.append_assoc, h.order, List.append_assoc]
    · simp only [pushes, Stage.isPopping, Stage.isPosting, if_true, Bool.false_eq_true, if_false,
        List.length_append, List.length_singleton]
      omega
  | overflow who pushes hfull =>
    have hroom := h.room who (Borrower.mem_handles pushes)
    rw [Pool.pushFree, if_pos hroom] at hfull
    cases hfull
  | post who posts =>
    refine h.update who ?_ h.order ?_ rfl
    · simp [Borrower.handles, posts, Stage.carried, Pool.postPermit]
    · simp only [posts, Stage.isPopping, Stage.isPosting, if_true, Bool.false_eq_true, if_false,
        Pool.postPermit]
  | use who has same =>
    refine h.update who ?_ h.order rfl rfl
    simp [Borrower.handles, has, same]
  | pass borrowers stages has =>
    have hcount (p : Stage α → Bool) :
        borrowers.countP (p ·.stage) = s.borrowers.countP (p ·.stage) := by
      have hmap := congrArg (List.countP p) stages
      rwa [List.countP_map, List.countP_map] at hmap
    have hheld (bs : List (Borrower α)) : (bs.flatMap Borrower.handles).Perm
        (bs.flatMap Borrower.held ++ (bs.map Borrower.stage).flatMap Stage.carried) := by
      rw [List.flatMap_map]
      exact (bs.flatMap_append_perm Borrower.held fun b => b.stage.carried).symm
    refine ⟨?_, h.order, ?_, h.capacity⟩
    · refine .trans (List.Perm.map name (.append_left _ ?_)) h.kept
      refine (hheld borrowers).trans (.trans ?_ (hheld s.borrowers).symm)
      rw [stages]
      exact has.append_right _
    · rw [← h.permits]
      show s.pool.permits + borrowers.countP _ + borrowers.countP _ = _
      rw [hcount, hcount]
      rfl
  | refuse => exact h

end Sound

theorem Reached.sound (h : Reached name handles s) : Sound name handles s := by
  induction h with
  | start threads => exact .start name handles threads
  | step _ hstep ih => exact ih.step hstep

/-- The next handle is there for whoever takes a permit now. -/
theorem Sound.acquire? (h : Sound name handles s) {p : Pool α}
    (htake : s.pool.takePermit? = some p) :
    ∃ a pool, s.pool.acquire? = some (a, pool) ∧ p.popFree? = some (a, pool) := by
  have hlt := Pool.permits_lt_of_takePermit? htake
  have hpermits := h.permits
  obtain rfl := Pool.takePermit?_eq_some htake
  cases hfree : s.pool.free with
  | nil =>
    rw [hfree, List.length_nil] at hpermits
    omega
  | cons a rest =>
    refine ⟨a, { s.pool with permits := s.pool.permits - 1, free := rest }, ?_, rfl⟩
    unfold Pool.acquire?
    split
    · next hnone =>
      rw [htake] at hnone
      cases hnone
    · next p hsome =>
      obtain rfl := Option.some.inj (htake.symm.trans hsome)
      simp only [Pool.popFree?, hfree]

/-- Where there is no permit, some thread is at a handle or has one. -/
theorem Sound.blocked (h : Sound name handles s) (hsome : handles ≠ [])
    (hnone : s.pool.permits = 0) :
    ∃ b ∈ s.borrowers, b.stage.isPopping ∨ b.stage.isPosting ∨ b.handles ≠ [] := by
  by_contra! hno
  have hpopping : s.popping = 0 := List.countP_eq_zero.mpr fun b hb => (hno b hb).1
  have hposting : s.posting = 0 := List.countP_eq_zero.mpr fun b hb => (hno b hb).2.1
  have hheld : s.held = [] := List.flatMap_eq_nil_iff.mpr fun b hb => (hno b hb).2.2
  have hlength := h.length_held
  have hpermits := h.permits
  have hpos := List.length_pos_of_ne_nil hsome
  rw [hheld, List.length_nil] at hlength
  omega

/-- Whatever the threads do in whatever order, the free list and the threads together have
the handles that there were, which come out in the order in which they came in; what
permits and free list differ by is made up for by the threads in between, so that nobody
takes a permit in vain; and there is room for every handle that comes back, and for no
other where nobody has one. -/
theorem Reached.conserved (h : Reached name handles s) :
    ((s.pool.free ++ s.held).map name).Perm (handles.map name) ∧
    handles ++ s.returned = s.lent ++ s.pool.free ∧
    s.pool.permits + s.popping + s.posting = s.pool.freeCount ∧
    (∀ b ∈ s.borrowers, b.stage = .popping → ∃ a pool, s.pool.popFree? = some (a, pool)) ∧
    (∀ p, s.pool.takePermit? = some p → ∃ a pool, s.pool.acquire? = some (a, pool) ∧
      p.popFree? = some (a, pool)) ∧
    s.pool.freeCount ≤ s.pool.capacity ∧
    s.pool.inUse = s.held.length ∧
    (∀ b ∈ s.borrowers, ∀ a, b.stage = .releasing a → ∃ pool, s.pool.pushFree a = .ok pool) ∧
    (s.pool.freeCount = s.pool.capacity →
      s.held = [] ∧ ∀ a, s.pool.release a = .error .poolOverflow) := by
  have hsound := h.sound
  have hlength := hsound.length_held
  have hcapacity := hsound.capacity
  refine ⟨hsound.kept, hsound.order, hsound.permits, ?_, ?_, ?_, ?_, ?_, ?_⟩
  · intro b hb pops
    obtain ⟨before, after, who⟩ := List.append_of_mem hb
    obtain ⟨a, rest, hfree⟩ := hsound.popFree? who pops
    exact ⟨a, { s.pool with free := rest }, by rw [Pool.popFree?, hfree]⟩
  · exact fun p htake => hsound.acquire? htake
  · rw [Pool.freeCount]
    omega
  · rw [Pool.inUse, Pool.freeCount]
    omega
  · intro b hb a pushes
    obtain ⟨before, after, who⟩ := List.append_of_mem hb
    exact ⟨_, if_pos (hsound.room who (Borrower.mem_handles pushes))⟩
  · intro full
    rw [Pool.freeCount] at full
    refine ⟨List.length_eq_zero_iff.mp (by omega), fun a => ?_⟩
    rw [Pool.release, Pool.pushFree, Pool.freeCount, if_neg (by omega)]
    rfl

/-- One of two threads has taken the first of two handles. -/
def lentOne : Lending Nat where
  pool := { free := [2], permits := 1, capacity := 2 }
  borrowers := [{ held := [1] }, {}]
  lent := [1]

/-- One of two handles is in use. -/
theorem Reached.conserved_lentOne : Reached id [1, 2] lentOne ∧ lentOne.pool.inUse = 1 ∧
    lentOne.pool.permits + lentOne.popping + lentOne.posting = lentOne.pool.freeCount := by
  have hfirst : ([⟨[], .ready⟩, ⟨[], .ready⟩] : List (Borrower Nat)) =
      [] ++ ⟨[], .ready⟩ :: [⟨[], .ready⟩] := rfl
  have hstart : Reached id [1, 2]
    { pool := Pool.ofList [1, 2], borrowers := [⟨[], .ready⟩, ⟨[], .ready⟩] } := .start 2
  have hasked := hstart.step (.acquire hfirst rfl)
  have hwaited := hasked.step (.wait (b := { stage := .acquiring }) rfl rfl rfl)
  have hpopped := hwaited.step (.pop (b := { stage := .popping }) (a := 1) rfl rfl rfl)
  have hlent : Reached id [1, 2] lentOne := hpopped
  obtain ⟨-, -, hpermits, -, -, -, hinUse, -⟩ := hlent.conserved
  exact ⟨hlent, hinUse, hpermits⟩

end Lending
end PageServer
