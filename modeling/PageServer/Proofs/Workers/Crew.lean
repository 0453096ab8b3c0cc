import Mathlib.Algebra.GroupWithZero.Nat
import PageServer.Proofs.Pool.Lending

/-!
# Workers and those who give them tasks

Each worker waits for a permit, looks whether the pool is about to end, takes a task, gets
a handle, runs the task, and gives the handle back.  Whoever appends a task posts a permit
after that.  Each step is what is done under one lock, and all may come in any order.  The
end comes in two steps: the workers are told, and then there is a permit for each of them.
-/

namespace PageServer

/-- How far a worker is. -/
inductive Worker (τ ρ : Type)
  /-- It waits for a permit. -/
  | waiting
  /-- It has a permit, and looks next whether the pool ends. -/
  | woken
  /-- It takes a task next. -/
  | taking
  /-- It waits for the permit of a handle. -/
  | acquiring (t : τ)
  /-- It takes a handle next. -/
  | popping (t : τ)
  | running (t : τ) (r : ρ)
  /-- It puts the handle back next. -/
  | releasing (r : ρ)
  /-- It posts the permit of the handle next. -/
  | posting
  | ended

namespace Worker

variable {τ ρ : Type}

/-- The task that has been taken and has not been started. -/
def pending : Worker τ ρ → List τ
  | acquiring t | popping t => [t]
  | _ => []

/-- The task that runs, with its handle. -/
def runs : Worker τ ρ → List (τ × ρ)
  | running t r => [(t, r)]
  | _ => []

/-- The handle as the task has left it, until it is back. -/
def carries : Worker τ ρ → List ρ
  | releasing r => [r]
  | _ => []

def isWoken : Worker τ ρ → Bool
  | woken => true
  | _ => false

def isTaking : Worker τ ρ → Bool
  | taking => true
  | _ => false

/-- It needs one more permit to get to its end. -/
def isOwed : Worker τ ρ → Bool
  | woken | ended => false
  | _ => true

/-- Steps that are left until it ends, if it is told to. -/
def rank : Worker τ ρ → Nat
  | ended => 0
  | woken => 1
  | waiting => 2
  | posting => 3
  | releasing _ => 4
  | running _ _ => 5
  | popping _ => 6
  | acquiring _ => 7
  | taking => 8

/-- The worker as a user of the handles. -/
def borrower : Worker τ ρ → Borrower ρ
  | acquiring _ => { stage := .acquiring }
  | popping _ => { stage := .popping }
  | running _ r => { held := [r] }
  | releasing r => { stage := .releasing r }
  | posting => { stage := .posting }
  | waiting | woken | taking | ended => {}

end Worker

/-- How far the end of the pool is. -/
inductive Crew.Phase
  | serving
  /-- The workers have been told. -/
  | told
  /-- There is a permit for each of them. -/
  | posted

/-- How a task ends. -/
inductive Crew.Ending
  | returns
  | panics

/-- What the workers share, and a record of what they have done. -/
structure Crew.Shared (τ ρ : Type) where
  maxQueued : Nat
  queue : List τ := []
  permits : Nat := 0
  /-- Those who have appended a task, and post a permit next. -/
  appending : Nat := 0
  phase : Crew.Phase := .serving
  handles : Pool ρ
  accepted : List τ := []
  taken : List τ := []
  started : List τ := []
  finished : List τ := []
  /-- The handles that tasks have got, in order. -/
  lent : List ρ := []
  /-- The handles as tasks have left them, in order. -/
  left : List ρ := []
  /-- The handles that are back, in order. -/
  returned : List ρ := []

structure Crew (τ ρ : Type) extends Crew.Shared τ ρ where
  workers : List (Worker τ ρ)

namespace Crew

variable {τ ρ ι : Type}

/-- A step of one worker.  A handle keeps its name whatever a task does to it. -/
inductive Move (name : ρ → ι) : Worker τ ρ → Shared τ ρ → Worker τ ρ → Shared τ ρ → Prop
  | wake {σ : Shared τ ρ} (h : 0 < σ.permits) :
    Move name .waiting σ .woken { σ with permits := σ.permits - 1 }
  | goOn {σ : Shared τ ρ} (h : σ.phase = .serving) : Move name .woken σ .taking σ
  | leave {σ : Shared τ ρ} (h : σ.phase ≠ .serving) : Move name .woken σ .ended σ
  | take {σ : Shared τ ρ} {t : τ} {rest : List τ} (h : σ.queue = t :: rest) :
    Move name .taking σ (.acquiring t) { σ with queue := rest, taken := σ.taken ++ [t] }
  /-- The queue is empty although there was a permit. -/
  | miss {σ : Shared τ ρ} (h : σ.queue = []) : Move name .taking σ .waiting σ
  | wait {σ : Shared τ ρ} {t : τ} {handles : Pool ρ} (h : σ.handles.takePermit? = some handles) :
    Move name (.acquiring t) σ (.popping t) { σ with handles }
  | start {σ : Shared τ ρ} {t : τ} {r : ρ} {handles : Pool ρ}
    (h : σ.handles.popFree? = some (r, handles)) :
    Move name (.popping t) σ (.running t r) { σ with
      handles
      started := σ.started ++ [t]
      lent := σ.lent ++ [r] }
  /-- No handle is free although there was a permit. -/
  | retry {σ : Shared τ ρ} {t : τ} (h : σ.handles.popFree? = none) :
    Move name (.popping t) σ (.acquiring t) σ
  /-- The task does something to its handle. -/
  | use {σ : Shared τ ρ} {t : τ} {r r' : ρ} (same : name r' = name r) :
    Move name (.running t r) σ (.running t r') σ
  | finish {σ : Shared τ ρ} {t : τ} {r : ρ} (e : Ending) :
    Move name (.running t r) σ (.releasing r) { σ with
      finished := σ.finished ++ [t]
      left := σ.left ++ [r] }
  | push {σ : Shared τ ρ} {r : ρ} {handles : Pool ρ} (h : σ.handles.pushFree r = .ok handles) :
    Move name (.releasing r) σ .posting { σ with handles, returned := σ.returned ++ [r] }
  /-- There is no room for the handle, and the fault ends the worker. -/
  | overflow {σ : Shared τ ρ} {r : ρ} {f : Fault} (h : σ.handles.pushFree r = .error f) :
    Move name (.releasing r) σ .ended σ
  | post {σ : Shared τ ρ} :
    Move name .posting σ .waiting { σ with handles := σ.handles.postPermit }

def pending (s : Crew τ ρ) : List τ :=
  s.workers.flatMap Worker.pending

def running (s : Crew τ ρ) : List (τ × ρ) :=
  s.workers.flatMap Worker.runs

/-- The handles that tasks have left and that are not back. -/
def carried (s : Crew τ ρ) : List ρ :=
  s.workers.flatMap Worker.carries

def woken (s : Crew τ ρ) : Nat :=
  s.workers.countP Worker.isWoken

def taking (s : Crew τ ρ) : Nat :=
  s.workers.countP Worker.isTaking

/-- Permits that are needed for all workers to get to their end. -/
def owed (s : Crew τ ρ) : Nat :=
  s.workers.countP Worker.isOwed

def rank (s : Crew τ ρ) : Nat :=
  (s.workers.map Worker.rank).sum

/-- What the pool is to those outside. -/
def summary (s : Crew τ ρ) : Workers τ ρ where
  threads := s.workers.length
  maxQueued := s.maxQueued
  queue := s.queue
  waiting := s.pending
  running := s.running
  handles := s.handles

/-- The handles and their users. -/
def lending (s : Crew τ ρ) : Lending ρ where
  pool := s.handles
  borrowers := s.workers.map Worker.borrower
  lent := s.lent
  returned := s.returned

inductive Step (name : ρ → ι) : Crew τ ρ → Crew τ ρ → Prop
  | move {s : Crew τ ρ} {σ : Shared τ ρ} {before after : List (Worker τ ρ)} {w w' : Worker τ ρ}
    (who : s.workers = before ++ w :: after) (h : Move name w s.toShared w' σ) :
    Step name s { σ with workers := before ++ w' :: after }
  | accept {s : Crew τ ρ} {t : τ} {w : Workers τ ρ} (serving : s.phase = .serving)
    (h : s.summary.append t = (true, w)) :
    Step name s { s with
      queue := w.queue
      appending := s.appending + 1
      accepted := s.accepted ++ [t] }
  | refuse {s : Crew τ ρ} {t : τ} {w : Workers τ ρ} (serving : s.phase = .serving)
    (h : s.summary.append t = (false, w)) : Step name s { s with queue := w.queue }
  | post {s : Crew τ ρ} (h : 0 < s.appending) :
    Step name s { s with appending := s.appending - 1, permits := s.permits + 1 }
  /-- Nobody appends a task any more. -/
  | tell {s : Crew τ ρ} (serving : s.phase = .serving) (idle : s.appending = 0) :
    Step name s { s with phase := .told }
  | postAll {s : Crew τ ρ} (told : s.phase = .told) :
    Step name s { s with phase := .posted, permits := s.permits + s.workers.length }

/-- What comes of a pool of so many workers with these handles. -/
inductive Reached (name : ρ → ι) (handles : List ρ) (threads maxQueued : Nat) : Crew τ ρ → Prop
  | start : Reached name handles threads maxQueued
    { maxQueued, handles := Pool.ofList handles, workers := List.replicate threads .waiting }
  | step {s t : Crew τ ρ} (h : Reached name handles threads maxQueued s) (hstep : Step name s t) :
    Reached name handles threads maxQueued t

section Moves

variable {name : ρ → ι} {w w' : Worker τ ρ} {σ σ' : Shared τ ρ}

/-! ## One worker -/

theorem Move.queue (h : Move name w σ w' σ') :
    σ'.taken ++ σ'.queue = σ.taken ++ σ.queue ∧ σ'.queue.length ≤ σ.queue.length := by
  cases h with
  | take h =>
    rw [h, List.append_assoc, List.singleton_append]
    exact ⟨rfl, Nat.le_succ _⟩
  | _ => exact ⟨rfl, Nat.le_refl _⟩

theorem Move.kept (h : Move name w σ w' σ') : σ'.maxQueued = σ.maxQueued ∧ σ'.phase = σ.phase ∧
    σ'.appending = σ.appending ∧ σ'.accepted = σ.accepted := by
  cases h <;> exact ⟨rfl, rfl, rfl, rfl⟩

/-- A task that has been taken is started by the worker that has taken it. -/
theorem Move.pending (h : Move name w σ w' σ') {rest : List τ}
    (hp : σ.taken.Perm (σ.started ++ (w.pending ++ rest))) :
    σ'.taken.Perm (σ'.started ++ (w'.pending ++ rest)) := by
  cases h with
  | @take _ t _ _ =>
    refine (List.perm_append_singleton t _).trans (.trans (hp.cons t) ?_)
    exact List.perm_middle.symm
  | start => simpa only [Worker.pending, List.nil_append, List.append_assoc] using hp
  | _ => exact hp

theorem Move.running (h : Move name w σ w' σ') {rest : List τ}
    (hp : σ.started.Perm (σ.finished ++ (w.runs.map Prod.fst ++ rest))) :
    σ'.started.Perm (σ'.finished ++ (w'.runs.map Prod.fst ++ rest)) := by
  cases h with
  | @start _ t _ _ _ =>
    refine (List.perm_append_singleton t _).trans (.trans (hp.cons t) ?_)
    exact List.perm_middle.symm
  | finish =>
    simpa only [Worker.runs, List.map_cons, List.map_nil, List.nil_append,
      List.append_assoc] using hp
  | _ => exact hp

/-- A handle gets back as the task has left it, where there is room for it. -/
theorem Move.carried (h : Move name w σ w' σ')
    (room : ∀ r, w = .releasing r → ∃ handles, σ.handles.pushFree r = .ok handles) {rest : List ρ}
    (hp : σ.left.Perm (σ.returned ++ (w.carries ++ rest))) :
    σ'.left.Perm (σ'.returned ++ (w'.carries ++ rest)) := by
  cases h with
  | @finish _ _ r _ =>
    refine (List.perm_append_singleton r _).trans (.trans (hp.cons r) ?_)
    exact List.perm_middle.symm
  | push => simpa only [Worker.carries, List.nil_append, List.append_assoc] using hp
  | overflow hfull =>
    obtain ⟨handles, hok⟩ := room _ rfl
    rw [hok] at hfull
    cases hfull
  | _ => exact hp

/-- For each task in the queue there is a permit or a worker that has had one. -/
theorem Move.stock (h : Move name w σ w' σ') (stocked : w = .taking → σ.queue ≠ [])
    (serving : σ.phase = .serving) :
    σ'.queue.length + σ.permits + (if w.isWoken then 1 else 0) + (if w.isTaking then 1 else 0) =
      σ.queue.length + σ'.permits + (if w'.isWoken then 1 else 0) +
        (if w'.isTaking then 1 else 0) := by
  cases h with
  | leave hphase => exact absurd serving hphase
  | miss hnone => exact absurd hnone (stocked rfl)
  | _ => simp_all [Worker.isWoken, Worker.isTaking] <;> omega

theorem Move.stays (h : Move name w σ w' σ')
    (room : ∀ r, w = .releasing r → ∃ handles, σ.handles.pushFree r = .ok handles)
    (serving : σ.phase = .serving) : w' ≠ .ended := by
  cases h with
  | leave hphase => exact absurd serving hphase
  | overflow hfull =>
    obtain ⟨handles, hok⟩ := room _ rfl
    rw [hok] at hfull
    cases hfull
  | _ => nofun

/-- A worker that was to take a task when the workers were told still finds it. -/
theorem Move.stock_ending (h : Move name w σ w' σ') (stocked : w = .taking → σ.queue ≠ [])
    (ending : σ.phase ≠ .serving) :
    σ'.queue.length + (if w.isTaking then 1 else 0) =
      σ.queue.length + (if w'.isTaking then 1 else 0) := by
  cases h with
  | goOn hphase => exact absurd hphase ending
  | miss hnone => exact absurd hnone (stocked rfl)
  | _ => simp_all [Worker.isTaking]

theorem Move.owed (h : Move name w σ w' σ') (ending : σ.phase ≠ .serving) :
    σ.permits + (if w'.isOwed then 1 else 0) ≤ σ'.permits + (if w.isOwed then 1 else 0) := by
  cases h with
  | goOn hphase => exact absurd hphase ending
  | _ => simp [Worker.isOwed] <;> omega

end Moves

variable {name : ρ → ι} {handles : List ρ} {threads maxQueued : Nat} {s t : Crew τ ρ}
  {before after : List (Worker τ ρ)} {w : Worker τ ρ}

/-! ## The handles -/

theorem lending_update (σ : Shared τ ρ) (before after : List (Worker τ ρ)) (w : Worker τ ρ) :
    lending { σ with workers := before ++ w :: after } =
      { pool := σ.handles
        borrowers := before.map Worker.borrower ++ w.borrower :: after.map Worker.borrower
        lent := σ.lent
        returned := σ.returned } := by
  simp only [lending, List.map_append, List.map_cons]

theorem borrowers_split (who : s.workers = before ++ w :: after) : s.lending.borrowers =
      before.map Worker.borrower ++ w.borrower :: after.map Worker.borrower := by
  simp only [lending, who, List.map_append, List.map_cons]

/-- The worker that has the permit of a handle finds one. -/
theorem free_of_popping (hlent : Lending.Sound name handles s.lending)
    (who : s.workers = before ++ w :: after) (task : τ) (hpopping : w = .popping task) :
    ∃ r rest, s.handles.free = r :: rest :=
  hlent.popFree? (borrowers_split who) (by rw [hpopping]; rfl)

/-- There is room for a handle that comes back. -/
theorem pushFree_of_releasing (hlent : Lending.Sound name handles s.lending)
    (who : s.workers = before ++ w :: after) (r : ρ) (hreleasing : w = .releasing r) :
    ∃ pool, s.handles.pushFree r = .ok pool :=
  ⟨_, if_pos (hlent.room (borrowers_split who) (Borrower.mem_handles (by rw [hreleasing]; rfl)))⟩

/-- To the handles a step of the workers is a step of their users, or none. -/
theorem Step.lending (h : Step name s t) :
    t.lending = s.lending ∨ Lending.Step name s.lending t.lending := by
  cases h with
  | move who hmove =>
    have hsplit := borrowers_split who
    -- A worker has one handle at most.
    have hone (r : ρ) : [r] = [] ++ r :: [] := rfl
    rw [lending_update]
    cases hmove with
    | take => exact .inr (.acquire hsplit rfl)
    | wait hwait => exact .inr (.wait hsplit rfl hwait)
    | start hpop => exact .inr (.pop hsplit rfl hpop)
    | retry hnone => exact .inr (.retry hsplit rfl hnone)
    | use same => exact .inr (.use hsplit (hone _) same)
    | finish => exact .inr (.release hsplit rfl (hone _))
    | push hpush => exact .inr (.push hsplit rfl hpush)
    | overflow hfull => exact .inr (.overflow hsplit rfl hfull)
    | post => exact .inr (.post hsplit rfl)
    | _ => exact .inl (congrArg (Lending.mk _ · _ _) hsplit.symm)
  | _ => exact .inl rfl

theorem Reached.lending (h : Reached name handles threads maxQueued s) :
    Lending.Reached name handles s.lending := by
  induction h with
  | start =>
    rw [Crew.lending, List.map_replicate]
    exact .start threads
  | step _ hstep ih =>
    obtain hsame | hlent := hstep.lending
    · rwa [hsame]
    · exact ih.step hlent

end Crew
end PageServer
