import PageServer.Workers.Basic

/-!
# Running the workers

One run of all workers, each of which goes on until it is idle, waits for a handle, or is
held up in a task. What a task does to the rest of the world is up to the function that
runs it.
-/

namespace PageServer
namespace Workers

variable {τ ρ σ : Type}

/-- How far a task gets when it is run. -/
inductive Progress (ρ : Type)
  /-- It ends and leaves its handle so. -/
  | done (handle : ρ)
  /-- It keeps its worker and its handle. -/
  | heldUp

/-- Steps that are left for tasks to be taken and started. -/
def backlog (w : Workers τ ρ) : Nat :=
  2 * w.queue.length + w.waiting.length

/-- What becomes of the task at a place after it has been run. -/
def settleTask (place : Nat) (p : Progress ρ) (w : Workers τ ρ) : Workers τ ρ :=
  match p with
  | .heldUp => w
  | .done r => match w.finish place r with
    | .ok w => w
    | .error _ => w

@[simp] theorem backlog_settleTask (place : Nat) (p : Progress ρ) (w : Workers τ ρ) :
    (w.settleTask place p).backlog = w.backlog := by
  cases p with
  | heldUp => rfl
  | done r =>
    simp only [settleTask, finish]
    cases w.handles.release r <;> rfl

theorem backlog_lt_of_lease? {w w' : Workers τ ρ} {t : τ} {r : ρ}
    (h : w.lease? = some (t, r, w')) : w'.backlog < w.backlog := by
  unfold lease? at h
  split at h
  · cases h
  · next hw =>
    obtain ⟨a, -, ha⟩ := Option.map_eq_some_iff.1 h
    cases ha
    simp [backlog, hw]

theorem backlog_lt_of_take? {w w' : Workers τ ρ} (h : w.take? = some w') :
    w'.backlog < w.backlog := by
  unfold take? at h
  split at h
  · cases h
  · next hq =>
    split at h
    · cases h
      simp [backlog, hq]; omega
    · cases h

/-- Runs the workers until none can go on. -/
def settle (exec : σ → τ → ρ → Progress ρ × σ) (s : σ) (w : Workers τ ρ) : σ × Workers τ ρ :=
  match _h : w.lease? with
  | some (t, r, w') =>
    let e := exec s t r
    settle exec e.2 (w'.settleTask w.running.length e.1)
  | none => match _h : w.take? with
    | some w' => settle exec s w'
    | none => (s, w)
termination_by w.backlog
decreasing_by
  · rw [backlog_settleTask]; exact backlog_lt_of_lease? _h
  · exact backlog_lt_of_take? _h

/-- Runs on the tasks that were held up, in the order in which they started. -/
def resumeFrom (exec : σ → τ → ρ → Progress ρ × σ) (s : σ) :
    (place : Nat) → List (τ × ρ) → Workers τ ρ → σ × Workers τ ρ
  | _, [], w => (s, w)
  | place, (t, r) :: rest, w =>
    let e := exec s t r
    let w := w.settleTask place e.1
    match e.1 with
    | .heldUp => resumeFrom exec e.2 (place + 1) rest w
    | .done _ => resumeFrom exec e.2 place rest w

/-- Runs on the tasks that were held up, then all others. -/
def resume (exec : σ → τ → ρ → Progress ρ × σ) (s : σ) (w : Workers τ ρ) : σ × Workers τ ρ :=
  let r := resumeFrom exec s 0 w.running w
  settle exec r.1 r.2

end Workers
end PageServer
