import Mathlib.Logic.Relation
import Mathlib.Order.RelClasses
import PageServer.Proofs.Connection.Standing

/-!
# A connection and its client

What a client sends arrives in parts, at any time.  The connection reads when something is
there, works on what it has, and sends the response before it reads again.  However the
bytes arrive, a run of this comes to an end.
-/

namespace PageServer
namespace Connection

open Accounts (Backend)
open Http
open Net (ReadReply WriteReply)

/-- A connection at work on what a client has sent. -/
structure Talk where
  stage : Stage
  connection : Connection
  backend : Backend
  /-- Bytes that the client has sent and that have not arrived. -/
  coming : Bytes
  /-- Bytes that have arrived and not been read. -/
  waiting : Bytes := []
  /-- What the client has been sent of the response that is on its way. -/
  taken : Bytes := []
  /-- The responses that the client has been sent in full. -/
  answers : List Bytes := []

namespace Talk

/-- The connection reads, and what it has taken in waits no more. -/
def read (x : Talk) (now : Nat) (replies : List ReadReply) : Talk :=
  let r := x.connection.read now replies
  { x with
    stage := afterRead r.1
    connection := r.2
    waiting := x.waiting.drop (r.2.filled - x.connection.filled) }

def process (root : String) (x : Talk) : Talk :=
  let r := x.connection.process root x.backend
  { x with stage := afterProcess r.1, connection := r.2.1, backend := r.2.2 }

/-- The connection writes, and with the last byte the client has another response. -/
def write (x : Talk) (now : Nat) (replies : List WriteReply) : Talk :=
  let r := x.connection.write now replies
  let all := x.taken ++ r.2.2
  let x := { x with stage := afterWrite r.1, connection := r.2.1 }
  match r.1 with
  | .ok (.complete _) => { x with taken := [], answers := x.answers ++ [all] }
  | _ => { x with taken := all }

@[simp] theorem stage_write (x : Talk) (now : Nat) (replies : List WriteReply) :
    (x.write now replies).stage = afterWrite (x.connection.write now replies).1 := by
  simp only [write]
  split <;> rfl

@[simp] theorem coming_write (x : Talk) (now : Nat) (replies : List WriteReply) :
    (x.write now replies).coming = x.coming := by
  simp only [write]
  split <;> rfl

@[simp] theorem waiting_write (x : Talk) (now : Nat) (replies : List WriteReply) :
    (x.write now replies).waiting = x.waiting := by
  simp only [write]
  split <;> rfl

end Talk

/-- What happens next: bytes arrive, or the connection does what it is at.  It reads when
there is something to read, and it writes when the stream takes something. -/
inductive Move (root : String) : Talk → Talk → Prop
  | arrive {x : Talk} (front back : Bytes) (some : front ≠ []) (eq : x.coming = front ++ back) :
    Move root x { x with coming := back, waiting := x.waiting ++ front }
  | read {x : Talk} (stage : x.stage = .reading) (some : x.waiting ≠ []) (now : Nat)
    {replies : List ReadReply} (arrives : Arrives x.waiting replies) :
    Move root x (x.read now replies)
  | process {x : Talk} (stage : x.stage = .processing) : Move root x (x.process root)
  | write {x : Talk} (stage : x.stage = .writing) (now : Nat) {replies : List WriteReply}
    (honest : Honest (x.connection.total - x.connection.sent) replies)
    (some : (x.connection.write now replies).2.2 ≠ [])
    (unbroken : (x.connection.write now replies).1 ≠ .ok .failed) :
    Move root x (x.write now replies)

/-- A run of a talk through states of one kind. -/
def Run (root : String) (kind : Talk → Prop) : Talk → Talk → Prop :=
  Relation.ReflTransGen fun x y => Move root x y ∧ kind y

/-- Nothing is left to be done. -/
def Done (root : String) (x : Talk) : Prop :=
  ∀ y, ¬Move root x y

/-! ## Every run ends -/

/-- How far a connection is from reading again. -/
def stepsLeft : Stage → Nat
  | .processing => 3
  | .writing => 2
  | .reading => 1
  | .closing | .closed => 0

/-- What is still to be done. -/
def Talk.left (x : Talk) : Nat × Nat × Nat × Nat :=
  (x.coming.length, x.waiting.length, stepsLeft x.stage, x.connection.total - x.connection.sent)

variable {root : String} {x y : Talk} {c : Connection}

/-- A call that is held up has gone on in the response by what it has sent. -/
theorem writeOn_pending_eq {now : Nat} {replies : List WriteReply}
    (h : (writeOn now replies c).1 = .ok .pending) :
    ∃ n, (writeOn now replies c).2.1 = { c with sent := c.sent + n } ∧
      (writeOn now replies c).2.2.length ≤ n ∧ c.sent + n < c.total := by
  induction replies generalizing c with
  | nil =>
    unfold writeOn at h ⊢
    split at h
    · next hlt =>
      rw [if_pos hlt]
      split at h
      · simp at h
      · exact ⟨0, rfl, Nat.le_refl 0, hlt⟩
    · simp [finish] at h
  | cons reply replies ih =>
    unfold writeOn at h ⊢
    split at h
    · next hlt =>
      rw [if_pos hlt]
      split at h
      · simp at h
      · cases reply with
        | wouldBlock => exact ⟨0, rfl, Nat.le_refl 0, hlt⟩
        | interrupted => exact ih h
        | failed => simp at h
        | accepted n =>
          cases n with
          | zero => simp at h
          | succ n =>
            obtain ⟨m, heq, hlength, hleft⟩ := ih h
            refine ⟨n + 1 + m, ?_, ?_, ?_⟩
            · simp only [heq, Nat.add_assoc]
            · simp only [List.length_append, List.length_take]
              omega
            · simp only at hleft
              omega
    · simp [finish] at h

theorem write_pending_left {now : Nat} {replies : List WriteReply}
    (h : (c.write now replies).1 = .ok .pending) (hsome : (c.write now replies).2.2 ≠ []) :
    (c.write now replies).2.1.total - (c.write now replies).2.1.sent < c.total - c.sent := by
  unfold write at h hsome ⊢
  split at h
  · simp at h
  · split at h
    · simp at h
    · next hlive htotal =>
      rw [if_neg hlive, if_neg htotal] at hsome ⊢
      obtain ⟨n, heq, hlength, hleft⟩ := writeOn_pending_eq h
      have hpos := List.length_pos_iff.mpr hsome
      rw [heq]
      simp only
      omega

/-- A read takes what is waiting, as far as there is room, unless there is none. -/
theorem read_waiting {data : Bytes} {replies : List ReadReply} (harrives : Arrives data replies)
    (now : Nat) (hlive : c.isLive = true) (hroom : c.filled < c.input.size) :
    ∃ since, c.read now replies = (true, { c.takeIn data with since }) := by
  rw [read, if_pos hlive]
  exact readOn_arrives harrives (.inr hroom)

theorem read_without_room (now : Nat) (replies : List ReadReply)
    (h : ¬(c.isLive = true ∧ c.filled < c.input.size)) : (c.read now replies).1 = false := by
  rw [read]
  split
  · next hlive =>
    unfold readOn
    rw [if_pos (by rw [not_and] at h; exact Nat.not_lt.mp (h hlive))]
  · rfl

theorem afterProcess_ne_processing (o : Except Fault ProcessOutcome) :
    afterProcess o ≠ .processing := by
  rcases o with f | ⟨_ | _ | _⟩ <;> simp [afterProcess]

theorem afterWrite_ne_processing (o : Except Fault WriteOutcome) : afterWrite o ≠ .processing := by
  rcases o with f | ⟨_ | ⟨status, bytes, keepAlive, latency⟩ | _⟩
  · simp [afterWrite]
  · simp [afterWrite]
  · cases keepAlive <;> simp [afterWrite]
  · simp [afterWrite]

theorem stepsLeft_afterProcess_lt (o : Except Fault ProcessOutcome) :
    stepsLeft (afterProcess o) < stepsLeft .processing := by
  rcases o with f | ⟨_ | _ | _⟩ <;> simp [afterProcess, stepsLeft]

theorem stepsLeft_afterWrite_lt {o : Except Fault WriteOutcome} (h : o ≠ .ok .pending) :
    stepsLeft (afterWrite o) < stepsLeft .writing := by
  rcases o with f | ⟨_ | ⟨status, bytes, keepAlive, latency⟩ | _⟩
  · simp [afterWrite, stepsLeft]
  · exact absurd rfl h
  · cases keepAlive <;> simp [afterWrite, stepsLeft]
  · simp [afterWrite, stepsLeft]

/-- Every move leaves less to be done. -/
theorem Move.left_lt (h : Move root x y) :
    Prod.Lex (· < ·) (Prod.Lex (· < ·) (Prod.Lex (· < ·) (· < ·))) y.left x.left := by
  cases h with
  | arrive front back some eq =>
    have hlt : back.length < x.coming.length := by
      have := List.length_pos_iff.mpr some
      rw [eq, List.length_append]
      omega
    exact .left _ _ hlt
  | @read stage some now replies arrives =>
    apply Prod.Lex.right
    by_cases hable : x.connection.isLive = true ∧ x.connection.filled < x.connection.input.size
    · obtain ⟨since, hread⟩ := read_waiting arrives now hable.1 hable.2
      have hlt : (x.read now replies).waiting.length < x.waiting.length := by
        have := List.length_pos_iff.mpr some
        have := hable.2
        simp only [Talk.read, hread, filled_takeIn, room, List.length_drop]
        omega
      exact .left _ _ hlt
    · have hstays : (x.read now replies).waiting.length ≤ x.waiting.length := by
        rw [Talk.read, List.length_drop]
        exact Nat.sub_le _ _
      -- Nothing may have been taken, but then the connection is about to be closed.
      rcases Nat.lt_or_eq_of_le hstays with hlt | heq
      · exact .left _ _ hlt
      · have hcloses : stepsLeft (x.read now replies).stage < stepsLeft x.stage := by
          rw [Talk.read, read_without_room now replies hable, stage]
          exact Nat.zero_lt_one
        rw [heq]
        exact .right _ (.left _ _ hcloses)
  | process stage =>
    have hlt : stepsLeft (x.process root).stage < stepsLeft x.stage := by
      rw [stage]
      exact stepsLeft_afterProcess_lt _
    exact .right _ (.right _ (.left _ _ hlt))
  | @write stage now replies honest some unbroken =>
    by_cases hpending : (x.connection.write now replies).1 = .ok .pending
    · have hsame : x.write now replies = { x with
          connection := (x.connection.write now replies).2.1
          taken := x.taken ++ (x.connection.write now replies).2.2 } := by
        simp only [Talk.write, hpending, afterWrite, stage]
      rw [hsame]
      exact .right _ (.right _ (.right _ (write_pending_left hpending some)))
    · rw [Talk.left, Talk.left, Talk.coming_write, Talk.waiting_write, Talk.stage_write, stage]
      exact .right _ (.right _ (.left _ _ (stepsLeft_afterWrite_lt hpending)))

/-- No run goes on forever. -/
theorem wellFounded_move (root : String) : WellFounded fun y x => Move root x y :=
  have hlt : WellFounded fun n m : Nat => n < m := Nat.lt_wfRel.wf
  Subrelation.wf Move.left_lt
    (InvImage.wf Talk.left (hlt.prod_lex (hlt.prod_lex (hlt.prod_lex hlt))))

end Connection
end PageServer
