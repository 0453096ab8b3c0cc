import PageServer.Proofs.Connection.Serving

/-!
# Room for the response

The head and the fixed body of a response never outgrow the buffer, whatever is done with
the connection.  In the order in which operations follow each other the buffer is empty
whenever a request is worked on, so that there always is a response to send.
-/

namespace PageServer
namespace Connection

open Accounts (Backend)
open Http
open Net (WriteReply)

variable {c : Connection} {s : Stage}

theorem bounded_addHead {b : ResponseBuffer} (h : b.Bounded) (s : Status) (n : Nat)
    (keepAlive : Bool) : (addHead s n keepAlive b).2.Bounded :=
  ResponseBuffer.bounded_andThen (h.append _) fun _ h => h.addHeaders n keepAlive

theorem bounded_respond (h : c.output.Bounded) (s : Status) : (respond s c).2.output.Bounded := by
  unfold respond
  simp only
  split
  · exact bounded_addHead h _ _ _
  · exact ResponseBuffer.bounded_andThen (bounded_addHead h _ _ _) fun _ h => h.append _

theorem bounded_answer (h : c.output.Bounded) (v : Verdict) : (c.answer v).2.output.Bounded := by
  cases v with
  | incomplete | ready => exact h
  | malformed | missing | forbidden | found | broken => exact bounded_respond h _

/-- However full the buffer is, working on a request does not overfill it. -/
theorem bounded_process (hcursors : Cursors c) (h : c.output.Bounded) (root : String)
    (b : Backend) : (c.process root b).2.1.output.Bounded := by
  have hparse : c.parse.2.output.Bounded := by
    rw [hcursors.parse_frame]
    exact h
  cases hverdict : c.parse.1 with
  | error f =>
    rw [process_fault root b hverdict]
    exact hparse
  | ok v =>
    by_cases hready : v = .ready
    · subst hready
      obtain ⟨file, heq⟩ := dispatch_eq root b c.parse.2
      rw [process_ready root b hverdict]
      apply bounded_answer
      rw [heq]
      exact hparse
    · rw [process_settled root b hverdict hready]
      exact bounded_answer hparse v

theorem Wrote.bounded {outcome : Except Fault WriteOutcome} {d : Connection}
    (h : Wrote c outcome d) (hc : c.output.Bounded) : d.output.Bounded := by
  cases h with
  | on => exact hc
  | anew => exact ResponseBuffer.bounded_clear _

theorem Reached.bounded (h : Reached s c) : c.output.Bounded := by
  induction h with
  | start => exact Nat.zero_le _
  | @step _ _ c d hreached hstep ih =>
    cases hstep with
    | attach => exact ResponseBuffer.bounded_clear _
    | read now replies =>
      obtain ⟨data, since, heq⟩ := read_eq c now replies
      rw [heq]
      exact ih
    | process root b => exact bounded_process hreached.consistent.cursors ih root b
    | write now replies => exact (wrote_write now replies c).bounded ih
    | refresh => exact ih
    | detach =>
      unfold Connection.detach
      split
      · exact ResponseBuffer.bounded_clear _
      · exact ih

/-- A body is as long as the file, and otherwise short. -/
theorem length_body_lt (h : ∀ m, c.file = some m → m.length < 2 ^ 63) :
    c.body.length < wordRange := by
  rw [body]
  cases hfile : c.file with
  | some m => exact Nat.lt_trans (h m hfile) (by decide)
  | none =>
    cases c.status with
    | none => decide
    | some s => cases s <;> decide

/-- Where no file is too long, working on a request asks for more input or comes to a
response. -/
theorem Receiving.process_outcome (h : Receiving c) {root : String} {b : Backend}
    (hfile : ∀ m, (c.process root b).2.1.file = some m → m.length < 2 ^ 63) :
    (c.process root b).1 = .ok .needInput ∨ (c.process root b).1 = .ok .readyToWrite := by
  rcases h.held.cursors.parse.verdict with ⟨hopen, -⟩ | hready | hmalformed
  · left
    rw [process_incomplete root b hopen]
  · right
    obtain ⟨-, s, -, hsent, -⟩ := h.process_served hready root b
    exact (hsent (length_body_lt hfile)).1
  · right
    exact (h.process_malformed hmalformed root b).outcome

/-- The buffer holds no more than its 1024 bytes at any time.  Whenever a request is
worked on it is empty, and a file of a length below 2 ^ 63 leaves only two outcomes: more
input is needed, or there is a response to send. -/
theorem Reached.output_bounded (h : Reached s c) :
    c.output.length ≤ 1024 ∧
      (s = .processing → c.output.bytes = [] ∧ ∀ root b,
        (∀ m, (c.process root b).2.1.file = some m → m.length < 2 ^ 63) →
          (c.process root b).1 = .ok .needInput ∨ (c.process root b).1 = .ok .readyToWrite) := by
  constructor
  · have hbounded := h.bounded
    rw [ResponseBuffer.Bounded, h.consistent.capacity] at hbounded
    exact hbounded
  · rintro rfl
    have hreceiving : Receiving c := h.consistent
    exact ⟨hreceiving.unanswered.output, fun _ _ => hreceiving.process_outcome⟩

theorem Reached.output_bounded_welcome :
    ∃ c, Reached .processing c ∧ c.output.bytes = [] ∧
      (c.process "/srv" welcomeSite).2.1.file = some ⟨2, Text.encode "Welcome!", 0⟩ ∧
      ((c.process "/srv" welcomeSite).1 = .ok .needInput ∨
        (c.process "/srv" welcomeSite).1 = .ok .readyToWrite) := by
  obtain ⟨c, hreached, hready⟩ := exists_reached_ready ready_rootRequest (by decide) (by decide)
  have hfile := hreached.file_welcome hready
  obtain ⟨-, hprocessing⟩ := hreached.output_bounded
  obtain ⟨hempty, houtcome⟩ := hprocessing rfl
  refine ⟨c, hreached, hempty, hfile, houtcome "/srv" welcomeSite ?_⟩
  intro m hm
  rw [hfile] at hm
  obtain rfl := Option.some.inj hm
  decide

end Connection
end PageServer
