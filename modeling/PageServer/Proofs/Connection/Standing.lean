import PageServer.Connection.Session
import PageServer.Proofs.Connection.Transmission

/-!
# What a stage says of a connection

A connection has a stream at every stage but the first.  As long as it takes in a request
there is no response to be sent, and working on the request meets no fault.
-/

namespace PageServer
namespace Connection

open Accounts (Backend)
open Net (WriteReply)

variable {c : Connection} {s : Stage}

theorem Consistent.isLive (h : Consistent s c) (hs : s ≠ .closed) : c.isLive = true := by
  cases s with
  | closed => exact absurd rfl hs
  | reading => exact h.1.held.live
  | processing => exact (Receiving.held h).live
  | writing | closing => exact Held.live h

theorem isLive_detach (c : Connection) : c.detach.2.isLive = false := by
  unfold detach
  split
  · rfl
  · next hlive => exact Bool.eq_false_iff.mpr hlive

theorem Reached.isLive_closed (h : Reached .closed c) : c.isLive = false := by
  generalize hs : Stage.closed = s at h
  induction h with
  | start => rfl
  | @step _ _ c d _ hstep ih =>
    cases hstep with
    | attach => cases hs
    | read now replies => cases hread : (c.read now replies).1 <;> rw [hread] at hs <;> cases hs
    | process root b =>
      cases houtcome : (c.process root b).1 with
      | error f => rw [houtcome] at hs; cases hs
      | ok o => cases o <;> rw [houtcome] at hs <;> cases hs
    | write now replies =>
      cases houtcome : (c.write now replies).1 with
      | error f => rw [houtcome] at hs; cases hs
      | ok o =>
        cases o with
        | pending | failed => rw [houtcome] at hs; cases hs
        | complete m => cases hkeep : m.keepAlive <;> simp [houtcome, afterWrite, hkeep] at hs
    | refresh => exact ih hs
    | detach => exact isLive_detach c

theorem Reached.isLive_iff (h : Reached s c) : c.isLive = true ↔ s ≠ .closed := by
  constructor
  · rintro hlive rfl
    rw [h.isLive_closed] at hlive
    cases hlive
  · exact h.consistent.isLive

/-- While a request comes in there is nothing to send. -/
theorem Reached.nothing_prepared (h : Reached s c) (hs : s = .reading ∨ s = .processing) :
    c.total = 0 ∧ c.status = none := by
  induction h with
  | start => exact ⟨rfl, rfl⟩
  | @step _ _ c d hreached hstep ih =>
    cases hstep with
    | attach => exact ⟨rfl, rfl⟩
    | read now replies =>
      obtain ⟨data, since, heq⟩ := read_eq c now replies
      rw [heq]
      exact ih (.inl rfl)
    | process root b =>
      have hreceiving : Receiving c := hreached.consistent
      cases houtcome : (c.process root b).1 with
      | error f => simp [houtcome, afterProcess] at hs
      | ok o =>
        cases o with
        | readyToWrite | abort => simp [houtcome, afterProcess] at hs
        | needInput =>
          have hopen := (process_needInput_iff root b c).mp houtcome
          rw [process_incomplete root b hopen, hreceiving.held.cursors.parse_frame]
          exact ih (.inr rfl)
    | write now replies =>
      have hwrote := wrote_write now replies c
      generalize (c.write now replies).1 = outcome, (c.write now replies).2.1 = d at hwrote hs ⊢
      cases hwrote with
      | anew => exact ⟨rfl, rfl⟩
      | on n file closes =>
        cases outcome with
        | error f => simp [afterWrite] at hs
        | ok o =>
          cases o with
          | pending | failed => simp [afterWrite] at hs
          | complete m => simp [afterWrite, closes m rfl] at hs
    | refresh disk => exact ih hs
    | detach => simp at hs

theorem answer_ne_error {v : Verdict} (h : c.output.capacity = writeCapacity) (f : Fault) :
    (c.answer v).1 ≠ .error f := by
  have hrespond (s : Http.Status) : ((respond s c).1.map fun fits =>
      if fits then ProcessOutcome.readyToWrite else .abort) ≠ .error f := by
    have hfits := respond_ne_error s h
    cases hr : (respond s c).1 with
    | error f => exact absurd hr (hfits f)
    | ok fits => simp [Except.map]
  cases v with
  | incomplete | ready => simp [answer, statusOf?]
  | malformed | missing | forbidden | found | broken => exact hrespond _

/-- Working on a request meets no fault. -/
theorem Cursors.process_ne_error (h : Cursors c) (hcapacity : c.output.capacity = writeCapacity)
    (root : String) (b : Backend) (f : Fault) : (c.process root b).1 ≠ .error f := by
  have hparse : c.parse.2.output.capacity = writeCapacity := by
    rw [h.parse_frame]
    exact hcapacity
  rcases h.parse.verdict with ⟨hopen, -⟩ | hready | hmalformed
  · rw [process_incomplete root b hopen]
    simp
  · obtain ⟨file, heq⟩ := dispatch_eq root b c.parse.2
    rw [process_ready root b hready]
    exact answer_ne_error (by rw [heq]; exact hparse) f
  · rw [process_settled root b hmalformed (by simp)]
    exact answer_ne_error hparse f

theorem Receiving.process_ne_error (h : Receiving c) (root : String) (b : Backend) (f : Fault) :
    (c.process root b).1 ≠ .error f :=
  h.held.cursors.process_ne_error h.held.capacity root b f

/-- A connection that takes in a request has no response, and working on the request meets
no fault. -/
theorem Reached.unanswered (h : Reached .processing c) :
    c.total = 0 ∧ c.output.bytes = [] ∧ c.file = none ∧
      ∀ root b f, (c.process root b).1 ≠ .error f := by
  have hreceiving : Receiving c := h.consistent
  exact ⟨(h.nothing_prepared (.inr rfl)).1, hreceiving.unanswered.output,
    hreceiving.unanswered.file,
    hreceiving.process_ne_error⟩

/-! ## Changes of the file and calls on a session -/

theorem refresh_cases (c : Connection) (disk : Disk) :
    c.refresh disk = c ∨ ∃ m m' : Mapping, c.file = some m ∧ m'.bytes.length = m.bytes.length ∧
      c.refresh disk = { c with file := some m' } := by
  cases hfile : c.file with
  | none =>
    left
    rw [Connection.refresh, hfile, Option.map_none, ← hfile]
  | some m =>
    right
    refine ⟨m, m.refresh disk, rfl, ?_, ?_⟩
    · unfold Mapping.refresh
      split
      · exact Mapping.length_update _ m
      · rfl
    · rw [Connection.refresh, hfile, Option.map_some]

theorem Sending.refresh (h : Sending c) (disk : Disk) : Sending (c.refresh disk) := by
  rcases refresh_cases c disk with heq | ⟨m, m', hfile, hlength, heq⟩
  · rw [heq]
    exact h
  · rw [heq]
    refine ⟨h.live, ?_, h.left⟩
    have htotal := h.total
    simp only [response, fileBytes, hfile, List.length_append] at htotal ⊢
    rw [htotal, hlength]

/-- A call that is held up leaves something to send. -/
theorem Sending.pending (h : Sending c) (now : Nat) {replies : List WriteReply}
    (honest : Honest (c.total - c.sent) replies)
    (hpending : (c.write now replies).1 = .ok .pending) : Sending (c.write now replies).2.1 := by
  obtain ⟨used, later, rfl, hsteady, hall | ⟨hlt, hblocked | hbroken⟩⟩ := h.stops honest
  · rw [h.write_done now hsteady hall] at hpending
    simp [finish] at hpending
  · rw [h.write_pending now hsteady hlt hblocked]
    exact h.withSent hlt
  · rw [h.write_failed now hsteady hlt hbroken] at hpending
    simp at hpending

end Connection

namespace Session

open Connection (Sending Honest)

/-- A session offers its stream what is left of the response, and the stream takes no
more. -/
theorem write_eq {s : Session} (h : Sending s.connection) (now : Nat) :
    ∃ replies, Honest (s.connection.total - s.connection.sent) replies ∧
      (s.write now).1 = (s.connection.write now replies).1 ∧
      (s.write now).2.connection = (s.connection.write now replies).2.1 := by
  have hsent : s.connection.sent ≤ s.connection.response.length := by
    rw [← h.total]
    exact Nat.le_of_lt h.left
  have hoffer := Connection.offer_eq hsent
  have hlength : (s.connection.response.drop s.connection.sent).length =
      s.connection.total - s.connection.sent := by
    rw [List.length_drop, h.total]
  refine ⟨s.stream.writeReplies (s.connection.response.drop s.connection.sent).length
    ((s.connection.response.drop s.connection.sent).length - s.connection.lost), ?_, ?_, ?_⟩
  · rw [← hlength]
    exact Connection.honest_writeReplies _ _ _
  · simp only [write, hoffer]
  · simp only [write, hoffer]

end Session
end PageServer
