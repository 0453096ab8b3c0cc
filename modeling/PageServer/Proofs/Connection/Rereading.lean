import PageServer.Proofs.Connection.Standing

/-!
# The request that is answered

However the bytes of a request have come in, and whatever the connection has served
before, the request that processing answers is the one that the bytes received start with.
-/

namespace PageServer
namespace Connection

open Http

variable {c d : Connection} {s : Stage} {B : Bytes}

/-- Whatever follows, reading comes to the request that it comes to from the first byte
on. -/
def RereadsRequest (c : Connection) : Prop :=
  ∀ data, (c.takeIn data).parse.2.request = ((c.readTo 0 none).takeIn data).parse.2.request

theorem RereadsRequest.takeIn (h : RereadsRequest c) (hcursors : Cursors c) (data : Bytes)
    (since : Option Nat) : RereadsRequest { c.takeIn data with since } := by
  intro more
  have hall := h (data ++ more)
  rw [← takeIn_append, ← takeIn_append] at hall
  have hread := ((hcursors.takeIn data).takeIn more).parse_since since
  have hanew := ((hcursors.rewind.takeIn data).takeIn more).parse_since since
  calc ({ c.takeIn data with since }.takeIn more).parse.2.request
      = ((c.takeIn data).takeIn more).parse.2.request := congrArg (·.2.request) hread
    _ = (((c.readTo 0 none).takeIn data).takeIn more).parse.2.request := hall
    _ = (({ c.takeIn data with since }.readTo 0 none).takeIn more).parse.2.request :=
      (congrArg (·.2.request) hanew).symm

theorem RereadsRequest.parse (h : RereadsRequest c) (hcursors : Cursors c)
    (hopen : c.parse.1 = .ok .incomplete) : RereadsRequest c.parse.2 := by
  intro data
  rw [← hcursors.parse_takeIn_resume data hopen, hcursors.parse_frame]
  exact h data

theorem rereadsRequest_reset (c : Connection) : RereadsRequest c.reset :=
  fun _ => rfl

/-- While a request comes in, what has been read of it does not depend on how it came in. -/
theorem Reached.rereadsRequest (h : Reached s c) (hs : s = .reading ∨ s = .processing) :
    RereadsRequest c := by
  induction h with
  | start => simp at hs
  | @step _ _ c d hreached hstep ih =>
    have hcursors := hreached.consistent.cursors
    cases hstep with
    | attach fd peer => exact rereadsRequest_reset _
    | read now replies =>
      obtain ⟨data, since, heq⟩ := read_eq c now replies
      rw [heq]
      exact (ih (.inl rfl)).takeIn hcursors data since
    | process root b =>
      cases houtcome : (c.process root b).1 with
      | error f => simp [houtcome, afterProcess] at hs
      | ok o =>
        cases o with
        | readyToWrite | abort => simp [houtcome, afterProcess] at hs
        | needInput =>
          have hopen := (process_needInput_iff root b c).mp houtcome
          rw [process_incomplete root b hopen]
          exact (ih (.inr rfl)).parse hcursors hopen
    | write now replies =>
      have hwrote := wrote_write now replies c
      generalize (c.write now replies).1 = outcome, (c.write now replies).2.1 = d at hwrote hs ⊢
      cases hwrote with
      | anew => exact rereadsRequest_reset c
      | on n file closes =>
        cases outcome with
        | error f => simp [afterWrite] at hs
        | ok o =>
          cases o with
          | pending | failed => simp [afterWrite] at hs
          | complete m => simp [afterWrite, closes m rfl] at hs
    | refresh disk =>
      have hunanswered : Unanswered c := by
        rcases hs with rfl | rfl
        · exact hreached.consistent.1.unanswered
        · exact Receiving.unanswered hreached.consistent
      rw [hunanswered.refresh_eq disk]
      exact ih hs
    | detach => simp at hs

/-- A connection finds a request in the bytes that it holds where the grammar does, and
the same one. -/
theorem Holds.parse_ready_iff (h : Holds c B) (r : Request) :
    (c.readTo 0 none).parse.1 = .ok .ready ∧ (c.readTo 0 none).parse.2.request = r ↔
      Ready B r := by
  refine ⟨?_, h.parse_ready⟩
  rintro ⟨hverdict, hrequest⟩
  have hB : B.length ≤ readCapacity := by
    rw [h.length]
    exact h.filled_le_capacity
  rcases ready_or_malformed_or_partial hB with ⟨r', hready⟩ | hmalformed | hpartial
  · obtain rfl := (h.parse_ready hready).2.symm.trans hrequest
    exact hready
  · simp [h.parse_malformed hmalformed] at hverdict
  · simp [h.parse_partial hpartial] at hverdict

theorem Receiving.holds (h : Receiving c) : Holds c c.received :=
  ⟨rfl, h.held.cursors.filled_le, h.held.size⟩

/-- The request that is looked up is the one that the bytes received start with. -/
theorem Reached.ready_iff (h : Reached .processing c) (r : Request) :
    c.parse.1 = .ok .ready ∧ c.parse.2.request = r ↔ Ready c.received r := by
  have hreceiving : Receiving c := h.consistent
  have hverdict := hreceiving.readsAnew []
  have hrequest := h.rereadsRequest (.inr rfl) []
  simp only [takeIn_nil] at hverdict hrequest
  rw [hverdict, hrequest]
  exact hreceiving.holds.parse_ready_iff r

/-- Whatever the connections have served before, the same request is answered alike. -/
theorem Reached.sameAnswer (hc : Reached .processing c) (hd : Reached .processing d) {r : Request}
    (hready : Ready c.received r) (hready' : Ready d.received r) (root : String)
    (b : Accounts.Backend) : SameAnswer (c.process root b) (d.process root b) := by
  have hreading : Receiving c := hc.consistent
  have hreading' : Receiving d := hd.consistent
  obtain ⟨hverdict, hrequest⟩ := (hc.ready_iff r).mpr hready
  obtain ⟨hverdict', hrequest'⟩ := (hd.ready_iff r).mpr hready'
  obtain ⟨htotal, hstatus⟩ := hc.nothing_prepared (.inr rfl)
  obtain ⟨htotal', hstatus'⟩ := hd.nothing_prepared (.inr rfl)
  have hframe := hreading.held.cursors.parse_frame
  have hframe' := hreading'.held.cursors.parse_frame
  apply process_sameAnswer root b (hverdict'.trans hverdict.symm)
  refine ⟨hrequest'.trans hrequest.symm, ?_, ?_, ?_, ?_⟩
  · rw [hframe, hframe']
    exact hstatus'.trans hstatus.symm
  · rw [hreading.parse_output, hreading'.parse_output]
  · rw [hframe, hframe']
    exact hreading'.unanswered.file.trans hreading.unanswered.file.symm
  · rw [hframe, hframe']
    exact htotal'.trans htotal.symm

theorem received_takeIn (h : c.filled ≤ c.input.size) (data : Bytes) :
    (c.takeIn data).received = c.received ++ data.take c.room := by
  have hfits : c.filled + (data.take c.room).length ≤ c.input.size := by
    rw [List.length_take, room]
    omega
  exact take_toList_store hfits

/-- Until the last byte of a request has come in, more input is needed. -/
theorem Reached.parse_incomplete (h : Reached .processing c) {r : Request} (whole : Whole B r)
    (hB : B.length ≤ readCapacity) (hfront : c.received <+: B) (hne : c.received ≠ B) :
    c.parse.1 = .ok .incomplete := by
  have hreceiving : Receiving c := h.consistent
  have hcursors := hreceiving.held.cursors
  rcases hcursors.parse.verdict with ⟨hopen, -⟩ | hready | hmalformed
  · exact hopen
  · have hpart := (h.ready_iff _).mp ⟨hready, rfl⟩
    exact absurd (whole.eq_of_isPrefix hpart hfront) hne
  · obtain ⟨more, rfl⟩ := hfront
    have hroom : more.length ≤ c.room := by
      rw [List.length_append, hreceiving.holds.length] at hB
      rw [room, hreceiving.held.size]
      omega
    have hreceived : (c.takeIn more).received = c.received ++ more := by
      rw [received_takeIn hcursors.filled_le, List.take_of_length_le hroom]
    have hholds : Holds (c.takeIn more) (c.received ++ more) :=
      ⟨hreceived, (hcursors.takeIn more).filled_le,
        (size_takeIn c more).trans hreceiving.held.size⟩
    have hready := (hholds.parse_ready whole.ready).1
    have hanew := hreceiving.readsAnew more
    have hjudged := congrArg Prod.fst
      (hcursors.parse_takeIn more (by rw [hmalformed]; simp))
    rw [hanew] at hjudged
    exact absurd (hready.symm.trans (hjudged.trans hmalformed)) (by simp)

end Connection
end PageServer
