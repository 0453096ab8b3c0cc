import PageServer.Proofs.Connection.Capacity
import PageServer.Proofs.Connection.Pipelining

/-!
# In any order

The operations on a connection, in whatever order they come.  Reading and working on a
request never meet a fault, and the cursors, the buffers and the counters stay within
their bounds.  A write meets a fault exactly where the bytes counted as sent reach beyond
the response that is left, with more to be sent: so it is behind a write that failed,
which lets go of the file and keeps the count, until the connection starts anew.
-/

namespace PageServer
namespace Connection

open Accounts (Backend)
open Http
open Net (ReadReply WriteReply)

/-- One operation on a connection, or a change of the files behind its back. -/
inductive Operation
  | attach (fd : Nat) (peer : Net.SocketAddress)
  | read (now : Nat) (replies : List ReadReply)
  | process (root : String) (b : Backend)
  | write (now : Nat) (replies : List WriteReply)
  /-- Cuts the stream in both directions, which shows in its replies from then on. -/
  | cut
  | detach
  | refresh (d : Disk)

/-- The fault that an operation ends with. -/
def faultOf? {α : Type} : Except Fault α → Option Fault
  | .ok _ => none
  | .error f => some f

namespace Operation

/-- The fault that the operation meets, if any, and the connection behind it. -/
def perform (c : Connection) : Operation → Option Fault × Connection
  | attach fd peer => (none, c.attach fd peer)
  | read now replies => (none, (c.read now replies).2)
  | process root b => (faultOf? (c.process root b).1, (c.process root b).2.1)
  | write now replies => (faultOf? (c.write now replies).1, (c.write now replies).2.1)
  | cut => (none, c)
  | detach => (none, c.detach.2)
  | refresh d => (none, c.refresh d)

/-- The operation gives up on a response: the write fails, or there is no room for the
head. -/
def GivesUp (c : Connection) : Operation → Prop
  | process root b => (c.process root b).1 = .ok .abort
  | write now replies => (c.write now replies).1 = .ok .failed
  | _ => False

/-- The operation makes the connection start anew. -/
def StartsAnew : Operation → Prop
  | attach .. | detach => True
  | _ => False

end Operation

/-- Replies of a stream that takes no more in a write than it is offered there. -/
def TakesOffered : List WriteReply → Connection → Prop
  | .interrupted :: later, c => TakesOffered later c
  | .accepted n :: later, c => c.sent < c.total → n ≤ c.response.length - c.sent ∧
      (0 < n → TakesOffered later { c with sent := c.sent + n })
  | _, _ => True

/-- What the outside keeps to: a stream takes no more than it is offered, and a file that
is mapped fits into memory. -/
def Operation.Possible (c : Connection) : Operation → Prop
  | process root b => ∀ m, (c.process root b).2.1.file = some m → m.length ≤ memoryLimit
  | write _ replies => TakesOffered replies c
  | _ => True

/-- What a new connection comes to when operations are performed on it, whatever their
order and whatever faults they meet. -/
inductive Handled : List Operation → Connection → Prop
  | new : Handled [] {}
  | next {ops : List Operation} {c : Connection} (h : Handled ops c) (op : Operation)
    (possible : op.Possible c) : Handled (ops ++ [op]) (op.perform c).2

/-- The bytes counted as sent reach beyond what is left of the response, with more to be
sent. -/
structure Torn (c : Connection) : Prop where
  live : c.isLive = true
  beyond : c.response.length < c.sent
  left : c.sent < c.total

variable {c d : Connection} {op : Operation} {ops : List Operation}

/-! ## Writing -/

theorem length_response (c : Connection) :
    c.response.length = c.output.length + c.fileBytes.length :=
  List.length_append

/-- What is left would begin behind the end of the file. -/
theorem offer_beyond (h : c.response.length < c.sent) :
    c.offer = .error (.sliceStart (c.sent - c.output.length) c.fileBytes.length) := by
  rw [length_response] at h
  rw [offer, if_neg (by omega)]
  exact if_pos (by omega)

theorem Torn.write_eq (h : Torn c) (now : Nat) (replies : List WriteReply) :
    c.write now replies =
      (.error (.sliceStart (c.sent - c.output.length) c.fileBytes.length), c, []) := by
  have htotal : c.total ≠ 0 := Nat.ne_of_gt (Nat.zero_lt_of_lt h.left)
  rw [write, h.live, if_neg (by simp), if_neg htotal]
  unfold writeOn
  rw [if_pos h.left, offer_beyond h.beyond]

/-- The streams of the model take no more than they are offered. -/
theorem takesOffered_writeReplies (stream : Net.Stream) {offered : Nat}
    (h : offered ≤ c.response.length - c.sent) (readable : Nat) :
    TakesOffered (stream.writeReplies offered readable) c := by
  have hable := readable_le offered readable
  have hnext (room taken : Nat) (c : Connection) : TakesOffered
      (if taken = offered then [.accepted 0]
      else if room = taken then [.wouldBlock]
      else [.failed]) c := by
    split
    · exact fun _ => ⟨Nat.zero_le _, fun hpos => absurd hpos (Nat.lt_irrefl 0)⟩
    · split <;> trivial
  unfold Net.Stream.writeReplies
  simp only
  generalize (if readable < offered then
    readable / Net.Piece.maxLength * Net.Piece.maxLength else offered) = able at hable ⊢
  split
  · trivial
  · split
    · exact hnext _ _ _
    · refine fun _ => ⟨?_, fun _ => hnext _ _ _⟩
      exact Nat.le_trans (Nat.min_le_right _ _) (Nat.le_trans hable h)

/-- A call that meets no fault, leaves no count beyond the response unless it fails, and
counts no byte that there is not. -/
structure WroteWithin (c : Connection) (r : Except Fault WriteOutcome × Connection × Bytes) :
    Prop where
  noFault : ∀ f, r.1 ≠ .error f
  untorn : r.1 ≠ .ok .failed → ¬Torn r.2.1
  sent : r.2.1.sent ≤ max c.sent c.response.length
  file : r.2.1.file = c.file ∨ r.2.1.file = none

theorem not_torn_reset (c : Connection) : ¬Torn c.reset :=
  fun h => absurd h.left (Nat.lt_irrefl 0)

theorem wroteWithin_reset (c : Connection) (outcome : WriteOutcome) :
    WroteWithin c (.ok outcome, c.reset, []) :=
  ⟨by simp, fun _ => not_torn_reset c, Nat.zero_le _, .inr rfl⟩

theorem wroteWithin_finish (now : Nat) (h : c.total ≤ c.sent) :
    WroteWithin c (.ok (c.finish now).1, (c.finish now).2, []) := by
  cases hkeep : c.request.keepAlive with
  | true =>
    rw [finish_anew hkeep]
    exact wroteWithin_reset c _
  | false =>
    rw [finish_last hkeep]
    exact ⟨by simp, fun _ htorn => absurd htorn.left (Nat.not_lt.mpr h), Nat.le_max_left _ _,
      .inr rfl⟩

/-- Where what is counted as sent is there to begin with, each write of a call begins
within the response, since the stream takes no more than is left of it. -/
theorem wroteWithin_writeOn (now : Nat) {replies : List WriteReply}
    (takes : TakesOffered replies c) (h : c.sent < c.total → c.sent ≤ c.response.length) :
    WroteWithin c (writeOn now replies c) := by
  have hdone {replies : List WriteReply} {c : Connection} (hend : ¬c.sent < c.total) :
      WroteWithin c (writeOn now replies c) := by
    rw [writeOn_done (Nat.not_lt.mp hend)]
    exact wroteWithin_finish now (Nat.not_lt.mp hend)
  have hpending {c : Connection} (hle : c.sent ≤ c.response.length) :
      WroteWithin c (.ok .pending, c, []) :=
    ⟨by simp, fun _ htorn => absurd htorn.beyond (Nat.not_lt.mpr hle),
      Nat.le_max_left _ _, .inl rfl⟩
  have hfailed {c : Connection} : WroteWithin c (.ok .failed, { c with file := none }, []) :=
    ⟨by simp, fun hne => absurd rfl hne, Nat.le_max_left _ _, .inr rfl⟩
  induction replies generalizing c with
  | nil =>
    by_cases hlt : c.sent < c.total
    · have hoffer := offer_eq (h hlt)
      unfold writeOn
      rw [if_pos hlt, hoffer]
      exact hpending (h hlt)
    · exact hdone hlt
  | cons reply later ih =>
    by_cases hlt : c.sent < c.total
    · have hoffer := offer_eq (h hlt)
      unfold writeOn
      rw [if_pos hlt, hoffer]
      cases reply with
      | wouldBlock => exact hpending (h hlt)
      | interrupted => exact ih takes h
      | failed => exact hfailed
      | accepted n =>
        cases n with
        | zero => exact hfailed
        | succ n =>
          obtain ⟨hn, hlater⟩ := takes hlt
          have hle : c.sent + (n + 1) ≤ c.response.length := by
            have := h hlt
            omega
          have hrest := ih (c := { c with sent := c.sent + (n + 1) }) (hlater (Nat.succ_pos n))
            fun _ => hle
          refine ⟨hrest.noFault, hrest.untorn, ?_, hrest.file⟩
          exact Nat.le_trans hrest.sent (Nat.max_le.mpr
            ⟨Nat.le_trans hle (Nat.le_max_right _ _), Nat.le_max_right _ _⟩)
    · exact hdone hlt

theorem wroteWithin_write (now : Nat) {replies : List WriteReply}
    (takes : TakesOffered replies c) (h : ¬Torn c) : WroteWithin c (c.write now replies) := by
  unfold write
  split
  · next hdead =>
    refine ⟨by simp, fun hne => absurd rfl hne, Nat.le_max_left _ _, .inl rfl⟩
  · next hlive =>
    split
    · exact wroteWithin_reset c _
    · apply wroteWithin_writeOn now takes
      intro hlt
      apply Nat.not_lt.mp
      intro hbeyond
      exact h ⟨by simpa using hlive, hbeyond, hlt⟩

/-! ## Working on a request -/

/-- A response that has been prepared holds all bytes that are counted, and otherwise the
count is the old one. -/
structure Counted (c : Connection) (prepared : Prop) (d : Connection) : Prop where
  within : prepared → d.total ≤ d.response.length
  kept : ¬prepared → d.total = c.total

theorem counted_respond (s : Status) (c : Connection) :
    Counted c ((respond s c).1 = .ok true) (respond s c).2 := by
  unfold respond
  simp only
  split
  · next file hfile =>
    rcases addHead .ok file.length _ c.output with ⟨_ | _ | _, output⟩
    · exact ⟨by simp, fun _ => rfl⟩
    · exact ⟨by simp, fun _ => rfl⟩
    · refine ⟨fun _ => ?_, fun hnot => absurd rfl hnot⟩
      simp only [length_response, fileBytes, hfile, if_true]
      exact Nat.le_refl _
  · rcases ResponseBuffer.andThen _ _ with ⟨_ | _ | _, output⟩
    · exact ⟨by simp, fun _ => rfl⟩
    · exact ⟨by simp, fun _ => rfl⟩
    · refine ⟨fun _ => ?_, fun hnot => absurd rfl hnot⟩
      simp only [length_response, if_true]
      exact Nat.add_le_add_left (Nat.zero_le _) _

theorem counted_answer (v : Verdict) (c : Connection) :
    Counted c ((c.answer v).1 = .ok .readyToWrite) (c.answer v).2 := by
  have hrespond (s : Status) : Counted c ((respond s c).1.map (fun fits =>
      if fits then ProcessOutcome.readyToWrite else .abort) = .ok .readyToWrite)
      (respond s c).2 := by
    have hiff : (respond s c).1.map (fun fits =>
        if fits then ProcessOutcome.readyToWrite else .abort) = .ok .readyToWrite ↔
          (respond s c).1 = .ok true := by
      rcases (respond s c).1 with f | _ | _ <;> simp [Except.map]
    rw [hiff]
    exact counted_respond s c
  cases v with
  | incomplete | ready => exact ⟨by simp [answer, statusOf?], fun _ => rfl⟩
  | malformed | missing | forbidden | found | broken => exact hrespond _

theorem counted_process (hcursors : Cursors c) (root : String) (b : Backend) :
    Counted c ((c.process root b).1 = .ok .readyToWrite) (c.process root b).2.1 := by
  have htotal : c.parse.2.total = c.total := by
    rw [hcursors.parse_frame]
    rfl
  cases hparse : c.parse.1 with
  | error f =>
    rw [process_fault root b hparse]
    exact ⟨by simp, fun _ => htotal⟩
  | ok v =>
    by_cases hready : v = .ready
    · subst hready
      obtain ⟨file, heq⟩ := dispatch_eq root b c.parse.2
      have hanswer := counted_answer (dispatch root b c.parse.2).1 (dispatch root b c.parse.2).2.1
      rw [process_ready root b hparse]
      refine ⟨hanswer.within, fun hnot => (hanswer.kept hnot).trans ?_⟩
      rw [heq]
      exact htotal
    · rw [process_settled root b hparse hready]
      have hanswer := counted_answer v c.parse.2
      exact ⟨hanswer.within, fun hnot => (hanswer.kept hnot).trans htotal⟩

/-- Where more input is needed, the response is as it was. -/
theorem Torn.of_needInput (hcursors : Cursors c) {root : String} {b : Backend}
    (hneed : (c.process root b).1 = .ok .needInput) (h : Torn (c.process root b).2.1) : Torn c := by
  rw [process_incomplete root b ((process_needInput_iff root b c).mp hneed),
    hcursors.parse_frame] at h
  exact ⟨h.live, h.beyond, h.left⟩

/-! ## Any operation -/

/-- The cursors are in order, and nothing that is held or counted exceeds its bound. -/
structure Sound (c : Connection) : Prop where
  cursors : Cursors c
  capacity : c.output.capacity = writeCapacity
  bounded : c.output.Bounded
  file : c.fileBytes.length ≤ memoryLimit
  total : c.total ≤ writeCapacity + memoryLimit
  sent : c.sent ≤ writeCapacity + memoryLimit

theorem Sound.output (h : Sound c) : c.output.length ≤ writeCapacity := by
  rw [← h.capacity]
  exact h.bounded

theorem Sound.response (h : Sound c) : c.response.length ≤ writeCapacity + memoryLimit := by
  rw [length_response]
  exact Nat.add_le_add h.output h.file

theorem sound_new : Sound {} where
  cursors := Reached.start.consistent.cursors
  capacity := rfl
  bounded := Nat.zero_le _
  file := Nat.zero_le _
  total := Nat.zero_le _
  sent := Nat.zero_le _

theorem sound_reset (hsize : c.input.size ≤ readCapacity)
    (hcapacity : c.output.capacity = writeCapacity) : Sound c.reset where
  cursors := Cursors.reset hsize
  capacity := hcapacity
  bounded := ResponseBuffer.bounded_clear _
  file := Nat.zero_le _
  total := Nat.zero_le _
  sent := Nat.zero_le _

theorem Sound.attach (h : Sound c) (fd : Nat) (peer : Net.SocketAddress) :
    Sound (c.attach fd peer) := by
  have hsize : (c.attach fd peer).input.size ≤ readCapacity := Nat.le_of_eq (size_attach c fd peer)
  have hreset : Sound (c.attach fd peer).reset := sound_reset hsize h.capacity
  exact hreset

theorem Sound.read (h : Sound c) (now : Nat) (replies : List ReadReply) :
    Sound (c.read now replies).2 := by
  have hcursors := h.cursors.read now replies
  obtain ⟨data, since, heq⟩ := read_eq c now replies
  rw [heq] at hcursors ⊢
  exact ⟨hcursors, h.capacity, h.bounded, h.file, h.total, h.sent⟩

theorem Sound.process (h : Sound c) {root : String} {b : Backend}
    (hfile : ∀ m, (c.process root b).2.1.file = some m → m.length ≤ memoryLimit) :
    Sound (c.process root b).2.1 := by
  have hbounded := bounded_process h.cursors h.bounded root b
  have hcounted := counted_process h.cursors root b
  have hbytes : (c.process root b).2.1.fileBytes.length ≤ memoryLimit := by
    rw [fileBytes]
    split
    · next m hm => exact hfile m hm
    · exact Nat.zero_le _
  have hsame : (c.process root b).2.1.output.capacity = writeCapacity ∧
      Cursors (c.process root b).2.1 ∧ (c.process root b).2.1.sent = c.sent := by
    obtain ⟨keepAlive, status, output, file, total, hcapacity, heq⟩ := process_eq root b c
    have hparse := h.cursors.parse.cursors
    rw [heq]
    refine ⟨hcapacity.trans ?_, hparse.withAnswer keepAlive status output file total _, ?_⟩
    · rw [h.cursors.parse_frame]
      exact h.capacity
    · rw [h.cursors.parse_frame]
      rfl
  obtain ⟨hcapacity, hcursors, hsent⟩ := hsame
  refine ⟨hcursors, hcapacity, hbounded, hbytes, ?_, Nat.le_trans (Nat.le_of_eq hsent) h.sent⟩
  by_cases hready : (c.process root b).1 = .ok .readyToWrite
  · rw [ResponseBuffer.Bounded, hcapacity] at hbounded
    refine Nat.le_trans (hcounted.within hready) ?_
    rw [length_response]
    exact Nat.add_le_add hbounded hbytes
  · rw [hcounted.kept hready]
    exact h.total

theorem Sound.write (h : Sound c) (now : Nat) {replies : List WriteReply}
    (takes : TakesOffered replies c) : Sound (c.write now replies).2.1 := by
  by_cases htorn : Torn c
  · rw [htorn.write_eq]
    exact h
  · have hwithin := wroteWithin_write now takes htorn
    have hwrote := wrote_write now replies c
    generalize c.write now replies = r at hwithin hwrote ⊢
    obtain ⟨outcome, d, taken⟩ := r
    cases hwrote with
    | anew => exact sound_reset h.cursors.size_le h.capacity
    | on n file closes =>
      refine ⟨h.cursors.withAnswer _ _ _ file _ n, h.capacity, h.bounded, ?_, h.total, ?_⟩
      · rcases hwithin.file with hkept | hnone
        · obtain rfl : file = c.file := hkept
          exact h.file
        · obtain rfl : file = none := hnone
          exact Nat.zero_le _
      · exact Nat.le_trans hwithin.sent (Nat.max_le.mpr ⟨h.sent, h.response⟩)

theorem length_response_refresh (c : Connection) (disk : Disk) :
    (c.refresh disk).fileBytes.length = c.fileBytes.length ∧
      (c.refresh disk).response.length = c.response.length := by
  have hbytes : (c.refresh disk).fileBytes.length = c.fileBytes.length := by
    rcases refresh_cases c disk with heq | ⟨m, m', hfile, hlength, heq⟩
    · rw [heq]
    · rw [heq, fileBytes, fileBytes, hfile]
      exact hlength
  refine ⟨hbytes, ?_⟩
  rw [length_response, length_response, hbytes]
  rfl

theorem Sound.refresh (h : Sound c) (disk : Disk) : Sound (c.refresh disk) where
  cursors := h.cursors.withAnswer _ _ _ _ _ _
  capacity := h.capacity
  bounded := h.bounded
  file := by
    rw [(length_response_refresh c disk).1]
    exact h.file
  total := h.total
  sent := h.sent

theorem Sound.detach (h : Sound c) : Sound c.detach.2 := by
  unfold Connection.detach
  split
  · exact sound_reset h.cursors.size_le h.capacity
  · exact h

theorem Sound.perform (h : Sound c) (possible : op.Possible c) : Sound (op.perform c).2 := by
  cases op with
  | attach fd peer => exact h.attach fd peer
  | read now replies => exact h.read now replies
  | process root b => exact h.process possible
  | write now replies => exact h.write now possible
  | cut => exact h
  | detach => exact h.detach
  | refresh disk => exact h.refresh disk

theorem Handled.sound (h : Handled ops c) : Sound c := by
  induction h with
  | new => exact sound_new
  | next _ op possible ih => exact ih.perform possible

/-- Only giving up on a response leaves a count beyond it, and starting anew ends that. -/
theorem Torn.of_perform (h : Sound c) (possible : op.Possible c) (torn : Torn (op.perform c).2) :
    op.GivesUp c ∨ Torn c ∧ ¬op.StartsAnew := by
  cases op with
  | attach fd peer => exact absurd torn (not_torn_reset _)
  | read now replies =>
    obtain ⟨data, since, heq⟩ := read_eq c now replies
    rw [Operation.perform, heq] at torn
    exact .inr ⟨⟨torn.live, torn.beyond, torn.left⟩, id⟩
  | process root b =>
    cases houtcome : (c.process root b).1 with
    | error f => exact absurd houtcome (h.cursors.process_ne_error h.capacity root b f)
    | ok outcome =>
      cases outcome with
      | needInput => exact .inr ⟨.of_needInput h.cursors houtcome torn, id⟩
      | readyToWrite =>
        have hwithin := (counted_process h.cursors root b).within houtcome
        exact absurd (Nat.lt_trans torn.beyond torn.left) (Nat.not_lt.mpr hwithin)
      | abort => exact .inl houtcome
  | write now replies =>
    by_cases hc : Torn c
    · exact .inr ⟨hc, id⟩
    · by_cases hfailed : (c.write now replies).1 = .ok .failed
      · exact .inl hfailed
      · exact absurd torn ((wroteWithin_write now possible hc).untorn hfailed)
  | cut => exact .inr ⟨torn, id⟩
  | detach =>
    have hlive := torn.live
    rw [Operation.perform, isLive_detach] at hlive
    cases hlive
  | refresh disk =>
    have hbeyond := torn.beyond
    rw [Operation.perform, (length_response_refresh c disk).2] at hbeyond
    exact .inr ⟨⟨torn.live, hbeyond, torn.left⟩, id⟩

/-- Where a count is beyond the response, an operation has given up on it, and the
connection has not started anew since. -/
theorem Handled.torn (h : Handled ops c) (torn : Torn c) :
    ∃ before failing after d, ops = before ++ failing :: after ∧ Handled before d ∧
      failing.GivesUp d ∧ ∀ later ∈ after, ¬later.StartsAnew := by
  induction h with
  | new => exact absurd torn.left (Nat.lt_irrefl 0)
  | @next ops c h op possible ih =>
    rcases torn.of_perform h.sound possible with hgives | ⟨hc, hstays⟩
    · exact ⟨ops, op, [], c, rfl, h, hgives, by simp⟩
    · obtain ⟨before, failing, after, d, rfl, hbefore, hgives, hafter⟩ := ih hc
      refine ⟨before, failing, after ++ [op], d, by simp, hbefore, hgives, ?_⟩
      intro later hlater
      rcases List.mem_append.mp hlater with hlater | hlater
      · exact hafter later hlater
      · obtain rfl := List.mem_singleton.mp hlater
        exact hstays

theorem Sound.fault_iff (h : Sound c) (possible : op.Possible c) (f : Fault) :
    (op.perform c).1 = some f ↔ Torn c ∧ (∃ now replies, op = .write now replies) ∧
      f = .sliceStart (c.sent - c.output.length) c.fileBytes.length := by
  have hother {r : Option Fault} (hr : r = none) (hop : ∀ now replies, op ≠ .write now replies) :
      r = some f ↔ Torn c ∧ (∃ now replies, op = .write now replies) ∧
        f = .sliceStart (c.sent - c.output.length) c.fileBytes.length := by
    rw [hr]
    refine iff_of_false (by simp) ?_
    rintro ⟨-, ⟨now, replies, heq⟩, -⟩
    exact hop now replies heq
  cases op with
  | attach | read | cut | detach | refresh => exact hother rfl (by simp)
  | process root b =>
    refine hother ?_ (by simp)
    cases houtcome : (c.process root b).1 with
    | error f => exact absurd houtcome (h.cursors.process_ne_error h.capacity root b f)
    | ok outcome => simp only [Operation.perform, houtcome, faultOf?]
  | write now replies =>
    by_cases hc : Torn c
    · rw [Operation.perform, hc.write_eq]
      constructor
      · intro hfault
        exact ⟨hc, ⟨now, replies, rfl⟩, (Option.some.inj hfault).symm⟩
      · rintro ⟨-, -, rfl⟩
        rfl
    · refine iff_of_false ?_ fun hfault => hc hfault.1
      have hnone := (wroteWithin_write now possible hc).noFault
      intro hfault
      cases houtcome : (c.write now replies).1 with
      | error f => exact hnone f houtcome
      | ok outcome => simp [Operation.perform, houtcome, faultOf?] at hfault

/-- Whatever operations are performed on a connection, in any order, the cursors are in
order and the buffers and counters within their bounds.  Attaching, reading, working on a
request, cutting and detaching never meet a fault.  A write meets one exactly where the
bytes counted as sent reach beyond the response that is left, and it is the slice behind
the end of the file; and where that is so, a write has failed or a response has found no
room before, and the connection has not started anew since. -/
theorem Handled.faults_explained (h : Handled ops c) (possible : op.Possible c) :
    (∀ f, (op.perform c).1 = some f ↔ Torn c ∧ (∃ now replies, op = .write now replies) ∧
        f = .sliceStart (c.sent - c.output.length) c.fileBytes.length) ∧
      (Torn c → ∃ before failing after d, ops = before ++ failing :: after ∧ Handled before d ∧
        failing.GivesUp d ∧ ∀ later ∈ after, ¬later.StartsAnew) ∧
      (c.lineStart ≤ c.scanned ∧ c.scanned ≤ c.filled ∧ c.filled ≤ c.input.size ∧
        c.input.size ≤ readCapacity) ∧
      c.output.length ≤ writeCapacity ∧ c.sent < wordRange ∧ c.total < wordRange := by
  have hsound := h.sound
  have hword : writeCapacity + memoryLimit < wordRange := by decide
  have hcursors := hsound.cursors
  exact ⟨hsound.fault_iff possible, h.torn,
    ⟨hcursors.lineStart_le, hcursors.scanned_le, hcursors.filled_le, hcursors.size_le⟩,
    hsound.output, Nat.lt_of_le_of_lt hsound.sent hword, Nat.lt_of_le_of_lt hsound.total hword⟩

/-! ## Behind a failed write -/

/-- A write that fails behind the head of a file leaves more counted than there is. -/
theorem Sending.torn_of_failed (h : Sending c) (now : Nat) {used later : List WriteReply}
    (hsteady : Steady used) (hhead : c.output.length < c.sent + accepted used)
    (hlt : c.sent + accepted used < c.total) (hlater : Broken later) :
    Torn (c.write now (used ++ later)).2.1 ∧
      (c.write now (used ++ later)).2.1.sent = c.sent + accepted used := by
  rw [h.write_failed now hsteady hlt hlater]
  refine ⟨⟨h.live, ?_, hlt⟩, rfl⟩
  rw [length_response]
  exact hhead

/-- The stream takes the head and one byte of the page, and fails. -/
def failedBehindHead : List Operation :=
  [.attach 0 ⟨.v4 127 0 0 1, 0⟩, .read 0 [.bytes rootRequest, .wouldBlock],
    .process "/srv" welcomeSite, .write 1 [.accepted 56, .failed]]

theorem handled_failedBehindHead :
    ∃ c, Handled failedBehindHead c ∧ Torn c ∧ c.sent = 56 ∧ c.output.length = 55 ∧
      c.fileBytes = [] := by
  obtain ⟨hfile, hsending, hzero, houtput, htotal⟩ := sending_welcoming
  have hattached : Handled [.attach 0 ⟨.v4 127 0 0 1, 0⟩] (fresh #[] 0 ⟨.v4 127 0 0 1, 0⟩) :=
    Handled.new.next (.attach 0 ⟨.v4 127 0 0 1, 0⟩) trivial
  have hread := hattached.next (.read 0 [.bytes rootRequest, .wouldBlock]) trivial
  simp only [Operation.perform] at hread
  rw [← alone] at hread
  have hprocessed : Handled _ welcoming := hread.next (.process "/srv" welcomeSite) (by
    intro m hm
    obtain rfl := Option.some.inj (hfile.symm.trans hm)
    decide)
  have htakes : TakesOffered [.accepted 56, .failed] welcoming := by
    intro _
    refine ⟨?_, fun _ => trivial⟩
    rw [length_response_welcoming, hzero]
    decide
  have hsteady : Steady [.accepted 56] := .cons (.inr ⟨55, rfl⟩) .nil
  have hsum : welcoming.sent + accepted [.accepted 56] = 56 := by
    rw [hzero]
    rfl
  have hlt : welcoming.sent + accepted [.accepted 56] < welcoming.total := by
    rw [hsum, htotal]
    decide
  have hbroken : Broken [.failed] := ⟨[], .inl rfl⟩
  obtain ⟨htorn, hsent⟩ := hsending.torn_of_failed 1 hsteady (by rw [hsum, houtput]; decide) hlt
    hbroken
  have hwritten := hprocessed.next (.write 1 [.accepted 56, .failed]) htakes
  refine ⟨_, hwritten, htorn, hsent.trans hsum, ?_⟩
  rw [Operation.perform]
  have hfailed := hsending.write_failed 1 hsteady hlt hbroken
  rw [List.singleton_append] at hfailed
  rw [hfailed]
  exact ⟨houtput, rfl⟩

theorem Handled.faults_explained_failedBehindHead :
    ∃ c, Handled failedBehindHead c ∧ (Operation.write 2 []).Possible c ∧
      ((Operation.write 2 []).perform c).1 = some (.sliceStart 1 0) ∧
      ∃ before failing after d, failedBehindHead = before ++ failing :: after ∧
        Handled before d ∧ failing.GivesUp d := by
  obtain ⟨c, hhandled, htorn, hsent, houtput, hbytes⟩ := handled_failedBehindHead
  have hpossible : (Operation.write 2 []).Possible c := trivial
  obtain ⟨hfault, hexplained, -⟩ := hhandled.faults_explained hpossible
  obtain ⟨before, failing, after, d, heq, hbefore, hgives, -⟩ := hexplained htorn
  refine ⟨c, hhandled, hpossible, (hfault _).mpr ⟨htorn, ⟨2, [], rfl⟩, ?_⟩, before, failing, after,
    d, heq, hbefore, hgives⟩
  rw [hsent, houtput, hbytes]
  rfl

/-- Writing again behind a write that has failed partway meets a fault, whatever the
stream would reply. -/
theorem write_behind_failed_faults :
    ∃ c, Handled [.attach 0 ⟨.v4 127 0 0 1, 0⟩, .read 0 [.bytes rootRequest, .wouldBlock],
        .process "/srv" welcomeSite, .write 1 [.accepted 56, .failed]] c ∧
      ∀ replies, (c.write 2 replies).1 = .error (.sliceStart 1 0) := by
  obtain ⟨c, hhandled, htorn, hsent, houtput, hbytes⟩ := handled_failedBehindHead
  refine ⟨c, hhandled, ?_⟩
  intro replies
  rw [htorn.write_eq, hsent, houtput, hbytes]
  rfl

end Connection

namespace Session

open Connection (TakesOffered)

/-- The stream of a session takes no more than it is offered, whatever has been done
before. -/
theorem write_possible (s : Session) (now : Nat) :
    ∃ replies, TakesOffered replies s.connection ∧
      (s.write now).1 = (s.connection.write now replies).1 ∧
      (s.write now).2.connection = (s.connection.write now replies).2.1 := by
  by_cases hle : s.connection.sent ≤ s.connection.response.length
  · have hoffer := Connection.offer_eq hle
    refine ⟨_, Connection.takesOffered_writeReplies s.stream (Nat.le_of_eq List.length_drop)
      ((s.connection.response.drop s.connection.sent).length - s.connection.lost), ?_, ?_⟩
    · simp only [write, hoffer]
    · simp only [write, hoffer]
  · have hoffer := Connection.offer_beyond (Nat.not_le.mp hle)
    refine ⟨_, Connection.takesOffered_writeReplies s.stream (Nat.zero_le _)
      (0 - s.connection.lost), ?_, ?_⟩
    · simp only [write, hoffer]
    · simp only [write, hoffer]

end Session
end PageServer
