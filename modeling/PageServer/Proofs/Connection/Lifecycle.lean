import PageServer.Proofs.Connection.Preparing
import PageServer.Proofs.Connection.Recognition
import PageServer.Proofs.Connection.Sending

/-!
# The life of a connection

A connection is attached to a stream, reads and processes until its request is complete,
sends the response, and then waits for the next request or is closed.  Files change at any
time and a connection may be closed at any time.  Whatever the clients send and however
the streams reply, the cursors of the reader stay in order, and a connection that waits
for bytes has room for them.
-/

namespace PageServer

/-- What is done next on a connection. -/
inductive Stage
  | closed
  | reading
  | processing
  | writing
  | closing
  deriving DecidableEq, Repr

namespace Connection

open Accounts (Backend)
open Http
open Net (ReadReply WriteReply)

def afterRead : Bool → Stage
  | true => .processing
  | false => .closing

def afterProcess : Except Fault ProcessOutcome → Stage
  | .ok .needInput => .reading
  | .ok .readyToWrite => .writing
  | .ok .abort | .error _ => .closing

def afterWrite : Except Fault WriteOutcome → Stage
  | .ok .pending => .writing
  | .ok (.complete s) => if s.keepAlive then .reading else .closing
  | .ok .failed | .error _ => .closing

/-- One operation on a connection, in the order in which they follow each other. -/
inductive Step : Stage → Connection → Stage → Connection → Prop
  | attach {c : Connection} (fd : Nat) (peer : Net.SocketAddress) :
    Step .closed c .reading (c.attach fd peer)
  | read {c : Connection} (now : Nat) (replies : List ReadReply) :
    Step .reading c (afterRead (c.read now replies).1) (c.read now replies).2
  | process {c : Connection} (root : String) (b : Backend) :
    Step .processing c (afterProcess (c.process root b).1) (c.process root b).2.1
  | write {c : Connection} (now : Nat) (replies : List WriteReply) :
    Step .writing c (afterWrite (c.write now replies).1) (c.write now replies).2.1
  | refresh {stage : Stage} {c : Connection} (d : Disk) : Step stage c stage (c.refresh d)
  | detach {stage : Stage} {c : Connection} : Step stage c .closed c.detach.2

/-- What a connection can come to, from before its first stream on. -/
inductive Reached : Stage → Connection → Prop
  | start : Reached .closed {}
  | step {s t : Stage} {c d : Connection} (h : Reached s c) (hstep : Step s c t d) : Reached t d

/-- A connection with a stream, its cursors in order. -/
structure Held (c : Connection) : Prop where
  cursors : Cursors c
  size : c.input.size = readCapacity
  capacity : c.output.capacity = writeCapacity
  live : c.isLive = true

/-- No response has been prepared. -/
structure Unanswered (c : Connection) : Prop where
  output : c.output.bytes = []
  file : c.file = none
  sent : c.sent = 0

/-- Whatever follows, reading comes to the verdict that it comes to from the first byte
on. -/
def ReadsAnew (c : Connection) : Prop :=
  ∀ data, (c.takeIn data).parse.1 = ((c.readTo 0 none).takeIn data).parse.1

/-- A connection that takes in a request. -/
structure Receiving (c : Connection) : Prop where
  held : Held c
  unanswered : Unanswered c
  readsAnew : ReadsAnew c

/-- What holds of a connection at each stage. -/
def Consistent : Stage → Connection → Prop
  | .closed, c => Cursors c ∧ c.output.capacity = writeCapacity
  | .reading, c => Receiving c ∧ c.filled < readCapacity
  | .processing, c => Receiving c
  | .writing, c | .closing, c => Held c

variable {c d : Connection} {s t : Stage}

theorem Consistent.cursors (h : Consistent s c) : Cursors c := by
  cases s with
  | closed => exact h.1
  | reading => exact h.1.held.cursors
  | processing => exact (Receiving.held h).cursors
  | writing | closing => exact Held.cursors h

theorem Consistent.capacity (h : Consistent s c) : c.output.capacity = writeCapacity := by
  cases s with
  | closed => exact h.2
  | reading => exact h.1.held.capacity
  | processing => exact (Receiving.held h).capacity
  | writing | closing => exact Held.capacity h

/-! ## Each operation -/

/-- The cursors have nothing to do with the response. -/
theorem Cursors.withAnswer (h : Cursors c) (keepAlive : Bool) (status : Option Status)
    (output : ResponseBuffer) (file : Option Mapping) (total sent : Nat) :
    Cursors { c with
      request := { c.request with keepAlive }, status, output, file, total, sent } :=
  ⟨h.lineStart_le, h.scanned_le, h.filled_le, h.size_le, h.notAfterReturn, h.body_fits⟩

theorem Cursors.rewind (h : Cursors c) : Cursors (c.readTo 0 none) where
  lineStart_le := Nat.le_refl 0
  scanned_le := Nat.zero_le _
  filled_le := h.filled_le
  size_le := h.size_le
  notAfterReturn := .inl rfl
  body_fits := fun hphase => absurd hphase (readTo_phase c 0 none)

theorem Held.consistent_reset (h : Held c) : Consistent .reading c.reset :=
  ⟨⟨⟨Cursors.reset (Nat.le_of_eq h.size), h.size, h.capacity, h.live⟩, ⟨rfl, rfl, rfl⟩,
    fun _ => rfl⟩, show 0 < readCapacity by decide⟩

theorem consistent_attach (h : c.output.capacity = writeCapacity) (fd : Nat)
    (peer : Net.SocketAddress) : Consistent .reading (c.attach fd peer) := by
  have hheld : Held (c.attach fd peer) := ⟨cursors_attach c fd peer, size_attach c fd peer, h, rfl⟩
  exact hheld.consistent_reset

/-! ### Reading -/

theorem Held.read (h : Held c) (now : Nat) (replies : List ReadReply) :
    Held (c.read now replies).2 := by
  have hcursors := h.cursors.read now replies
  obtain ⟨data, since, heq⟩ := read_eq c now replies
  rw [heq] at hcursors ⊢
  exact ⟨hcursors, (size_takeIn c data).trans h.size, h.capacity, h.live⟩

theorem ReadsAnew.takeIn (h : ReadsAnew c) (hcursors : Cursors c) (data : Bytes)
    (since : Option Nat) : ReadsAnew { c.takeIn data with since } := by
  intro more
  have hall := h (data ++ more)
  rw [← takeIn_append, ← takeIn_append] at hall
  have hread := ((hcursors.takeIn data).takeIn more).parse_since since
  have hanew := ((hcursors.rewind.takeIn data).takeIn more).parse_since since
  calc ({ c.takeIn data with since }.takeIn more).parse.1
      = ((c.takeIn data).takeIn more).parse.1 := congrArg Prod.fst hread
    _ = (((c.readTo 0 none).takeIn data).takeIn more).parse.1 := hall
    _ = (({ c.takeIn data with since }.readTo 0 none).takeIn more).parse.1 :=
      (congrArg Prod.fst hanew).symm

theorem Receiving.read (h : Receiving c) (now : Nat) (replies : List ReadReply) :
    Receiving (c.read now replies).2 := by
  have hheld := h.held.read now replies
  obtain ⟨data, since, heq⟩ := read_eq c now replies
  rw [heq] at hheld ⊢
  exact ⟨hheld, ⟨h.unanswered.output, h.unanswered.file, h.unanswered.sent⟩,
    h.readsAnew.takeIn h.held.cursors data since⟩

/-! ### Processing -/

theorem Held.parse (h : Held c) : Held c.parse.2 := by
  have hcursors := h.cursors.parse.cursors
  rw [h.cursors.parse_frame] at hcursors ⊢
  exact ⟨hcursors, h.size, h.capacity, h.live⟩

theorem Unanswered.parse (h : Unanswered c) (hcursors : Cursors c) : Unanswered c.parse.2 := by
  rw [hcursors.parse_frame]
  exact ⟨h.output, h.file, h.sent⟩

theorem ReadsAnew.parse (h : ReadsAnew c) (hcursors : Cursors c)
    (hopen : c.parse.1 = .ok .incomplete) : ReadsAnew c.parse.2 := by
  intro data
  rw [← hcursors.parse_takeIn_resume data hopen, hcursors.parse_frame]
  exact h data

/-- Where processing asks for more input, there is room for it. -/
theorem Receiving.process_needInput (h : Receiving c) {root : String} {b : Backend}
    (hneed : (c.process root b).1 = .ok .needInput) :
    Consistent .reading (c.process root b).2.1 := by
  have hopen := (process_needInput_iff root b c).mp hneed
  have hcursors := h.held.cursors
  rw [process_incomplete root b hopen]
  refine ⟨⟨h.held.parse, h.unanswered.parse hcursors, h.readsAnew.parse hcursors hopen⟩, ?_⟩
  rcases hcursors.parse.verdict with ⟨-, hroom⟩ | hready | hmalformed
  · exact hroom
  · simp [hready] at hopen
  · simp [hmalformed] at hopen

theorem Held.process (h : Held c) (root : String) (b : Backend) :
    Held (c.process root b).2.1 := by
  have hparse := h.parse
  obtain ⟨keepAlive, status, output, file, total, hcapacity, heq⟩ := process_eq root b c
  rw [heq]
  exact ⟨hparse.cursors.withAnswer keepAlive status output file total _, hparse.size,
    hcapacity.trans hparse.capacity, hparse.live⟩

theorem Receiving.consistent_process (h : Receiving c) (root : String) (b : Backend) :
    Consistent (afterProcess (c.process root b).1) (c.process root b).2.1 := by
  have hheld := h.held.process root b
  rcases houtcome : (c.process root b).1 with f | outcome
  · exact hheld
  · cases outcome with
    | needInput => exact h.process_needInput houtcome
    | readyToWrite => exact hheld
    | abort => exact hheld

/-! ### Writing, and what may happen at any time -/

theorem Held.consistent_write (h : Held c) (now : Nat) (replies : List WriteReply) :
    Consistent (afterWrite (c.write now replies).1) (c.write now replies).2.1 := by
  have hwrote := wrote_write now replies c
  generalize (c.write now replies).1 = outcome, (c.write now replies).2.1 = d at hwrote ⊢
  cases hwrote with
  | anew s stays =>
    simp only [afterWrite, stays, if_true]
    exact h.consistent_reset
  | on n file closes =>
    have hheld : Held { c with sent := n, file } :=
      ⟨h.cursors.withAnswer _ _ _ file _ n, h.size, h.capacity, h.live⟩
    rcases outcome with f | outcome
    · exact hheld
    · cases outcome with
      | pending => exact hheld
      | failed => exact hheld
      | complete s =>
        simp only [afterWrite, closes s rfl]
        exact hheld

theorem Held.refresh (h : Held c) (disk : Disk) : Held (c.refresh disk) :=
  ⟨h.cursors.withAnswer _ _ _ _ _ _, h.size, h.capacity, h.live⟩

/-- A connection that has no response does not see the disk. -/
theorem Unanswered.refresh_eq (h : Unanswered c) (disk : Disk) : c.refresh disk = c := by
  have hfile := h.file
  cases c
  simp only at hfile
  subst hfile
  rfl

theorem Consistent.refresh (h : Consistent s c) (disk : Disk) : Consistent s (c.refresh disk) := by
  cases s with
  | closed => exact ⟨h.1.withAnswer _ _ _ _ _ _, h.2⟩
  | reading =>
    rw [h.1.unanswered.refresh_eq disk]
    exact h
  | processing =>
    rw [(Receiving.unanswered h).refresh_eq disk]
    exact h
  | writing | closing => exact Held.refresh h disk

theorem Consistent.detach (h : Consistent s c) : Consistent .closed c.detach.2 := by
  unfold Connection.detach
  split
  · exact ⟨Cursors.reset h.cursors.size_le, h.capacity⟩
  · exact ⟨h.cursors, h.capacity⟩

/-! ## Whole lives -/

theorem Consistent.step (h : Consistent s c) (hstep : Step s c t d) : Consistent t d := by
  cases hstep with
  | attach fd peer => exact consistent_attach h.2 fd peer
  | read now replies =>
    have hread := h.1.read now replies
    cases (c.read now replies).1 with
    | true => exact hread
    | false => exact hread.held
  | process root b => exact Receiving.consistent_process h root b
  | write now replies => exact Held.consistent_write h now replies
  | refresh disk => exact h.refresh disk
  | detach => exact h.detach

theorem Reached.consistent (h : Reached s c) : Consistent s c := by
  induction h with
  | start =>
    have hcursors : Cursors {} :=
      ⟨Nat.le_refl 0, Nat.le_refl 0, Nat.le_refl 0, Nat.zero_le _, .inl rfl, nofun⟩
    exact ⟨hcursors, rfl⟩
  | step _ hstep ih => exact ih.step hstep

/-- Whatever clients a connection has served, it is attached to the next one as if it were
new. -/
theorem Reached.attach (h : Reached .closed c) (fd : Nat) (peer : Net.SocketAddress) :
    c.attach fd peer = fresh c.input fd peer :=
  attach_eq_fresh h.consistent.capacity fd peer

/-- The bytes of the request that have arrived. -/
def received (c : Connection) : Bytes :=
  c.input.toList.take c.filled

theorem Receiving.parse_malformed (h : Receiving c) (malformed : Malformed c.received) :
    c.parse.1 = .ok .malformed := by
  have hanew := h.readsAnew []
  rw [takeIn_nil, takeIn_nil] at hanew
  have hholds : Holds c c.received := ⟨rfl, h.held.cursors.filled_le, h.held.size⟩
  exact hanew.trans (hholds.parse_malformed malformed)

theorem Receiving.parse_output (h : Receiving c) :
    c.parse.2.output = { capacity := writeCapacity } := by
  have hcapacity := h.held.parse.capacity
  have hbytes := (h.unanswered.parse h.held.cursors).output
  rcases houtput : c.parse.2.output with ⟨capacity, bytes⟩
  rw [houtput] at hcapacity hbytes
  rw [← hcapacity, ← hbytes]

theorem Receiving.process_malformed (h : Receiving c) (hmalformed : c.parse.1 = .ok .malformed)
    (root : String) (b : Backend) : Refused (c.process root b) :=
  Connection.process_malformed root b hmalformed h.parse_output
    (h.unanswered.parse h.held.cursors).file

/-- However a connection has come to where it is, its cursors are in order, reading on
meets no fault, and a body that it awaits fits the buffer.  Processing asks for more input
only where there is room, and answers anything but a whole request or the start of one
with a refusal; so it does wherever the bytes that have arrived are malformed, as those of
an oversized head or body are.  A call that reads finds room, and is false only where the
stream has ended or failed. -/
theorem Reached.cursors_and_room (h : Reached s c) :
    c.lineStart ≤ c.scanned ∧ c.scanned ≤ c.filled ∧ c.filled ≤ readCapacity ∧
      (∀ f, c.parse.1 ≠ .error f) ∧
      (c.phase = .body → c.scanned + c.request.contentLength ≤ readCapacity) ∧
      (s = .processing → ∀ root b,
        ((c.process root b).1 = .ok .needInput → (c.process root b).2.1.filled < readCapacity) ∧
        ((c.process root b).1 ≠ .ok .needInput → c.parse.1 ≠ .ok .ready →
          Refused (c.process root b)) ∧
        (Malformed c.received → Refused (c.process root b))) ∧
      (s = .reading → c.filled < c.input.size ∧ ∀ now replies,
        (c.read now replies).1 = false → .failed ∈ replies ∨ .bytes [] ∈ replies) := by
  have hconsistent := h.consistent
  have hcursors := hconsistent.cursors
  refine ⟨hcursors.lineStart_le, hcursors.scanned_le,
    Nat.le_trans hcursors.filled_le hcursors.size_le, ?_, hcursors.body_fits, ?_, ?_⟩
  · intro f hfault
    rcases hcursors.parse.verdict with ⟨hopen, -⟩ | hready | hmalformed
    · simp [hopen] at hfault
    · simp [hready] at hfault
    · simp [hmalformed] at hfault
  · rintro rfl root b
    have hreceiving : Receiving c := hconsistent
    refine ⟨?_, ?_, ?_⟩
    · intro hneed
      exact (hreceiving.process_needInput hneed).2
    · intro hdone hready
      apply hreceiving.process_malformed
      rcases hcursors.parse.verdict with ⟨hopen, -⟩ | hready' | hmalformed
      · exact absurd ((process_needInput_iff root b c).mpr hopen) hdone
      · exact absurd hready' hready
      · exact hmalformed
    · intro hmalformed
      exact hreceiving.process_malformed (hreceiving.parse_malformed hmalformed) root b
  · rintro rfl
    obtain ⟨hreceiving, hroom⟩ := hconsistent
    rw [← hreceiving.held.size] at hroom
    refine ⟨hroom, ?_⟩
    intro now replies hfalse
    rw [read, if_pos hreceiving.held.live] at hfalse
    exact readOn_false (.inr hroom) hfalse

/-! ## Bytes that are read at once -/

section

variable (fd : Nat) (peer : Net.SocketAddress) {B : Bytes} (hB : B ≠ [])
include hB

theorem reached_read_at_once :
    Reached .processing ((fresh #[] fd peer).read 0 [.bytes B, .wouldBlock]).2 := by
  obtain ⟨since, hread⟩ := read_fresh_at_once #[] fd peer hB
  have hattached : Reached .reading (fresh #[] fd peer) := Reached.start.step (.attach fd peer)
  have hnext := hattached.step (.read 0 [.bytes B, .wouldBlock])
  rw [show afterRead _ = .processing from congrArg afterRead (congrArg Prod.fst hread)] at hnext
  exact hnext

theorem received_read_at_once (hfits : B.length ≤ readCapacity) :
    ((fresh #[] fd peer).read 0 [.bytes B, .wouldBlock]).2.received = B := by
  obtain ⟨since, hread⟩ := read_fresh_at_once #[] fd peer hB
  have hreceived := take_input_takeIn_fresh #[] fd peer B
  rw [List.take_of_length_le hfits] at hreceived
  rw [hread]
  exact hreceived

end

/-- A connection that holds a request and has served nothing else. -/
def alone (B : Bytes) : Connection :=
  ((fresh #[] 0 ⟨.v4 127 0 0 1, 0⟩).read 0 [.bytes B, .wouldBlock]).2

variable {B : Bytes}

theorem reached_alone (hB : B ≠ []) : Reached .processing (alone B) :=
  reached_read_at_once 0 ⟨.v4 127 0 0 1, 0⟩ hB

theorem received_alone (hB : B ≠ []) (hfits : B.length ≤ readCapacity) :
    (alone B).received = B :=
  received_read_at_once 0 ⟨.v4 127 0 0 1, 0⟩ hB hfits

/-- A connection of its own finds the request that its bytes start with. -/
theorem parse_alone (hB : B ≠ []) (hfits : B.length ≤ readCapacity) {r : Request}
    (ready : Ready B r) :
    (alone B).parse.1 = .ok .ready ∧ (alone B).parse.2.request = r := by
  obtain ⟨since, hread⟩ := read_fresh_at_once #[] 0 ⟨.v4 127 0 0 1, 0⟩ hB
  have hparse := ((cursors_fresh #[] 0 ⟨.v4 127 0 0 1, 0⟩).takeIn B).parse_since since
  rw [alone, hread, hparse]
  exact parse_takeIn_fresh #[] 0 ⟨.v4 127 0 0 1, 0⟩ hfits ready

/-! ## A request one byte too long -/

/-- A head in front of a body that would end one byte behind the buffer. -/
def oversized : Bytes :=
  joined [Text.encode "POST / HTTP/1.1", Text.encode "Content-Length:2009"] ++ [cr, lf]

/-- A connection that has just read it. -/
def afterOversized : Connection :=
  ((fresh #[] 5 ⟨.v4 10 0 0 1, 4000⟩).read 0 [.bytes oversized, .wouldBlock]).2

theorem malformed_oversized : Malformed oversized := by
  have hline : RequestLine.parse? "POST / HTTP/1.1".toList =
      some ⟨.post, ['/'], "HTTP/1.1".toList⟩ := rfl
  have hfirst : Accepted [Text.encode "POST / HTTP/1.1"]
      (some { method := .post, url := "/judge.html", version := "HTTP/1.1" }) :=
    .requestLine (by decide) rfl hline
  have hfits : LengthFits (roomBehind [Text.encode "POST / HTTP/1.1",
      Text.encode "Content-Length:2009"]) (Header.ofLine "Content-Length:2009".toList) :=
    ⟨2009, ⟨"2009".toList, .inl rfl, by decide, List.all_eq_true.mp rfl, rfl⟩, by decide, by decide⟩
  have hutf8 : Text.decode? (Text.encode "Content-Length:2009") = some "Content-Length:2009" := rfl
  have hsecond : Accepted [Text.encode "POST / HTTP/1.1", Text.encode "Content-Length:2009"]
      (some {
        method := .post, url := "/judge.html", version := "HTTP/1.1", contentLength := 2009 }) :=
    hfirst.header (by decide) (by decide) hutf8 hfits
  exact .longBody hsecond (by decide) rfl

theorem reached_afterOversized :
    Reached .processing afterOversized ∧ afterOversized.received = oversized :=
  ⟨reached_read_at_once 5 ⟨.v4 10 0 0 1, 4000⟩ (by decide),
    received_read_at_once 5 ⟨.v4 10 0 0 1, 4000⟩ (by decide) (by decide)⟩

theorem Reached.cursors_and_room_oversized :
    Reached .processing afterOversized ∧ Malformed afterOversized.received ∧
      Refused (afterOversized.process "/srv" { disk := {}, table := { path := "users.db" } }) := by
  obtain ⟨hreached, hreceived⟩ := reached_afterOversized
  have hmalformed : Malformed afterOversized.received := by
    rw [hreceived]
    exact malformed_oversized
  obtain ⟨-, -, -, -, -, hprocessing, -⟩ := hreached.cursors_and_room
  exact ⟨hreached, hmalformed, (hprocessing rfl _ _).2.2 hmalformed⟩

end Connection
end PageServer
