import PageServer.Proofs.Connection.Conversation

/-!
# What a connection has held before

The read buffer is never cleared, so that the bytes of earlier requests stand behind those
that have been received since.  Connections that differ in nothing but these bytes cannot
be told apart by anything that is done with them.  A connection that has sent a response
and keeps its stream, or that has been closed and attached again, differs from a new one
in nothing else.
-/

namespace PageServer
namespace Connection

open Accounts (Backend)
open Http
open Net (ReadReply WriteReply)

/-- The connections differ at most in the bytes of the read buffer behind those received. -/
structure Alike (c d : Connection) : Prop where
  frame : { c with input := d.input } = d
  bytes : SameBytes c.input d.input c.filled

/-- Two calls give the same and leave connections that are alike. -/
def Agree {α : Type} (r s : α × Connection) : Prop :=
  r.1 = s.1 ∧ Alike r.2 s.2

/-- One operation on a connection, with all that it is given. -/
inductive Op
  | attach (fd : Nat) (peer : Net.SocketAddress)
  | read (now : Nat) (replies : List ReadReply)
  | process (root : String) (b : Backend)
  | write (now : Nat) (replies : List WriteReply)
  | refresh (disk : Disk)
  | detach

/-- What an operation gives. -/
inductive Op.Result
  | attached
  | read (goesOn : Bool)
  | processed (outcome : Except Fault ProcessOutcome) (b : Backend)
  | wrote (outcome : Except Fault WriteOutcome) (bytes : Bytes)
  | refreshed
  | detached (wasLive : Bool)

def Op.run (c : Connection) : Op → Op.Result × Connection
  | .attach fd peer => (.attached, c.attach fd peer)
  | .read now replies => (.read (c.read now replies).1, (c.read now replies).2)
  | .process root b =>
    (.processed (c.process root b).1 (c.process root b).2.2, (c.process root b).2.1)
  | .write now replies =>
    (.wrote (c.write now replies).1 (c.write now replies).2.2, (c.write now replies).2.1)
  | .refresh disk => (.refreshed, c.refresh disk)
  | .detach => (.detached c.detach.1, c.detach.2)

/-- What is seen of an operation: its result, and the request and the response as they are
then. -/
structure Op.Seen where
  result : Op.Result
  request : Request
  response : Bytes
  status : Option Status

/-- What is seen of one operation after the other. -/
def trace (c : Connection) : List Op → List Op.Seen
  | [] => []
  | op :: rest =>
    let r := op.run c
    { result := r.1, request := r.2.request, response := r.2.response, status := r.2.status } ::
      r.2.trace rest

/-- What a connection can come to by any operations in any order. -/
inductive Used : Connection → Prop
  | new : Used {}
  | run {c : Connection} (h : Used c) (op : Op) : Used (op.run c).2

variable {c d : Connection}

namespace Alike

theorem filled_eq (h : Alike c d) : d.filled = c.filled := by
  rw [← h.frame]

theorem isLive_eq (h : Alike c d) : d.isLive = c.isLive := by
  rw [← h.frame]
  rfl

theorem refl (c : Connection) : Alike c c :=
  ⟨rfl, rfl, fun _ _ => rfl⟩

/-- Where the buffer is full nothing is left to differ in. -/
theorem eq_of_full (h : Alike c d) (hfull : c.input.size ≤ c.filled) : d = c := by
  have hinput : d.input = c.input := by
    apply Array.ext_getElem?
    intro i
    by_cases hi : i < c.filled
    · exact h.bytes.getElem? i hi
    · have hsize := h.bytes.size
      rw [Array.getElem?_eq_none (by omega), Array.getElem?_eq_none (by omega)]
  rw [← h.frame, hinput]

/-- What forgets all that has been received takes the buffers to buffers of one size. -/
theorem of_size {e : Connection} {input : Array UInt8} (hempty : e.filled = 0)
    (hsize : input.size = e.input.size) : Alike e { e with input } :=
  ⟨rfl, hsize, fun i hi => absurd (hempty ▸ hi) (Nat.not_lt_zero i)⟩

theorem reset (h : Alike c d) : Alike c.reset d.reset := by
  rw [← h.frame]
  exact of_size rfl h.bytes.size

theorem attach (h : Alike c d) (fd : Nat) (peer : Net.SocketAddress) :
    Alike (c.attach fd peer) (d.attach fd peer) := by
  have hsize : (d.attach fd peer).input.size = (c.attach fd peer).input.size := by
    rw [size_attach, size_attach]
  have hframe : { c.attach fd peer with input := (d.attach fd peer).input } = d.attach fd peer := by
    rw [← h.frame]
    rfl
  rw [← hframe]
  exact of_size rfl hsize

theorem detach (h : Alike c d) : Agree c.detach d.detach := by
  unfold Connection.detach
  rw [h.isLive_eq]
  split
  · refine ⟨rfl, reset ⟨?_, h.bytes⟩⟩
    rw [← h.frame]
  · exact ⟨rfl, h⟩

theorem refresh (h : Alike c d) (disk : Disk) : Alike (c.refresh disk) (d.refresh disk) := by
  refine ⟨?_, h.bytes⟩
  rw [← h.frame]
  rfl

/-! ## Reading -/

end Alike

/-- What is stored where buffers begin to differ makes them the same further on. -/
theorem sameBytes_store {buf other : Array UInt8} {pos : Nat} (h : SameBytes buf other pos)
    (data : Bytes) :
    SameBytes (store buf pos data) (store other pos data) (pos + data.length) := by
  induction data generalizing buf other pos with
  | nil => exact h
  | cons b data ih =>
    have hnext : SameBytes (buf.setIfInBounds pos b) (other.setIfInBounds pos b) (pos + 1) := by
      refine ⟨by rw [Array.size_setIfInBounds, Array.size_setIfInBounds, h.size], ?_⟩
      intro i hi
      rcases Nat.lt_or_eq_of_le (Nat.le_of_lt_succ hi) with hlt | rfl
      · rw [Array.getElem?_setIfInBounds_ne (by omega), Array.getElem?_setIfInBounds_ne (by omega)]
        exact h.getElem? i hlt
      · rw [Array.getElem?_setIfInBounds_self, Array.getElem?_setIfInBounds_self, h.size]
    have hall := ih hnext
    rwa [Nat.add_assoc, Nat.add_comm 1] at hall

namespace Alike

theorem takeIn (h : Alike c d) (data : Bytes) : Alike (c.takeIn data) (d.takeIn data) := by
  have hroom : d.room = c.room := by rw [room, room, h.bytes.size, h.filled_eq]
  refine ⟨?_, ?_⟩
  · rw [Connection.takeIn, Connection.takeIn, hroom, h.filled_eq]
    rw [← h.frame]
  · rw [Connection.takeIn, Connection.takeIn, hroom, h.filled_eq]
    exact sameBytes_store h.bytes _

theorem stamp (h : Alike c d) (now : Nat) (got : Bool) :
    Alike (c.stamp now got) (d.stamp now got) := by
  have hsince : d.since = c.since := by rw [← h.frame]
  unfold Connection.stamp
  rw [hsince]
  split
  · refine ⟨?_, h.bytes⟩
    rw [← h.frame]
  · exact h

theorem readOn (h : Alike c d) (now : Nat) (got : Bool) (replies : List ReadReply) :
    Agree (c.readOn now got replies) (d.readOn now got replies) := by
  induction replies generalizing c d got with
  | nil =>
    unfold Connection.readOn
    rw [h.bytes.size, h.filled_eq]
    split
    · exact ⟨rfl, h.stamp now got⟩
    · exact ⟨rfl, h.stamp now got⟩
  | cons reply rest ih =>
    unfold Connection.readOn
    rw [h.bytes.size, h.filled_eq]
    split
    · exact ⟨rfl, h.stamp now got⟩
    · cases reply with
      | wouldBlock => exact ⟨rfl, h.stamp now got⟩
      | interrupted => exact ih h got
      | failed => exact ⟨rfl, h⟩
      | bytes data =>
        cases data with
        | nil => exact ⟨rfl, h⟩
        | cons b data => exact ih (h.takeIn (b :: data)) true

theorem read (h : Alike c d) (now : Nat) (replies : List ReadReply) :
    Agree (c.read now replies) (d.read now replies) := by
  rw [Connection.read, Connection.read, h.isLive_eq]
  split
  · exact h.readOn now false replies
  · exact ⟨rfl, h⟩

/-! ## Processing -/

theorem holdsMore (h : Alike c d) (hle : c.filled ≤ c.input.size) : HoldsMore c d := by
  refine ⟨h.bytes, Nat.le_of_eq h.filled_eq.symm, ?_⟩
  rw [h.filled_eq, h.bytes.size]
  exact hle

/-- The parser looks at nothing behind the bytes received. -/
theorem parse (h : Alike c d) : Agree c.parse d.parse := by
  by_cases hfull : c.input.size ≤ c.filled
  · rw [h.eq_of_full hfull]
    exact ⟨rfl, .refl _⟩
  · have hle : c.filled ≤ c.input.size := by omega
    have hown : c.parse = (c.parse.1, c.withProgress c.parse.2) :=
      parse_withProgress (.refl hle) (.inl rfl)
    have hother : d.parse = (c.parse.1, d.withProgress c.parse.2) := by
      have hd : d.withProgress c = d := by rw [← h.frame]; rfl
      have hparse := parse_withProgress (h.holdsMore hle) (.inl h.filled_eq)
      rwa [hd] at hparse
    rw [hother, hown]
    refine ⟨rfl, ?_, h.bytes⟩
    rw [← h.frame]
    rfl

/-- A page is chosen by the request and by the accounts. -/
theorem dispatch (h : Alike c d) (root : String) (b : Backend) :
    (c.dispatch root b).1 = (d.dispatch root b).1 ∧
      Alike (c.dispatch root b).2.1 (d.dispatch root b).2.1 ∧
      (c.dispatch root b).2.2 = (d.dispatch root b).2.2 := by
  have hbytes := h.bytes
  rw [← h.frame]
  unfold Connection.dispatch
  rcases Site.selectPage c.request b with ⟨page, b'⟩
  cases page with
  | none => exact ⟨rfl, ⟨rfl, hbytes⟩, rfl⟩
  | some page => exact ⟨rfl, ⟨rfl, hbytes⟩, rfl⟩

theorem respond (h : Alike c d) (s : Status) : Agree (c.respond s) (d.respond s) := by
  have hbytes := h.bytes
  rw [← h.frame]
  unfold Connection.respond
  cases s <;> cases c.file <;> exact ⟨rfl, rfl, hbytes⟩

theorem answer (h : Alike c d) (v : Verdict) : Agree (c.answer v) (d.answer v) := by
  unfold Connection.answer
  split
  · exact ⟨rfl, h⟩
  · split
    · exact ⟨rfl, h⟩
    · next s _ =>
      obtain ⟨hfits, halike⟩ := h.respond s
      exact ⟨congrArg (Except.map _) hfits, halike⟩

theorem process (h : Alike c d) (root : String) (b : Backend) :
    (c.process root b).1 = (d.process root b).1 ∧
      Alike (c.process root b).2.1 (d.process root b).2.1 ∧
      (c.process root b).2.2 = (d.process root b).2.2 := by
  obtain ⟨hverdict, hparsed⟩ := h.parse
  cases hparse : c.parse.1 with
  | error f =>
    rw [process_fault root b hparse, process_fault root b (hverdict ▸ hparse)]
    exact ⟨rfl, hparsed, rfl⟩
  | ok v =>
    by_cases hready : v = .ready
    · subst hready
      rw [process_ready root b hparse, process_ready root b (hverdict ▸ hparse)]
      obtain ⟨hfound, hdispatched, hbackend⟩ := hparsed.dispatch root b
      have hanswer := hdispatched.answer (c.parse.2.dispatch root b).1
      simp only [hfound] at hanswer ⊢
      exact ⟨hanswer.1, hanswer.2, hbackend⟩
    · rw [process_settled root b hparse hready, process_settled root b (hverdict ▸ hparse) hready]
      have hanswer := hparsed.answer v
      exact ⟨hanswer.1, hanswer.2, rfl⟩

/-! ## Writing -/

end Alike

theorem finish_input (now : Nat) (c : Connection) (input : Array UInt8) :
    { c with input }.finish now = ((c.finish now).1, { (c.finish now).2 with input }) := by
  unfold finish
  cases c.request.keepAlive <;> rfl

/-- What goes out is the response, and no byte of the read buffer. -/
theorem writeOn_input (now : Nat) (replies : List WriteReply) (c : Connection)
    (input : Array UInt8) :
    writeOn now replies { c with input } =
      let r := writeOn now replies c
      (r.1, { r.2.1 with input }, r.2.2) := by
  have hoffer (c : Connection) : { c with input }.offer = c.offer := rfl
  induction replies generalizing c with
  | nil =>
    unfold writeOn
    simp only [hoffer, finish_input]
    split
    · split <;> rfl
    · rfl
  | cons reply rest ih =>
    unfold writeOn
    simp only [hoffer, finish_input]
    split
    · split
      · rfl
      · cases reply with
        | wouldBlock => rfl
        | interrupted => exact ih c
        | failed => rfl
        | accepted n =>
          cases n with
          | zero => rfl
          | succ n =>
            have hmore := ih { c with sent := c.sent + (n + 1) }
            simp only at hmore ⊢
            rw [hmore]
    · rfl

theorem write_input (c : Connection) (input : Array UInt8) (now : Nat)
    (replies : List WriteReply) :
    { c with input }.write now replies =
      let r := c.write now replies
      (r.1, { r.2.1 with input }, r.2.2) := by
  have hlive : { c with input }.isLive = c.isLive := rfl
  unfold write
  simp only [hlive, writeOn_input]
  split
  · rfl
  · split <;> rfl

namespace Alike

theorem write (h : Alike c d) (now : Nat) (replies : List WriteReply) :
    (c.write now replies).1 = (d.write now replies).1 ∧
      Alike (c.write now replies).2.1 (d.write now replies).2.1 ∧
      (c.write now replies).2.2 = (d.write now replies).2.2 := by
  have hbytes := h.bytes
  have hwrote := wrote_write now replies c
  rw [← h.frame, c.write_input d.input]
  refine ⟨rfl, ?_, rfl⟩
  change Alike (c.write now replies).2.1 { (c.write now replies).2.1 with input := d.input }
  generalize (c.write now replies).1 = outcome, (c.write now replies).2.1 = e at hwrote ⊢
  cases hwrote with
  | on sent file => exact ⟨rfl, hbytes⟩
  | anew => exact of_size rfl hbytes.size

/-! ## Any operations -/

theorem run (h : Alike c d) (op : Op) : Agree (op.run c) (op.run d) := by
  cases op with
  | attach fd peer => exact ⟨rfl, h.attach fd peer⟩
  | read now replies =>
    obtain ⟨hresult, halike⟩ := h.read now replies
    exact ⟨congrArg Op.Result.read hresult, halike⟩
  | process root b =>
    obtain ⟨houtcome, halike, hbackend⟩ := h.process root b
    exact ⟨by rw [Op.run, Op.run, houtcome, hbackend], halike⟩
  | write now replies =>
    obtain ⟨houtcome, halike, hbytes⟩ := h.write now replies
    exact ⟨by rw [Op.run, Op.run, houtcome, hbytes], halike⟩
  | refresh disk => exact ⟨rfl, h.refresh disk⟩
  | detach =>
    obtain ⟨hresult, halike⟩ := h.detach
    exact ⟨congrArg Op.Result.detached hresult, halike⟩

/-- Connections that are alike are alike after any operations, and nothing seen on the way
tells one from the other. -/
theorem trace_eq (h : Alike c d) (ops : List Op) : c.trace ops = d.trace ops := by
  induction ops generalizing c d with
  | nil => rfl
  | cons op rest ih =>
    obtain ⟨hresult, halike⟩ := h.run op
    have hrequest : (op.run d).2.request = (op.run c).2.request := by rw [← halike.frame]
    have hresponse : (op.run d).2.response = (op.run c).2.response := by rw [← halike.frame]; rfl
    have hstatus : (op.run d).2.status = (op.run c).2.status := by rw [← halike.frame]
    rw [trace, trace, ih halike, hresult, hrequest, hresponse, hstatus]

end Alike

/-! ## Another request, another client -/

/-- What every connection keeps: the size of its buffers, and a client as long as it is
live. -/
structure Kept (c : Connection) : Prop where
  cursors : Cursors c
  capacity : c.output.capacity = writeCapacity
  size : c.isLive = true → c.input.size = readCapacity
  client : c.isLive = c.peer.isSome

theorem Used.kept (h : Used c) : Kept c := by
  induction h with
  | new =>
    have hcursors : Cursors {} :=
      ⟨Nat.le_refl 0, Nat.le_refl 0, Nat.le_refl 0, Nat.zero_le _, .inl rfl, nofun⟩
    exact ⟨hcursors, rfl, nofun, rfl⟩
  | @run c h op ih =>
    cases op with
    | attach fd peer =>
      exact ⟨cursors_attach c fd peer, ih.capacity, fun _ => size_attach c fd peer, rfl⟩
    | read now replies =>
      have hcursors := ih.cursors.read now replies
      obtain ⟨data, since, heq⟩ := read_eq c now replies
      rw [heq] at hcursors
      rw [Op.run, heq]
      exact ⟨hcursors, ih.capacity, fun hlive => (size_takeIn c data).trans (ih.size hlive),
        ih.client⟩
    | process root b =>
      have hcursors := ih.cursors.parse.cursors
      obtain ⟨keepAlive, status, output, file, total, hcapacity, heq⟩ := process_eq root b c
      rw [Op.run, heq]
      rw [ih.cursors.parse_frame] at hcursors hcapacity ⊢
      exact ⟨hcursors.withAnswer keepAlive status output file total _, hcapacity.trans ih.capacity,
        ih.size, ih.client⟩
    | write now replies =>
      have hwrote := wrote_write now replies c
      rw [Op.run]
      generalize (c.write now replies).1 = outcome, (c.write now replies).2.1 = e at hwrote ⊢
      cases hwrote with
      | on sent file =>
        exact ⟨ih.cursors.withAnswer _ _ _ file _ sent, ih.capacity, ih.size, ih.client⟩
      | anew => exact ⟨.reset ih.cursors.size_le, ih.capacity, ih.size, ih.client⟩
    | refresh disk => exact ⟨ih.cursors.withAnswer _ _ _ _ _ _, ih.capacity, ih.size, ih.client⟩
    | detach =>
      rw [Op.run, detach]
      split
      · exact ⟨.reset ih.cursors.size_le, ih.capacity, nofun, rfl⟩
      · exact ih

/-- Once it is attached, a connection is like one that has never been used. -/
theorem Kept.alike_attach (h : Kept c) (fd : Nat) (peer : Net.SocketAddress) :
    Alike (c.attach fd peer) (({} : Connection).attach fd peer) := by
  have hnew : ({} : Connection).attach fd peer = fresh #[] fd peer := rfl
  rw [attach_eq_fresh h.capacity, hnew]
  exact .of_size rfl ((size_fresh _ fd peer).trans (size_fresh _ fd peer).symm)

/-- A connection that starts anew with its client is like one that has just been attached
to it. -/
theorem Kept.alike_reset (h : Kept c) {fd : Nat} {peer : Net.SocketAddress}
    (hfd : c.fd = some fd) (hpeer : c.peer = some peer) :
    Alike c.reset (({} : Connection).attach fd peer) := by
  have hlive : c.isLive = true := by rw [isLive, hfd]; rfl
  have hreset : c.attach fd peer = c.reset := by
    rw [Connection.attach, if_pos (h.size hlive), ← hfd, ← hpeer]
  rw [← hreset]
  exact h.alike_attach fd peer

/-- A response that leaves its stream open leaves the connection to start anew. -/
theorem Kept.alike_write (h : Kept c) {now : Nat} {replies : List WriteReply} {s : Summary}
    (hcomplete : (c.write now replies).1 = .ok (.complete s)) (stays : s.keepAlive = true) :
    ∃ fd peer, c.fd = some fd ∧ c.peer = some peer ∧
      Alike (c.write now replies).2.1 (({} : Connection).attach fd peer) := by
  have hlive : c.isLive = true := by
    cases hlive : c.isLive with
    | true => rfl
    | false =>
      rw [write, hlive] at hcomplete
      cases hcomplete
  obtain ⟨fd, hfd⟩ := Option.isSome_iff_exists.mp hlive
  obtain ⟨peer, hpeer⟩ := Option.isSome_iff_exists.mp (h.client ▸ hlive)
  refine ⟨fd, peer, hfd, hpeer, ?_⟩
  have hwrote := wrote_write now replies c
  rw [hcomplete] at hwrote
  generalize (c.write now replies).2.1 = e at hwrote ⊢
  cases hwrote with
  | on sent file closes => exact absurd stays (by simp [closes s rfl])
  | anew => exact h.alike_reset hfd hpeer

/-- Operations cannot tell connections apart that differ only behind the bytes received.
So nothing that is seen of a connection after a response that leaves its stream open, or
after it has been closed and attached, differs from what is seen of a new one. -/
theorem trace_of_reused :
    (∀ c d, Alike c d → ∀ op : Op, Agree (op.run c) (op.run d)) ∧
    (∀ c d, Alike c d → ∀ ops, c.trace ops = d.trace ops) ∧
    (∀ c, Used c → ∀ now replies s, (c.write now replies).1 = .ok (.complete s) →
      s.keepAlive = true → ∃ fd peer, c.fd = some fd ∧ c.peer = some peer ∧
        ∀ ops, (c.write now replies).2.1.trace ops = (({} : Connection).attach fd peer).trace ops) ∧
    ∀ c, Used c → ∀ fd peer ops,
      (c.detach.2.attach fd peer).trace ops = (({} : Connection).attach fd peer).trace ops := by
  refine ⟨fun c d h => h.run, fun c d h => h.trace_eq, fun c h now replies s hcomplete stays => ?_,
    fun c h fd peer ops => ?_⟩
  · obtain ⟨fd, peer, hfd, hpeer, halike⟩ := h.kept.alike_write hcomplete stays
    exact ⟨fd, peer, hfd, hpeer, halike.trace_eq⟩
  · exact ((h.run .detach).kept.alike_attach fd peer).trace_eq ops

theorem Reached.used {stage : Stage} (h : Reached stage c) : Used c := by
  induction h with
  | start => exact .new
  | step _ hstep ih =>
    cases hstep with
    | attach fd peer => exact ih.run (.attach fd peer)
    | read now replies => exact ih.run (.read now replies)
    | process root b => exact ih.run (.process root b)
    | write now replies => exact ih.run (.write now replies)
    | refresh disk => exact ih.run (.refresh disk)
    | detach => exact ih.run .detach

/-- A connection that has answered one request and holds another starts anew, or is
closed. -/
theorem trace_of_reused_missing :
    ∃ c s, Used c ∧ c.received = missingPage ∧ (c.write 0 []).1 = .ok (.complete s) ∧
      s.keepAlive = true ∧
      (∃ fd peer, c.fd = some fd ∧ c.peer = some peer ∧
        ∀ ops, (c.write 0 []).2.1.trace ops = (({} : Connection).attach fd peer).trace ops) ∧
      let d := c.detach.2.attach 6 ⟨.v4 10 0 0 2, 4001⟩
      let e := ({} : Connection).attach 6 ⟨.v4 10 0 0 2, 4001⟩
      Alike d e ∧ Agree (Op.detach.run d) (Op.detach.run e) ∧ ∀ ops, d.trace ops = e.trace ops := by
  obtain ⟨hop, -, hkept, hclosed⟩ := trace_of_reused
  obtain ⟨stale, hserved⟩ := conversation_missing 5 ⟨.v4 10 0 0 1, 4000⟩
  obtain ⟨c, hc, hreceived, hfd, -⟩ := hserved.receive (B := missingPage) (by decide) (by decide)
  have hused : Used c := hc.reached.used
  have hlive : c.isLive = true := by rw [isLive, hfd]; rfl
  have hcomplete : (c.write 0 []).1 =
      .ok (.complete { status := none, bytes := 0, keepAlive := true, latency := none }) := by
    rw [write, hlive, (hc.reached.nothing_prepared (.inr rfl)).1]
    rfl
  have halike := (hused.run .detach).kept.alike_attach 6 ⟨.v4 10 0 0 2, 4001⟩
  exact ⟨c, _, hused, hreceived, hcomplete, rfl, hkept c hused 0 [] _ hcomplete rfl, halike,
    hop _ _ halike .detach, hclosed c hused 6 _⟩

end Connection
end PageServer
