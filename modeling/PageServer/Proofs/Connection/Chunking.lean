import PageServer.Proofs.Connection.Answering
import PageServer.Proofs.Connection.Cursors

/-!
# Requests in chunks

The bytes of a client arrive in chunks, each handed over in one or more reads.  After
every chunk the connection reads and processes what it holds, and it stops at the first
outcome that needs no more input.  Wherever the bytes are cut, it comes to the answer that
it gives when it is handed all of them at once, and it looks up what is asked for no more
than once.
-/

namespace PageServer
namespace Connection

open Accounts (Backend)
open Net (ReadReply)

/-- Replies that hand over all of some bytes, in any number of reads, before the stream
would block. -/
inductive Arrives : Bytes → List ReadReply → Prop
  | drained (later : List ReadReply) : Arrives [] (.wouldBlock :: later)
  | interrupted {data : Bytes} {replies : List ReadReply} (h : Arrives data replies) :
      Arrives data (.interrupted :: replies)
  | piece (b : UInt8) (rest : Bytes) {more : Bytes} {replies : List ReadReply}
      (h : Arrives more replies) : Arrives (b :: rest ++ more) (.bytes (b :: rest) :: replies)

/-- A chunk of bytes with the reads that hand it over. -/
structure Delivery where
  chunk : Bytes
  nonempty : chunk ≠ []
  replies : List ReadReply
  arrives : Arrives chunk replies
  /-- When it is read. -/
  now : Nat

/-- The bytes of some chunks. -/
def delivered (ds : List Delivery) : Bytes :=
  ds.flatMap (·.chunk)

/-- How the handling of a request has ended. -/
structure Handling where
  outcome : Except Fault ProcessOutcome
  connection : Connection
  backend : Backend
  /-- Calls that found the connection with no room, or the stream ended or broken. -/
  failedReads : Nat := 0
  /-- Requests that were complete, so that what they ask for was looked up. -/
  dispatches : Nat := 0

/-- What processing has come to. -/
def Handling.answer (r : Handling) : Except Fault ProcessOutcome × Connection × Backend :=
  (r.outcome, r.connection, r.backend)

/-- How often processing looks up what the request asks for. -/
def dispatchCount (c : Connection) : Nat :=
  match c.parse.1 with
  | .ok .ready => 1
  | _ => 0

/-- Reads and processes chunk after chunk, until an outcome needs no more input. -/
def handle (root : String) : List Delivery → Connection → Backend → Handling
  | [], c, b => { outcome := .ok .needInput, connection := c, backend := b }
  | d :: ds, c, b =>
    let r := c.read d.now d.replies
    let failed := if r.1 then 0 else 1
    let count := r.2.dispatchCount
    match r.2.process root b with
    | (.ok .needInput, c, b) =>
      let later := handle root ds c b
      { later with
        failedReads := failed + later.failedReads
        dispatches := count + later.dispatches }
    | (outcome, c, b) =>
      { outcome, connection := c, backend := b, failedReads := failed, dispatches := count }

/-- A connection that has just been attached, over a buffer that still holds what it
held. -/
def fresh (stale : Array UInt8) (fd : Nat) (peer : Net.SocketAddress) : Connection :=
  ({ input := stale } : Connection).attach fd peer

/-- Every connection is like that when it is attached, since responses have one capacity. -/
theorem attach_eq_fresh {c : Connection} (h : c.output.capacity = writeCapacity) (fd : Nat)
    (peer : Net.SocketAddress) : c.attach fd peer = fresh c.input fd peer := by
  simp only [fresh, attach, reset, Http.ResponseBuffer.clear, h]

variable {c e : Connection}

/-! ## One chunk -/

/-- Once the buffer is full, what else arrives is left where it is. -/
theorem readOn_full {now : Nat} {got : Bool} (hfull : c.input.size ≤ c.filled)
    (hroom : got = true ∨ c.filled < c.input.size) (data : Bytes) (replies : List ReadReply) :
    ∃ since, readOn now got replies c = (true, { c.takeIn data with since }) := by
  obtain ⟨since, hstamp⟩ := stamp_eq now got c
  refine ⟨since, ?_⟩
  unfold readOn
  rw [if_pos hfull, takeIn_full hfull, hstamp, hroom.resolve_right (Nat.not_lt.mpr hfull)]

theorem readOn_arrives {data : Bytes} {replies : List ReadReply} (h : Arrives data replies)
    {now : Nat} {got : Bool} {c : Connection} (hroom : got = true ∨ c.filled < c.input.size) :
    ∃ since, readOn now got replies c = (true, { c.takeIn data with since }) := by
  induction h generalizing got c with
  | drained later =>
    by_cases hfull : c.input.size ≤ c.filled
    · exact readOn_full hfull hroom _ _
    · obtain ⟨since, hstamp⟩ := stamp_eq now got c
      refine ⟨since, ?_⟩
      unfold readOn
      rw [if_neg hfull, takeIn_nil, hstamp]
  | @interrupted data replies h ih =>
    by_cases hfull : c.input.size ≤ c.filled
    · exact readOn_full hfull hroom _ _
    · obtain ⟨since, hread⟩ := ih hroom
      refine ⟨since, ?_⟩
      unfold readOn
      rw [if_neg hfull]
      exact hread
  | @piece b rest more replies h ih =>
    by_cases hfull : c.input.size ≤ c.filled
    · exact readOn_full hfull hroom _ _
    · obtain ⟨since, hread⟩ := ih (c := c.takeIn (b :: rest)) (.inl (Eq.refl true))
      refine ⟨since, ?_⟩
      unfold readOn
      rw [if_neg hfull]
      rw [takeIn_append] at hread
      exact hread

/-- A chunk that one read hands over. -/
def Delivery.atOnce (chunk : Bytes) (nonempty : chunk ≠ []) : Delivery where
  chunk := chunk
  nonempty := nonempty
  replies := [.bytes chunk, .wouldBlock]
  arrives := by
    cases chunk with
    | nil => exact absurd rfl nonempty
    | cons b rest =>
      have h := Arrives.piece b rest (.drained [])
      rwa [List.append_nil] at h
  now := 0

/-- A chunk that arrives while there is room is taken in, as far as there is room for it. -/
theorem read_delivery (d : Delivery) (hlive : c.isLive) (hroom : c.filled < c.input.size) :
    ∃ since, c.read d.now d.replies = (true, { c.takeIn d.chunk with since }) := by
  rw [read, if_pos hlive]
  exact readOn_arrives d.arrives (.inr hroom)

theorem Cursors.since (h : Cursors c) (since : Option Nat) : Cursors { c with since } :=
  ⟨h.lineStart_le, h.scanned_le, h.filled_le, h.size_le, h.notAfterReturn, h.body_fits⟩

/-- When the bytes arrived makes no difference to how the request is read. -/
theorem Cursors.parse_since (h : Cursors c) (since : Option Nat) :
    { c with since }.parse = (c.parse.1, { c.parse.2 with since }) := by
  have hsame := parse_withProgress (c := c) (d := { c with since })
    ⟨⟨rfl, fun _ _ => rfl⟩, Nat.le_refl _, h.filled_le⟩ (.inl rfl)
  rw [h.parse_frame]
  exact hsame

/-- A connection that has read some bytes to a verdict gives the same one when more
follow. -/
theorem Cursors.parse_takeIn (h : Cursors c) (data : Bytes)
    (hdone : c.parse.1 ≠ .ok .incomplete) :
    (c.takeIn data).parse = (c.parse.1, (c.takeIn data).withProgress c.parse.2) :=
  parse_withProgress (holdsMore_takeIn h.filled_le data) (.inr hdone)

/-- A connection that has read some bytes in vain goes on when more follow as if it had
not. -/
theorem Cursors.parse_takeIn_resume (h : Cursors c) (data : Bytes)
    (hopen : c.parse.1 = .ok .incomplete) :
    (c.takeIn data).parse = (c.parse.2.takeIn data).parse := by
  have hresume := parse_resume (holdsMore_takeIn h.filled_le data) hopen
  have hsame : c.parse.2.takeIn data = (c.takeIn data).withProgress c.parse.2 := by
    rw [h.parse_frame]
    rfl
  rw [hsame]
  exact hresume

/-! ## All chunks -/

theorem handle_needInput {root : String} {b b' : Backend} {d : Delivery} {ds : List Delivery}
    (h : (c.read d.now d.replies).2.process root b = (.ok .needInput, e, b')) :
    handle root (d :: ds) c b =
      { handle root ds e b' with
        failedReads := (if (c.read d.now d.replies).1 then 0 else 1) +
          (handle root ds e b').failedReads
        dispatches := (c.read d.now d.replies).2.dispatchCount +
          (handle root ds e b').dispatches } := by
  rw [handle]
  simp only [h]

theorem handle_settled {root : String} {b : Backend} {d : Delivery} {ds : List Delivery}
    (h : ((c.read d.now d.replies).2.process root b).1 ≠ .ok .needInput) :
    handle root (d :: ds) c b =
      { outcome := ((c.read d.now d.replies).2.process root b).1
        connection := ((c.read d.now d.replies).2.process root b).2.1
        backend := ((c.read d.now d.replies).2.process root b).2.2
        failedReads := if (c.read d.now d.replies).1 then 0 else 1
        dispatches := (c.read d.now d.replies).2.dispatchCount } := by
  rw [handle]
  split
  · next hneed => exact absurd (by rw [hneed]) h
  · next hsettled => simp only [hsettled]

/-- Only a complete request is looked up, and its outcome is the last. -/
theorem dispatches_handle_le_one (root : String) (ds : List Delivery) (c : Connection)
    (b : Backend) : (handle root ds c b).dispatches ≤ 1 := by
  induction ds generalizing c b with
  | nil => exact Nat.zero_le 1
  | cons d ds ih =>
    have hcount : (c.read d.now d.replies).2.dispatchCount ≤ 1 := by
      rw [dispatchCount]
      split <;> simp
    by_cases hneed : ((c.read d.now d.replies).2.process root b).1 = .ok .needInput
    · have hopen := (process_needInput_iff _ _ _).mp hneed
      have hzero : (c.read d.now d.replies).2.dispatchCount = 0 := by
        rw [dispatchCount, hopen]
      rw [handle_needInput (Prod.ext hneed rfl)]
      simp only [hzero, Nat.zero_add]
      exact ih _ _
    · rw [handle_settled hneed]
      exact hcount

/-- When the bytes arrived makes no difference to the answer. -/
theorem Cursors.process_since (h : Cursors c) (root : String) (b : Backend) (since : Option Nat) :
    SameAnswer (c.process root b) ({ c with since }.process root b) := by
  have hparse := h.parse_since since
  apply process_sameAnswer root b
  · rw [hparse]
  · rw [hparse]
    exact ⟨rfl, rfl, rfl, rfl, rfl⟩

/-- A request that has been judged is answered in the same way when more bytes follow. -/
theorem Cursors.process_takeIn (h : Cursors c) (root : String) (b : Backend) (data : Bytes)
    (hdone : c.parse.1 ≠ .ok .incomplete) :
    SameAnswer ((c.takeIn data).process root b) (c.process root b) := by
  have hparse := h.parse_takeIn data hdone
  apply process_sameAnswer root b
  · rw [hparse]
  · rw [hparse, h.parse_frame]
    exact ⟨rfl, rfl, rfl, rfl, rfl⟩

/-- A request that was incomplete is answered as if it were read anew with the bytes that
follow. -/
theorem Cursors.process_takeIn_resume (h : Cursors c) (root : String) (b : Backend) (data : Bytes)
    (since : Option Nat) (hopen : c.parse.1 = .ok .incomplete) :
    SameAnswer ((c.takeIn data).process root b)
      (({ c.parse.2 with since }.takeIn data).process root b) := by
  rw [process_congr root b (h.parse_takeIn_resume data hopen)]
  exact (h.parse.cursors.takeIn data).process_since root b since

/-- Chunk after chunk comes to what all bytes at once come to. -/
theorem handle_eq_process (root : String) (b : Backend) {ds : List Delivery} (hds : ds ≠ [])
    (h : Cursors c) (hsize : c.input.size = readCapacity) (hlive : c.isLive)
    (hroom : c.filled < readCapacity) :
    SameAnswer ((c.takeIn (delivered ds)).process root b) (handle root ds c b).answer ∧
      (handle root ds c b).failedReads = 0 := by
  induction ds generalizing c with
  | nil => exact absurd rfl hds
  | cons d ds ih =>
    obtain ⟨since, hread⟩ := read_delivery d hlive (by rw [hsize]; exact hroom)
    let e := c.takeIn d.chunk
    have he : Cursors e := h.takeIn d.chunk
    have hwhole : c.takeIn (delivered (d :: ds)) = e.takeIn (delivered ds) := by
      rw [takeIn_append]
      rfl
    have hparse : { e with since }.parse = (e.parse.1, { e.parse.2 with since }) :=
      he.parse_since since
    rw [hwhole]
    by_cases hopen : e.parse.1 = .ok .incomplete
    · have hneed : { e with since }.process root b =
          (.ok .needInput, { e.parse.2 with since }, b) := by
        rw [process_incomplete root b (by rw [hparse]; exact hopen), hparse]
      rw [handle_needInput (by rw [hread]; exact hneed), hread]
      simp only [if_true, Nat.zero_add, Handling.answer]
      by_cases hlast : ds = []
      · subst hlast
        have hlastWhole : e.takeIn (delivered []) = e := takeIn_nil e
        rw [hlastWhole, process_incomplete root b hopen]
        exact ⟨⟨rfl, ⟨rfl, rfl, rfl, rfl, rfl⟩, rfl⟩, rfl⟩
      · have hframe := he.parse_frame
        have hroom' : e.parse.2.filled < readCapacity := by
          rcases he.parse.verdict with ⟨-, hfilled⟩ | hready | hbad
          · exact hfilled
          · simp [hopen] at hready
          · simp [hopen] at hbad
        obtain ⟨hlater, hreads⟩ := ih (c := { e.parse.2 with since }) hlast
          (he.parse.cursors.since since)
          (by rw [hframe]; exact (size_takeIn c d.chunk).trans hsize)
          (by rw [hframe]; exact hlive) hroom'
        exact ⟨(he.process_takeIn_resume root b _ since hopen).trans hlater, hreads⟩
    · have hsettled : ({ e with since }.process root b).1 ≠ .ok .needInput := by
        rw [ne_eq, process_needInput_iff, hparse]
        exact hopen
      rw [handle_settled (by rw [hread]; exact hsettled), hread]
      exact ⟨(he.process_takeIn root b _ hopen).trans (he.process_since root b since), rfl⟩

/-! ## A fresh connection -/

theorem cursors_fresh (stale : Array UInt8) (fd : Nat) (peer : Net.SocketAddress) :
    Cursors (fresh stale fd peer) :=
  cursors_attach _ fd peer

theorem size_fresh (stale : Array UInt8) (fd : Nat) (peer : Net.SocketAddress) :
    (fresh stale fd peer).input.size = readCapacity :=
  size_attach _ fd peer

theorem filled_fresh_lt (stale : Array UInt8) (fd : Nat) (peer : Net.SocketAddress) :
    (fresh stale fd peer).filled < readCapacity := by
  change 0 < readCapacity
  decide

/-- A fresh connection holds the bytes it has taken in, whatever its buffer held before. -/
theorem take_input_takeIn_fresh (stale : Array UInt8) (fd : Nat) (peer : Net.SocketAddress)
    (data : Bytes) :
    ((fresh stale fd peer).takeIn data).input.toList.take
      ((fresh stale fd peer).takeIn data).filled = data.take readCapacity := by
  have hroom : (fresh stale fd peer).room = readCapacity := by
    rw [room, size_fresh]
    rfl
  have hfits : 0 + (data.take readCapacity).length ≤ (fresh stale fd peer).input.size := by
    rw [size_fresh, Nat.zero_add, List.length_take]
    exact Nat.min_le_left _ _
  rw [takeIn, hroom]
  exact take_toList_store hfits

theorem read_fresh_at_once (stale : Array UInt8) (fd : Nat) (peer : Net.SocketAddress) {B : Bytes}
    (hB : B ≠ []) : ∃ since, (fresh stale fd peer).read 0 [.bytes B, .wouldBlock] =
      (true, { (fresh stale fd peer).takeIn B with since }) := by
  have hroom : (fresh stale fd peer).filled < (fresh stale fd peer).input.size := by
    rw [size_fresh]
    exact filled_fresh_lt stale fd peer
  exact read_delivery (.atOnce B hB) rfl hroom

theorem filled_takeIn_fresh (stale : Array UInt8) (fd : Nat) (peer : Net.SocketAddress)
    (data : Bytes) : ((fresh stale fd peer).takeIn data).filled = min readCapacity data.length := by
  rw [filled_takeIn, room, size_fresh]
  exact Nat.zero_add _

theorem holdsMore_fresh (stale stale' : Array UInt8) (fd fd' : Nat)
    (peer peer' : Net.SocketAddress) (data : Bytes) :
    HoldsMore ((fresh stale fd peer).takeIn data) ((fresh stale' fd' peer').takeIn data) := by
  have hfilled : ((fresh stale' fd' peer').takeIn data).filled =
      ((fresh stale fd peer).takeIn data).filled := by
    rw [filled_takeIn_fresh, filled_takeIn_fresh]
  refine ⟨⟨?_, ?_⟩, Nat.le_of_eq hfilled.symm, ?_⟩
  · rw [size_takeIn, size_takeIn, size_fresh, size_fresh]
  · intro i hi
    have htake := take_input_takeIn_fresh stale fd peer data
    have htake' := take_input_takeIn_fresh stale' fd' peer' data
    rw [hfilled, ← htake] at htake'
    have hget := congrArg (fun l => l[i]?) htake'
    simp only [List.getElem?_take_of_lt hi, Array.getElem?_toList] at hget
    exact hget
  · exact ((cursors_fresh stale' fd' peer').takeIn data).filled_le

/-- Fresh connections answer the same bytes alike. -/
theorem process_fresh (root : String) (b : Backend) (stale stale' : Array UInt8) (fd fd' : Nat)
    (peer peer' : Net.SocketAddress) (data : Bytes) :
    SameAnswer (((fresh stale fd peer).takeIn data).process root b)
      (((fresh stale' fd' peer').takeIn data).process root b) := by
  have hmore := holdsMore_fresh stale stale' fd fd' peer peer' data
  have hfilled : ((fresh stale' fd' peer').takeIn data).filled =
      ((fresh stale fd peer).takeIn data).filled := by
    rw [filled_takeIn_fresh, filled_takeIn_fresh]
  have hparse := parse_withProgress hmore (.inl hfilled)
  have hframe := ((cursors_fresh stale fd peer).takeIn data).parse_frame
  have hstart : ((fresh stale' fd' peer').takeIn data).withProgress
      ((fresh stale fd peer).takeIn data) = (fresh stale' fd' peer').takeIn data := rfl
  rw [hstart] at hparse
  apply process_sameAnswer root b
  · rw [hparse]
  · rw [hparse, hframe]
    exact ⟨rfl, rfl, rfl, rfl, rfl⟩

theorem delivered_eq_nil {ds : List Delivery} (h : delivered ds = []) : ds = [] := by
  cases ds with
  | nil => rfl
  | cons d ds => exact absurd (List.append_eq_nil_iff.mp h).1 d.nonempty

/-- Two ways of delivering the same bytes end alike. -/
theorem handle_sameAnswer (root : String) (b : Backend) (stale stale' : Array UInt8)
    (fd fd' : Nat) (peer peer' : Net.SocketAddress) {ds es : List Delivery}
    (h : delivered ds = delivered es) :
    SameAnswer (handle root ds (fresh stale fd peer) b).answer
        (handle root es (fresh stale' fd' peer') b).answer ∧
      (handle root ds (fresh stale fd peer) b).failedReads = 0 ∧
      (handle root es (fresh stale' fd' peer') b).failedReads = 0 := by
  by_cases hds : ds = []
  · subst hds
    obtain rfl := delivered_eq_nil h.symm
    exact ⟨⟨rfl, ⟨rfl, rfl, rfl, rfl, rfl⟩, rfl⟩, rfl, rfl⟩
  · have hes : es ≠ [] := by
      rintro rfl
      exact hds (delivered_eq_nil h)
    obtain ⟨hleft, hreads⟩ := handle_eq_process root b hds (cursors_fresh stale fd peer)
      (size_fresh stale fd peer) rfl (filled_fresh_lt stale fd peer)
    obtain ⟨hright, hreads'⟩ := handle_eq_process root b hes (cursors_fresh stale' fd' peer')
      (size_fresh stale' fd' peer') rfl (filled_fresh_lt stale' fd' peer')
    rw [← h] at hright
    have hwhole := process_fresh root b stale stale' fd fd' peer peer' (delivered ds)
    exact ⟨hleft.symm.trans (hwhole.trans hright), hreads, hreads'⟩

/-- Wherever the bytes of a client are cut into chunks, and in however many reads each of
them arrives, fresh connections come to the same outcome, request, status and response,
and leave the same accounts and disk.  What the request asks for is looked up at most
once, and no read fails. -/
theorem handle_eq_of_delivered_eq (root : String) (b : Backend) (stale stale' : Array UInt8)
    (fd fd' : Nat) (peer peer' : Net.SocketAddress) (ds es : List Delivery)
    (h : delivered ds = delivered es) :
    let r := handle root ds (fresh stale fd peer) b
    let s := handle root es (fresh stale' fd' peer') b
    r.outcome = s.outcome ∧
      r.connection.request = s.connection.request ∧
      r.connection.status = s.connection.status ∧
      r.connection.response = s.connection.response ∧
      r.backend = s.backend ∧
      r.dispatches ≤ 1 ∧ s.dispatches ≤ 1 ∧
      r.failedReads = 0 ∧ s.failedReads = 0 := by
  intro r s
  obtain ⟨⟨houtcome, hreply, hbackend⟩, hreads, hreads'⟩ :=
    handle_sameAnswer root b stale stale' fd fd' peer peer' h
  have hresponse : r.connection.response = s.connection.response := by
    have houtput : s.connection.output = r.connection.output := hreply.output
    have hfile : s.connection.file = r.connection.file := hreply.file
    simp only [response, fileBytes, houtput, hfile]
  exact ⟨houtcome.symm, hreply.request.symm, hreply.status.symm, hresponse, hbackend.symm,
    dispatches_handle_le_one _ _ _ _, dispatches_handle_le_one _ _ _ _, hreads, hreads'⟩

/-- A request with an accented letter, cut within that letter and within a line end. -/
def cutRequest : List Delivery :=
  [.atOnce (Text.encode "GET /" ++ [0xC3]) (by decide),
    .atOnce (0xA9 :: Text.encode " HTTP/1.1\r") (by decide),
    .atOnce (Text.encode "\n\r\n") (by decide)]

/-- The same request in one chunk. -/
def wholeRequest : List Delivery :=
  [.atOnce (Text.encode "GET /é HTTP/1.1\r\n\r\n") (by decide)]

theorem handle_cutRequest :
    delivered cutRequest = delivered wholeRequest ∧
      let b : Backend := { disk := {}, table := { path := "users.db" } }
      let r := handle "/srv" cutRequest (fresh #[] 5 ⟨.v4 10 0 0 1, 4000⟩) b
      let s := handle "/srv" wholeRequest (fresh #[7] 6 ⟨.v4 10 0 0 2, 4001⟩) b
      r.outcome = s.outcome ∧
        r.connection.request = s.connection.request ∧
        r.connection.status = s.connection.status ∧
        r.connection.response = s.connection.response ∧
        r.backend = s.backend ∧
        r.dispatches ≤ 1 ∧ s.dispatches ≤ 1 ∧
        r.failedReads = 0 ∧ s.failedReads = 0 := by
  have h : delivered cutRequest = delivered wholeRequest := rfl
  exact ⟨h, handle_eq_of_delivered_eq "/srv" _ _ _ _ _ _ _ cutRequest wholeRequest h⟩

end Connection
end PageServer
