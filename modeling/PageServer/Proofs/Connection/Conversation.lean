import Mathlib
import PageServer.Proofs.Connection.Client
import PageServer.Proofs.Connection.Standing

/-!
# Conversations

Request after request is answered on one stream, and files change while they are sent.
Each response tells its own length and whether the stream stays open, as the call that
completes it does, so that the client reads from the bytes on the stream which answers it
has been given.
-/

namespace PageServer
namespace Connection

open Accounts (Backend)
open Http
open Net (ReadReply WriteReply)

/-- How many of the first `n` bytes of the response belong to its body. -/
def bodyWithin (c : Connection) (n : Nat) : Nat :=
  n - (c.total - c.body.length)

/-- The connection `e` that `d` has become while its response goes out and files change:
the body that the client is sent, where bytes of the file stay as they are once the stream
has taken them, and what the stream has taken. -/
inductive Underway (d : Connection) : Bytes → Bytes → Connection → Prop
  | start : Underway d d.body [] d
  | call {body taken : Bytes} {e : Connection} (h : Underway d body taken e) (now : Nat)
    {replies : List WriteReply} (honest : Honest (e.total - e.sent) replies)
    (pending : (e.write now replies).1 = .ok .pending) :
    Underway d body (taken ++ (e.write now replies).2.2) (e.write now replies).2.1
  | refresh {body taken : Bytes} {e : Connection} (h : Underway d body taken e) (disk : Disk) :
    Underway d (body.take (d.bodyWithin taken.length) ++
      (e.refresh disk).body.drop (d.bodyWithin taken.length)) taken (e.refresh disk)

/-- What has been answered on one stream, and the bytes that it was answered with. -/
inductive Conversation : Stage → Connection → List Reply → Bytes → Prop
  | attach {c : Connection} (h : Reached .closed c) (fd : Nat) (peer : Net.SocketAddress) :
    Conversation .reading (c.attach fd peer) [] []
  | read {c : Connection} {answers : List Reply} {sent : Bytes}
    (h : Conversation .reading c answers sent) (now : Nat) (replies : List ReadReply) :
    Conversation (afterRead (c.read now replies).1) (c.read now replies).2 answers sent
  | needInput {c : Connection} {answers : List Reply} {sent : Bytes}
    (h : Conversation .processing c answers sent) {root : String} {b : Backend}
    (need : (c.process root b).1 = .ok .needInput) :
    Conversation .reading (c.process root b).2.1 answers sent
  | answer {c e : Connection} {answers : List Reply} {sent body taken : Bytes}
    (h : Conversation .processing c answers sent) {root : String} {b : Backend}
    (ready : (c.process root b).1 = .ok .readyToWrite)
    (underway : Underway (c.process root b).2.1 body taken e) (now : Nat)
    {replies : List WriteReply} (honest : Honest (e.total - e.sent) replies) {summary : Summary}
    {s : Status} (complete : (e.write now replies).1 = .ok (.complete summary))
    (answered : summary.status = some s) :
    Conversation (afterWrite (e.write now replies).1) (e.write now replies).2.1
      (answers ++ [⟨s, summary.keepAlive, body⟩]) (sent ++ (taken ++ (e.write now replies).2.2))
  | refresh {stage : Stage} {c : Connection} {answers : List Reply} {sent : Bytes}
    (h : Conversation stage c answers sent) (disk : Disk) :
    Conversation stage (c.refresh disk) answers sent

variable {c d e : Connection} {stage : Stage} {s : Status} {asked : Bool} {body taken sent : Bytes}
  {answers : List Reply}

/-! ## One response -/

/-- A response keeps its frame whatever becomes of the file. -/
theorem Framed.refresh (h : Framed s asked c) (disk : Disk) :
    Framed s asked (c.refresh disk) ∧ (c.refresh disk).body.length = c.body.length := by
  rcases refresh_cases c disk with heq | ⟨m, m', hfile, hlength, heq⟩
  · rw [heq]
    exact ⟨h, rfl⟩
  · have hbody : c.body = m.bytes := by rw [body, hfile]
    have hbytes : c.fileBytes = m.bytes := by rw [fileBytes, hfile]
    have houtput : c.output.bytes = head s m.bytes.length c.request.keepAlive := by
      have hresponse := h.response
      rw [Connection.response, hbody, hbytes] at hresponse
      exact List.append_cancel_right hresponse
    rw [heq, hbody]
    refine ⟨⟨h.status, h.keepAlive, ?_, ?_⟩, hlength⟩
    · simp only [Connection.response, fileBytes, body, houtput, hlength]
    · have htotal := h.total
      rw [Connection.response, List.length_append, hbytes] at htotal
      simp only [Connection.response, fileBytes, List.length_append, hlength, htotal]

/-- The reply that a framed response will have been once its body is `body`. -/
def replyWith (d : Connection) (s : Status) (body : Bytes) : Reply :=
  ⟨s, d.request.keepAlive, body⟩

/-- What holds while a response goes out: all that may have changed is how much the stream
has taken, which is the front of the reply, and the file, which is what is left of it. -/
structure OnItsWay (s : Status) (asked : Bool) (d : Connection) (body taken : Bytes)
    (e : Connection) : Prop where
  framed : Framed s asked e
  live : e.isLive = true
  request : e.request = d.request
  total : e.total = d.total
  length : e.body.length = d.body.length
  sent : e.sent = taken.length
  left : taken.length < d.total
  same : body.length = d.body.length
  front : taken = (d.replyWith s body).bytes.take taken.length
  rest : body.drop (d.bodyWithin taken.length) = e.body.drop (d.bodyWithin taken.length)

theorem OnItsWay.sending (h : OnItsWay s asked d body taken e) : Sending e :=
  ⟨h.live, h.framed.total, by rw [h.sent, h.total]; exact h.left⟩

theorem Framed.length_head (h : Framed s asked d) :
    d.total - d.body.length = (head s d.body.length d.request.keepAlive).length := by
  rw [h.total, h.response, List.length_append, Nat.add_sub_cancel]

/-- What is left of the response is what is left of the reply. -/
theorem OnItsWay.drop_eq (h : OnItsWay s asked d body taken e) (hd : Framed s asked d) :
    e.response.drop taken.length = (d.replyWith s body).bytes.drop taken.length := by
  have hhead := hd.length_head
  have hrest := h.rest
  rw [bodyWithin, hhead] at hrest
  rw [h.framed.response, Reply.bytes, replyWith, h.request, h.length, h.same, List.drop_append,
    List.drop_append, hrest]

theorem OnItsWay.length_bytes (h : OnItsWay s asked d body taken e) (hd : Framed s asked d) :
    (d.replyWith s body).bytes.length = d.total := by
  rw [Reply.bytes, replyWith, h.same, hd.total, hd.response, List.length_append, List.length_append,
    h.same]

theorem Framed.start (h : Framed s asked d) (hd : Sending d) (hsent : d.sent = 0) :
    OnItsWay s asked d d.body [] d where
  framed := h
  live := hd.live
  request := rfl
  total := rfl
  length := rfl
  sent := hsent
  left := Nat.lt_of_le_of_lt (Nat.zero_le _) hd.left
  same := rfl
  front := rfl
  rest := rfl

/-- What the stream takes in a call makes the front of the reply longer. -/
theorem OnItsWay.front_append (h : OnItsWay s asked d body taken e) (hd : Framed s asked d)
    (n : Nat) : taken ++ (e.response.drop e.sent).take n =
      (d.replyWith s body).bytes.take (taken.length + n) := by
  rw [h.sent, h.drop_eq hd, List.take_add, ← h.front]

theorem OnItsWay.length_front (h : OnItsWay s asked d body taken e) (hd : Framed s asked d)
    {n : Nat}
    (hn : taken.length + n < d.total) :
    (taken ++ (e.response.drop e.sent).take n).length = taken.length + n := by
  rw [h.front_append hd, List.length_take, h.length_bytes hd]
  exact Nat.min_eq_left (Nat.le_of_lt hn)

theorem OnItsWay.call (h : OnItsWay s asked d body taken e) (hd : Framed s asked d) {n : Nat}
    (hn : e.sent + n < e.total) :
    OnItsWay s asked d body (taken ++ (e.response.drop e.sent).take n)
      { e with sent := e.sent + n } := by
  rw [h.sent, h.total] at hn
  have hlength := h.length_front hd hn
  have hmore : d.bodyWithin (taken.length + n) =
      d.bodyWithin taken.length +
        (d.bodyWithin (taken.length + n) - d.bodyWithin taken.length) := by
    simp only [bodyWithin]
    omega
  constructor
  · exact ⟨h.framed.status, h.framed.keepAlive, h.framed.response, h.framed.total⟩
  · exact h.live
  · exact h.request
  · exact h.total
  · exact h.length
  · rw [hlength, h.sent]
  · rw [hlength]
    exact hn
  · exact h.same
  · rw [hlength]
    exact h.front_append hd n
  · rw [hlength, hmore, ← List.drop_drop, ← List.drop_drop, h.rest]
    rfl

theorem OnItsWay.refresh (h : OnItsWay s asked d body taken e) (hd : Framed s asked d)
    (disk : Disk) :
    OnItsWay s asked d (body.take (d.bodyWithin taken.length) ++
      (e.refresh disk).body.drop (d.bodyWithin taken.length)) taken (e.refresh disk) := by
  have hhead := hd.length_head
  obtain ⟨hframed, hkept⟩ := h.framed.refresh disk
  have hfixed : d.bodyWithin taken.length ≤ body.length := by
    have := h.left
    have := h.same
    simp only [bodyWithin]
    omega
  have htake : (body.take (d.bodyWithin taken.length)).length = d.bodyWithin taken.length := by
    rw [List.length_take, Nat.min_eq_left hfixed]
  have hsame : (body.take (d.bodyWithin taken.length) ++
      (e.refresh disk).body.drop (d.bodyWithin taken.length)).length = d.body.length := by
    rw [List.length_append, htake, List.length_drop, hkept, h.length]
    have := h.same
    omega
  constructor
  · exact hframed
  · exact h.live
  · exact h.request
  · exact h.total
  · rw [hkept, h.length]
  · exact h.sent
  · exact h.left
  · exact hsame
  · conv => lhs; rw [h.front]
    rw [Reply.bytes, replyWith, Reply.bytes, replyWith, hsame, h.same, List.take_append,
      List.take_append, ← hhead, ← bodyWithin]
    congr 1
    rw [List.take_append_of_le_length (Nat.le_of_eq htake.symm), List.take_take, Nat.min_self]
  · rw [List.drop_append_of_le_length (Nat.le_of_eq htake.symm), List.drop_take, Nat.sub_self,
      List.take_zero, List.nil_append]

/-- However the response has been sent so far, it is the front of a reply. -/
theorem Underway.onItsWay (h : Underway d body taken e) (hframed : Framed s asked d)
    (hd : Sending d) (hsent : d.sent = 0) : OnItsWay s asked d body taken e := by
  -- On the calls so far: all of them are pending, so none is the one that sends the last
  -- byte.
  induction h with
  | start => exact hframed.start hd hsent
  | @call body taken e _ now replies honest pending ih =>
    obtain ⟨used, later, rfl, hsteady, hall | ⟨hlt, hblocked | hbroken⟩⟩ := ih.sending.stops honest
    · rw [ih.sending.write_done now hsteady hall] at pending
      simp [finish] at pending
    · rw [ih.sending.write_pending now hsteady hlt hblocked]
      exact ih.call hframed hlt
    · rw [ih.sending.write_failed now hsteady hlt hbroken] at pending
      simp at pending
  | refresh _ disk ih => exact ih.refresh hframed disk

/-! ## The last call -/

/-- A call that completes the response reports what its head says, and has sent all of the
reply. -/
theorem OnItsWay.write_complete (h : OnItsWay s asked d body taken e) (hd : Framed s asked d)
    (now : Nat) {replies : List WriteReply} (honest : Honest (e.total - e.sent) replies)
    {summary : Summary} (hcomplete : (e.write now replies).1 = .ok (.complete summary)) :
    summary.status = some s ∧ summary.keepAlive = d.request.keepAlive ∧
      taken ++ (e.write now replies).2.2 = (d.replyWith s body).bytes := by
  obtain ⟨used, later, rfl, hsteady, hall | ⟨hlt, hblocked | hbroken⟩⟩ := h.sending.stops honest
  · rw [h.sending.write_done now hsteady hall] at hcomplete ⊢
    obtain rfl := WriteOutcome.complete.inj (Except.ok.inj hcomplete)
    refine ⟨h.framed.status, congrArg Http.Request.keepAlive h.request, ?_⟩
    have hfront := h.front
    rw [h.sent, h.drop_eq hd]
    conv => lhs; lhs; rw [hfront]
    exact List.take_append_drop _ _
  · rw [h.sending.write_pending now hsteady hlt hblocked] at hcomplete
    simp at hcomplete
  · rw [h.sending.write_failed now hsteady hlt hbroken] at hcomplete
    simp at hcomplete

/-- A call that does not complete the response has not sent all of the reply. -/
theorem OnItsWay.write_incomplete (h : OnItsWay s asked d body taken e) (hd : Framed s asked d)
    (now : Nat) {replies : List WriteReply} (honest : Honest (e.total - e.sent) replies)
    (hincomplete : ∀ summary, (e.write now replies).1 ≠ .ok (.complete summary)) :
    taken ++ (e.write now replies).2.2 <+: (d.replyWith s body).bytes ∧
      (taken ++ (e.write now replies).2.2).length < (d.replyWith s body).bytes.length := by
  have hpart {n : Nat} (hn : e.sent + n < e.total) :
      taken ++ (e.response.drop e.sent).take n <+: (d.replyWith s body).bytes ∧
        (taken ++ (e.response.drop e.sent).take n).length <
          (d.replyWith s body).bytes.length := by
    rw [h.sent, h.total] at hn
    rw [h.length_front hd hn, h.front_append hd, h.length_bytes hd]
    exact ⟨List.take_prefix _ _, hn⟩
  obtain ⟨used, later, rfl, hsteady, hall | ⟨hlt, hblocked | hbroken⟩⟩ := h.sending.stops honest
  · rw [h.sending.write_done now hsteady hall] at hincomplete
    exact absurd rfl (hincomplete _)
  · rw [h.sending.write_pending now hsteady hlt hblocked]
    exact hpart hlt
  · rw [h.sending.write_failed now hsteady hlt hbroken]
    exact hpart hlt

/-! ## Response after response -/

theorem Underway.reached (h : Underway d body taken e) (hd : Reached .writing d) :
    Reached .writing e := by
  induction h with
  | start => exact hd
  | @call _ _ _ _ now replies _ pending ih =>
    have hstep := ih.step (.write now replies)
    rw [pending] at hstep
    exact hstep
  | refresh _ disk ih => exact ih.step (.refresh disk)

/-- A conversation is a part of the life of a connection. -/
theorem Conversation.reached (h : Conversation stage c answers sent) : Reached stage c := by
  induction h with
  | attach h fd peer => exact h.step (.attach fd peer)
  | read _ now replies ih => exact ih.step (.read now replies)
  | @needInput c _ _ _ root b need ih =>
    have hstep := ih.step (.process root b)
    rw [need] at hstep
    exact hstep
  | @answer c _ _ _ _ _ _ root b ready underway now replies _ _ _ _ _ ih =>
    have hstep := ih.step (.process root b)
    rw [ready] at hstep
    exact (underway.reached hstep).step (.write now replies)
  | refresh _ disk ih => exact ih.step (.refresh disk)

theorem Reached.framed (h : Reached .processing c) {root : String} {b : Backend}
    (ready : (c.process root b).1 = .ok .readyToWrite) :
    ∃ s, Framed s c.parse.2.request.keepAlive (c.process root b).2.1 := by
  have hreceiving : Receiving c := h.consistent
  have hnone := hreceiving.unanswered.parse hreceiving.held.cursors
  exact process_framed ready hnone.file hnone.output

theorem Reached.onItsWay (h : Reached .processing c) {root : String} {b : Backend}
    (ready : (c.process root b).1 = .ok .readyToWrite)
    (hframed : Framed s asked (c.process root b).2.1)
    (underway : Underway (c.process root b).2.1 body taken e) :
    OnItsWay s asked (c.process root b).2.1 body taken e := by
  have hreceiving : Receiving c := h.consistent
  obtain ⟨hsending, hsent⟩ := hreceiving.sending ready
  exact underway.onItsWay hframed hsending hsent

/-- On the stream there are the bytes of the answers, in the order of the requests. -/
theorem Conversation.sent_eq (h : Conversation stage c answers sent) :
    sent = answers.flatMap Reply.bytes := by
  induction h with
  | attach => rfl
  | read _ _ _ ih => exact ih
  | needInput _ _ ih => exact ih
  | @answer c _ _ _ _ _ h root b ready underway now replies honest summary s complete answered ih =>
    obtain ⟨s', hframed⟩ := h.reached.framed ready
    have hway := h.reached.onItsWay ready hframed underway
    obtain ⟨hstatus, hkeep, hbytes⟩ := hway.write_complete hframed now honest complete
    obtain rfl := Option.some.inj (answered.symm.trans hstatus)
    rw [List.flatMap_append, List.flatMap_singleton, ← ih, hbytes, replyWith, hkeep]
  | refresh _ _ ih => exact ih

/-- Whatever has been sent on a stream, a client reads from it the answers that were
completed. -/
theorem Conversation.readReplies_sent (h : Conversation stage c answers sent) {part : Bytes}
    (hpart : readReply? part = none) : readReplies (sent ++ part) = (answers, part) := by
  rw [h.sent_eq]
  exact readReplies_bytes answers hpart

/-- A response that processing has prepared is a head and a body, where the head gives the
length of the body and tells whether the stream stays open: the request asked for it and
was not bad.  The call that completes the response reports the same, however it was sent
and whatever became of the file.  So a client that reads by the length tells the responses
of a stream apart, and reads from them what the answers to its requests were and nothing
else. -/
theorem Reached.responses_framed (h : Reached .processing c) {root : String} {b : Backend}
    (ready : (c.process root b).1 = .ok .readyToWrite) :
    let d := (c.process root b).2.1
    ∃ s, d.status = some s ∧
      d.output.bytes ++ d.fileBytes = ResponseBuffer.statusLine s ++
        ResponseBuffer.contentLengthLine d.body.length ++
        ResponseBuffer.connectionLine d.request.keepAlive ++ ResponseBuffer.blankLine ++ d.body ∧
      d.total = (d.output.bytes ++ d.fileBytes).length ∧
      (d.request.keepAlive = true ↔ c.parse.2.request.keepAlive = true ∧ s.code ≠ 400) ∧
      ∀ {body taken e}, Underway d body taken e → ∀ (now : Nat) {replies : List WriteReply},
        Honest (e.total - e.sent) replies →
        let r := e.write now replies
        (∀ summary, r.1 = .ok (.complete summary) →
          summary.status = some s ∧ summary.keepAlive = d.request.keepAlive) ∧
        ∀ {answers sent}, Conversation .processing c answers sent →
          (∀ others : List Reply, others.flatMap Reply.bytes = sent ↔ others = answers) ∧
          (∀ summary, r.1 = .ok (.complete summary) →
            readReplies (sent ++ (taken ++ r.2.2)) =
              (answers ++ [⟨s, summary.keepAlive, body⟩], [])) ∧
          ((∀ summary, r.1 ≠ .ok (.complete summary)) →
            readReplies (sent ++ (taken ++ r.2.2)) = (answers, taken ++ r.2.2)) := by
  intro d
  obtain ⟨s, hframed⟩ := h.framed ready
  refine ⟨s, hframed.status, hframed.response, hframed.total, ?_, ?_⟩
  · rw [show d.request.keepAlive = _ from hframed.keepAlive, Bool.and_eq_true]
    cases s <;> simp [Status.code]
  · intro body taken e underway now replies honest r
    have hway := h.onItsWay ready hframed underway
    constructor
    · intro summary hcomplete
      obtain ⟨hstatus, hkeep, -⟩ := hway.write_complete hframed now honest hcomplete
      exact ⟨hstatus, hkeep⟩
    · intro answers sent conversation
      refine ⟨?_, ?_, ?_⟩
      · intro others
        rw [conversation.sent_eq]
        exact ⟨eq_of_flatMap_bytes_eq, fun heq => heq ▸ rfl⟩
      · intro summary hcomplete
        obtain ⟨hstatus, -, -⟩ := hway.write_complete hframed now honest hcomplete
        have hnext := conversation.answer ready underway now honest hcomplete hstatus
        have hread := hnext.readReplies_sent readReply?_nil
        rw [List.append_nil] at hread
        exact hread
      · intro hincomplete
        obtain ⟨hfront, hlt⟩ := hway.write_incomplete hframed now honest hincomplete
        exact conversation.readReplies_sent (readReply?_front hfront hlt)

/-! ### A request that keeps the stream open, and one that closes it -/

/-- A response that the stream takes at once. -/
theorem Conversation.answer_at_once (h : Conversation .processing c answers sent) {root : String}
    {b : Backend} (ready : (c.process root b).1 = .ok .readyToWrite)
    (hframed : Framed s asked (c.process root b).2.1) (now : Nat) :
    let d := (c.process root b).2.1
    let e := ({ d with sent := d.total }.finish now).2
    d.write now [.accepted d.total] =
      (.ok ({ d with sent := d.total }.finish now).1, e, d.response) ∧
      Conversation (if d.request.keepAlive then .reading else .closing) e
        (answers ++ [d.replyWith s d.body]) (sent ++ d.response) := by
  intro d e
  have hreceiving : Receiving c := h.reached.consistent
  obtain ⟨hsending, hsent⟩ := hreceiving.sending ready
  obtain ⟨honest, hwrite, -⟩ := hsending.write_rest now
  rw [hsent, Nat.sub_zero, List.drop_zero] at hwrite
  rw [hsent, Nat.sub_zero] at honest
  have honest : Honest (d.total - d.sent) [.accepted d.total] := by
    rw [show d.sent = 0 from hsent, Nat.sub_zero]
    exact honest
  have hnext := h.answer ready .start now honest (congrArg Prod.fst hwrite) hframed.status
  rw [hwrite] at hnext
  exact ⟨hwrite, hnext⟩

theorem Held.reset_eq_fresh (h : Held c) {fd : Nat} {peer : Net.SocketAddress}
    (hfd : c.fd = some fd) (hpeer : c.peer = some peer) : c.reset = fresh c.input fd peer := by
  simp [fresh, attach, Connection.reset, ResponseBuffer.clear, h.size, h.capacity, hfd, hpeer]

/-- A conversation that begins with `B`. -/
theorem Conversation.receive {stale : Array UInt8} {fd : Nat} {peer : Net.SocketAddress}
    (h : Conversation .reading (fresh stale fd peer) answers sent) {B : Bytes} (hB : B ≠ [])
    (hfits : B.length ≤ readCapacity) :
    ∃ c, Conversation .processing c answers sent ∧ c.received = B ∧ c.fd = some fd ∧
      c.peer = some peer ∧ c.parse.1 = ((fresh stale fd peer).takeIn B).parse.1 ∧
      c.parse.2.request = ((fresh stale fd peer).takeIn B).parse.2.request := by
  obtain ⟨since, hread⟩ := read_fresh_at_once stale fd peer hB
  have hnext := h.read 0 [.bytes B, .wouldBlock]
  rw [hread] at hnext
  have hparse := ((cursors_fresh stale fd peer).takeIn B).parse_since since
  refine ⟨_, hnext, ?_, rfl, rfl, congrArg (·.1) hparse, congrArg (·.2.request) hparse⟩
  exact (take_input_takeIn_fresh stale fd peer B).trans (List.take_of_length_le hfits)

/-- No files and no users. -/
def bareSite : Backend :=
  { disk := {}, table := { path := "users.db" } }

/-- A request for a page that is not there. -/
def missingPage : Bytes :=
  joined [Text.encode "GET /none.html HTTP/1.1", Text.encode "Connection:keep-alive"] ++ [cr, lf]

def missingRequest : Request :=
  { url := "/none.html", version := "HTTP/1.1", keepAlive := true }

theorem whole_missingPage : Whole missingPage missingRequest := by
  have hline : RequestLine.parse? "GET /none.html HTTP/1.1".toList =
      some ⟨.get, "/none.html".toList, "HTTP/1.1".toList⟩ := rfl
  have hfirst : Accepted [Text.encode "GET /none.html HTTP/1.1"]
      (some { url := "/none.html", version := "HTTP/1.1" }) :=
    .requestLine (by decide) rfl hline
  have hutf8 : Text.decode? (Text.encode "Connection:keep-alive") = some "Connection:keep-alive" :=
    rfl
  have hhead : Accepted [Text.encode "GET /none.html HTTP/1.1", Text.encode "Connection:keep-alive"]
      (some missingRequest) :=
    hfirst.header (by decide) (by decide) hutf8 trivial
  exact .intro hhead rfl rfl

theorem dispatch_missing (h : c.request = missingRequest) :
    dispatch "/srv" bareSite c = (.missing, c, bareSite) := by
  have hpage : Site.selectPage c.request bareSite = (some "/none.html", bareSite) := by
    rw [h]
    rfl
  have hlookup : lookup bareSite.disk (Site.realPath "/srv" "/none.html") = (.missing, none) := by
    cbv
  rw [dispatch, hpage]
  simp only [hlookup, Option.none_or]

theorem Receiving.process_missing (h : Receiving c) (hready : c.parse.1 = .ok .ready)
    (hrequest : c.parse.2.request = missingRequest) :
    (c.process "/srv" bareSite).1 = .ok .readyToWrite ∧
      (c.process "/srv" bareSite).2.1.status = some .notFound ∧
      (c.process "/srv" bareSite).2.1.file = none ∧
      (c.process "/srv" bareSite).2.2 = bareSite := by
  have hnone := h.unanswered.parse h.held.cursors
  obtain ⟨output, total, -, heq⟩ := respond_eq .notFound c.parse.2
  rw [process_ready "/srv" bareSite hready, dispatch_missing hrequest]
  simp only [answer, statusOf?, respond_fits .notFound h.parse_output hnone.file, heq]
  exact ⟨rfl, trivial, hnone.file, trivial⟩

/-- The answer to a request for a page that is not there. -/
def missingReply : Reply :=
  ⟨.notFound, true, Text.encode "The requested file was not found on this server.\n"⟩

/-- The answer to a bad request. -/
def refusalReply : Reply :=
  ⟨.badRequest, false,
    Text.encode "Your request has bad syntax or is inherently impossible to staisfy.\n"⟩

theorem conversation_missing (fd : Nat) (peer : Net.SocketAddress) :
    ∃ stale, Conversation .reading (fresh stale fd peer) [missingReply] missingReply.bytes := by
  have hattached : Conversation .reading (fresh #[] fd peer) [] [] :=
    .attach .start fd peer
  obtain ⟨c, hc, -, hfd, hpeer, hverdict, hrequest⟩ :=
    hattached.receive (B := missingPage) (by decide) (by decide)
  obtain ⟨hready, hsame⟩ :=
    ((parse_fresh_iff #[] fd peer (by decide)).1 _).mpr whole_missingPage.ready
  have hreceiving : Receiving c := hc.reached.consistent
  obtain ⟨houtcome, hstatus, hfile, -⟩ :=
    hreceiving.process_missing (hverdict.trans hready) (hrequest.trans hsame)
  obtain ⟨s, hframed⟩ := hc.reached.framed houtcome
  have hheld := hreceiving.held.process "/srv" bareSite
  have hstream : (c.process "/srv" bareSite).2.1.fd = some fd ∧
      (c.process "/srv" bareSite).2.1.peer = some peer := by
    obtain ⟨keepAlive, status, output, file, total, -, heq⟩ := process_eq "/srv" bareSite c
    rw [heq, hreceiving.held.cursors.parse_frame]
    exact ⟨hfd, hpeer⟩
  have hnext := (hc.answer_at_once houtcome hframed 0).2
  generalize (c.process "/srv" bareSite).2.1 = d at hframed hheld hstream hstatus hfile hnext
  obtain rfl := Option.some.inj (hframed.status.symm.trans hstatus)
  have hkeep : d.request.keepAlive = true := by
    rw [hframed.keepAlive, hrequest.trans hsame]
    rfl
  have hbody : d.body = missingReply.body := by
    rw [body, hfile, hstatus]
    rfl
  have hreply : d.replyWith .notFound d.body = missingReply := by
    rw [replyWith, hkeep, hbody]
    rfl
  have hbytes : d.response = missingReply.bytes := by
    rw [hframed.response, ← hreply]
    rfl
  have hreset : ({ d with sent := d.total }.finish 0).2 = d.reset := by
    simp only [finish, hkeep, if_true]
    rfl
  refine ⟨d.input, ?_⟩
  rw [hreply, hbytes, hreset, hheld.reset_eq_fresh hstream.1 hstream.2, if_pos hkeep,
    List.nil_append, List.nil_append] at hnext
  exact hnext

theorem Reached.responses_framed_missing_then_refused :
    ∃ c, Reached .processing c ∧ (c.process "/srv" bareSite).1 = .ok .readyToWrite ∧
      Conversation .processing c [missingReply] missingReply.bytes ∧
      let d := (c.process "/srv" bareSite).2.1
      let r := d.write 0 [.accepted d.total]
      Underway d d.body [] d ∧ Honest (d.total - d.sent) [.accepted d.total] ∧
        (∃ summary, r.1 = .ok (.complete summary) ∧ summary.status = some .badRequest ∧
          summary.keepAlive = false) ∧
        readReplies (missingReply.bytes ++ ([] ++ r.2.2)) = ([missingReply, refusalReply], []) := by
  obtain ⟨stale, hreset⟩ := conversation_missing 5 ⟨.v4 10 0 0 1, 4000⟩
  obtain ⟨c, hc, hreceived, -⟩ := hreset.receive (B := oversized) (by decide) (by decide)
  have hreceiving : Receiving c := hc.reached.consistent
  have hrefused : Refused (c.process "/srv" bareSite) := by
    apply hreceiving.process_malformed
    apply hreceiving.parse_malformed
    rw [hreceived]
    exact malformed_oversized
  obtain ⟨s, hframed⟩ := hc.reached.framed hrefused.outcome
  obtain ⟨hwrite, -⟩ := hc.answer_at_once hrefused.outcome hframed 0
  obtain ⟨hsending, hsent⟩ := hreceiving.sending hrefused.outcome
  have honest : Honest ((c.process "/srv" bareSite).2.1.total -
      (c.process "/srv" bareSite).2.1.sent) [.accepted (c.process "/srv" bareSite).2.1.total] :=
    ⟨by rw [hsent]; exact Nat.le_refl _, fun _ _ => trivial⟩
  obtain ⟨s', hstatus, -, -, -, hall⟩ := hc.reached.responses_framed hrefused.outcome
  obtain rfl := Option.some.inj (hstatus.symm.trans hrefused.status)
  obtain ⟨htruth, hread⟩ := hall .start 0 honest
  have hcomplete := congrArg Prod.fst hwrite
  obtain ⟨hsummary, hkeep⟩ := htruth _ hcomplete
  have hreplies := (hread hc).2.1 _ hcomplete
  have hbody : (c.process "/srv" bareSite).2.1.body = refusalReply.body := by
    obtain rfl := Option.some.inj (hframed.status.symm.trans hrefused.status)
    have hbytes : ((c.process "/srv" bareSite).2.1.replyWith .badRequest
        (c.process "/srv" bareSite).2.1.body).bytes = refusalReply.bytes :=
      hframed.response.symm.trans hrefused.response
    exact congrArg Reply.body (Reply.eq_of_bytes_eq hbytes)
  rw [hkeep, hrefused.keepAlive, hbody] at hreplies
  exact ⟨c, hc.reached, hrefused.outcome, hc, .start, honest,
    ⟨_, hcomplete, hsummary, hkeep.trans hrefused.keepAlive⟩, hreplies⟩

end Connection
end PageServer
