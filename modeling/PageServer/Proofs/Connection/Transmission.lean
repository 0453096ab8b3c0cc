import Mathlib
import PageServer.Proofs.Connection.Lifecycle

/-!
# A response on its way

A response goes out in any number of calls, and each call in any number of writes.
However the stream cuts it up, what it has taken is always the front of the response, each
call goes on with the next byte, and the response is complete exactly when all of it has
been taken.
-/

namespace PageServer
namespace Connection

open Accounts (Backend)
open Http
open Net (WriteReply)

/-- The connection has something left to send. -/
structure Sending (c : Connection) : Prop where
  live : c.isLive = true
  total : c.total = c.response.length
  left : c.sent < c.total

variable {c d e : Connection}

/-! ## One call -/

section Call

variable (now : Nat) {used later : List WriteReply} (h : Sending c) (hsteady : Steady used)

include h

theorem Sending.write_eq (replies : List WriteReply) :
    c.write now replies = writeOn now replies c := by
  have hzero : c.total ≠ 0 := by
    have := h.left
    omega
  rw [write, h.live, if_neg (by simp), if_neg hzero]

include hsteady

theorem Sending.write_done (hall : c.sent + accepted used = c.total) :
    c.write now (used ++ later) =
      (.ok ({ c with sent := c.total }.finish now).1, ({ c with sent := c.total }.finish now).2,
        c.response.drop c.sent) := by
  rw [h.write_eq now, writeOn_steady hsteady h.total (Nat.le_of_eq hall), hall]
  simp only
  rw [writeOn_done (c := { c with sent := c.total }) (Nat.le_refl _), List.append_nil,
    List.take_of_length_le]
  rw [List.length_drop, ← h.total]
  omega

theorem Sending.write_pending (hlt : c.sent + accepted used < c.total) (hlater : Blocked later) :
    c.write now (used ++ later) =
      (.ok .pending, { c with sent := c.sent + accepted used },
        (c.response.drop c.sent).take (accepted used)) := by
  rw [h.write_eq now, writeOn_steady hsteady h.total (Nat.le_of_lt hlt)]
  simp only
  rw [writeOn_blocked (c := { c with sent := c.sent + accepted used }) h.total hlt hlater,
    List.append_nil]

theorem Sending.write_failed (hlt : c.sent + accepted used < c.total) (hlater : Broken later) :
    c.write now (used ++ later) =
      (.ok .failed, { c with sent := c.sent + accepted used, file := none },
        (c.response.drop c.sent).take (accepted used)) := by
  rw [h.write_eq now, writeOn_steady hsteady h.total (Nat.le_of_lt hlt)]
  simp only
  rw [writeOn_broken (c := { c with sent := c.sent + accepted used }) h.total hlt hlater,
    List.append_nil]

end Call

theorem finish_file (now : Nat) (c : Connection) : (c.finish now).2.file = none := by
  cases hkeep : c.request.keepAlive <;> simp [finish, hkeep, Connection.reset]

/-- A call in which the stream takes all that is left at once. -/
theorem Sending.write_rest (h : Sending c) (now : Nat) :
    Honest (c.total - c.sent) [.accepted (c.total - c.sent)] ∧
      c.write now [.accepted (c.total - c.sent)] =
        (.ok ({ c with sent := c.total }.finish now).1, ({ c with sent := c.total }.finish now).2,
          c.response.drop c.sent) ∧
      c.response.drop c.sent ≠ [] := by
  have hleft : 0 < c.total - c.sent := Nat.sub_pos_of_lt h.left
  have hsteady : Steady [.accepted (c.total - c.sent)] :=
    .cons (.inr ⟨_, congrArg WriteReply.accepted (Nat.succ_pred_eq_of_pos hleft).symm⟩) .nil
  have hall : c.sent + accepted [.accepted (c.total - c.sent)] = c.total :=
    Nat.add_sub_cancel' (Nat.le_of_lt h.left)
  have hdone : c.write now ([.accepted (c.total - c.sent)] ++ []) = _ :=
    h.write_done now hsteady hall
  refine ⟨⟨Nat.le_refl _, fun _ _ => trivial⟩, hdone, ?_⟩
  intro hnil
  have hlength := congrArg List.length hnil
  rw [List.length_drop, ← h.total] at hlength
  exact absurd hlength (Nat.ne_of_gt hleft)

/-- Honest replies let a call take all that is left, or stop it before. -/
theorem Sending.stops {replies : List WriteReply} (h : Sending c)
    (honest : Honest (c.total - c.sent) replies) :
    ∃ used later, replies = used ++ later ∧ Steady used ∧
      (c.sent + accepted used = c.total ∨
        c.sent + accepted used < c.total ∧ (Blocked later ∨ Broken later)) := by
  have hleft := h.left
  obtain ⟨used, later, heq, hsteady, hle, hstop⟩ := honest.cases
  refine ⟨used, later, heq, hsteady, ?_⟩
  rcases hstop with hall | ⟨hlt, hlater⟩
  · exact .inl (by omega)
  · exact .inr ⟨by omega, hlater⟩

section Outcome

variable (now : Nat) {replies : List WriteReply} (h : Sending c)
  (honest : Honest (c.total - c.sent) replies)

include h honest

/-- A call is held up where the stream takes no more, and nowhere else. -/
theorem Sending.write_pending_iff :
    (c.write now replies).1 = .ok .pending ↔ ∃ used later, replies = used ++ later ∧
      Steady used ∧ c.sent + accepted used < c.total ∧ Blocked later := by
  constructor
  · intro hpending
    obtain ⟨used, later, rfl, hsteady, hall | ⟨hlt, hblocked | hbroken⟩⟩ := h.stops honest
    · simp [h.write_done now hsteady hall, finish] at hpending
    · exact ⟨used, later, rfl, hsteady, hlt, hblocked⟩
    · simp [h.write_failed now hsteady hlt hbroken] at hpending
  · rintro ⟨used, later, rfl, hsteady, hlt, hblocked⟩
    rw [h.write_pending now hsteady hlt hblocked]

/-- A call fails where the stream does, or takes nothing of what it is offered. -/
theorem Sending.write_failed_iff :
    (c.write now replies).1 = .ok .failed ↔ ∃ used later, replies = used ++ later ∧
      Steady used ∧ c.sent + accepted used < c.total ∧ Broken later := by
  constructor
  · intro hfailed
    obtain ⟨used, later, rfl, hsteady, hall | ⟨hlt, hblocked | hbroken⟩⟩ := h.stops honest
    · simp [h.write_done now hsteady hall, finish] at hfailed
    · simp [h.write_pending now hsteady hlt hblocked] at hfailed
    · exact ⟨used, later, rfl, hsteady, hlt, hbroken⟩
  · rintro ⟨used, later, rfl, hsteady, hlt, hbroken⟩
    rw [h.write_failed now hsteady hlt hbroken]

/-- A call is the last one where the stream has taken all that was left. -/
theorem Sending.write_complete_iff :
    (∃ s, (c.write now replies).1 = .ok (.complete s)) ↔
      (c.write now replies).2.2 = c.response.drop c.sent := by
  have hleft := h.left
  have hpart {n : Nat} (hlt : c.sent + n < c.total) :
      (c.response.drop c.sent).take n ≠ c.response.drop c.sent := by
    intro heq
    have hlength := congrArg List.length heq
    rw [List.length_take, List.length_drop, ← h.total] at hlength
    omega
  obtain ⟨used, later, rfl, hsteady, hall | ⟨hlt, hblocked | hbroken⟩⟩ := h.stops honest
  · rw [h.write_done now hsteady hall]
    constructor
    · intro _
      rfl
    · intro _
      exact ⟨_, rfl⟩
  · rw [h.write_pending now hsteady hlt hblocked]
    constructor
    · rintro ⟨s, hs⟩
      simp at hs
    · intro heq
      exact absurd heq (hpart hlt)
  · rw [h.write_failed now hsteady hlt hbroken]
    constructor
    · rintro ⟨s, hs⟩
      simp at hs
    · intro heq
      exact absurd heq (hpart hlt)

/-- A call meets no fault, and what it hands over is the next part of the response. -/
theorem Sending.write_taken :
    (∀ f, (c.write now replies).1 ≠ .error f) ∧
      (c.write now replies).2.2 <+: c.response.drop c.sent := by
  obtain ⟨used, later, rfl, hsteady, hall | ⟨hlt, hblocked | hbroken⟩⟩ := h.stops honest
  · rw [h.write_done now hsteady hall]
    exact ⟨nofun, List.prefix_rfl⟩
  · rw [h.write_pending now hsteady hlt hblocked]
    exact ⟨nofun, List.take_prefix _ _⟩
  · rw [h.write_failed now hsteady hlt hbroken]
    exact ⟨nofun, List.take_prefix _ _⟩

/-- A call that ends the response reports all of its bytes, and a call that is not held up
lets go of the file. -/
theorem Sending.write_ends :
    (∀ s, (c.write now replies).1 = .ok (.complete s) → s.bytes = c.total) ∧
      ((c.write now replies).1 ≠ .ok .pending → (c.write now replies).2.1.file = none) := by
  obtain ⟨used, later, rfl, hsteady, hall | ⟨hlt, hblocked | hbroken⟩⟩ := h.stops honest
  · rw [h.write_done now hsteady hall]
    constructor
    · intro s hs
      obtain rfl := WriteOutcome.complete.inj (Except.ok.inj hs)
      rfl
    · intro _
      exact finish_file now _
  · rw [h.write_pending now hsteady hlt hblocked]
    constructor
    · intro s hs
      simp at hs
    · intro hne
      exact absurd rfl hne
  · rw [h.write_failed now hsteady hlt hbroken]
    constructor
    · intro s hs
      simp at hs
    · intro _
      rfl

end Outcome

/-! ## Call after call -/

/-- The connection `e` that `d` has become in calls that the stream held up, and what the
stream has taken in them. -/
inductive HeldUp (d : Connection) : Bytes → Connection → Prop
  | start : HeldUp d [] d
  | call {taken : Bytes} {e : Connection} (h : HeldUp d taken e) (now : Nat)
    {replies : List WriteReply} (honest : Honest (d.response.length - taken.length) replies)
    (pending : (e.write now replies).1 = .ok .pending) :
    HeldUp d (taken ++ (e.write now replies).2.2) (e.write now replies).2.1

theorem Sending.withSent (h : Sending c) {n : Nat} (hn : n < c.total) :
    Sending { c with sent := n } :=
  ⟨h.live, h.total, hn⟩

/-- What the stream has taken is the front of the response, and the connection is at its
end. -/
theorem HeldUp.eq {taken : Bytes} (h : HeldUp d taken e) (hd : Sending d) (hsent : d.sent = 0) :
    e = { d with sent := taken.length } ∧ taken = d.response.take taken.length ∧
      taken.length < d.total := by
  have htotal := hd.total
  induction h with
  | start =>
    refine ⟨?_, rfl, ?_⟩
    · rw [List.length_nil, ← hsent]
    · rw [List.length_nil, ← hsent]
      exact hd.left
  | @call taken e _ now replies honest pending ih =>
    obtain ⟨rfl, htaken, hlt⟩ := ih
    have hsending := hd.withSent hlt
    rw [← htotal] at honest
    obtain ⟨used, later, rfl, hsteady, hall | ⟨hstop, hblocked | hbroken⟩⟩ := hsending.stops honest
    · rw [hsending.write_done now hsteady hall] at pending
      simp [finish] at pending
    · rw [hsending.write_pending now hsteady hstop hblocked]
      have hfront : taken ++ (d.response.drop taken.length).take (accepted used) =
          d.response.take (taken.length + accepted used) := by
        rw [List.take_add, ← htaken]
      have hlength : (d.response.take (taken.length + accepted used)).length =
          taken.length + accepted used := by
        rw [List.length_take, ← htotal]
        exact Nat.min_eq_left (Nat.le_of_lt hstop)
      simp only [response, fileBytes] at hfront hlength ⊢
      rw [hfront, hlength]
      exact ⟨rfl, rfl, hstop⟩
    · rw [hsending.write_failed now hsteady hstop hbroken] at pending
      simp at pending

/-- A response that processing has prepared is there to be sent from its first byte on. -/
theorem Receiving.sending (h : Receiving c) {root : String} {b : Backend}
    (hready : (c.process root b).1 = .ok .readyToWrite) :
    Sending (c.process root b).2.1 ∧ (c.process root b).2.1.sent = 0 := by
  have hnone := h.unanswered.parse h.held.cursors
  obtain ⟨s, hframed⟩ := process_framed hready hnone.file hnone.output
  have hsent : (c.process root b).2.1.sent = 0 := by
    obtain ⟨keepAlive, status, output, file, total, -, heq⟩ := process_eq root b c
    rw [heq]
    exact hnone.sent
  refine ⟨⟨(h.held.process root b).live, hframed.total, ?_⟩, hsent⟩
  rw [hsent, hframed.total]
  exact hframed.response_pos

/-- Whatever writes the stream has made of the calls so far, it has taken the front of the
response, and the next call offers it the byte behind.  That call meets no fault; it is
held up only where the stream takes no more; it completes the response exactly where all
of it has been taken, and reports the bytes of the head and of the file; and it fails
exactly where the stream does, or takes nothing, and lets go of the file. -/
theorem Reached.response_in_order (h : Reached .processing c) {root : String} {b : Backend}
    (hready : (c.process root b).1 = .ok .readyToWrite) {taken : Bytes}
    (hheld : HeldUp (c.process root b).2.1 taken e) (now : Nat) {replies : List WriteReply}
    (honest : Honest ((c.process root b).2.1.response.length - taken.length) replies) :
    let d := (c.process root b).2.1
    let r := e.write now replies
    let left := d.response.length - taken.length
    (taken <+: d.response ∧ e.offer = .ok (d.response.drop taken.length)) ∧
      taken ++ r.2.2 <+: d.response ∧
      (∀ f, r.1 ≠ .error f) ∧
      (r.1 = .ok .pending ↔ ∃ used later, replies = used ++ later ∧ Steady used ∧
        accepted used < left ∧ Blocked later) ∧
      ((∃ s, r.1 = .ok (.complete s)) ↔ taken ++ r.2.2 = d.response) ∧
      (∀ s, r.1 = .ok (.complete s) → s.bytes = d.output.length + d.fileBytes.length) ∧
      (r.1 = .ok .failed ↔ ∃ used later, replies = used ++ later ∧ Steady used ∧
        accepted used < left ∧ Broken later) ∧
      (r.1 = .ok .failed → r.2.1.file = none) := by
  have hreceiving : Receiving c := h.consistent
  obtain ⟨hd, hsent⟩ := hreceiving.sending hready
  generalize (c.process root b).2.1 = d at hd hsent hheld honest ⊢
  intro d' r left
  obtain ⟨rfl, htaken, hlt⟩ := hheld.eq hd hsent
  have hsending := hd.withSent hlt
  have htotal : d.total = d.response.length := hd.total
  have hhonest : Honest (d.total - taken.length) replies := by
    rw [htotal]
    exact honest
  have hfront := List.take_append_drop taken.length d.response
  rw [← htaken] at hfront
  have hleft (n : Nat) : taken.length + n < d.total ↔ n < d.response.length - taken.length := by
    rw [htotal]
    omega
  have hpending := hsending.write_pending_iff now hhonest
  have hfailed := hsending.write_failed_iff now hhonest
  have hcomplete := hsending.write_complete_iff now hhonest
  obtain ⟨hfault, hpart⟩ := hsending.write_taken now hhonest
  obtain ⟨hbytes, hfile⟩ := hsending.write_ends now hhonest
  simp only [hleft] at hpending hfailed
  refine ⟨⟨?_, ?_⟩, ?_, hfault, hpending, ?_, ?_, hfailed, ?_⟩
  · rw [htaken]
    exact List.take_prefix _ _
  · exact offer_eq (c := { d with sent := taken.length }) (Nat.le_of_lt (htotal ▸ hlt))
  · obtain ⟨rest, hrest⟩ := hpart
    refine ⟨rest, ?_⟩
    rw [List.append_assoc, hrest]
    exact hfront
  · rw [hcomplete]
    constructor
    · intro heq
      rw [heq]
      exact hfront
    · intro heq
      exact List.append_cancel_left (heq.trans hfront.symm)
  · intro s hs
    rw [hbytes s hs]
    exact htotal.trans List.length_append
  · intro hs
    apply hfile
    rw [hs]
    simp

/-! ## A page that goes out in three calls -/

/-- The stream takes a part of what is left, and no more. -/
theorem HeldUp.goes_on {n : Nat} (hd : Sending d)
    (h : HeldUp d (d.response.take n) { d with sent := n }) (now : Nat)
    {used later : List WriteReply} (hsteady : Steady used) (hlater : Blocked later)
    (hlt : n + accepted used < d.total)
    (honest : Honest (d.response.length - n) (used ++ later)) :
    HeldUp d (d.response.take (n + accepted used)) { d with sent := n + accepted used } := by
  have hn : n < d.total := by omega
  have hlength : (d.response.take n).length = n := by
    rw [List.length_take, ← hd.total, Nat.min_eq_left (Nat.le_of_lt hn)]
  have hwrite := (hd.withSent hn).write_pending now hsteady hlt hlater
  have hcall := h.call now (by rwa [hlength]) (congrArg Prod.fst hwrite)
  rw [hwrite] at hcall
  rw [List.take_add]
  exact hcall

/-- A request for the bare root. -/
def rootRequest : Bytes :=
  joined [Text.encode "GET / HTTP/1.1"] ++ [cr, lf]

theorem ready_rootRequest : Ready rootRequest { url := "/judge.html", version := "HTTP/1.1" } := by
  have hline : RequestLine.parse? "GET / HTTP/1.1".toList =
      some ⟨.get, "/".toList, "HTTP/1.1".toList⟩ := rfl
  have hhead : Accepted [Text.encode "GET / HTTP/1.1"]
      (some { url := "/judge.html", version := "HTTP/1.1" }) :=
    .requestLine (by decide) rfl hline
  exact .intro hhead rfl (by decide)

/-- A site with a welcome page. -/
def welcomeSite : Backend :=
  { disk := { entries := #[.directory Disk.directoryMode 0 [("srv", 1)],
        .directory Disk.directoryMode 0 [("judge.html", 2)],
        .file Disk.fileMode (Text.encode "Welcome!")] }
    table := { path := "users.db" } }

/-- A connection that is about to send the welcome page. -/
def welcoming : Connection :=
  ((alone rootRequest).process "/srv" welcomeSite).2.1

theorem process_welcome :
    ((alone rootRequest).process "/srv" welcomeSite).1 = .ok .readyToWrite ∧
      welcoming.file = some ⟨2, Text.encode "Welcome!", 0⟩ ∧ welcoming.output.length = 55 ∧
      welcoming.total = 63 := by
  obtain ⟨hverdict, hrequest⟩ := parse_alone (by decide) (by decide) ready_rootRequest
  have hreceiving : Receiving (alone rootRequest) := (reached_alone (by decide)).consistent
  have houtput := hreceiving.parse_output
  have hpage : Site.selectPage (alone rootRequest).parse.2.request welcomeSite =
      (some "/judge.html", welcomeSite) := by
    rw [hrequest]
    rfl
  have hlookup : lookup welcomeSite.disk (Site.realPath "/srv" "/judge.html") =
      (.found, some ⟨2, Text.encode "Welcome!", 0⟩) := by
    cbv
  have hdispatch : dispatch "/srv" welcomeSite (alone rootRequest).parse.2 =
      (.found, { (alone rootRequest).parse.2 with
        file := some ⟨2, Text.encode "Welcome!", 0⟩ }, welcomeSite) := by
    rw [dispatch, hpage]
    simp only [hlookup, Option.some_or]
  have hlength : (Mapping.mk 2 (Text.encode "Welcome!") 0).length = 8 := by decide
  have hhead : addHead .ok 8 false { capacity := writeCapacity } =
      (.ok true, { capacity := writeCapacity, bytes := head .ok 8 false }) := rfl
  have hanswer : answer .found { (alone rootRequest).parse.2 with
      file := some ⟨2, Text.encode "Welcome!", 0⟩ } =
        (.ok .readyToWrite, { (alone rootRequest).parse.2 with
          status := some .ok
          output := { capacity := writeCapacity, bytes := head .ok 8 false }
          file := some ⟨2, Text.encode "Welcome!", 0⟩
          total := 63 }) := by
    unfold answer respond
    simp only [statusOf?, hrequest, houtput, hlength, Bool.false_and, hhead]
    rfl
  have hprocess := process_ready "/srv" welcomeSite hverdict
  simp only [hdispatch, hanswer] at hprocess
  rw [welcoming, hprocess]
  exact ⟨rfl, rfl, rfl, rfl⟩

theorem sending_welcoming :
    welcoming.file = some ⟨2, Text.encode "Welcome!", 0⟩ ∧ Sending welcoming ∧
      welcoming.sent = 0 ∧ welcoming.output.length = 55 ∧ welcoming.total = 63 := by
  obtain ⟨houtcome, hfile, hlength, htotal⟩ := process_welcome
  have hreceiving : Receiving (alone rootRequest) := (reached_alone (by decide)).consistent
  obtain ⟨hsending, hsent⟩ := hreceiving.sending houtcome
  exact ⟨hfile, hsending, hsent, hlength, htotal⟩

theorem length_response_welcoming : welcoming.response.length = 63 := by
  obtain ⟨-, hsending, -, -, htotal⟩ := sending_welcoming
  rw [← hsending.total, htotal]

theorem length_take_welcoming {n : Nat} (hn : n ≤ 63) :
    (welcoming.response.take n).length = n := by
  rw [List.length_take, length_response_welcoming, Nat.min_eq_left hn]

theorem drop_response_welcoming : welcoming.response.drop 58 = Text.encode "come!" := by
  obtain ⟨hfile, -, -, houtput, -⟩ := sending_welcoming
  have hhead : welcoming.output.bytes.length = 55 := houtput
  rw [response, fileBytes, hfile, List.drop_append, hhead,
    List.drop_of_length_le (by rw [hhead]; decide)]
  decide

theorem honest_welcoming_head :
    Honest (welcoming.response.length - 10) [.accepted 48, .wouldBlock] := by
  rw [length_response_welcoming]
  exact ⟨by decide, fun _ _ => trivial⟩

/-- The page is held up in its head and beyond it. -/
theorem heldUp_welcoming :
    let d := welcoming
    HeldUp d (d.response.take 10) { d with sent := 10 } ∧
      HeldUp d (d.response.take 58) { d with sent := 58 } := by
  intro d
  obtain ⟨-, hsending, hsent, -, htotal⟩ := sending_welcoming
  have hblocked : Blocked [.wouldBlock] := .inr ⟨[], rfl⟩
  have hstart : HeldUp d (d.response.take 0) { d with sent := 0 } := by
    rw [show { d with sent := 0 } = d by rw [← hsent]]
    exact .start
  have honest : Honest (d.response.length - 0) ([.accepted 10] ++ [.wouldBlock]) := by
    rw [length_response_welcoming]
    exact ⟨by decide, fun _ _ => trivial⟩
  have hhead : HeldUp d (d.response.take 10) { d with sent := 10 } :=
    hstart.goes_on hsending 0 (.cons (.inr ⟨9, rfl⟩) .nil) hblocked
      (by rw [htotal]; decide) honest
  exact ⟨hhead, hhead.goes_on hsending 1 (.cons (.inr ⟨47, rfl⟩) .nil) hblocked
    (by rw [htotal]; decide) honest_welcoming_head⟩

/-- The stream takes ten bytes of the head, then the rest of the head and three bytes of
the page, and then the rest of the page. -/
theorem Reached.response_in_order_welcome :
    let d := welcoming
    let first := { d with sent := 10 }
    let second := { d with sent := 58 }
    Reached .processing (alone rootRequest) ∧
      ((alone rootRequest).process "/srv" welcomeSite).1 = .ok .readyToWrite ∧
      (HeldUp d (d.response.take 10) first ∧
        Honest (d.response.length - (d.response.take 10).length) [.accepted 48, .wouldBlock] ∧
        first.offer = .ok (d.response.drop 10) ∧
        (first.write 1 [.accepted 48, .wouldBlock]).1 = .ok .pending) ∧
      HeldUp d (d.response.take 58) second ∧
      Honest (d.response.length - (d.response.take 58).length) [.accepted 5] ∧
      second.offer = .ok (Text.encode "come!") ∧
      ∃ s, (second.write 2 [.accepted 5]).1 = .ok (.complete s) ∧ s.bytes = 55 + 8 := by
  intro d first second
  have hreached : Reached .processing (alone rootRequest) := reached_alone (by decide)
  obtain ⟨hready, -, -, -⟩ := process_welcome
  obtain ⟨hfile, hsending, -, houtput, htotal⟩ := sending_welcoming
  obtain ⟨hfirst, hsecond⟩ := heldUp_welcoming
  have hlength₁ : (d.response.take 10).length = 10 := length_take_welcoming (by decide)
  have hlength₂ : (d.response.take 58).length = 58 := length_take_welcoming (by decide)
  have honest₁ : Honest (d.response.length - (d.response.take 10).length)
      [.accepted 48, .wouldBlock] := by
    rw [hlength₁]
    exact honest_welcoming_head
  have honest₂ : Honest (d.response.length - (d.response.take 58).length) [.accepted 5] := by
    rw [hlength₂, length_response_welcoming]
    exact ⟨by decide, fun _ _ => trivial⟩
  obtain ⟨⟨-, hoffer₁⟩, -, -, hpending, -⟩ :=
    hreached.response_in_order hready hfirst 1 honest₁
  obtain ⟨⟨-, hoffer₂⟩, -, -, -, hcomplete, hbytes, -⟩ :=
    hreached.response_in_order hready hsecond 2 honest₂
  have hdone : second.write 2 ([.accepted 5] ++ []) = _ :=
    (hsending.withSent (n := 58) (by rw [htotal]; decide)).write_done 2
      (.cons (.inr ⟨4, rfl⟩) .nil) htotal.symm
  have hall : d.response.take 58 ++ (second.write 2 [.accepted 5]).2.2 = d.response := by
    rw [List.append_nil] at hdone
    rw [hdone]
    exact List.take_append_drop 58 d.response
  obtain ⟨s, hs⟩ := hcomplete.mpr hall
  have hlt : accepted [.accepted 48] < d.response.length - (d.response.take 10).length := by
    rw [hlength₁, length_response_welcoming]
    decide
  have hsum : d.output.length + d.fileBytes.length = 55 + 8 := by
    rw [show d.output.length = 55 from houtput, fileBytes, hfile]
    decide
  refine ⟨hreached, hready, ⟨hfirst, honest₁, ?_, ?_⟩, hsecond, honest₂, ?_, s, hs, ?_⟩
  · rw [hlength₁] at hoffer₁
    exact hoffer₁
  · exact hpending.mpr ⟨[.accepted 48], [.wouldBlock], rfl, .cons (.inr ⟨47, rfl⟩) .nil, hlt,
      .inr ⟨[], rfl⟩⟩
  · rw [hlength₂] at hoffer₂
    exact hoffer₂.trans (congrArg Except.ok drop_response_welcoming)
  · exact (hbytes s hs).trans hsum

end Connection
end PageServer
