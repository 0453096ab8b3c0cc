import PageServer.Proofs.Connection.Serving
import PageServer.Proofs.Connection.Talks

/-!
# Requests that follow each other

When a response has gone out the connection starts anew, and what it has read behind the
request is gone.  So requests that keep the stream open are all answered, each as if it
had been sent by itself, as long as no read takes in bytes of the next request; of
requests that are read together all but the first are lost.
-/

namespace PageServer
namespace Connection

open Accounts (Backend)
open Http
open Net (ReadReply WriteReply)

variable {root : String} {x y : Talk} {c : Connection}

/-! ## Requests on streams of their own -/

/-- A request that keeps the stream open, and whose answer does.  The length of the body
is a word, as that of every file is. -/
structure KeepsOpen (root : String) (b : Backend) (B : Bytes) : Prop where
  fits : B.length ≤ readCapacity
  whole : ∃ r, Whole B r ∧ r.keepAlive = true
  good : ((alone B).process root b).2.1.status ≠ some .badRequest
  sized : ((alone B).process root b).2.1.body.length < wordRange

/-- Requests that all keep the stream open, each with what the ones before it have
changed. -/
def AllKeepOpen (root : String) : Backend → List Bytes → Prop
  | _, [] => True
  | b, B :: Bs => KeepsOpen root b B ∧ AllKeepOpen root ((alone B).process root b).2.2 Bs

/-- The responses to requests that each have a stream of their own, and what they leave. -/
def answersAlone (root : String) : Backend → List Bytes → List Bytes × Backend
  | b, [] => ([], b)
  | b, B :: Bs =>
    let r := (alone B).process root b
    let later := answersAlone root r.2.2 Bs
    (r.2.1.response :: later.1, later.2)

variable {b : Backend} {B : Bytes} {Bs Bs' : List Bytes}

theorem length_answersAlone (root : String) (b : Backend) (Bs : List Bytes) :
    (answersAlone root b Bs).1.length = Bs.length := by
  induction Bs generalizing b with
  | nil => rfl
  | cons B Bs ih => exact congrArg (· + 1) (ih _)

theorem answersAlone_append (root : String) (b : Backend) (Bs Bs' : List Bytes) :
    answersAlone root b (Bs ++ Bs') =
      ((answersAlone root b Bs).1 ++ (answersAlone root (answersAlone root b Bs).2 Bs').1,
        (answersAlone root (answersAlone root b Bs).2 Bs').2) := by
  induction Bs generalizing b with
  | nil => rfl
  | cons B Bs ih => simp only [List.cons_append, answersAlone, ih]

theorem AllKeepOpen.behind (h : AllKeepOpen root b (Bs ++ Bs')) :
    AllKeepOpen root (answersAlone root b Bs).2 Bs' := by
  induction Bs generalizing b with
  | nil => exact h
  | cons B Bs ih => exact ih h.2

theorem KeepsOpen.ne_nil (h : KeepsOpen root b B) : B ≠ [] := by
  obtain ⟨r, hwhole, -⟩ := h.whole
  obtain @⟨ls, r, rest, -, rfl, -⟩ := hwhole
  simp

/-- What a request is answered with on any connection that has received it first. -/
structure AnsweredAlone (root : String) (b : Backend) (B : Bytes) (c : Connection) : Prop where
  outcome : (c.process root b).1 = .ok .readyToWrite
  keepAlive : (c.process root b).2.1.request.keepAlive = true
  response : (c.process root b).2.1.response = ((alone B).process root b).2.1.response
  backend : (c.process root b).2.2 = ((alone B).process root b).2.2

theorem KeepsOpen.answeredAlone (h : KeepsOpen root b B) (hc : Reached .processing c)
    (hreceived : B <+: c.received) : AnsweredAlone root b B c := by
  obtain ⟨r, hwhole, hkeep⟩ := h.whole
  have halone := reached_alone h.ne_nil
  have hready : Ready (alone B).received r := by
    rw [received_alone h.ne_nil h.fits]
    exact hwhole.ready
  have hready' : Ready c.received r := by
    obtain ⟨more, heq⟩ := hreceived
    rw [← heq]
    exact hwhole.ready.append more
  have hsame := halone.sameAnswer hc hready hready' root b
  obtain ⟨hverdict, hrequest⟩ := (halone.ready_iff r).mpr hready
  have hreceiving : Receiving (alone B) := halone.consistent
  obtain ⟨-, s, hstatus, hsent, -⟩ := hreceiving.process_served hverdict root b
  obtain ⟨houtcome, hframed⟩ := hsent h.sized
  have hgood : s ≠ .badRequest := by
    rintro rfl
    exact h.good hstatus
  refine ⟨hsame.outcome.trans houtcome, ?_, ?_, hsame.backend⟩
  · rw [hsame.reply.request, hframed.keepAlive, hrequest, hkeep, Bool.true_and, bne_iff_ne]
    exact hgood
  · simp only [Connection.response, fileBytes, hsame.reply.output, hsame.reply.file]

/-! ## One request after the other -/

/-- The connection is at work on the first of some requests, with the accounts and disk
`b`: it waits for more of it, or works on what it has, or sends the response. -/
inductive AtWork (root : String) (b : Backend) : List Bytes → Talk → Prop
  | reading {x : Talk} {Bs : List Bytes} (stage : x.stage = .reading)
    (reached : Reached .reading x.connection) (backend : x.backend = b) (taken : x.taken = [])
    (bytes : x.connection.received ++ (x.waiting ++ x.coming) = Bs.flatten)
    (short : ∀ B ∈ Bs.head?, x.connection.filled < B.length) : AtWork root b Bs x
  | processing {x : Talk} {B : Bytes} {Bs : List Bytes} (stage : x.stage = .processing)
    (reached : Reached .processing x.connection) (backend : x.backend = b) (taken : x.taken = [])
    (bytes : x.connection.received ++ (x.waiting ++ x.coming) = B ++ Bs.flatten)
    (within : x.connection.filled ≤ B.length) : AtWork root b (B :: Bs) x
  | writing {x : Talk} {B : Bytes} {Bs : List Bytes} {c : Connection} (stage : x.stage = .writing)
    (reached : Reached .processing c) (received : B <+: c.received)
    (heldUp : HeldUp (c.process root b).2.1 x.taken x.connection)
    (backend : x.backend = (c.process root b).2.2)
    (bytes : x.waiting ++ x.coming = Bs.flatten)
    (within : x.connection.filled ≤ B.length) : AtWork root b (B :: Bs) x

theorem AtWork.arrive (h : AtWork root b Bs x) {front back : Bytes}
    (heq : x.coming = front ++ back) :
    AtWork root b Bs { x with coming := back, waiting := x.waiting ++ front } := by
  have hsame : x.waiting ++ front ++ back = x.waiting ++ x.coming := by
    rw [heq, List.append_assoc]
  cases h with
  | reading stage reached backend taken bytes short =>
    exact .reading stage reached backend taken (by rw [← bytes, ← hsame]) short
  | processing stage reached backend taken bytes within =>
    exact .processing stage reached backend taken (by rw [← bytes, ← hsame]) within
  | writing stage reached received heldUp backend bytes within =>
    exact .writing stage reached received heldUp backend (by rw [← bytes, ← hsame]) within

/-- A read takes over the bytes that were waiting, as far as there is room. -/
theorem Reached.read_eq (h : Reached .reading x.connection) (now : Nat)
    {replies : List ReadReply} (harrives : Arrives x.waiting replies) :
    (x.read now replies).stage = .processing ∧
      Reached .processing (x.read now replies).connection ∧
      (x.read now replies).connection.received =
        x.connection.received ++ x.waiting.take x.connection.room ∧
      (x.read now replies).waiting = x.waiting.drop x.connection.room := by
  obtain ⟨hreceiving, hroom⟩ : Receiving x.connection ∧ x.connection.filled < readCapacity :=
    h.consistent
  rw [← hreceiving.held.size] at hroom
  obtain ⟨since, hread⟩ := read_waiting harrives now hreceiving.held.live hroom
  have hnext := h.step (.read now replies)
  have hcount : (x.connection.takeIn x.waiting).filled - x.connection.filled =
      min x.connection.room x.waiting.length := by
    rw [filled_takeIn, Nat.add_sub_cancel_left]
  simp only [Talk.read, hread] at hnext ⊢
  refine ⟨rfl, hnext, received_takeIn hreceiving.held.cursors.filled_le x.waiting, ?_⟩
  rw [hcount]
  rcases Nat.le_total x.connection.room x.waiting.length with hle | hle
  · rw [Nat.min_eq_left hle]
  · rw [Nat.min_eq_right hle, List.drop_length, List.drop_of_length_le hle]

/-- A read leaves what has arrived in its order. -/
theorem Reached.read_bytes (h : Reached .reading x.connection) (now : Nat)
    {replies : List ReadReply} (harrives : Arrives x.waiting replies) :
    (x.read now replies).connection.received ++ (x.read now replies).waiting =
      x.connection.received ++ x.waiting := by
  obtain ⟨-, -, hreceived, hwaiting⟩ := h.read_eq now harrives
  rw [hreceived, hwaiting, List.append_assoc, List.take_append_drop]

theorem Receiving.length_received (h : Receiving c) : c.received.length = c.filled :=
  h.holds.length

/-- A read leaves the connection at work on the same request, if it takes in nothing
behind it. -/
theorem AtWork.read (h : AtWork root b Bs x) (stage : x.stage = .reading) (some : x.waiting ≠ [])
    (now : Nat) {replies : List ReadReply} (arrives : Arrives x.waiting replies)
    (within : ∀ B ∈ Bs.head?, (x.read now replies).connection.filled ≤ B.length) :
    AtWork root b Bs (x.read now replies) := by
  cases h with
  | reading _ reached backend taken bytes short =>
    obtain ⟨hstage, hreached, -⟩ := reached.read_eq now arrives
    cases Bs with
    | nil =>
      have hnone := (List.append_eq_nil_iff.mp (List.append_eq_nil_iff.mp bytes).2).1
      exact absurd hnone some
    | cons B Bs =>
      refine .processing hstage hreached backend taken ?_ (within B rfl)
      rw [← List.append_assoc, reached.read_bytes now arrives, List.append_assoc]
      exact bytes
  | processing stage' | writing stage' =>
    rw [stage] at stage'
    cases stage'

/-- Processing takes in nothing. -/
theorem Receiving.filled_process (h : Receiving c) (root : String) (b : Backend) :
    (c.process root b).2.1.filled = c.filled := by
  obtain ⟨keepAlive, status, output, file, total, -, heq⟩ := process_eq root b c
  rw [heq, h.held.cursors.parse_frame]
  rfl

/-- Processing comes to the answer that the request has alone, once all of it has come in,
and asks for more before. -/
theorem AtWork.process (h : AtWork root b (B :: Bs) x) (stage : x.stage = .processing)
    (hopen : KeepsOpen root b B) : AtWork root b (B :: Bs) (x.process root) := by
  cases h with
  | processing _ reached backend taken bytes within =>
    have hreceiving : Receiving x.connection := reached.consistent
    have hlength := hreceiving.length_received
    by_cases hwhole : x.connection.received = B
    · have hreceived : B <+: x.connection.received := hwhole ▸ List.prefix_rfl
      have hanswer := hopen.answeredAlone reached hreceived
      refine .writing ?_ reached hreceived ?_ ?_ ?_ ?_
      · rw [Talk.process, backend, hanswer.outcome]
        rfl
      · rw [Talk.process, backend, taken]
        exact .start
      · rw [Talk.process, backend]
      · rw [hwhole] at bytes
        exact List.append_cancel_left bytes
      · rw [Talk.process, hreceiving.filled_process]
        exact within
    · obtain ⟨r, whole, -⟩ := hopen.whole
      have hfront : x.connection.received <+: B :=
        List.prefix_of_prefix_length_le ⟨_, bytes⟩ ⟨_, rfl⟩ (by rw [hlength]; exact within)
      have hincomplete := reached.parse_incomplete whole hopen.fits hfront hwhole
      have hprocess := process_incomplete root x.backend hincomplete
      have hframe := hreceiving.held.cursors.parse_frame
      have hnext := reached.step (.process root x.backend)
      rw [hprocess] at hnext
      refine .reading ?_ ?_ ?_ taken ?_ ?_
      · rw [Talk.process, hprocess]
        rfl
      · rw [Talk.process, hprocess]
        exact hnext
      · rw [Talk.process, hprocess]
        exact backend
      · rw [Talk.process, hprocess, hframe]
        exact bytes
      · rintro B' hB'
        obtain rfl := Option.some.inj hB'
        rw [Talk.process, hprocess, hframe]
        refine Nat.lt_of_le_of_ne within ?_
        intro heq
        exact hwhole (hfront.eq_of_length (hlength.trans heq))
  | reading stage' | writing stage' =>
    rw [stage] at stage'
    cases stage'

theorem HeldUp.reached {d e : Connection} {taken : Bytes} (h : HeldUp d taken e)
    (hd : Reached .writing d) : Reached .writing e := by
  induction h with
  | start => exact hd
  | @call _ _ _ now replies _ pending ih =>
    have hstep := ih.step (.write now replies)
    rw [pending] at hstep
    exact hstep

/-- A stream that takes no more than what is left on the connection takes no more than
what is left of the response. -/
theorem HeldUp.honest {e : Connection} {taken : Bytes} {replies : List WriteReply}
    (h : HeldUp (c.process root b).2.1 taken e) (hc : Reached .processing c)
    (hready : (c.process root b).1 = .ok .readyToWrite)
    (honest : Honest (e.total - e.sent) replies) :
    Honest ((c.process root b).2.1.response.length - taken.length) replies := by
  have hreceiving : Receiving c := hc.consistent
  obtain ⟨hsending, hsent⟩ := hreceiving.sending hready
  obtain ⟨rfl, -, -⟩ := h.eq hsending hsent
  rw [← hsending.total]
  exact honest

/-- When a response has gone out, a connection whose stream stays open starts anew. -/
theorem finish_stays (hkeep : c.request.keepAlive = true) (now : Nat) :
    ∃ m : Summary, m.keepAlive = true ∧ c.finish now = (.complete m, c.reset) := by
  have hfinish : c.finish now = (.complete ⟨c.status, c.sent, true, c.since.map (now - ·)⟩,
      c.reset) := by
    simp only [finish, hkeep, if_true]
    rfl
  exact ⟨_, rfl, hfinish⟩

/-- The response to a request has been sent as far as `taken`, and the rest of it is what
the connection goes on with. -/
structure PartSent (root : String) (b : Backend) (B taken : Bytes) (e : Connection) : Prop where
  sending : Sending e
  reached : Reached .writing e
  keepAlive : e.request.keepAlive = true
  response : taken ++ e.response.drop e.sent = ((alone B).process root b).2.1.response

theorem KeepsOpen.partSent (h : KeepsOpen root b B) (reached : Reached .processing c)
    (received : B <+: c.received) {taken : Bytes} {e : Connection}
    (heldUp : HeldUp (c.process root b).2.1 taken e) : PartSent root b B taken e := by
  have hreceiving : Receiving c := reached.consistent
  have hanswer := h.answeredAlone reached received
  obtain ⟨hsending, hsent⟩ := hreceiving.sending hanswer.outcome
  have hprocessed := reached.step (.process root b)
  rw [hanswer.outcome] at hprocessed
  have hwriting := heldUp.reached hprocessed
  obtain ⟨rfl, htaken, hlt⟩ := heldUp.eq hsending hsent
  refine ⟨hsending.withSent hlt, hwriting, hanswer.keepAlive, ?_⟩
  rw [← hanswer.response]
  conv => lhs; lhs; rw [htaken]
  exact List.take_append_drop _ _

/-- Once all of a response has been sent, the connection is at work on the next request. -/
theorem PartSent.answered (h : PartSent root b B x.taken x.connection) {now : Nat}
    {replies : List WriteReply}
    (hwrite : x.connection.write now replies =
      (.ok ({ x.connection with sent := x.connection.total }.finish now).1,
        ({ x.connection with sent := x.connection.total }.finish now).2,
        x.connection.response.drop x.connection.sent))
    (bytes : x.waiting ++ x.coming = Bs.flatten) (nonempty : ∀ B ∈ Bs.head?, B ≠ []) :
    (x.write now replies).answers = x.answers ++ [((alone B).process root b).2.1.response] ∧
      AtWork root x.backend Bs (x.write now replies) := by
  obtain ⟨m, hm, hfinish⟩ :=
    finish_stays (c := { x.connection with sent := x.connection.total }) h.keepAlive now
  rw [hfinish] at hwrite
  have hstage : afterWrite (.ok (.complete m)) = .reading := by
    rw [afterWrite, hm]
    rfl
  have hnext := h.reached.step (.write now replies)
  rw [hwrite, hstage] at hnext
  have heq : x.write now replies = { x with
      stage := .reading, connection := x.connection.reset, taken := []
      answers := x.answers ++ [((alone B).process root b).2.1.response] } := by
    simp only [Talk.write, hwrite, hstage, h.response]
    rfl
  rw [heq]
  refine ⟨rfl, .reading rfl hnext rfl rfl bytes ?_⟩
  intro B hB
  exact List.length_pos_iff.mpr (nonempty B hB)

/-- The stream may take all that is left of a response at once. -/
theorem PartSent.exists_answered (h : PartSent root b B x.taken x.connection)
    (stage : x.stage = .writing) (bytes : x.waiting ++ x.coming = Bs.flatten)
    (nonempty : ∀ B ∈ Bs.head?, B ≠ []) :
    ∃ y, Move root x y ∧ y.coming = x.coming ∧
      y.answers = x.answers ++ [((alone B).process root b).2.1.response] ∧
      AtWork root x.backend Bs y := by
  obtain ⟨honest, hwrite, hsome⟩ := h.sending.write_rest 0
  refine ⟨_, .write stage 0 honest ?_ ?_, x.coming_write _ _, h.answered hwrite bytes nonempty⟩
  · rw [hwrite]
    exact hsome
  · rw [hwrite]
    simp [finish]

/-- While the response of a request that keeps the stream open goes out, the connection
stays at work on the request or, with the last byte, goes on to the next one. -/
theorem AtWork.write (h : AtWork root b (B :: Bs) x) (stage : x.stage = .writing)
    (hopen : KeepsOpen root b B) (nonempty : ∀ B ∈ Bs.head?, B ≠ []) (now : Nat)
    {replies : List WriteReply}
    (honest : Honest (x.connection.total - x.connection.sent) replies)
    (unbroken : (x.connection.write now replies).1 ≠ .ok .failed) :
    ((x.write now replies).answers = x.answers ∧ AtWork root b (B :: Bs) (x.write now replies)) ∨
      ((x.write now replies).answers =
          x.answers ++ [((alone B).process root b).2.1.response] ∧
        AtWork root ((alone B).process root b).2.2 Bs (x.write now replies)) := by
  cases h with
  | @writing _ _ _ c _ reached received heldUp backend bytes within =>
    have hpart := hopen.partSent reached received heldUp
    have hanswer := hopen.answeredAlone reached received
    obtain ⟨used, later, rfl, hsteady, hall | ⟨hstop, hblocked | hbroken⟩⟩ :=
      hpart.sending.stops honest
    · right
      rw [← hanswer.backend, ← backend]
      exact hpart.answered (hpart.sending.write_done now hsteady hall) bytes nonempty
    · left
      have hpending := congrArg Prod.fst (hpart.sending.write_pending now hsteady hstop hblocked)
      have hcall := heldUp.call now (heldUp.honest reached hanswer.outcome honest) hpending
      have hsame : x.write now (used ++ later) = { x with
          connection := (x.connection.write now (used ++ later)).2.1
          taken := x.taken ++ (x.connection.write now (used ++ later)).2.2 } := by
        simp only [Talk.write, hpending, afterWrite, stage]
      rw [hsame]
      refine ⟨rfl, .writing stage reached received hcall backend bytes ?_⟩
      rw [hpart.sending.write_pending now hsteady hstop hblocked]
      exact within
    · rw [hpart.sending.write_failed now hsteady hstop hbroken] at unbroken
      exact absurd rfl unbroken
  | reading stage' | processing stage' =>
    rw [stage] at stage'
    cases stage'

/-! ## Every move -/

theorem AllKeepOpen.ne_nil (h : AllKeepOpen root b Bs) : ∀ B ∈ Bs.head?, B ≠ [] := by
  cases Bs with
  | nil => simp
  | cons B Bs =>
    intro B' hB'
    obtain rfl := Option.some.inj hB'
    exact h.1.ne_nil

/-- The first request has been answered as it is alone, and the next one is being worked
on. -/
def AnsweredFirst (root : String) (b : Backend) (Bs : List Bytes) (x y : Talk) : Prop :=
  ∃ B Bs', Bs = B :: Bs' ∧ y.answers = x.answers ++ [((alone B).process root b).2.1.response] ∧
    AtWork root ((alone B).process root b).2.2 Bs' y

theorem AtWork.move (h : AtWork root b Bs x) (hkept : AllKeepOpen root b Bs) (hmove : Move root x y)
    (within : y.stage = .processing → ∀ B ∈ Bs.head?, y.connection.filled ≤ B.length) :
    (y.answers = x.answers ∧ AtWork root b Bs y) ∨ AnsweredFirst root b Bs x y := by
  cases hmove with
  | arrive front back some eq => exact .inl ⟨rfl, h.arrive eq⟩
  | @read stage some now replies arrives =>
    have hstage : (x.read now replies).stage = .processing := by
      cases h with
      | reading _ reached => exact (reached.read_eq now arrives).1
      | processing stage' | writing stage' => rw [stage] at stage'; cases stage'
    exact .inl ⟨rfl, h.read stage some now arrives (within hstage)⟩
  | process stage =>
    cases Bs with
    | nil =>
      cases h with
      | reading stage' => rw [stage] at stage'; cases stage'
    | cons B Bs => exact .inl ⟨rfl, h.process stage hkept.1⟩
  | write stage now honest some unbroken =>
    cases Bs with
    | nil =>
      cases h with
      | reading stage' => rw [stage] at stage'; cases stage'
    | cons B Bs =>
      rcases h.write stage hkept.1 hkept.2.ne_nil now honest unbroken with hsame | ⟨hanswers, hwork⟩
      · exact .inl hsame
      · exact .inr ⟨B, Bs, rfl, hanswers, hwork⟩

/-- Some requests have been answered as they are alone, and the others are being worked
on. -/
def Following (root : String) (b : Backend) (Bs : List Bytes) (x : Talk) : Prop :=
  ∃ front back, Bs = front ++ back ∧ x.answers = (answersAlone root b front).1 ∧
    AtWork root (answersAlone root b front).2 back x

/-- The request that is answered next. -/
theorem getElem?_answers {front back : List Bytes}
    (h : x.answers = (answersAlone root b front).1) :
    (front ++ back)[x.answers.length]? = back.head? := by
  rw [h, length_answersAlone, List.getElem?_append_right (Nat.le_refl _), Nat.sub_self,
    List.head?_eq_getElem?]

theorem Move.answers_eq (h : Move root x y) (hstage : y.stage = .processing) :
    y.answers = x.answers := by
  cases h with
  | arrive | read | process => rfl
  | write =>
    rw [Talk.stage_write] at hstage
    exact absurd hstage (afterWrite_ne_processing _)

theorem Following.move (h : Following root b Bs x) (hkept : AllKeepOpen root b Bs)
    (hmove : Move root x y)
    (within : y.stage = .processing →
      ∀ B ∈ Bs[y.answers.length]?, y.connection.filled ≤ B.length) :
    Following root b Bs y := by
  obtain ⟨front, back, rfl, hanswers, hwork⟩ := h
  have hwithin : y.stage = .processing → ∀ B ∈ back.head?, y.connection.filled ≤ B.length := by
    intro hstage
    have hnext := within hstage
    rwa [hmove.answers_eq hstage, getElem?_answers hanswers] at hnext
  rcases hwork.move hkept.behind hmove hwithin with ⟨hsame, hwork'⟩ | ⟨B, back, rfl, hnext, hwork'⟩
  · exact ⟨front, back, rfl, hsame.trans hanswers, hwork'⟩
  · refine ⟨front ++ [B], back, by simp, ?_, ?_⟩
    · rw [hnext, hanswers, answersAlone_append]
      rfl
    · rw [answersAlone_append]
      exact hwork'

/-! ## Runs that keep the requests apart -/

/-- The connection has read nothing behind the request that it answers next. -/
def Apart (Bs : List Bytes) (x : Talk) : Prop :=
  ∀ B ∈ Bs[x.answers.length]?, x.connection.filled ≤ B.length

/-- Each request is sent only after the response to the one before it has been received. -/
def Waits (Bs : List Bytes) (x : Talk) : Prop :=
  (Bs.drop (x.answers.length + 1)).flatten <:+ x.coming

/-- What has been read of a request is no more than has been sent of it. -/
theorem AtWork.filled_le (h : AtWork root b (B :: Bs) x) (hmove : Move root x y)
    (hstage : y.stage = .processing) (hwaits : Bs.flatten <:+ y.coming) :
    y.connection.filled ≤ B.length := by
  cases hmove with
  | arrive =>
    cases h with
    | processing _ _ _ _ _ within => exact within
    | reading stage' | writing stage' => rw [stage'] at hstage; cases hstage
  | @read stage some now replies arrives =>
    cases h with
    | reading _ reached _ _ bytes =>
      obtain ⟨-, hreached, -⟩ := reached.read_eq now arrives
      have hreceiving : Receiving (x.read now replies).connection := hreached.consistent
      have hlength := congrArg List.length bytes
      rw [← List.append_assoc, ← reached.read_bytes now arrives] at hlength
      have hsuffix := hwaits.length_le
      simp only [List.flatten_cons, List.length_append, hreceiving.length_received] at hlength
      change Bs.flatten.length ≤ x.coming.length at hsuffix
      omega
    | processing stage' | writing stage' => rw [stage] at stage'; cases stage'
  | process => exact absurd hstage (afterProcess_ne_processing _)
  | write =>
    rw [Talk.stage_write] at hstage
    exact absurd hstage (afterWrite_ne_processing _)

theorem Following.within_of_waits (h : Following root b Bs x) (hmove : Move root x y)
    (hwaits : Waits Bs y) (hstage : y.stage = .processing) :
    ∀ B ∈ Bs[y.answers.length]?, y.connection.filled ≤ B.length := by
  obtain ⟨front, back, rfl, hanswers, hwork⟩ := h
  rw [Waits, hmove.answers_eq hstage, hanswers, length_answersAlone, ← List.drop_drop,
    List.drop_left] at hwaits
  rw [hmove.answers_eq hstage, getElem?_answers hanswers]
  intro B hB
  cases back with
  | nil => simp at hB
  | cons B' back =>
    obtain rfl := Option.some.inj hB
    exact hwork.filled_le hmove hstage hwaits

theorem Following.of_run {kind : Talk → Prop} {start : Talk} (hstart : Following root b Bs start)
    (hkept : AllKeepOpen root b Bs)
    (hkind : ∀ {x y}, Following root b Bs x → Move root x y → kind y → y.stage = .processing →
      ∀ B ∈ Bs[y.answers.length]?, y.connection.filled ≤ B.length)
    (hrun : Run root kind start x) : Following root b Bs x := by
  -- On the moves so far: each of them leaves the front of the requests answered.
  induction hrun with
  | refl => exact hstart
  | tail _ hnext ih => exact ih.move hkept hnext.1 (hkind ih hnext.1 hnext.2)

theorem Following.of_apart {start : Talk} (hstart : Following root b Bs start)
    (hkept : AllKeepOpen root b Bs) (hrun : Run root (Apart Bs) start x) : Following root b Bs x :=
  hstart.of_run hkept (fun _ _ hapart _ => hapart) hrun

theorem Following.of_waits {start : Talk} (hstart : Following root b Bs start)
    (hkept : AllKeepOpen root b Bs) (hrun : Run root (Waits Bs) start x) : Following root b Bs x :=
  hstart.of_run hkept (fun h hmove hwaits hstage => h.within_of_waits hmove hwaits hstage) hrun

theorem AtWork.filled_le_head (h : AtWork root b Bs x) :
    ∀ B ∈ Bs.head?, x.connection.filled ≤ B.length := by
  cases h with
  | reading _ _ _ _ _ short => exact fun B hB => Nat.le_of_lt (short B hB)
  | processing _ _ _ _ _ within | writing _ _ _ _ _ _ within =>
    intro B hB
    obtain rfl := Option.some.inj hB
    exact within

theorem Following.apart (h : Following root b Bs x) : Apart Bs x := by
  obtain ⟨front, back, rfl, hanswers, hwork⟩ := h
  rw [Apart, getElem?_answers hanswers]
  exact hwork.filled_le_head

/-- A client that waits for each response keeps its requests apart. -/
theorem Following.apart_of_waits {start : Talk} (hstart : Following root b Bs start)
    (hkept : AllKeepOpen root b Bs) (hrun : Run root (Waits Bs) start x) :
    Run root (Apart Bs) start x := by
  induction hrun with
  | refl => exact .refl
  | tail hrun hnext ih =>
    exact ih.tail ⟨hnext.1, (hstart.of_waits hkept (hrun.tail hnext)).apart⟩

/-! ## Where a run ends -/

/-- The connection can go on by itself, unless it reads and there is nothing to read. -/
theorem AtWork.advances (h : AtWork root b Bs x) (hkept : AllKeepOpen root b Bs) :
    (x.stage = .reading ∧ x.waiting = []) ∨ ∃ y, Move root x y ∧ y.coming = x.coming := by
  cases h with
  | reading stage =>
    by_cases hsome : x.waiting = []
    · exact .inl ⟨stage, hsome⟩
    · exact .inr ⟨_, .read stage hsome 0 (Delivery.atOnce x.waiting hsome).arrives, rfl⟩
  | processing stage => exact .inr ⟨_, .process stage, rfl⟩
  | writing stage reached received heldUp _ bytes =>
    obtain ⟨y, hmove, hcoming, -⟩ := (hkept.1.partSent reached received heldUp).exists_answered
      stage bytes hkept.2.ne_nil
    exact .inr ⟨y, hmove, hcoming⟩

theorem done_of_idle (hstage : x.stage = .reading) (hcoming : x.coming = [])
    (hwaiting : x.waiting = []) : Done root x := by
  intro y hmove
  cases hmove with
  | arrive front back some eq =>
    rw [hcoming] at eq
    exact some (List.append_eq_nil_iff.mp eq.symm).1
  | read _ some => exact some hwaiting
  | process stage | write stage => rw [hstage] at stage; cases stage

/-- With the last request answered nothing is left to be done. -/
theorem AtWork.done (h : AtWork root b [] x) : Done root x := by
  cases h with
  | reading stage _ _ _ bytes =>
    obtain ⟨-, hleft⟩ := List.append_eq_nil_iff.mp bytes
    obtain ⟨hwaiting, hcoming⟩ := List.append_eq_nil_iff.mp hleft
    exact done_of_idle stage hcoming hwaiting

/-- A connection that reads and has no more to read has answered everything. -/
theorem AtWork.eq_nil (h : AtWork root b Bs x) (hstage : x.stage = .reading)
    (hcoming : x.coming = []) (hwaiting : x.waiting = []) : Bs = [] ∧ x.backend = b := by
  cases h with
  | reading _ reached backend _ bytes short =>
    refine ⟨?_, backend⟩
    obtain ⟨hreceiving, -⟩ : Receiving x.connection ∧ x.connection.filled < readCapacity :=
      reached.consistent
    cases Bs with
    | nil => rfl
    | cons B Bs =>
      have hlength := congrArg List.length bytes
      have hshort := short B rfl
      simp only [hcoming, hwaiting, List.flatten_cons, List.length_append,
        hreceiving.length_received, List.length_nil] at hlength
      omega
  | processing stage' | writing stage' => rw [hstage] at stage'; cases stage'

/-- A run that has come to its end has answered all requests. -/
theorem Following.of_done (h : Following root b Bs x) (hkept : AllKeepOpen root b Bs)
    (hdone : Done root x) :
    x.answers = (answersAlone root b Bs).1 ∧ x.backend = (answersAlone root b Bs).2 := by
  obtain ⟨front, back, rfl, hanswers, hwork⟩ := h
  have hcoming : x.coming = [] := by
    by_contra hsome
    exact hdone _ (.arrive x.coming [] hsome (List.append_nil _).symm)
  rcases hwork.advances hkept.behind with ⟨hstage, hwaiting⟩ | ⟨y, hmove, -⟩
  · obtain ⟨rfl, hbackend⟩ := hwork.eq_nil hstage hcoming hwaiting
    rw [List.append_nil]
    exact ⟨hanswers, hbackend⟩
  · exact absurd hmove (hdone y)

theorem Following.stage_mem (h : Following root b Bs x) :
    x.stage = .reading ∨ x.stage = .processing ∨ x.stage = .writing := by
  obtain ⟨front, back, -, -, hwork⟩ := h
  cases hwork with
  | reading stage => exact .inl stage
  | processing stage => exact .inr (.inl stage)
  | writing stage => exact .inr (.inr stage)

theorem Following.answers_first (h : Following root b Bs x) :
    x.answers <+: (answersAlone root b Bs).1 := by
  obtain ⟨front, back, rfl, hanswers, -⟩ := h
  rw [hanswers, answersAlone_append]
  exact List.prefix_append _ _

/-! ## A client that waits for each response -/

theorem waits_of_le {n m : Nat} (h : n ≤ m) (Bs : List Bytes) {coming : Bytes}
    (hn : (Bs.drop n).flatten <:+ coming) : (Bs.drop m).flatten <:+ coming := by
  have hmore : (Bs.drop m).flatten <:+ (Bs.drop n).flatten := by
    obtain ⟨k, rfl⟩ := Nat.exists_eq_add_of_le h
    rw [← List.drop_drop]
    exact ⟨((Bs.drop n).take k).flatten, by rw [← List.flatten_append, List.take_append_drop]⟩
  exact hmore.trans hn

theorem Move.answers_kept (h : Move root x y) : x.answers <+: y.answers := by
  cases h with
  | arrive | read | process => exact List.prefix_rfl
  | write =>
    simp only [Talk.write]
    split
    · exact List.prefix_append _ _
    · exact List.prefix_rfl

/-- What is left of a request that has not been read whole is still to come. -/
theorem AtWork.rest_coming (h : AtWork root b (B :: Bs) x) (hstage : x.stage = .reading)
    (hwaiting : x.waiting = []) : ∃ rest, rest ≠ [] ∧ x.coming = rest ++ Bs.flatten := by
  cases h with
  | reading _ reached _ _ bytes short =>
    obtain ⟨hreceiving, -⟩ : Receiving x.connection ∧ x.connection.filled < readCapacity :=
      reached.consistent
    have hshort := short B rfl
    rw [← hreceiving.length_received] at hshort
    rw [hwaiting, List.nil_append, List.flatten_cons] at bytes
    obtain ⟨rest, rfl⟩ := List.prefix_of_prefix_length_le ⟨_, bytes⟩ ⟨_, rfl⟩ (Nat.le_of_lt hshort)
    refine ⟨rest, ?_, ?_⟩
    · rintro rfl
      simp at hshort
    · rw [List.append_assoc] at bytes
      exact List.append_cancel_left bytes
  | processing stage' | writing stage' => rw [hstage] at stage'; cases stage'

/-- A client that waits for each response can go on until all requests have been
answered. -/
theorem Following.next (h : Following root b Bs x) (hkept : AllKeepOpen root b Bs)
    (hwaits : Waits Bs x) : Done root x ∨ ∃ y, Move root x y ∧ Waits Bs y := by
  obtain ⟨front, back, rfl, hanswers, hwork⟩ := h
  rcases hwork.advances hkept.behind with ⟨hstage, hwaiting⟩ | ⟨y, hmove, hcoming⟩
  · cases back with
    | nil => exact .inl hwork.done
    | cons B back =>
      obtain ⟨rest, hsome, hcoming⟩ := hwork.rest_coming hstage hwaiting
      refine .inr ⟨_, .arrive rest back.flatten hsome hcoming, ?_⟩
      rw [Waits, hanswers, length_answersAlone, ← List.drop_drop, List.drop_left]
      exact List.suffix_rfl
  · refine .inr ⟨y, hmove, ?_⟩
    rw [Waits, hcoming]
    exact waits_of_le (Nat.add_le_add_right hmove.answers_kept.length_le 1) _ hwaits

theorem Following.exists_run (h : Following root b Bs x) (hkept : AllKeepOpen root b Bs)
    (hwaits : Waits Bs x) : ∃ y, Run root (Waits Bs) x y ∧ Done root y := by
  -- On what is still to be done, of which every move leaves less.
  induction x using (wellFounded_move root).induction with
  | _ x ih =>
    rcases h.next hkept hwaits with hdone | ⟨y, hmove, hnext⟩
    · exact ⟨x, .refl, hdone⟩
    · have hfollows :=
        h.move hkept hmove fun hstage => h.within_of_waits hmove hnext hstage
      obtain ⟨z, hrun, hdone⟩ := ih y hmove hfollows hnext
      exact ⟨z, .head ⟨hmove, hnext⟩ hrun, hdone⟩

/-! ## Whatever way the bytes arrive -/

/-- A connection that has just been attached, and bytes that a client sends on its
stream. -/
def opening (c : Connection) (fd : Nat) (peer : Net.SocketAddress) (b : Backend) (sent : Bytes) :
    Talk :=
  { stage := .reading, connection := c.attach fd peer, backend := b, coming := sent }

theorem following_opening (hc : Reached .closed c) (fd : Nat) (peer : Net.SocketAddress)
    (hkept : AllKeepOpen root b Bs) : Following root b Bs (opening c fd peer b Bs.flatten) := by
  refine ⟨[], Bs, rfl, rfl, .reading rfl (hc.step (.attach fd peer)) rfl rfl rfl ?_⟩
  intro B hB
  exact List.length_pos_iff.mpr (hkept.ne_nil B hB)

/-- Requests that keep the stream open are all answered, whatever way their bytes arrive,
as long as no read takes in bytes behind the request that it belongs to.  No run goes on
forever, and one that has come to its end has sent the client a response to each request,
the same and in the same order as where each request is sent only after the response to
the one before it has been received; and it leaves the same accounts and disk.  Before its
end a run has sent the first of these responses, and the stream stays open. -/
theorem Run.answers_apart (hkept : AllKeepOpen root b Bs) (hc : Reached .closed c) (fd : Nat)
    (peer : Net.SocketAddress) :
    let start := opening c fd peer b Bs.flatten
    (WellFounded fun y x => Move root x y) ∧
    (∃ y, Run root (Waits Bs) start y ∧ Done root y) ∧
    ∀ {y}, Run root (Waits Bs) start y → Done root y →
      y.answers.length = Bs.length ∧
      ∀ {x}, Run root (Apart Bs) start x →
        x.answers <+: y.answers ∧
        (x.stage = .reading ∨ x.stage = .processing ∨ x.stage = .writing) ∧
        (Done root x → x.answers = y.answers ∧ x.backend = y.backend) := by
  intro start
  have hstart : Following root b Bs start := following_opening hc fd peer hkept
  have hwaits : Waits Bs start := waits_of_le (Nat.zero_le _) Bs List.suffix_rfl
  refine ⟨wellFounded_move root, hstart.exists_run hkept hwaits, ?_⟩
  intro y hrun hdone
  obtain ⟨hanswers, hbackend⟩ := (hstart.of_waits hkept hrun).of_done hkept hdone
  refine ⟨by rw [hanswers, length_answersAlone], ?_⟩
  intro x hrun'
  have hx := hstart.of_apart hkept hrun'
  refine ⟨by rw [hanswers]; exact hx.answers_first, hx.stage_mem, ?_⟩
  intro hdone'
  obtain ⟨hanswers', hbackend'⟩ := hx.of_done hkept hdone'
  exact ⟨hanswers'.trans hanswers.symm, hbackend'.trans hbackend.symm⟩

/-! ## Requests that arrive early -/

/-- A first request that has come in by itself, and the response to it on its way. -/
theorem exists_writing (hkept : AllKeepOpen root b (B :: Bs)) (hc : Reached .closed c) (fd : Nat)
    (peer : Net.SocketAddress) :
    ∃ s, Run root (Waits (B :: Bs)) (opening c fd peer b (B :: Bs).flatten) s ∧
      s.stage = .writing ∧ s.answers = [] ∧ s.waiting = [] ∧ s.coming = Bs.flatten := by
  have hopen := hkept.1
  let start := opening c fd peer b (B :: Bs).flatten
  let first : Talk := { start with coming := Bs.flatten, waiting := B }
  have hwaits (s : Talk) (hanswers : s.answers = []) (hcoming : s.coming = Bs.flatten) :
      Waits (B :: Bs) s := by
    rw [Waits, hanswers, hcoming]
    exact List.suffix_rfl
  have harrive : Move root start first := .arrive B Bs.flatten hopen.ne_nil List.flatten_cons
  have harrives := (Delivery.atOnce B hopen.ne_nil).arrives
  have hread : Move root first (first.read 0 _) := .read rfl hopen.ne_nil 0 harrives
  have hattached : Reached .reading first.connection := hc.step (.attach fd peer)
  obtain ⟨hstage, hreached, hreceived, hwaiting⟩ := hattached.read_eq 0 harrives
  have hroom : first.waiting.length ≤ first.connection.room := by
    rw [room, show first.connection.input.size = readCapacity from size_attach c fd peer]
    exact hopen.fits
  rw [List.take_of_length_le hroom] at hreceived
  rw [List.drop_of_length_le hroom] at hwaiting
  have hanswer := hopen.answeredAlone hreached ⟨[], by rw [hreceived]; exact List.append_nil _⟩
  refine ⟨(first.read 0 _).process root, ?_, congrArg afterProcess hanswer.outcome, rfl,
    hwaiting, rfl⟩
  exact .tail (.tail (.single ⟨harrive, hwaits _ rfl rfl⟩) ⟨hread, hwaits _ rfl rfl⟩)
    ⟨.process hstage, hwaits _ rfl rfl⟩

/-- With the first response on its way, it may go out whole. -/
theorem Following.exists_first (h : Following root b (B :: Bs) x)
    (hkept : AllKeepOpen root b (B :: Bs))
    (hstage : x.stage = .writing) (hnone : x.answers = []) :
    ∃ y, Move root x y ∧ y.coming = x.coming ∧ y.answers.length = 1 ∧
      Following root b (B :: Bs) y := by
  have hfollows := h
  obtain ⟨front, back, hsplit, hanswers, hwork⟩ := h
  have hfront : front = [] := by
    rw [← List.length_eq_zero_iff, ← length_answersAlone root b front, ← hanswers, hnone]
    rfl
  subst hfront
  rw [List.nil_append] at hsplit
  subst hsplit
  cases hwork with
  | writing _ reached received heldUp _ bytes =>
    obtain ⟨y, hmove, hcoming, hanswers', -⟩ := (hkept.1.partSent reached received
      heldUp).exists_answered hstage bytes hkept.2.ne_nil
    rw [hnone, List.nil_append] at hanswers'
    refine ⟨y, hmove, hcoming, by rw [hanswers']; rfl, hfollows.move hkept hmove ?_⟩
    intro hprocessing
    cases hanswers'.symm.trans ((hmove.answers_eq hprocessing).trans hnone)
  | reading stage' | processing stage' => rw [hstage] at stage'; cases stage'

/-- The second request may arrive while the first one is being answered. -/
theorem exists_run_early {B' : Bytes} (hkept : AllKeepOpen root b (B :: B' :: Bs))
    (hc : Reached .closed c) (fd : Nat) (peer : Net.SocketAddress) :
    ∃ s x, Run root (Apart (B :: B' :: Bs)) (opening c fd peer b (B :: B' :: Bs).flatten) s ∧
      s.stage = .writing ∧ s.answers = [] ∧ s.waiting = B' ∧
      Run root (Apart (B :: B' :: Bs)) s x ∧ Done root x := by
  have hstart : Following root b (B :: B' :: Bs) (opening c fd peer b (B :: B' :: Bs).flatten) :=
    following_opening hc fd peer hkept
  obtain ⟨s, hrun, hstage, hanswers, hwaiting, hcoming⟩ := exists_writing hkept hc fd peer
  let early : Talk := { s with coming := Bs.flatten, waiting := s.waiting ++ B' }
  have harrive : Move root s early := .arrive B' Bs.flatten hkept.2.1.ne_nil hcoming
  have hearly : Following root b (B :: B' :: Bs) early := by
    refine (hstart.of_waits hkept hrun).move hkept harrive fun hprocessing => ?_
    cases hstage.symm.trans hprocessing
  obtain ⟨y, hmove, hcoming', hlength, hnext⟩ := hearly.exists_first hkept hstage hanswers
  have hwaits : Waits (B :: B' :: Bs) y := by
    rw [Waits, hlength, hcoming']
    exact List.suffix_rfl
  obtain ⟨x, hrest, hdone⟩ := hnext.exists_run hkept hwaits
  refine ⟨early, x, (hstart.apart_of_waits hkept hrun).tail ⟨harrive, hearly.apart⟩, hstage,
    hanswers, ?_, .head ⟨hmove, hnext.apart⟩ (hnext.apart_of_waits hkept hrest), hdone⟩
  change s.waiting ++ B' = B'
  rw [hwaiting, List.nil_append]

/-! ## Two requests, one at a time and together -/

theorem keepsOpen_missing : KeepsOpen "/srv" bareSite missingPage ∧
    ((alone missingPage).process "/srv" bareSite).2.2 = bareSite := by
  have hne : missingPage ≠ [] := by decide
  have hfits : missingPage.length ≤ readCapacity := by decide
  have hreached := reached_alone hne
  have hreceiving : Receiving (alone missingPage) := hreached.consistent
  have hready : Ready (alone missingPage).received missingRequest := by
    rw [received_alone hne hfits]
    exact whole_missingPage.ready
  obtain ⟨hverdict, hrequest⟩ := (hreached.ready_iff _).mpr hready
  obtain ⟨-, hstatus, hfile, hbackend⟩ := hreceiving.process_missing hverdict hrequest
  refine ⟨⟨hfits, ⟨_, whole_missingPage, rfl⟩, ?_, ?_⟩, hbackend⟩
  · rw [hstatus]
    simp
  · rw [body, hfile, hstatus]
    decide

theorem allKeepOpen_missing : AllKeepOpen "/srv" bareSite [missingPage, missingPage] := by
  obtain ⟨hopen, hbackend⟩ := keepsOpen_missing
  refine ⟨hopen, ?_, trivial⟩
  rw [hbackend]
  exact hopen

/-- A client that waits for the first response, and one whose second request arrives while
the first is being answered. -/
theorem Run.answers_apart_missing :
    let Bs := [missingPage, missingPage]
    let start := opening {} 5 ⟨.v4 10 0 0 1, 4000⟩ bareSite Bs.flatten
    AllKeepOpen "/srv" bareSite Bs ∧ Reached .closed {} ∧
      (∃ y, Run "/srv" (Waits Bs) start y ∧ Done "/srv" y ∧ y.answers.length = 2) ∧
      ∃ s x, Run "/srv" (Apart Bs) start s ∧ s.stage = .writing ∧ s.answers = [] ∧
        s.waiting = missingPage ∧ Run "/srv" (Apart Bs) s x ∧ Done "/srv" x ∧
        x.answers.length = 2 := by
  intro Bs start
  obtain ⟨-, ⟨y, hrun, hdone⟩, hall⟩ :=
    Run.answers_apart allKeepOpen_missing .start 5 ⟨.v4 10 0 0 1, 4000⟩
  obtain ⟨hlength, hapart⟩ := hall hrun hdone
  obtain ⟨s, x, hearly, hstage, hnone, hwaiting, hrest, hdone'⟩ :=
    exists_run_early allKeepOpen_missing .start 5 ⟨.v4 10 0 0 1, 4000⟩
  obtain ⟨-, -, hsame⟩ := hapart (hearly.trans hrest)
  refine ⟨allKeepOpen_missing, .start, ⟨y, hrun, hdone, hlength⟩,
    s, x, hearly, hstage, hnone, hwaiting, hrest, hdone', ?_⟩
  rw [(hsame hdone').1]
  exact hlength

/-- A request that has come in is answered, and what has come in behind it is lost. -/
theorem KeepsOpen.answers_last (h : KeepsOpen root b B) (stage : x.stage = .processing)
    (reached : Reached .processing x.connection) (received : B <+: x.connection.received)
    (backend : x.backend = b) (taken : x.taken = []) (bytes : x.waiting ++ x.coming = []) :
    ∃ y z, Move root x y ∧ Move root y z ∧ Done root z ∧
      z.answers = x.answers ++ [((alone B).process root b).2.1.response] := by
  subst backend
  have hanswer := h.answeredAlone reached received
  have hstage : (x.process root).stage = .writing := congrArg afterProcess hanswer.outcome
  have hpart : PartSent root x.backend B (x.process root).taken (x.process root).connection := by
    rw [show (x.process root).taken = [] from taken]
    exact h.partSent reached received .start
  have hnothing : (x.process root).waiting ++ (x.process root).coming = ([] : List Bytes).flatten :=
    bytes
  obtain ⟨z, hmove, -, hanswers, hwork⟩ := hpart.exists_answered hstage hnothing (by simp)
  exact ⟨_, z, .process stage, hmove, hwork.done, hanswers⟩

/-- Where all that a client sends is there at the first read, the first request is
answered and what follows it is lost. -/
theorem KeepsOpen.answers_alone (h : KeepsOpen root b B) (hc : Reached .closed c) (fd : Nat)
    (peer : Net.SocketAddress) (more : Bytes) (hfits : (B ++ more).length ≤ readCapacity) :
    ∃ x, Run root (fun _ => True) (opening c fd peer b (B ++ more)) x ∧ Done root x ∧
      x.answers = [((alone B).process root b).2.1.response] := by
  have hsome : B ++ more ≠ [] := by
    simp [h.ne_nil]
  let start := opening c fd peer b (B ++ more)
  let all : Talk := { start with coming := [], waiting := B ++ more }
  have harrive : Move root start all := .arrive (B ++ more) [] hsome (List.append_nil _).symm
  have harrives : Arrives all.waiting [.bytes (B ++ more), .wouldBlock] :=
    (Delivery.atOnce (B ++ more) hsome).arrives
  have hread : Move root all (all.read 0 _) := .read rfl hsome 0 harrives
  have hattached : Reached .reading all.connection := hc.step (.attach fd peer)
  obtain ⟨hstage, hreached, hreceived, hwaiting⟩ := hattached.read_eq 0 harrives
  have hroom : all.waiting.length ≤ all.connection.room := by
    rw [room, show all.connection.input.size = readCapacity from size_attach c fd peer]
    exact hfits
  rw [List.take_of_length_le hroom] at hreceived
  rw [List.drop_of_length_le hroom] at hwaiting
  obtain ⟨y, z, hprocess, hwrite, hdone, hanswers⟩ := h.answers_last hstage hreached
    ⟨more, hreceived.symm⟩ rfl rfl (by rw [hwaiting]; rfl)
  refine ⟨z, ?_, hdone, hanswers⟩
  exact .tail (.tail (.tail (.single ⟨harrive, trivial⟩) ⟨hread, trivial⟩) ⟨hprocess, trivial⟩)
    ⟨hwrite, trivial⟩

/-- Two requests that arrive together get one response. -/
theorem Run.answers_lost :
    AllKeepOpen "/srv" bareSite [missingPage, missingPage] ∧
      ∃ x, Run "/srv" (fun _ => True)
          (opening {} 5 ⟨.v4 10 0 0 1, 4000⟩ bareSite [missingPage, missingPage].flatten) x ∧
        Done "/srv" x ∧ x.answers.length = 1 := by
  obtain ⟨x, hrun, hdone, hanswers⟩ := keepsOpen_missing.1.answers_alone .start 5
    ⟨.v4 10 0 0 1, 4000⟩ missingPage (by decide)
  refine ⟨allKeepOpen_missing, x, ?_, hdone, by rw [hanswers]; rfl⟩
  rw [show [missingPage, missingPage].flatten = missingPage ++ missingPage by simp]
  exact hrun

end Connection
end PageServer
