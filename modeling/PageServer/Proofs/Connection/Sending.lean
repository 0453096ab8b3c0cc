import PageServer.Connection.Writing
import PageServer.Proofs.Connection.Answering

/-!
# Sending in parts

The stream takes as much of what it is offered as it likes, and may be interrupted, block
or break at any time.  A call goes on with the first byte not yet taken until all are, or
until the stream blocks or breaks, and which of these it is decides its outcome.
-/

namespace PageServer
namespace Connection

open Net (WriteReply)

/-- Replies of a stream that takes no more than the bytes that are left, up to the one
that ends the call. -/
def Honest : (left : Nat) → List WriteReply → Prop
  | left, .interrupted :: later => Honest left later
  | left, .accepted n :: later => n ≤ left ∧ (0 < n → n < left → Honest (left - n) later)
  | _, _ => True

/-- Replies that let a call go on. -/
def Steady (used : List WriteReply) : Prop :=
  ∀ r ∈ used, r = .interrupted ∨ ∃ n, r = .accepted (n + 1)

/-- Bytes taken in all. -/
def accepted : List WriteReply → Nat
  | [] => 0
  | .accepted n :: later => n + accepted later
  | _ :: later => accepted later

/-- The stream takes no more for now, as it does where it has nothing further to say. -/
def Blocked (later : List WriteReply) : Prop :=
  later = [] ∨ ∃ rest, later = .wouldBlock :: rest

/-- The stream fails, or takes nothing of what it is offered. -/
def Broken (later : List WriteReply) : Prop :=
  ∃ rest, later = .failed :: rest ∨ later = .accepted 0 :: rest

theorem Steady.tail {r : WriteReply} {used : List WriteReply} (h : Steady (r :: used)) :
    Steady used := by
  intro x hx
  exact h x (List.mem_cons_of_mem r hx)

theorem Steady.nil : Steady [] := by
  intro r hr
  simp at hr

theorem Steady.cons {r : WriteReply} {used : List WriteReply}
    (hr : r = .interrupted ∨ ∃ n, r = .accepted (n + 1)) (h : Steady used) :
    Steady (r :: used) := by
  intro x hx
  rcases List.mem_cons.mp hx with rfl | hx
  · exact hr
  · exact h x hx

/-- Honest replies let the call go on until all is taken, or the stream blocks or breaks. -/
theorem Honest.cases {left : Nat} {replies : List WriteReply} (h : Honest left replies) :
    ∃ used later, replies = used ++ later ∧ Steady used ∧ accepted used ≤ left ∧
      (accepted used = left ∨ accepted used < left ∧ (Blocked later ∨ Broken later)) := by
  induction replies generalizing left with
  | nil =>
    refine ⟨[], [], rfl, .nil, Nat.zero_le left, ?_⟩
    by_cases hleft : left = 0
    · exact .inl hleft.symm
    · exact .inr ⟨Nat.pos_of_ne_zero hleft, .inl (.inl rfl)⟩
  | cons r replies ih =>
    by_cases hleft : left = 0
    · subst hleft
      exact ⟨[], r :: replies, rfl, .nil, Nat.le_refl 0, .inl rfl⟩
    have hpos := Nat.pos_of_ne_zero hleft
    cases r with
    | wouldBlock =>
      exact ⟨[], _, rfl, .nil, Nat.zero_le left, .inr ⟨hpos, .inl (.inr ⟨replies, rfl⟩)⟩⟩
    | failed =>
      exact ⟨[], _, rfl, .nil, Nat.zero_le left, .inr ⟨hpos, .inr ⟨replies, .inl rfl⟩⟩⟩
    | interrupted =>
      obtain ⟨used, later, rfl, hsteady, hle, hend⟩ := ih (show Honest left replies from h)
      exact ⟨.interrupted :: used, later, rfl, hsteady.cons (.inl rfl), hle, hend⟩
    | accepted n =>
      obtain ⟨hn, hlater⟩ := h
      cases n with
      | zero =>
        exact ⟨[], _, rfl, .nil, Nat.zero_le left, .inr ⟨hpos, .inr ⟨replies, .inr rfl⟩⟩⟩
      | succ n =>
        by_cases hall : n + 1 = left
        · refine ⟨[.accepted (n + 1)], replies, rfl, Steady.nil.cons (.inr ⟨n, rfl⟩), hn, ?_⟩
          exact .inl hall
        · obtain ⟨used, later, rfl, hsteady, hle, hend⟩ :=
            ih (hlater (Nat.succ_pos n) (by omega))
          refine ⟨.accepted (n + 1) :: used, later, rfl, hsteady.cons (.inr ⟨n, rfl⟩), ?_, ?_⟩
          · simp only [accepted]
            omega
          · simp only [accepted]
            rcases hend with hend | ⟨hend, hstop⟩
            · exact .inl (by omega)
            · exact .inr ⟨by omega, hstop⟩

/-- What can be read to the end of a piece is no more than what is offered. -/
theorem readable_le (offered readable : Nat) : (if readable < offered then
    readable / Net.Piece.maxLength * Net.Piece.maxLength else offered) ≤ offered := by
  split
  · next hlt => exact Nat.le_trans (Nat.div_mul_le_self _ _) (Nat.le_of_lt hlt)
  · exact Nat.le_refl offered

/-- The streams of the model keep to this. -/
theorem honest_writeReplies (s : Net.Stream) (offered readable : Nat) :
    Honest offered (s.writeReplies offered readable) := by
  have hable := readable_le offered readable
  have hnext (left room taken : Nat) : Honest left
      (if taken = offered then [.accepted 0]
      else if room = taken then [.wouldBlock]
      else [.failed]) := by
    split
    · refine ⟨Nat.zero_le left, ?_⟩
      intro hpos
      exact absurd hpos (Nat.lt_irrefl 0)
    · split <;> trivial
  unfold Net.Stream.writeReplies
  simp only
  generalize (if readable < offered then
    readable / Net.Piece.maxLength * Net.Piece.maxLength else offered) = able at hable ⊢
  split
  · trivial
  · split
    · exact hnext _ _ _
    · refine ⟨Nat.le_trans (Nat.min_le_right _ _) hable, ?_⟩
      intro _ _
      exact hnext _ _ _

/-! ## One call -/

variable {c : Connection} {now : Nat}

/-- A call offers all that has not been taken. -/
theorem offer_eq (h : c.sent ≤ c.response.length) : c.offer = .ok (c.response.drop c.sent) := by
  have hlength : c.output.length = c.output.bytes.length := rfl
  rw [response, List.length_append, ← hlength] at h
  rw [offer, response, List.drop_append, ← hlength]
  by_cases hhead : c.sent < c.output.length
  · rw [if_pos hhead, Nat.sub_eq_zero_of_le (Nat.le_of_lt hhead), List.drop_zero]
  · have hfile : ¬ c.fileBytes.length < c.sent - c.output.length := by omega
    rw [if_neg hhead, List.drop_eq_nil_of_le (Nat.not_lt.mp hhead), List.nil_append]
    exact if_neg hfile

theorem writeOn_done {replies : List WriteReply} (h : c.total ≤ c.sent) :
    writeOn now replies c = (.ok (c.finish now).1, (c.finish now).2, []) := by
  unfold writeOn
  rw [if_neg (Nat.not_lt.mpr h)]

section Reply

variable {rest : List WriteReply} (htotal : c.total = c.response.length) (hlt : c.sent < c.total)

include htotal hlt

theorem writeOn_interrupted : writeOn now (.interrupted :: rest) c = writeOn now rest c := by
  have hoffer := offer_eq (c := c) (by omega)
  conv => lhs; unfold writeOn
  rw [if_pos hlt, hoffer]

theorem writeOn_accepted (n : Nat) :
    writeOn now (.accepted (n + 1) :: rest) c =
      let r := writeOn now rest { c with sent := c.sent + (n + 1) }
      (r.1, r.2.1, (c.response.drop c.sent).take (n + 1) ++ r.2.2) := by
  have hoffer := offer_eq (c := c) (by omega)
  conv => lhs; unfold writeOn
  rw [if_pos hlt, hoffer]

theorem writeOn_blocked {later : List WriteReply} (h : Blocked later) :
    writeOn now later c = (.ok .pending, c, []) := by
  have hoffer := offer_eq (c := c) (by omega)
  unfold writeOn
  rw [if_pos hlt, hoffer]
  rcases h with rfl | ⟨rest, rfl⟩ <;> rfl

theorem writeOn_broken {later : List WriteReply} (h : Broken later) :
    writeOn now later c = (.ok .failed, { c with file := none }, []) := by
  have hoffer := offer_eq (c := c) (by omega)
  unfold writeOn
  rw [if_pos hlt, hoffer]
  obtain ⟨rest, rfl | rfl⟩ := h <;> rfl

end Reply

/-- While replies let it, a call goes on at the first byte that has not been taken. -/
theorem writeOn_steady {used later : List WriteReply} (hsteady : Steady used)
    (htotal : c.total = c.response.length) (hle : c.sent + accepted used ≤ c.total) :
    writeOn now (used ++ later) c =
      let r := writeOn now later { c with sent := c.sent + accepted used }
      (r.1, r.2.1, (c.response.drop c.sent).take (accepted used) ++ r.2.2) := by
  induction used generalizing c with
  | nil => rfl
  | cons r used ih =>
    by_cases hdone : c.total ≤ c.sent
    · have hzero : accepted (r :: used) = 0 := by omega
      rw [writeOn_done hdone, hzero]
      simp only [Nat.add_zero, List.take_zero, List.nil_append]
      rw [writeOn_done hdone]
    · have hlt : c.sent < c.total := Nat.not_le.mp hdone
      rw [List.cons_append]
      rcases hsteady r List.mem_cons_self with rfl | ⟨n, rfl⟩
      · rw [writeOn_interrupted htotal hlt]
        exact ih hsteady.tail htotal hle
      · simp only [accepted] at hle ⊢
        have hnext := ih (c := { c with sent := c.sent + (n + 1) }) hsteady.tail htotal
          (by simp only; omega)
        rw [writeOn_accepted htotal hlt, hnext]
        simp only [response, fileBytes, List.take_add, List.drop_drop, Nat.add_assoc,
          List.append_assoc]

/-! ## What a call leaves -/

/-- A call moves on in the response and may let go of the file or, where a response has
gone out and the stream stays open, starts anew. -/
inductive Wrote (c : Connection) : Except Fault WriteOutcome → Connection → Prop
  | on {outcome : Except Fault WriteOutcome} (sent : Nat) (file : Option Mapping)
    (closes : ∀ s, outcome = .ok (.complete s) → s.keepAlive = false) :
    Wrote c outcome { c with sent, file }
  | anew (s : Summary) (stays : s.keepAlive = true) : Wrote c (.ok (.complete s)) c.reset

theorem Wrote.same (c : Connection) {outcome : Except Fault WriteOutcome}
    (h : ∀ s, outcome ≠ .ok (.complete s)) : Wrote c outcome c := by
  apply Wrote.on c.sent c.file
  intro s hs
  exact absurd hs (h s)

theorem Wrote.released (c : Connection) : Wrote c (.ok .failed) { c with file := none } :=
  .on c.sent none (by simp)

theorem finish_anew (h : c.request.keepAlive = true) (now : Nat) :
    (c.finish now).2 = c.reset := by
  simp only [finish, h, if_true]
  rfl

theorem finish_last (h : c.request.keepAlive = false) (now : Nat) :
    (c.finish now).2 = { c with file := none } := by
  simp [finish, h]

theorem wrote_finish (now : Nat) (c : Connection) :
    Wrote c (.ok (c.finish now).1) (c.finish now).2 := by
  cases hkeep : c.request.keepAlive with
  | true =>
    rw [finish_anew hkeep]
    exact .anew _ hkeep
  | false =>
    rw [finish_last hkeep]
    apply Wrote.on c.sent none
    intro s hs
    obtain rfl := WriteOutcome.complete.inj (Except.ok.inj hs)
    exact hkeep

theorem Wrote.of_sent {n : Nat} {outcome : Except Fault WriteOutcome} {d : Connection}
    (h : Wrote { c with sent := n } outcome d) : Wrote c outcome d := by
  cases h with
  | on n file closes => exact .on n file closes
  | anew s stays => exact .anew s stays

theorem wrote_writeOn (now : Nat) (replies : List WriteReply) (c : Connection) :
    Wrote c (writeOn now replies c).1 (writeOn now replies c).2.1 := by
  induction replies generalizing c with
  | nil =>
    unfold writeOn
    split
    · split
      · exact .same c (by simp)
      · exact .same c (by simp)
    · exact wrote_finish now c
  | cons reply replies ih =>
    unfold writeOn
    split
    · split
      · exact .same c (by simp)
      · cases reply with
        | wouldBlock => exact .same c (by simp)
        | interrupted => exact ih c
        | failed => exact .released c
        | accepted n =>
          cases n with
          | zero => exact .released c
          | succ n => exact (ih { c with sent := c.sent + (n + 1) }).of_sent
    · exact wrote_finish now c

theorem wrote_write (now : Nat) (replies : List WriteReply) (c : Connection) :
    Wrote c (c.write now replies).1 (c.write now replies).2.1 := by
  unfold write
  split
  · exact .same c (by simp)
  · split
    · exact .anew _ rfl
    · exact wrote_writeOn now replies c

end Connection
end PageServer
