import PageServer.Connection.Serving
import PageServer.Proofs.Connection.Progress

/-!
# What a request is answered with

The answer depends on the request, on the accounts and the disk, and on nothing of how the
request was read.  Only an incomplete request goes without one.
-/

namespace PageServer
namespace Connection

open Accounts (Backend)
open Http

/-- The connection `d`, with the request and the response of `c`. -/
def withReply (d c : Connection) : Connection :=
  { d with
    request := c.request
    status := c.status
    output := c.output
    file := c.file
    total := c.total }

/-- The bytes of the response: head and fixed body, with the file behind them. -/
def response (c : Connection) : Bytes :=
  c.output.bytes ++ c.fileBytes

/-- Two connections have the same request and the same response to it. -/
structure SameReply (c d : Connection) : Prop where
  request : d.request = c.request
  status : d.status = c.status
  output : d.output = c.output
  file : d.file = c.file
  total : d.total = c.total

variable {c d : Connection}

theorem SameReply.eq (h : SameReply c d) : d.withReply c = d := by
  rw [withReply, ← h.request, ← h.status, ← h.output, ← h.file, ← h.total]

theorem SameReply.symm (h : SameReply c d) : SameReply d c :=
  ⟨h.request.symm, h.status.symm, h.output.symm, h.file.symm, h.total.symm⟩

theorem SameReply.trans {e : Connection} (h : SameReply c d) (h' : SameReply d e) :
    SameReply c e :=
  ⟨h'.request.trans h.request, h'.status.trans h.status, h'.output.trans h.output,
    h'.file.trans h.file, h'.total.trans h.total⟩

theorem sameReply_withReply (d c : Connection) : SameReply c (d.withReply c) :=
  ⟨rfl, rfl, rfl, rfl, rfl⟩

theorem respond_withReply (s : Status) (d c : Connection) :
    respond s (d.withReply c) = ((respond s c).1, d.withReply (respond s c).2) := by
  unfold respond
  rw [show (d.withReply c).file = c.file from rfl]
  cases s <;> cases c.file <;> rfl

theorem answer_withReply (v : Verdict) (d c : Connection) :
    (d.withReply c).answer v = ((c.answer v).1, d.withReply (c.answer v).2) := by
  cases v with
  | incomplete => rfl
  | ready => rfl
  | malformed | missing | forbidden | found | broken =>
    simp only [answer, statusOf?, respond_withReply]

theorem dispatch_withReply (root : String) (b : Backend) (d c : Connection) :
    dispatch root b (d.withReply c) =
      ((dispatch root b c).1, d.withReply (dispatch root b c).2.1, (dispatch root b c).2.2) := by
  unfold dispatch
  rw [show (d.withReply c).request = c.request from rfl]
  rcases Site.selectPage c.request b with ⟨page, b'⟩
  cases page <;> rfl

/-! ## From the verdict to the answer -/

theorem process_fault {f : Fault} (root : String) (b : Backend) (h : c.parse.1 = .error f) :
    c.process root b = (.error f, c.parse.2, b) := by
  rcases hparse : c.parse with ⟨v, e⟩
  rw [hparse] at h
  simp only at h
  subst h
  simp only [process, hparse]

theorem process_ready (root : String) (b : Backend) (h : c.parse.1 = .ok .ready) :
    c.process root b =
      let d := dispatch root b c.parse.2
      ((d.2.1.answer d.1).1, (d.2.1.answer d.1).2, d.2.2) := by
  rcases hparse : c.parse with ⟨v, e⟩
  rw [hparse] at h
  simp only at h
  subst h
  simp only [process, hparse]

theorem process_settled {v : Verdict} (root : String) (b : Backend) (h : c.parse.1 = .ok v)
    (hv : v ≠ .ready) :
    c.process root b = ((c.parse.2.answer v).1, (c.parse.2.answer v).2, b) := by
  rcases hparse : c.parse with ⟨v', e⟩
  rw [hparse] at h
  simp only at h
  subst h
  cases v with
  | ready => exact absurd rfl hv
  | incomplete | malformed | missing | forbidden | found | broken => simp only [process, hparse]

/-- Processing has come to the same outcome, response and accounts. -/
structure SameAnswer (r s : Except Fault ProcessOutcome × Connection × Backend) : Prop where
  outcome : s.1 = r.1
  reply : SameReply r.2.1 s.2.1
  backend : s.2.2 = r.2.2

theorem SameAnswer.symm {r s : Except Fault ProcessOutcome × Connection × Backend}
    (h : SameAnswer r s) : SameAnswer s r :=
  ⟨h.outcome.symm, h.reply.symm, h.backend.symm⟩

theorem SameAnswer.trans {r s t : Except Fault ProcessOutcome × Connection × Backend}
    (h : SameAnswer r s) (h' : SameAnswer s t) : SameAnswer r t :=
  ⟨h'.outcome.trans h.outcome, h.reply.trans h'.reply, h'.backend.trans h.backend⟩

theorem process_congr (root : String) (b : Backend) (h : d.parse = c.parse) :
    d.process root b = c.process root b := by
  simp only [process, h]

/-- Connections on which reading comes to the same request are answered alike. -/
theorem process_sameAnswer (root : String) (b : Backend) (hverdict : d.parse.1 = c.parse.1)
    (h : SameReply c.parse.2 d.parse.2) :
    SameAnswer (c.process root b) (d.process root b) := by
  cases hparse : c.parse.1 with
  | error f =>
    rw [process_fault root b hparse, process_fault root b (hverdict.trans hparse)]
    exact ⟨rfl, h, rfl⟩
  | ok v =>
    rw [hparse] at hverdict
    by_cases hready : v = .ready
    · subst hready
      rw [process_ready root b hparse, process_ready root b hverdict, ← h.eq]
      simp only [dispatch_withReply, answer_withReply]
      exact ⟨rfl, sameReply_withReply _ _, rfl⟩
    · rw [process_settled root b hparse hready, process_settled root b hverdict hready, ← h.eq]
      simp only [answer_withReply]
      exact ⟨rfl, sameReply_withReply _ _, rfl⟩

theorem lookup_ne_incomplete (disk : Disk) (path : String) :
    (lookup disk path).1 ≠ .incomplete := by
  unfold lookup
  split
  · simp
  · split
    · simp
    · split
      · simp
      · split
        · simp
        · split <;> simp

/-- A file is looked up only where it is what the answer consists of. -/
theorem lookup_file {disk : Disk} {path : String} {m : Mapping}
    (h : (lookup disk path).2 = some m) : (lookup disk path).1 = .found := by
  unfold lookup at h ⊢
  split
  · simp_all
  · split
    · simp_all
    · split
      · simp_all
      · split
        · simp_all
        · split <;> simp_all

theorem dispatch_ne_incomplete (root : String) (b : Backend) (c : Connection) :
    (dispatch root b c).1 ≠ .incomplete := by
  unfold dispatch
  split
  · simp
  · exact lookup_ne_incomplete _ _

theorem answer_ne_needInput {v : Verdict} (hv : v ≠ .incomplete) (c : Connection) :
    (c.answer v).1 ≠ .ok .needInput := by
  have hrespond (s : Status) :
      ((respond s c).1.map fun fits => if fits then ProcessOutcome.readyToWrite else .abort) ≠
        .ok .needInput := by
    rcases (respond s c).1 with f | fits
    · simp [Except.map]
    · cases fits <;> simp [Except.map]
  cases v with
  | incomplete => exact absurd rfl hv
  | ready => simp [answer, statusOf?]
  | malformed | missing | forbidden | found | broken => exact hrespond _

/-- Only an incomplete request asks for more input. -/
theorem process_needInput_iff (root : String) (b : Backend) (c : Connection) :
    (c.process root b).1 = .ok .needInput ↔ c.parse.1 = .ok .incomplete := by
  cases hparse : c.parse.1 with
  | error f => simp [process_fault root b hparse]
  | ok v =>
    by_cases hready : v = .ready
    · subst hready
      rw [process_ready root b hparse]
      have hne := dispatch_ne_incomplete root b c.parse.2
      simp [answer_ne_needInput hne]
    · rw [process_settled root b hparse hready]
      by_cases hopen : v = .incomplete
      · subst hopen
        simp [answer]
      · simp [answer_ne_needInput hopen, hopen]

theorem process_incomplete (root : String) (b : Backend) (h : c.parse.1 = .ok .incomplete) :
    c.process root b = (.ok .needInput, c.parse.2, b) := by
  rw [process_settled root b h (by simp)]
  rfl

end Connection
end PageServer
