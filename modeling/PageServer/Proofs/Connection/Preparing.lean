import PageServer.Proofs.Connection.Answering
import PageServer.Proofs.Http.Appending

/-!
# The response that is prepared

A response is a head and a body: the file that was looked up, or a text behind the head.
All of it is counted as bytes to send, and the answer to a malformed request always fits.
Preparing it leaves the stream and the reader alone.
-/

namespace PageServer
namespace Connection

open Accounts (Backend)
open Http

/-- The head of a response with a body of `n` bytes. -/
def head (s : Status) (n : Nat) (keepAlive : Bool) : Bytes :=
  ResponseBuffer.statusLine s ++ ResponseBuffer.contentLengthLine n ++
    ResponseBuffer.connectionLine keepAlive ++ ResponseBuffer.blankLine

variable {c : Connection}

theorem addHead_true {s : Status} {n : Nat} {keepAlive : Bool} {b b' : ResponseBuffer}
    (h : addHead s n keepAlive b = (.ok true, b')) :
    b' = { b with bytes := b.bytes ++ head s n keepAlive } := by
  obtain ⟨b₁, hstatus, hheaders⟩ := ResponseBuffer.andThen_true h
  have h₁ := ResponseBuffer.append_eq_true hstatus
  have h₂ := ResponseBuffer.addHeaders_true hheaders
  subst h₁ h₂
  simp only [head, List.append_assoc]

@[simp] theorem capacity_addHead (s : Status) (n : Nat) (keepAlive : Bool) (b : ResponseBuffer) :
    (addHead s n keepAlive b).2.capacity = b.capacity := by
  rw [addHead, ResponseBuffer.capacity_andThen (ResponseBuffer.capacity_addHeaders n keepAlive)]
  exact ResponseBuffer.capacity_append b _

theorem capacity_addContent (content : String) (b : ResponseBuffer) :
    (b.addContent content).2.capacity = b.capacity :=
  ResponseBuffer.capacity_append b _

/-- Preparing a response leaves the stream, the reader and the file alone. -/
theorem respond_eq (s : Status) (c : Connection) :
    ∃ output total, output.capacity = c.output.capacity ∧
      (respond s c).2 = { c with
        request := { c.request with keepAlive := c.request.keepAlive && s != .badRequest }
        status := some s
        output
        total } := by
  unfold respond
  simp only
  split
  · exact ⟨_, _, capacity_addHead _ _ _ _, rfl⟩
  · refine ⟨_, _, ?_, rfl⟩
    rw [ResponseBuffer.capacity_andThen (capacity_addContent _), capacity_addHead]

/-- The body of a response: the file, or the text that stands for the status. -/
def body (c : Connection) : Bytes :=
  match c.file with
  | some m => m.bytes
  | none => Text.encode ((c.status.bind Status.body?).getD emptyPage)

/-- The response is a head and a body, where the head tells the length of the body and
whether the stream stays open, and all of it is to be sent. -/
structure Framed (s : Status) (asked : Bool) (d : Connection) : Prop where
  status : d.status = some s
  keepAlive : d.request.keepAlive = (asked && s != .badRequest)
  response : d.response = head s d.body.length d.request.keepAlive ++ d.body
  total : d.total = d.response.length

/-- A response that fits is a head with the body behind it, and all of it is to be sent. -/
theorem respond_framed {s : Status} (h : (respond s c).1 = .ok true)
    (hfile : c.file = none ∨ s = .ok) (hempty : c.output.bytes = []) :
    Framed s c.request.keepAlive (respond s c).2 := by
  cases hc : c.file with
  | some file =>
    obtain rfl : s = .ok := hfile.resolve_left (by simp [hc])
    unfold respond at h ⊢
    simp only [hc] at h ⊢
    rcases hhead : addHead .ok file.length (c.request.keepAlive && Status.ok != .badRequest)
      c.output with ⟨fits, output⟩
    rw [hhead] at h
    obtain rfl := h
    have hbytes := addHead_true hhead
    refine ⟨rfl, rfl, ?_, ?_⟩
    · simp [hbytes, hempty, response, fileBytes, body, Mapping.length]
    · simp [response, fileBytes, ResponseBuffer.length, Mapping.length]
  | none =>
    unfold respond at h ⊢
    simp only [hc] at h ⊢
    rcases hcontent : ResponseBuffer.andThen
      (addHead s (Text.encode (s.body?.getD emptyPage)).length
        (c.request.keepAlive && s != .badRequest) c.output)
      (ResponseBuffer.addContent (s.body?.getD emptyPage)) with ⟨fits, output⟩
    rw [hcontent] at h
    obtain rfl := h
    obtain ⟨b, hhead, happend⟩ := ResponseBuffer.andThen_true hcontent
    have hbytes := addHead_true hhead
    have hbody := ResponseBuffer.append_eq_true happend
    subst hbytes hbody
    refine ⟨rfl, rfl, ?_, ?_⟩
    · simp [hempty, response, fileBytes, body]
    · simp [response, fileBytes, ResponseBuffer.length]

/-- A response without a file always fits. -/
theorem respond_fits (s : Status) (houtput : c.output = { capacity := writeCapacity })
    (hfile : c.file = none) : (respond s c).1 = .ok true := by
  unfold respond
  simp only [houtput, hfile]
  cases s <;> cases c.request.keepAlive <;> rfl

theorem respond_ne_error (s : Status) (h : c.output.capacity = writeCapacity) (f : Fault) :
    (respond s c).1 ≠ .error f := by
  have hmemory : c.output.capacity ≤ memoryLimit := by
    rw [h]
    decide
  have hhead (n : Nat) (keepAlive : Bool) : (addHead s n keepAlive c.output).1 ≠ .error f := by
    refine ResponseBuffer.andThen_ne_error (ResponseBuffer.append_ne_error hmemory _ f) ?_
    refine ResponseBuffer.addHeaders_ne_error ?_ n keepAlive f
    rw [ResponseBuffer.addStatusLine, ResponseBuffer.capacity_append]
    exact hmemory
  unfold respond
  simp only
  split
  · exact hhead _ _
  · refine ResponseBuffer.andThen_ne_error (hhead _ _) (ResponseBuffer.append_ne_error ?_ _ f)
    rw [capacity_addHead]
    exact hmemory

theorem dispatch_eq (root : String) (b : Backend) (c : Connection) :
    ∃ file, (dispatch root b c).2.1 = { c with file } := by
  unfold dispatch
  split
  · exact ⟨c.file, rfl⟩
  · exact ⟨_, rfl⟩

/-- A file is looked up only for the response that it is the body of. -/
theorem dispatch_file (root : String) (b : Backend) (h : c.file = none) :
    (dispatch root b c).2.1.file = none ∨ (dispatch root b c).1 = .found := by
  unfold dispatch
  split
  · exact .inl h
  · next page b' hpage =>
    cases hfound : (lookup b'.disk (Site.realPath root page)).2 with
    | none => exact .inl (by simp [hfound, h])
    | some file => exact .inr (lookup_file hfound)

theorem length_head_pos (s : Status) (n : Nat) (keepAlive : Bool) :
    0 < (head s n keepAlive).length := by
  have hstatus : 0 < (ResponseBuffer.statusLine s).length := by
    cases s <;> decide
  simp only [head, List.length_append]
  omega

theorem answer_eq (v : Verdict) (c : Connection) :
    ∃ keepAlive status output total, output.capacity = c.output.capacity ∧
      (c.answer v).2 = { c with
        request := { c.request with keepAlive }, status, output, total } := by
  have hsame : ∃ keepAlive status output total, output.capacity = c.output.capacity ∧
      c = { c with request := { c.request with keepAlive }, status, output, total } :=
    ⟨c.request.keepAlive, c.status, c.output, c.total, rfl, rfl⟩
  have hrespond (s : Status) : ∃ keepAlive status output total,
      output.capacity = c.output.capacity ∧ (respond s c).2 = { c with
        request := { c.request with keepAlive }, status, output, total } := by
    obtain ⟨output, total, hcapacity, heq⟩ := respond_eq s c
    exact ⟨_, _, output, total, hcapacity, heq⟩
  cases v with
  | incomplete | ready => exact hsame
  | malformed | missing | forbidden | found | broken => exact hrespond _

/-- Processing leaves the stream and the reader as reading has left them. -/
theorem process_eq (root : String) (b : Backend) (c : Connection) :
    ∃ keepAlive status output file total, output.capacity = c.parse.2.output.capacity ∧
      (c.process root b).2.1 = { c.parse.2 with
        request := { c.parse.2.request with keepAlive }, status, output, file, total } := by
  cases hparse : c.parse.1 with
  | error f =>
    rw [process_fault root b hparse]
    exact ⟨_, _, _, _, _, rfl, rfl⟩
  | ok v =>
    by_cases hready : v = .ready
    · subst hready
      rw [process_ready root b hparse]
      obtain ⟨file, hfile⟩ := dispatch_eq root b c.parse.2
      obtain ⟨keepAlive, status, output, total, hcapacity, heq⟩ :=
        answer_eq (dispatch root b c.parse.2).1 (dispatch root b c.parse.2).2.1
      simp only [hfile] at hcapacity heq
      refine ⟨keepAlive, status, output, file, total, hcapacity, ?_⟩
      simp only [hfile, heq]
    · rw [process_settled root b hparse hready]
      obtain ⟨keepAlive, status, output, total, hcapacity, heq⟩ := answer_eq v c.parse.2
      exact ⟨keepAlive, status, output, _, total, hcapacity, heq⟩

theorem answer_framed {v : Verdict} (h : (c.answer v).1 = .ok .readyToWrite)
    (hfile : c.file = none ∨ v = .found) (hempty : c.output.bytes = []) :
    ∃ s, Framed s c.request.keepAlive (c.answer v).2 := by
  have hrespond (s : Status) (hs : c.file = none ∨ s = .ok)
      (h : (respond s c).1.map (fun fits => if fits then ProcessOutcome.readyToWrite else .abort) =
        .ok .readyToWrite) : ∃ s', Framed s' c.request.keepAlive (respond s c).2 := by
    have hfits : (respond s c).1 = .ok true := by
      cases hr : (respond s c).1 with
      | error f => simp [hr, Except.map] at h
      | ok fits => cases fits <;> simp_all [Except.map]
    exact ⟨s, respond_framed hfits hs hempty⟩
  cases v with
  | incomplete | ready => simp [answer, statusOf?] at h
  | found => exact hrespond .ok (.inr rfl) h
  | malformed => exact hrespond .badRequest (.inl (hfile.resolve_right (by simp))) h
  | missing => exact hrespond .notFound (.inl (hfile.resolve_right (by simp))) h
  | forbidden => exact hrespond .forbidden (.inl (hfile.resolve_right (by simp))) h
  | broken => exact hrespond .internalError (.inl (hfile.resolve_right (by simp))) h

/-- The response that processing prepares is all that there is to send. -/
theorem process_framed {root : String} {b : Backend}
    (h : (c.process root b).1 = .ok .readyToWrite) (hfile : c.parse.2.file = none)
    (hempty : c.parse.2.output.bytes = []) :
    ∃ s, Framed s c.parse.2.request.keepAlive (c.process root b).2.1 := by
  cases hparse : c.parse.1 with
  | error f =>
    rw [process_fault root b hparse] at h
    simp at h
  | ok v =>
    by_cases hready : v = .ready
    · subst hready
      rw [process_ready root b hparse] at h ⊢
      obtain ⟨file, heq⟩ := dispatch_eq root b c.parse.2
      have hframed := answer_framed h (dispatch_file root b hfile) (by rw [heq]; exact hempty)
      rw [show (dispatch root b c.parse.2).2.1.request = c.parse.2.request by rw [heq]] at hframed
      exact hframed
    · rw [process_settled root b hparse hready] at h ⊢
      exact answer_framed h (.inl hfile) hempty

theorem Framed.response_pos {s : Status} {asked : Bool} (h : Framed s asked c) :
    0 < c.response.length := by
  have hpos := length_head_pos s c.body.length c.request.keepAlive
  rw [h.response, List.length_append]
  omega

/-- The whole answer to a bad request. -/
def refusal : Bytes :=
  let body := Text.encode (Status.badRequest.body?.getD "")
  head .badRequest body.length false ++ body

/-- Processing has come to the answer that the request is bad, to be sent whole before the
stream is closed. -/
structure Refused (r : Except Fault ProcessOutcome × Connection × Backend) : Prop where
  outcome : r.1 = .ok .readyToWrite
  status : r.2.1.status = some .badRequest
  keepAlive : r.2.1.request.keepAlive = false
  response : r.2.1.response = refusal
  total : r.2.1.total = refusal.length

theorem answer_malformed (b : Backend) (houtput : c.output = { capacity := writeCapacity })
    (hfile : c.file = none) : Refused ((c.answer .malformed).1, (c.answer .malformed).2, b) := by
  have heq : c.answer .malformed = (.ok .readyToWrite, { c with
      request := { c.request with keepAlive := false }
      status := some .badRequest
      output := { capacity := writeCapacity, bytes := refusal }
      total := refusal.length }) := by
    simp only [answer, statusOf?]
    unfold respond
    simp only [houtput, hfile, bne_self_eq_false, Bool.and_false]
    rfl
  rw [heq]
  refine ⟨rfl, rfl, rfl, ?_, rfl⟩
  simp only [response, fileBytes, hfile, List.append_nil]

/-- A malformed request is always refused in full. -/
theorem process_malformed (root : String) (b : Backend) (h : c.parse.1 = .ok .malformed)
    (houtput : c.parse.2.output = { capacity := writeCapacity }) (hfile : c.parse.2.file = none) :
    Refused (c.process root b) := by
  rw [process_settled root b h (by simp)]
  exact answer_malformed b houtput hfile

end Connection
end PageServer
