import PageServer.Proofs.Connection.Intake
import PageServer.Proofs.Http.LineEnd

/-!
# The cursors of the reader

The line in progress starts at or before the position scanned, which does not pass the
bytes received, and a body that is awaited fits the buffer.  With the cursors in order
reading a request meets no fault, keeps them so, and waits for more bytes only while there
is room for them.
-/

namespace PageServer
namespace Connection

open Http

/-- The cursors are in order, and the body that is awaited ends within the buffer. -/
structure Cursors (c : Connection) : Prop where
  lineStart_le : c.lineStart ≤ c.scanned
  scanned_le : c.scanned ≤ c.filled
  filled_le : c.filled ≤ c.input.size
  size_le : c.input.size ≤ readCapacity
  notAfterReturn : NotAfterReturn c.input c.scanned
  body_fits : c.phase = .body → c.scanned + c.request.contentLength ≤ readCapacity

/-- What reading comes to: no fault, cursors in order, and room left for what is awaited. -/
structure Settled (r : Except Fault Verdict × Connection) : Prop where
  cursors : Cursors r.2
  verdict : (r.1 = .ok .incomplete ∧ r.2.filled < readCapacity) ∨
    r.1 = .ok .ready ∨ r.1 = .ok .malformed

/-- What a line may lead to when the cursors are in order. -/
def LineStep.Sound : LineStep → Prop
  | .done verdict c => Settled (verdict, c)
  | .next c => Cursors c

variable {c : Connection}

/-- A position found by the scanner can take the place of the old one. -/
theorem Cursors.withScanned (h : Cursors c) (hbody : c.phase ≠ .body) {pos : Nat}
    (hle : c.scanned ≤ pos) (hpos : pos ≤ c.filled) (hprev : NotAfterReturn c.input pos) :
    Cursors { c with scanned := pos } where
  lineStart_le := Nat.le_trans h.lineStart_le hle
  scanned_le := hpos
  filled_le := h.filled_le
  size_le := h.size_le
  notAfterReturn := hprev
  body_fits := fun hphase => absurd hphase hbody

/-- The scanner meets no fault and stops within the bytes received, behind a line end or
in front of what ends no line. -/
theorem Cursors.scanLine (h : Cursors c) :
    ∃ status pos, scanLine c.input c.filled c.scanned = (.ok status, pos) ∧
      c.scanned ≤ pos ∧ pos ≤ c.filled ∧ NotAfterReturn c.input pos ∧
      (status = .complete → c.scanned + 2 ≤ pos) := by
  have hlength := length_between c.scanned h.filled_le
  cases ahead (between c.input c.scanned c.filled) with
  | line l rest plain eq =>
    have hscan := scanLine_line eq plain
    have hbounds := scanLine_complete hscan
    obtain ⟨-, -, htail⟩ := between_cons (between_append eq)
    obtain ⟨-, hlf, -⟩ := between_cons htail
    refine ⟨.complete, _, hscan, by omega, hbounds.2, .inr ?_, fun _ => by omega⟩
    rw [show c.scanned + l.length + 2 - 1 = c.scanned + l.length + 1 by omega, hlf]
    decide
  | stray l rest plain bad eq =>
    have hscan := scanLine_stray eq plain bad h.notAfterReturn
    have hprev := notAfterReturn_of_plain eq plain h.notAfterReturn
    rw [eq, List.length_append] at hlength
    have hle := h.scanned_le
    exact ⟨.bad, _, hscan, by omega, by omega, hprev, by simp⟩
  | unended l rest plain short eq =>
    have hscan := scanLine_unended eq plain short h.filled_le
    have hprev := notAfterReturn_of_plain eq plain h.notAfterReturn
    rw [eq, List.length_append] at hlength
    have hle := h.scanned_le
    exact ⟨.unfinished, _, hscan, by omega, by omega, hprev, by simp⟩

/-! ## A line and what it leads to -/

theorem slice_eq {start stop : Nat} (hle : start ≤ stop) (hstop : stop ≤ c.input.size) :
    c.slice start stop = .ok (between c.input start stop) := by
  rw [slice, if_neg (by omega), if_neg (by omega)]
  rfl

theorem line_eq (h : c.lineStart + 2 ≤ c.scanned) (hscanned : c.scanned ≤ c.input.size) :
    c.line = .ok (between c.input c.lineStart (c.scanned - 2)) := by
  rw [line, if_neg (by omega), slice_eq (by omega) (by omega)]

/-- The body is taken as soon as all of it is there. -/
theorem parseBody_eq (hfits : c.scanned + c.request.contentLength ≤ readCapacity)
    (hfilled : c.filled ≤ c.input.size) :
    c.parseBody =
      if c.filled < c.scanned + c.request.contentLength then (.ok .incomplete, c)
      else
        (.ok .ready, { c with
          request := { c.request with
            body := between c.input c.scanned (c.scanned + c.request.contentLength) } }) := by
  have hword : c.scanned + c.request.contentLength < wordRange :=
    Nat.lt_of_le_of_lt hfits (by decide)
  rw [parseBody, addWord, if_pos hword]
  simp only
  split
  · rfl
  · rw [slice_eq (by omega) (by omega)]

theorem Cursors.parseBody (h : Cursors c) (hphase : c.phase = .body) : Settled c.parseBody := by
  have hfits := h.body_fits hphase
  rw [parseBody_eq hfits h.filled_le]
  split
  · next hshort =>
    have hroom : c.filled < readCapacity := Nat.lt_of_lt_of_le hshort hfits
    exact ⟨h, .inl ⟨rfl, hroom⟩⟩
  · exact ⟨⟨h.lineStart_le, h.scanned_le, h.filled_le, h.size_le, h.notAfterReturn, h.body_fits⟩,
      .inr (.inl rfl)⟩

/-- A connection outside a body keeps its cursors in order whatever becomes of the
request. -/
theorem Cursors.withRequest (h : Cursors c) (r : Request) {phase : Phase} (hphase : phase ≠ .body) :
    Cursors { c with request := r, phase } :=
  ⟨h.lineStart_le, h.scanned_le, h.filled_le, h.size_le, h.notAfterReturn,
    fun hbody => absurd hbody hphase⟩

theorem Cursors.addRequestLine (h : Cursors c) (text : String) :
    (c.addRequestLine text).Sound := by
  unfold Connection.addRequestLine
  split
  · exact h.withRequest _ (by simp)
  · exact ⟨h, .inr (.inr rfl)⟩

theorem Cursors.addHeaderLine (h : Cursors c) (hphase : c.phase = .headers) (text : String) :
    (c.addHeaderLine text).Sound := by
  have hroom : c.scanned ≤ readCapacity :=
    Nat.le_trans h.scanned_le (Nat.le_trans h.filled_le h.size_le)
  have hrequest (r : Request) : Cursors { c with request := r } :=
    h.withRequest r (show c.phase ≠ .body by simp [hphase])
  rcases hheader : c.request.addHeader (readCapacity - c.scanned) text.toList with ⟨status, r⟩
  cases status with
  | more =>
    rw [addHeaderLine_more hroom hheader]
    exact hrequest r
  | complete =>
    rw [addHeaderLine_complete hroom hheader]
    exact ⟨hrequest r, .inr (.inl rfl)⟩
  | bad =>
    rw [addHeaderLine_bad hroom hheader]
    exact ⟨hrequest r, .inr (.inr rfl)⟩
  | expectBody =>
    by_cases hlong : readCapacity < c.scanned + r.contentLength
    · rw [addHeaderLine_tooLong hroom hheader hlong]
      exact ⟨hrequest r, .inr (.inr rfl)⟩
    · have hfits := Nat.not_lt.mp hlong
      rw [addHeaderLine_expectBody hroom hheader hfits]
      let c' : Connection := { c with request := r, phase := .body }
      have hcursors : Cursors c' :=
        ⟨h.lineStart_le, h.scanned_le, h.filled_le, h.size_le, h.notAfterReturn, fun _ => hfits⟩
      exact hcursors.parseBody rfl

theorem Cursors.addLine (h : Cursors c) (hbody : c.phase ≠ .body)
    (hline : c.lineStart + 2 ≤ c.scanned) : c.addLine.Sound := by
  have hbytes := line_eq hline (Nat.le_trans h.scanned_le h.filled_le)
  let c' : Connection := { c with lineStart := c.scanned }
  have h' : Cursors c' :=
    ⟨Nat.le_refl _, h.scanned_le, h.filled_le, h.size_le, h.notAfterReturn, h.body_fits⟩
  cases htext : Text.decode? (between c.input c.lineStart (c.scanned - 2)) with
  | none =>
    rw [addLine_undecodable hbytes htext]
    exact ⟨h, .inr (.inr rfl)⟩
  | some text =>
    cases hphase : c.phase with
    | requestLine =>
      rw [addLine_requestLine hbytes htext hphase]
      exact h'.addRequestLine text
    | headers =>
      rw [addLine_headers hbytes htext hphase]
      exact h'.addHeaderLine hphase text
    | body => exact absurd hphase hbody

/-! ## Reading to the verdict -/

/-- Where the scanner stops, the cursors are in order, and a line that it completes has
its line end behind the old position. -/
theorem Cursors.scanned (h : Cursors c) (hbody : c.phase ≠ .body) {status : LineStatus} {pos : Nat}
    (hscan : Http.scanLine c.input c.filled c.scanned = (.ok status, pos)) :
    Cursors { c with scanned := pos } ∧ (status = .complete → c.lineStart + 2 ≤ pos) := by
  obtain ⟨status', pos', hscan', hle, hpos, hprev, hend⟩ := h.scanLine
  obtain ⟨rfl, rfl⟩ : status = status' ∧ pos = pos' := by
    simpa [hscan] using hscan'
  refine ⟨h.withScanned hbody hle hpos hprev, ?_⟩
  intro hcomplete
  have hstart := h.lineStart_le
  have hline := hend hcomplete
  omega

theorem Cursors.parse (h : Cursors c) : Settled c.parse := by
  induction c using parse.induct with
  | case1 c hbody =>
    rw [parse_body hbody]
    exact h.parseBody hbody
  | case2 c hbody f pos hscan =>
    obtain ⟨status, pos', hscan', -⟩ := h.scanLine
    rw [hscan] at hscan'
    simp at hscan'
  | case3 c hbody pos hscan =>
    rw [parse_unfinished hbody hscan]
    refine ⟨(h.scanned hbody hscan).1, ?_⟩
    have hsize := h.size_le
    by_cases hfull : c.input.size ≤ c.filled
    · exact .inr (.inr (by simp only [hfull, if_true]))
    · exact .inl ⟨by simp only [hfull, if_false], by simp only; omega⟩
  | case4 c hbody pos hscan =>
    rw [parse_bad hbody hscan]
    exact ⟨(h.scanned hbody hscan).1, .inr (.inr rfl)⟩
  | case5 c hbody pos hscan verdict e hline =>
    obtain ⟨hcursors, hstart⟩ := h.scanned hbody hscan
    have hsound := hcursors.addLine hbody (hstart rfl)
    rw [hline] at hsound
    rw [parse_done hbody hscan hline]
    exact hsound
  | case6 c hbody pos hscan e hline ih =>
    obtain ⟨hcursors, hstart⟩ := h.scanned hbody hscan
    have hsound := hcursors.addLine hbody (hstart rfl)
    rw [hline] at hsound
    rw [parse_next hbody hscan hline]
    exact ih hsound

/-- Reading changes nothing but how far the request has been read. -/
theorem Cursors.parse_frame (h : Cursors c) : c.parse.2 = c.withProgress c.parse.2 := by
  have hsame := parse_withProgress (.refl h.filled_le) (.inl rfl)
  rw [withProgress_self] at hsame
  exact congrArg Prod.snd hsame

/-! ## Taking in bytes, and starting anew -/

theorem Cursors.takeIn (h : Cursors c) (data : Bytes) : Cursors (c.takeIn data) where
  lineStart_le := h.lineStart_le
  scanned_le := Nat.le_trans h.scanned_le (holdsMore_takeIn h.filled_le data).filled_le
  filled_le := (holdsMore_takeIn h.filled_le data).within
  size_le := by
    rw [size_takeIn]
    exact h.size_le
  notAfterReturn := by
    rcases h.notAfterReturn with hzero | hprev
    · exact .inl hzero
    · by_cases hzero : c.scanned = 0
      · exact .inl hzero
      · have hlt : c.scanned - 1 < c.filled := by
          have := h.scanned_le
          omega
        apply Or.inr
        rw [Connection.takeIn, getElem?_store_of_lt _ _ hlt]
        exact hprev
  body_fits := h.body_fits

theorem Cursors.read (h : Cursors c) (now : Nat) (replies : List Net.ReadReply) :
    Cursors (c.read now replies).2 := by
  obtain ⟨data, since, heq⟩ := read_eq c now replies
  have htaken := h.takeIn data
  rw [heq]
  exact ⟨htaken.lineStart_le, htaken.scanned_le, htaken.filled_le, htaken.size_le,
    htaken.notAfterReturn, htaken.body_fits⟩

theorem Cursors.reset (h : c.input.size ≤ readCapacity) : Cursors c.reset where
  lineStart_le := Nat.le_refl _
  scanned_le := Nat.le_refl _
  filled_le := Nat.zero_le _
  size_le := h
  notAfterReturn := .inl rfl
  body_fits := fun hphase => by simp [Connection.reset] at hphase

theorem size_attach (c : Connection) (fd : Nat) (peer : Net.SocketAddress) :
    (c.attach fd peer).input.size = readCapacity := by
  simp only [attach, Connection.reset]
  split
  · next hsize => exact hsize
  · exact Array.size_replicate

theorem cursors_attach (c : Connection) (fd : Nat) (peer : Net.SocketAddress) :
    Cursors (c.attach fd peer) :=
  Cursors.reset (Nat.le_of_eq (size_attach c fd peer))

end Connection
end PageServer
