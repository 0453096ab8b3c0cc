import PageServer.Connection.Parsing
import PageServer.Proofs.Http.LineScan

/-!
# Going on with a request

Reading a request depends on the bytes received and on how far the reading has come, and
on nothing else of the connection.  A verdict reached on some bytes stands when more bytes
follow them, and an incomplete request is read on to the same end as if it had been read
anew.
-/

namespace PageServer
namespace Connection

open Http

/-- The connection `d`, with its request read as far as that of `c`. -/
def withProgress (d c : Connection) : Connection :=
  { d with
    scanned := c.scanned
    lineStart := c.lineStart
    phase := c.phase
    request := c.request }

/-- The connection `d` holds the bytes that `c` has received, and perhaps more behind
them. -/
structure HoldsMore (c d : Connection) : Prop where
  bytes : SameBytes c.input d.input c.filled
  filled_le : c.filled ≤ d.filled
  within : d.filled ≤ d.input.size

theorem HoldsMore.refl {c : Connection} (h : c.filled ≤ c.input.size) : HoldsMore c c :=
  ⟨⟨rfl, fun _ _ => rfl⟩, Nat.le_refl _, h⟩

@[simp] theorem withProgress_self (c : Connection) : c.withProgress c = c := rfl

@[simp] theorem withProgress_scanned (d c : Connection) :
    (d.withProgress c).scanned = c.scanned := rfl

@[simp] theorem withProgress_lineStart (d c : Connection) :
    (d.withProgress c).lineStart = c.lineStart := rfl

@[simp] theorem withProgress_request (d c : Connection) :
    (d.withProgress c).request = c.request := rfl

@[simp] theorem withProgress_filled (d c : Connection) : (d.withProgress c).filled = d.filled := rfl

@[simp] theorem withProgress_input (d c : Connection) : (d.withProgress c).input = d.input := rfl

/-! ## One step of reading -/

variable {c d e : Connection}

theorem slice_withProgress (h : HoldsMore c d) (start : Nat) {stop : Nat}
    (hstop : stop ≤ c.filled) :
    (d.withProgress c).slice start stop = c.slice start stop := by
  have hbytes := (h.bytes.mono hstop).extract start
  simp only [slice, withProgress_input, h.bytes.size, hbytes]

theorem line_withProgress (h : HoldsMore c d) (hscanned : c.scanned ≤ c.filled) :
    (d.withProgress c).line = c.line := by
  have hslice := slice_withProgress h c.lineStart (show c.scanned - 2 ≤ c.filled by omega)
  by_cases hshort : c.scanned < 2
  · simp only [line, withProgress_scanned, hshort, if_true]
  · simp only [line, withProgress_scanned, withProgress_lineStart, hshort, if_false]
    exact hslice

/-- The verdict on a body that is all there does not change, nor does any while no byte
comes. -/
theorem parseBody_withProgress (h : HoldsMore c d)
    (hdone : d.filled = c.filled ∨ c.parseBody.1 ≠ .ok .incomplete) :
    (d.withProgress c).parseBody = (c.parseBody.1, d.withProgress c.parseBody.2) := by
  unfold parseBody at hdone ⊢
  simp only [withProgress_scanned, withProgress_request, withProgress_filled]
  cases hstop : addWord c.scanned c.request.contentLength with
  | error f => rfl
  | ok stop =>
    simp only [hstop] at hdone ⊢
    by_cases hshort : c.filled < stop
    · have hfilled : d.filled = c.filled := by
        rcases hdone with hfilled | hdone
        · exact hfilled
        · exact absurd (by simp [hshort]) hdone
      simp only [hfilled, hshort, if_true]
    · have hfilled : ¬ d.filled < stop := by
        have := h.filled_le
        omega
      have hslice := slice_withProgress h c.scanned (Nat.not_lt.mp hshort)
      simp only [hfilled, hshort, if_false, hslice]
      cases c.slice c.scanned stop <;> rfl

theorem parseBody_incomplete (h : c.parseBody.1 = .ok .incomplete) : c.parseBody.2 = c := by
  unfold parseBody at h ⊢
  split
  · rfl
  · split
    · rfl
    · split <;> simp_all

/-- What a line leads to, on a connection that has read as much. -/
def LineStep.onto (d : Connection) : LineStep → LineStep
  | .done verdict c => .done verdict (d.withProgress c)
  | .next c => .next (d.withProgress c)

theorem addRequestLine_withProgress (d c : Connection) (text : String) :
    (d.withProgress c).addRequestLine text = (c.addRequestLine text).onto d := by
  unfold addRequestLine
  simp only [withProgress_request]
  split <;> rfl

/-! What each status of a header leads to, where the head so far fits the buffer. -/

section Header

variable {text : String} {r : Request} (hroom : c.scanned ≤ readCapacity)

include hroom

theorem addHeaderLine_more
    (h : c.request.addHeader (readCapacity - c.scanned) text.toList = (.more, r)) :
    c.addHeaderLine text = .next { c with request := r } := by
  simp only [addHeaderLine, Nat.not_lt.mpr hroom, if_false, h]

theorem addHeaderLine_complete
    (h : c.request.addHeader (readCapacity - c.scanned) text.toList = (.complete, r)) :
    c.addHeaderLine text = .done (.ok .ready) { c with request := r } := by
  simp only [addHeaderLine, Nat.not_lt.mpr hroom, if_false, h]

theorem addHeaderLine_bad
    (h : c.request.addHeader (readCapacity - c.scanned) text.toList = (.bad, r)) :
    c.addHeaderLine text = .done (.ok .malformed) { c with request := r } := by
  simp only [addHeaderLine, Nat.not_lt.mpr hroom, if_false, h]

theorem addHeaderLine_tooLong
    (h : c.request.addHeader (readCapacity - c.scanned) text.toList = (.expectBody, r))
    (hlong : readCapacity < c.scanned + r.contentLength) :
    c.addHeaderLine text = .done (.ok .malformed) { c with request := r } := by
  have hlt : readCapacity - c.scanned < r.contentLength := by omega
  simp only [addHeaderLine, Nat.not_lt.mpr hroom, if_false, h, hlt, if_true]

theorem addHeaderLine_expectBody
    (h : c.request.addHeader (readCapacity - c.scanned) text.toList = (.expectBody, r))
    (hfits : c.scanned + r.contentLength ≤ readCapacity) :
    c.addHeaderLine text =
      .done { c with request := r, phase := .body }.parseBody.1
        { c with request := r, phase := .body }.parseBody.2 := by
  have hle : ¬ readCapacity - c.scanned < r.contentLength := by omega
  simp only [addHeaderLine, Nat.not_lt.mpr hroom, if_false, h, hle]

end Header

/-- A header that ends the head before its body is there leaves the connection waiting for
it. -/
theorem addHeaderLine_incomplete {text : String}
    (h : c.addHeaderLine text = .done (.ok .incomplete) e) :
    e.phase = .body ∧ e.parseBody.1 = .ok .incomplete ∧
      ∀ d : Connection, (d.withProgress c).addHeaderLine text =
        .done (d.withProgress e).parseBody.1 (d.withProgress e).parseBody.2 := by
  by_cases hroom : readCapacity < c.scanned
  · simp [addHeaderLine, hroom] at h
  · have hroom' := Nat.not_lt.mp hroom
    rcases hheader : c.request.addHeader (readCapacity - c.scanned) text.toList with ⟨status, r⟩
    cases status with
    | more => simp [addHeaderLine_more hroom' hheader] at h
    | complete => simp [addHeaderLine_complete hroom' hheader] at h
    | bad => simp [addHeaderLine_bad hroom' hheader] at h
    | expectBody =>
      by_cases hlong : readCapacity < c.scanned + r.contentLength
      · simp [addHeaderLine_tooLong hroom' hheader hlong] at h
      · have hfits := Nat.not_lt.mp hlong
        rw [addHeaderLine_expectBody hroom' hheader hfits, LineStep.done.injEq] at h
        obtain ⟨hverdict, he⟩ := h
        rw [parseBody_incomplete hverdict] at he
        subst he
        refine ⟨rfl, hverdict, ?_⟩
        intro d
        exact addHeaderLine_expectBody (c := d.withProgress c) hroom' hheader hfits

theorem addHeaderLine_withProgress (h : HoldsMore c d) (text : String)
    (hdone : d.filled = c.filled ∨ ∀ e, c.addHeaderLine text ≠ .done (.ok .incomplete) e) :
    (d.withProgress c).addHeaderLine text = (c.addHeaderLine text).onto d := by
  by_cases hroom : readCapacity < c.scanned
  · simp only [addHeaderLine, withProgress_scanned, hroom, if_true]
    rfl
  · have hroom' := Nat.not_lt.mp hroom
    have hroom'' : (d.withProgress c).scanned ≤ readCapacity := hroom'
    rcases hheader : c.request.addHeader (readCapacity - c.scanned) text.toList with ⟨status, r⟩
    cases status with
    | more =>
      rw [addHeaderLine_more hroom' hheader, addHeaderLine_more hroom'' hheader]
      rfl
    | complete =>
      rw [addHeaderLine_complete hroom' hheader, addHeaderLine_complete hroom'' hheader]
      rfl
    | bad =>
      rw [addHeaderLine_bad hroom' hheader, addHeaderLine_bad hroom'' hheader]
      rfl
    | expectBody =>
      by_cases hlong : readCapacity < c.scanned + r.contentLength
      · rw [addHeaderLine_tooLong hroom' hheader hlong,
          addHeaderLine_tooLong hroom'' hheader hlong]
        rfl
      · have hfits := Nat.not_lt.mp hlong
        rw [addHeaderLine_expectBody hroom' hheader hfits] at hdone ⊢
        rw [addHeaderLine_expectBody hroom'' hheader hfits]
        let c' : Connection := { c with request := r, phase := .body }
        have hmore : HoldsMore c' d := ⟨h.bytes, h.filled_le, h.within⟩
        have hbody := parseBody_withProgress hmore (hdone.imp_right fun hne hverdict =>
          hne c'.parseBody.2 (by rw [← hverdict]))
        exact congrArg (fun r => LineStep.done r.1 r.2) hbody

theorem addLine_fault {f : Fault} (h : c.line = .error f) : c.addLine = .done (.error f) c := by
  simp only [addLine, h]

theorem addLine_undecodable {bytes : Bytes} (h : c.line = .ok bytes)
    (htext : Text.decode? bytes = none) : c.addLine = .done (.ok .malformed) c := by
  simp only [addLine, h, htext]

theorem addLine_requestLine {bytes : Bytes} {text : String} (h : c.line = .ok bytes)
    (htext : Text.decode? bytes = some text) (hphase : c.phase = .requestLine) :
    c.addLine = { c with lineStart := c.scanned }.addRequestLine text := by
  simp only [addLine, h, htext, hphase]

theorem addLine_headers {bytes : Bytes} {text : String} (h : c.line = .ok bytes)
    (htext : Text.decode? bytes = some text) (hphase : c.phase = .headers) :
    c.addLine = { c with lineStart := c.scanned }.addHeaderLine text := by
  simp only [addLine, h, htext, hphase]

theorem addLine_body {bytes : Bytes} {text : String} (h : c.line = .ok bytes)
    (htext : Text.decode? bytes = some text) (hphase : c.phase = .body) :
    c.addLine = .next { c with lineStart := c.scanned } := by
  simp only [addLine, h, htext, hphase]

theorem addRequestLine_ne_incomplete (c e : Connection) (text : String) :
    c.addRequestLine text ≠ .done (.ok .incomplete) e := by
  unfold addRequestLine
  split <;> simp

/-- A line that ends the head before the body is there leaves the connection waiting for
it. -/
theorem addLine_incomplete (h : c.addLine = .done (.ok .incomplete) e) :
    e.phase = .body ∧ e.parseBody.1 = .ok .incomplete ∧
      ∀ d : Connection, (d.withProgress c).line = c.line →
        (d.withProgress c).addLine =
          .done (d.withProgress e).parseBody.1 (d.withProgress e).parseBody.2 := by
  cases hline : c.line with
  | error f => simp [addLine_fault hline] at h
  | ok bytes =>
    cases htext : Text.decode? bytes with
    | none => simp [addLine_undecodable hline htext] at h
    | some text =>
      cases hphase : c.phase with
      | requestLine =>
        rw [addLine_requestLine hline htext hphase] at h
        exact absurd h (addRequestLine_ne_incomplete _ e text)
      | headers =>
        rw [addLine_headers hline htext hphase] at h
        obtain ⟨hbody, hshort, hmore⟩ := addHeaderLine_incomplete h
        refine ⟨hbody, hshort, ?_⟩
        intro d hd
        rw [addLine_headers hd htext hphase]
        exact hmore d
      | body => simp [addLine_body hline htext hphase] at h

theorem addLine_withProgress (h : HoldsMore c d) (hscanned : c.scanned ≤ c.filled)
    (hdone : d.filled = c.filled ∨ ∀ e, c.addLine ≠ .done (.ok .incomplete) e) :
    (d.withProgress c).addLine = c.addLine.onto d := by
  have hsame := line_withProgress h hscanned
  cases hline : c.line with
  | error f =>
    rw [addLine_fault hline, addLine_fault (hsame.trans hline)]
    rfl
  | ok bytes =>
    rw [hline] at hsame
    cases htext : Text.decode? bytes with
    | none =>
      rw [addLine_undecodable hline htext, addLine_undecodable hsame htext]
      rfl
    | some text =>
      let c' : Connection := { c with lineStart := c.scanned }
      have hmore : HoldsMore c' d := ⟨h.bytes, h.filled_le, h.within⟩
      cases hphase : c.phase with
      | requestLine =>
        rw [addLine_requestLine hline htext hphase, addLine_requestLine hsame htext hphase]
        exact addRequestLine_withProgress d c' text
      | headers =>
        rw [addLine_headers hline htext hphase] at hdone ⊢
        rw [addLine_headers hsame htext hphase]
        exact addHeaderLine_withProgress hmore text hdone
      | body =>
        rw [addLine_body hline htext hphase, addLine_body hsame htext hphase]
        rfl

/-! ## Reading to the verdict -/

theorem parse_body (h : c.phase = .body) : c.parse = c.parseBody := by
  rw [parse, if_pos h]

theorem parse_fault {f : Fault} {pos : Nat} (h : c.phase ≠ .body)
    (hscan : scanLine c.input c.filled c.scanned = (.error f, pos)) :
    c.parse = (.error f, { c with scanned := pos }) := by
  rw [parse, if_neg h]
  split <;> simp_all

theorem parse_unfinished {pos : Nat} (h : c.phase ≠ .body)
    (hscan : scanLine c.input c.filled c.scanned = (.ok .unfinished, pos)) :
    c.parse = (.ok (if c.input.size ≤ c.filled then .malformed else .incomplete),
      { c with scanned := pos }) := by
  rw [parse, if_neg h]
  split <;> simp_all

theorem parse_bad {pos : Nat} (h : c.phase ≠ .body)
    (hscan : scanLine c.input c.filled c.scanned = (.ok .bad, pos)) :
    c.parse = (.ok .malformed, { c with scanned := pos }) := by
  rw [parse, if_neg h]
  split <;> simp_all

theorem parse_done {pos : Nat} {verdict : Except Fault Verdict} (h : c.phase ≠ .body)
    (hscan : scanLine c.input c.filled c.scanned = (.ok .complete, pos))
    (hline : { c with scanned := pos }.addLine = .done verdict e) :
    c.parse = (verdict, e) := by
  rw [parse, if_neg h]
  split <;> simp_all
  split <;> simp_all

theorem parse_next {pos : Nat} (h : c.phase ≠ .body)
    (hscan : scanLine c.input c.filled c.scanned = (.ok .complete, pos))
    (hline : { c with scanned := pos }.addLine = .next e) :
    c.parse = e.parse := by
  rw [parse, if_neg h]
  split <;> simp_all
  split <;> simp_all

/-- Scans that find the same line end lead to the same verdict. -/
theorem parse_scanned {pos : Nat} (h : c.phase ≠ .body)
    (hscan : scanLine c.input c.filled c.scanned = scanLine c.input c.filled pos) :
    c.parse = { c with scanned := pos }.parse := by
  let c' : Connection := { c with scanned := pos }
  rcases hnext : scanLine c.input c.filled pos with ⟨status, next⟩
  rw [hnext] at hscan
  rcases status with f | status
  · rw [parse_fault h hscan, parse_fault (c := c') h hnext]
  · cases status with
    | unfinished => rw [parse_unfinished h hscan, parse_unfinished (c := c') h hnext]
    | bad => rw [parse_bad h hscan, parse_bad (c := c') h hnext]
    | complete =>
      cases hline : { c with scanned := next }.addLine with
      | done verdict e => rw [parse_done h hscan hline, parse_done (c := c') h hnext hline]
      | next e => rw [parse_next h hscan hline, parse_next (c := c') h hnext hline]

/-- A line that is read past is read past on every connection that holds it. -/
theorem parse_next_withProgress (h : HoldsMore c d) {pos : Nat} (hbody : c.phase ≠ .body)
    (hscan : scanLine c.input c.filled c.scanned = (.ok .complete, pos))
    (hline : { c with scanned := pos }.addLine = .next e) :
    HoldsMore e d ∧ (d.withProgress c).parse = (d.withProgress e).parse := by
  have hgrown := scanLine_grown h.bytes h.filled_le (.inr (by rw [hscan]; simp))
  have hbounds := scanLine_complete hscan
  let c' : Connection := { c with scanned := pos }
  have hmore : HoldsMore c' d := ⟨h.bytes, h.filled_le, h.within⟩
  have hline' := addLine_withProgress hmore hbounds.2 (.inr fun e' he' => by
    rw [hline] at he'
    simp at he')
  obtain ⟨-, hfilled, hinput⟩ := addLine_cursors hline
  constructor
  · refine ⟨?_, ?_, h.within⟩
    · rw [hinput, hfilled]
      exact h.bytes
    · rw [hfilled]
      exact h.filled_le
  · exact parse_next (c := d.withProgress c) hbody (hgrown.trans hscan)
      (hline'.trans (congrArg (LineStep.onto d) hline))

/-- Reading the bytes of `c` on another connection that holds them gives the verdict on
`c`, unless that one waits for more and gets it. -/
theorem parse_withProgress (h : HoldsMore c d)
    (hdone : d.filled = c.filled ∨ c.parse.1 ≠ .ok .incomplete) :
    (d.withProgress c).parse = (c.parse.1, d.withProgress c.parse.2) := by
  induction c using parse.induct with
  | case1 c hbody =>
    rw [parse_body hbody] at hdone
    rw [parse_body hbody, parse_body (c := d.withProgress c) hbody]
    exact parseBody_withProgress h hdone
  | case2 c hbody f pos hscan =>
    have hgrown := scanLine_grown h.bytes h.filled_le (.inr (by rw [hscan]; simp))
    rw [parse_fault hbody hscan, parse_fault (c := d.withProgress c) hbody (hgrown.trans hscan)]
    rfl
  | case3 c hbody pos hscan =>
    have hfilled : d.filled = c.filled := by
      rcases hdone with hfilled | hdone
      · exact hfilled
      · have hfull : c.input.size ≤ c.filled := by
          by_cases hfull : c.input.size ≤ c.filled
          · exact hfull
          · exact absurd (by rw [parse_unfinished hbody hscan, if_neg hfull]) hdone
        have hwithin := h.within
        rw [h.bytes.size] at hwithin
        exact Nat.le_antisymm (Nat.le_trans hwithin hfull) h.filled_le
    have hgrown : scanLine d.input d.filled c.scanned = scanLine c.input c.filled c.scanned :=
      scanLine_grown h.bytes h.filled_le (.inl hfilled)
    rw [parse_unfinished hbody hscan,
      parse_unfinished (c := d.withProgress c) hbody (hgrown.trans hscan)]
    refine Prod.ext ?_ rfl
    simp only [withProgress_filled, withProgress_input, hfilled, h.bytes.size]
  | case4 c hbody pos hscan =>
    have hgrown := scanLine_grown h.bytes h.filled_le (.inr (by rw [hscan]; simp))
    rw [parse_bad hbody hscan, parse_bad (c := d.withProgress c) hbody (hgrown.trans hscan)]
    rfl
  | case5 c hbody pos hscan verdict e hline =>
    have hgrown := scanLine_grown h.bytes h.filled_le (.inr (by rw [hscan]; simp))
    have hbounds := scanLine_complete hscan
    let c' : Connection := { c with scanned := pos }
    have hmore : HoldsMore c' d := ⟨h.bytes, h.filled_le, h.within⟩
    have hline' := addLine_withProgress hmore hbounds.2 (hdone.imp_right fun hne e' he' => by
      rw [parse_done hbody hscan he'] at hne
      exact hne rfl)
    rw [parse_done hbody hscan hline]
    apply parse_done (c := d.withProgress c) hbody (hgrown.trans hscan)
    exact hline'.trans (congrArg (LineStep.onto d) hline)
  | case6 c hbody pos hscan e hline ih =>
    obtain ⟨hmore, hnext⟩ := parse_next_withProgress h hbody hscan hline
    have hfilled := (addLine_cursors hline).2.1
    rw [parse_next hbody hscan hline] at hdone ⊢
    rw [hnext]
    exact ih hmore (hdone.imp_left fun heq => heq.trans hfilled.symm)

/-- A request that was incomplete is read on to the same end as if it were read anew. -/
theorem parse_resume (h : HoldsMore c d) (hopen : c.parse.1 = .ok .incomplete) :
    (d.withProgress c).parse = (d.withProgress c.parse.2).parse := by
  induction c using parse.induct with
  | case1 c hbody =>
    rw [parse_body hbody] at hopen ⊢
    rw [parseBody_incomplete hopen]
  | case2 c hbody f pos hscan => simp [parse_fault hbody hscan] at hopen
  | case3 c hbody pos hscan =>
    have hunfinished : (scanLine c.input c.filled c.scanned).1 = .ok .unfinished := by
      rw [hscan]
    have hresume := scanLine_resume h.bytes h.filled_le hunfinished
    rw [hscan] at hresume
    rw [parse_unfinished hbody hscan]
    exact parse_scanned (c := d.withProgress c) hbody hresume
  | case4 c hbody pos hscan => simp [parse_bad hbody hscan] at hopen
  | case5 c hbody pos hscan verdict e hline =>
    have hgrown := scanLine_grown h.bytes h.filled_le (.inr (by rw [hscan]; simp))
    have hbounds := scanLine_complete hscan
    rw [parse_done hbody hscan hline] at hopen ⊢
    simp only at hopen
    subst hopen
    obtain ⟨hbody', -, hmore⟩ := addLine_incomplete hline
    have hline' := hmore d (line_withProgress (c := { c with scanned := pos })
      ⟨h.bytes, h.filled_le, h.within⟩ hbounds.2)
    rw [parse_body (c := d.withProgress e) hbody']
    exact parse_done (c := d.withProgress c) hbody (hgrown.trans hscan) hline'
  | case6 c hbody pos hscan e hline ih =>
    obtain ⟨hmore, hnext⟩ := parse_next_withProgress h hbody hscan hline
    rw [parse_next hbody hscan hline] at hopen ⊢
    rw [hnext]
    exact ih hmore hopen

end Connection
end PageServer
