import PageServer.Connection.Basic
import PageServer.Http.Header
import PageServer.Http.RequestLine

/-!
# Reading the request

Goes on with the request in the buffer from where the last call stopped: line by line
through the head, then the body once all of it is there. Head and body together must fit
the buffer.
-/

namespace PageServer

/-- What is known of a request and, once it has been looked up, of what it asks for. -/
inductive Verdict
  | incomplete
  | ready
  | malformed
  | missing
  | forbidden
  | found
  | broken
  deriving DecidableEq, Repr

namespace Http

theorem scanReturn_complete {buf : Array UInt8} {stop pos next : Nat} (hpos : pos < stop)
    (h : scanReturn buf stop pos = (.ok .complete, next)) : pos < next ∧ next ≤ stop := by
  unfold scanReturn at h
  split at h
  · simp at h
  · split at h
    · simp at h
    · split at h
      · simp only [Prod.mk.injEq, true_and] at h; omega
      · simp at h

theorem scanFeed_complete {buf : Array UInt8} {stop pos next : Nat} (hpos : pos < stop)
    (h : scanFeed buf pos = (.ok .complete, next)) : pos < next ∧ next ≤ stop := by
  unfold scanFeed at h
  split at h
  · simp only [Prod.mk.injEq, true_and] at h; omega
  · simp at h

/-- A complete line ends behind the position and within the bytes received. -/
theorem scanLine_complete {buf : Array UInt8} {stop pos next : Nat}
    (h : scanLine buf stop pos = (.ok .complete, next)) : pos < next ∧ next ≤ stop := by
  fun_induction scanLine buf stop pos with
  | case1 => simp at h
  | case2 pos hpos => exact scanReturn_complete hpos h
  | case3 pos hpos => exact scanFeed_complete hpos h
  | case4 pos hpos b _ _ _ ih => have := ih h; omega
  | case5 => simp at h

end Http

namespace Connection

open Http

/-- The bytes of the buffer from `start` up to `stop`. -/
def slice (c : Connection) (start stop : Nat) : Except Fault Bytes :=
  if stop < start then .error (.sliceOrder start stop)
  else if c.input.size < stop then .error (.sliceStop stop c.input.size)
  else .ok (c.input.extract start stop).toList

/-- The line just completed, without its line end. -/
def line (c : Connection) : Except Fault Bytes :=
  if c.scanned < 2 then .error .subOverflow else c.slice c.lineStart (c.scanned - 2)

/-- Takes the body when all of it is there. -/
def parseBody (c : Connection) : Except Fault Verdict × Connection :=
  match addWord c.scanned c.request.contentLength with
  | .error f => (.error f, c)
  | .ok stop =>
    if c.filled < stop then (.ok .incomplete, c)
    else match c.slice c.scanned stop with
      | .error f => (.error f, c)
      | .ok body => (.ok .ready, { c with request := { c.request with body } })

/-- What one line of the head leads to: a verdict, or more to read. -/
inductive LineStep
  | done (verdict : Except Fault Verdict) (c : Connection)
  | next (c : Connection)

/-- Takes in a request line. -/
def addRequestLine (c : Connection) (text : String) : LineStep :=
  match c.request.addLine text.toList with
  | (true, request) => .next { c with request, phase := .headers }
  | (false, _) => .done (.ok .malformed) c

/-- Takes in a header; the body it may announce is bounded by what is left of the buffer. -/
def addHeaderLine (c : Connection) (text : String) : LineStep :=
  if readCapacity < c.scanned then .done (.error .subOverflow) c
  else
    let room := readCapacity - c.scanned
    match c.request.addHeader room text.toList with
    | (.more, request) => .next { c with request }
    | (.complete, request) => .done (.ok .ready) { c with request }
    | (.bad, request) => .done (.ok .malformed) { c with request }
    | (.expectBody, request) =>
      if room < request.contentLength then .done (.ok .malformed) { c with request }
      else
        let r := parseBody { c with request, phase := .body }
        .done r.1 r.2

/-- Takes in the line that the scanner has just completed. -/
def addLine (c : Connection) : LineStep :=
  match c.line with
  | .error f => .done (.error f) c
  | .ok bytes => match Text.decode? bytes with
    | none => .done (.ok .malformed) c
    | some text =>
      let c := { c with lineStart := c.scanned }
      match c.phase with
      | .requestLine => c.addRequestLine text
      | .headers => c.addHeaderLine text
      | .body => .next c

theorem addLine_cursors {c d : Connection} (h : c.addLine = .next d) :
    d.scanned = c.scanned ∧ d.filled = c.filled ∧ d.input = c.input := by
  unfold addLine at h
  split at h
  · simp at h
  · split at h
    · simp at h
    · simp only at h
      split at h
      · unfold addRequestLine at h
        split at h
        · simp only [LineStep.next.injEq] at h; subst h; simp
        · simp at h
      · unfold addHeaderLine at h
        split at h
        · simp at h
        · simp only at h
          split at h
          · simp only [LineStep.next.injEq] at h; subst h; simp
          · simp at h
          · simp at h
          · split at h <;> simp at h
      · simp only [LineStep.next.injEq] at h; subst h; simp

/-- Reads on in the buffer until there is a verdict. -/
def parse (c : Connection) : Except Fault Verdict × Connection :=
  if c.phase = .body then c.parseBody
  else match _ : scanLine c.input c.filled c.scanned with
    | (.error f, pos) => (.error f, { c with scanned := pos })
    | (.ok .unfinished, pos) =>
      (.ok (if c.input.size ≤ c.filled then .malformed else .incomplete), { c with scanned := pos })
    | (.ok .bad, pos) => (.ok .malformed, { c with scanned := pos })
    | (.ok .complete, pos) => match _ : addLine { c with scanned := pos } with
      | .done verdict c' => (verdict, c')
      | .next c' => c'.parse
termination_by c.filled - c.scanned
decreasing_by
  have h1 := scanLine_complete ‹scanLine _ _ _ = _›
  have h2 := addLine_cursors ‹addLine _ = _›
  simp only at h2; omega

end Connection
end PageServer
