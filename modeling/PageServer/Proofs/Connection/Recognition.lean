import PageServer.Proofs.Connection.Chunking
import PageServer.Proofs.Http.Grammar

/-!
# What is recognised

A fresh connection that holds some bytes finds in them exactly what the grammar does: the
request that they start with, that they do not start one, or that more of them are needed.
-/

namespace PageServer
namespace Connection

open Http

/-- The connection when it has read lines of `n` bytes that make the request `q`. -/
def readTo (c : Connection) (n : Nat) : Option Request → Connection
  | none => { c with scanned := n, lineStart := n, phase := .requestLine, request := {} }
  | some r => { c with scanned := n, lineStart := n, phase := .headers, request := r }

/-- The connection when it has read the head, of `n` bytes, of a request with a body. -/
def atBody (c : Connection) (n : Nat) (r : Request) : Connection :=
  { c with scanned := n, lineStart := n, phase := .body, request := r }

/-- The connection has received the bytes `B`. -/
structure Holds (c : Connection) (B : Bytes) : Prop where
  bytes : c.input.toList.take c.filled = B
  filled_le : c.filled ≤ c.input.size
  size : c.input.size = readCapacity

variable {c : Connection} {B : Bytes} {q : Option Request}

@[simp] theorem readTo_input (c : Connection) (n : Nat) (q : Option Request) :
    (c.readTo n q).input = c.input := by
  cases q <;> rfl

@[simp] theorem readTo_filled (c : Connection) (n : Nat) (q : Option Request) :
    (c.readTo n q).filled = c.filled := by
  cases q <;> rfl

@[simp] theorem readTo_scanned (c : Connection) (n : Nat) (q : Option Request) :
    (c.readTo n q).scanned = n := by
  cases q <;> rfl

@[simp] theorem readTo_lineStart (c : Connection) (n : Nat) (q : Option Request) :
    (c.readTo n q).lineStart = n := by
  cases q <;> rfl

theorem scanLine_readTo (c : Connection) (n : Nat) (q : Option Request) :
    scanLine (c.readTo n q).input (c.readTo n q).filled (c.readTo n q).scanned =
      scanLine c.input c.filled n := by
  rw [readTo_input, readTo_filled, readTo_scanned]

theorem readTo_phase (c : Connection) (n : Nat) (q : Option Request) :
    (c.readTo n q).phase ≠ .body := by
  cases q <;> simp [readTo]

theorem Holds.length (h : Holds c B) : B.length = c.filled := by
  rw [← h.bytes, List.length_take, Array.length_toList, Nat.min_eq_left h.filled_le]

theorem Holds.filled_le_capacity (h : Holds c B) : c.filled ≤ readCapacity := by
  rw [← h.size]
  exact h.filled_le

/-- What follows some of the bytes is what the scanner has in front of it there. -/
theorem Holds.between_eq (h : Holds c B) {pre rest : Bytes} (eq : B = pre ++ rest) :
    between c.input pre.length c.filled = rest := by
  rw [Http.between_eq, ← List.drop_take, h.bytes, eq, List.drop_left]

/-! ## One line -/

theorem decode?_nil : Text.decode? [] = some "" := rfl

theorem encode_of_decode? {b : Bytes} {s : String} (h : Text.decode? b = some s) :
    Text.encode s = b := by
  unfold Text.decode? String.fromUTF8? at h
  split at h
  · obtain rfl := Option.some.inj h
    rfl
  · simp at h

/-- A line that is not empty is a text that is not. -/
theorem ofLine_text_ne_endOfHead {l : Bytes} {text : String} (hl : l ≠ [])
    (utf8 : Text.decode? l = some text) : Header.ofLine text.toList ≠ .endOfHead := by
  apply ofLine_ne_endOfHead
  intro htext
  obtain rfl := String.toList_eq_nil_iff.mp htext
  exact hl (encode_of_decode? utf8).symm

theorem addRequestLine_accepted {text : String} {line : RequestLine}
    (h : RequestLine.parse? text.toList = some line) :
    c.addRequestLine text =
      .next { c with request := c.request.withLine line, phase := .headers } := by
  simp only [addRequestLine, Request.addLine, h]

theorem addRequestLine_refused {text : String} (h : RequestLine.parse? text.toList = none) :
    c.addRequestLine text = .done (.ok .malformed) c := by
  simp only [addRequestLine, Request.addLine, h]

section Line

variable {pre l rest : Bytes} {text : String} {r : Request} (h : Holds c B)
  (eq : B = pre ++ (l ++ cr :: lf :: rest))

include h eq

theorem Holds.stop_le : pre.length + l.length + 2 ≤ c.filled := by
  have hlength := h.length
  simp only [eq, List.length_append, List.length_cons] at hlength
  omega

theorem Holds.scanLine (plain : Plain l) (q : Option Request) :
    scanLine (c.readTo pre.length q).input (c.readTo pre.length q).filled
      (c.readTo pre.length q).scanned = (.ok .complete, pre.length + l.length + 2) :=
  (scanLine_readTo c _ q).trans (scanLine_line (h.between_eq eq) plain)

/-- The line that the scanner has completed is the one that the bytes go on with. -/
theorem Holds.line :
    { c.readTo pre.length q with scanned := pre.length + l.length + 2 }.line = .ok l := by
  have hstop := h.stop_le eq
  have hfilled := h.filled_le
  rw [line_eq]
  · simp only [readTo_input, readTo_lineStart]
    exact congrArg Except.ok (between_of_append (h.between_eq eq))
  · simp only [readTo_lineStart]
    omega
  · simp only [readTo_input]
    omega

theorem Holds.addLine_headers (utf8 : Text.decode? l = some text) :
    { c.readTo pre.length (some r) with scanned := pre.length + l.length + 2 }.addLine =
      (c.readTo (pre.length + l.length + 2) (some r)).addHeaderLine text :=
  Connection.addLine_headers (h.line eq) utf8 rfl

/-- A header line that is accepted is read past. -/
theorem Holds.parse_header (plain : Plain l) (nonempty : l ≠ [])
    (utf8 : Text.decode? l = some text)
    (fits : LengthFits (readCapacity - (pre.length + l.length + 2)) (Header.ofLine text.toList)) :
    (c.readTo pre.length (some r)).parse =
      (c.readTo (pre.length + l.length + 2) (some
        (r.addHeader (readCapacity - (pre.length + l.length + 2)) text.toList).2)).parse := by
  have hroom := Nat.le_trans (h.stop_le eq) h.filled_le_capacity
  have hmore : (r.addHeader (readCapacity - (pre.length + l.length + 2)) text.toList).1 = .more :=
    (withHeader_more_iff (ofLine_text_ne_endOfHead nonempty utf8)).mpr fits
  apply parse_next (readTo_phase c _ _) (h.scanLine eq plain _)
  rw [h.addLine_headers eq utf8]
  exact addHeaderLine_more (c := c.readTo _ (some r)) hroom (Prod.ext hmore rfl)

/-- A header line that announces a body of no acceptable length makes the request
malformed. -/
theorem Holds.parse_header_refused (plain : Plain l) (utf8 : Text.decode? l = some text)
    (refused : ¬ LengthFits (readCapacity - (pre.length + l.length + 2))
      (Header.ofLine text.toList)) :
    (c.readTo pre.length (some r)).parse.1 = .ok .malformed := by
  have hroom := Nat.le_trans (h.stop_le eq) h.filled_le_capacity
  have hbad : (r.addHeader (readCapacity - (pre.length + l.length + 2)) text.toList).1 = .bad :=
    withHeader_bad_iff.mpr refused
  have hline := h.addLine_headers eq utf8 (r := r)
  rw [addHeaderLine_bad (c := c.readTo _ (some r)) hroom (Prod.ext hbad rfl)] at hline
  rw [parse_done (readTo_phase c _ _) (h.scanLine eq plain _) hline]

/-- A line that is no text makes the request malformed. -/
theorem Holds.parse_notUtf8 (plain : Plain l) (undecodable : Text.decode? l = none) :
    (c.readTo pre.length q).parse.1 = .ok .malformed := by
  rw [parse_done (readTo_phase c _ q) (h.scanLine eq plain q)
    (addLine_undecodable (h.line eq) undecodable)]

/-- A request line that is accepted is read past. -/
theorem Holds.parse_requestLine {line : RequestLine} (plain : Plain l)
    (utf8 : Text.decode? l = some text) (accepted : RequestLine.parse? text.toList = some line) :
    (c.readTo pre.length none).parse =
      (c.readTo (pre.length + l.length + 2) (some (Request.withLine {} line))).parse := by
  apply parse_next (readTo_phase c _ _) (h.scanLine eq plain _)
  rw [addLine_requestLine (h.line eq) utf8 rfl, addRequestLine_accepted accepted]
  rfl

theorem Holds.parse_requestLine_refused (plain : Plain l) (utf8 : Text.decode? l = some text)
    (refused : RequestLine.parse? text.toList = none) :
    (c.readTo pre.length none).parse.1 = .ok .malformed := by
  have hline := addLine_requestLine (h.line eq (q := none)) utf8 rfl
  rw [addRequestLine_refused refused] at hline
  rw [parse_done (readTo_phase c _ _) (h.scanLine eq plain _) hline]

end Line

/-! ## Where no line follows -/

section Open

variable {pre l rest : Bytes} (h : Holds c B) (plain : Plain l) (eq : B = pre ++ (l ++ rest))

include h plain eq

theorem Holds.parse_unended (unended : Unended rest) (q : Option Request) :
    (c.readTo pre.length q).parse.1 =
      .ok (if readCapacity ≤ B.length then .malformed else .incomplete) := by
  have hscan := scanLine_unended (h.between_eq eq) plain unended h.filled_le
  rw [parse_unfinished (readTo_phase c _ q) ((scanLine_readTo c _ q).trans hscan), readTo_input,
    readTo_filled, h.size, h.length]

theorem Holds.parse_stray (stray : Stray rest) (hpre : NotAfterReturn c.input pre.length)
    (q : Option Request) : (c.readTo pre.length q).parse.1 = .ok .malformed := by
  have hscan := scanLine_stray (h.between_eq eq) plain stray hpre
  rw [parse_bad (readTo_phase c _ q) ((scanLine_readTo c _ q).trans hscan)]

end Open

/-! ## The end of the head -/

theorem addHeader_blank (room : Nat) {r : Request} (hbody : 0 < r.contentLength) :
    r.addHeader room "".toList = (.expectBody, r) := by
  simp [Request.addHeader, Header.ofLine, Request.withHeader, hbody]

theorem addHeader_blank_noBody (room : Nat) {r : Request} (hbody : r.contentLength = 0) :
    r.addHeader room "".toList = (.complete, r) := by
  simp [Request.addHeader, Header.ofLine, Request.withHeader, hbody]

/-- The bytes taken for a body are the ones that have been received. -/
theorem Holds.between_body (h : Holds c B) {start n : Nat} (hstop : start + n ≤ B.length) :
    between c.input start (start + n) = (B.drop start).take n := by
  rw [h.length] at hstop
  rw [Http.between_eq, ← h.bytes, List.drop_take, List.take_take, Nat.add_sub_cancel_left,
    Nat.min_eq_left (by omega)]

section Blank

variable {pre rest : Bytes} {r : Request} (h : Holds c B) (eq : B = pre ++ cr :: lf :: rest)

include h eq

theorem Holds.addLine_blank :
    { c.readTo pre.length (some r) with scanned := pre.length + 2 }.addLine =
      (c.readTo (pre.length + 2) (some r)).addHeaderLine "" :=
  h.addLine_headers (l := []) eq decode?_nil

theorem Holds.parse_blank {verdict : Except Fault Verdict} {e : Connection}
    (hhead : (c.readTo (pre.length + 2) (some r)).addHeaderLine "" = .done verdict e) :
    (c.readTo pre.length (some r)).parse = (verdict, e) :=
  parse_done (readTo_phase c _ _) (h.scanLine (l := []) eq .nil _)
    ((h.addLine_blank eq).trans hhead)

/-- A body that exceeds the buffer makes the request malformed. -/
theorem Holds.parse_longBody (hlong : readCapacity < pre.length + 2 + r.contentLength) :
    (c.readTo pre.length (some r)).parse.1 = .ok .malformed := by
  have hroom := Nat.le_trans (h.stop_le (l := []) eq) h.filled_le_capacity
  have hbody : 0 < r.contentLength := by
    simp only [List.length_nil] at hroom
    omega
  have hhead := addHeaderLine_tooLong (c := c.readTo (pre.length + 2) (some r)) hroom
    (addHeader_blank _ hbody) hlong
  rw [h.parse_blank eq hhead]

/-- A head that announces no body ends the request. -/
theorem Holds.parse_noBody (hbody : r.contentLength = 0) :
    (c.readTo pre.length (some r)).parse = (.ok .ready, c.readTo (pre.length + 2) (some r)) := by
  have hroom := Nat.le_trans (h.stop_le (l := []) eq) h.filled_le_capacity
  have hhead := addHeaderLine_complete (c := c.readTo (pre.length + 2) (some r)) hroom
    (addHeader_blank_noBody _ hbody)
  exact h.parse_blank eq hhead

section Body

variable (hbody : 0 < r.contentLength) (hfits : pre.length + 2 + r.contentLength ≤ readCapacity)

include hbody hfits

/-- A head that announces a body that fits leaves the connection looking for it. -/
theorem Holds.parse_body :
    (c.readTo pre.length (some r)).parse = (c.atBody (pre.length + 2) r).parseBody := by
  have hroom := Nat.le_trans (h.stop_le (l := []) eq) h.filled_le_capacity
  have hhead := addHeaderLine_expectBody (c := c.readTo (pre.length + 2) (some r)) hroom
    (addHeader_blank _ hbody) hfits
  exact h.parse_blank eq hhead

theorem Holds.parse_shortBody (hshort : B.length < pre.length + 2 + r.contentLength) :
    (c.readTo pre.length (some r)).parse.1 = .ok .incomplete := by
  have htake := parseBody_eq (c := c.atBody (pre.length + 2) r) hfits h.filled_le
  rw [h.length] at hshort
  rw [h.parse_body eq hbody hfits, htake]
  exact congrArg Prod.fst (if_pos hshort)

theorem Holds.parse_wholeBody (hwhole : pre.length + 2 + r.contentLength ≤ B.length) :
    (c.readTo pre.length (some r)).parse =
      (.ok .ready, c.atBody (pre.length + 2)
        { r with body := (B.drop (pre.length + 2)).take r.contentLength }) := by
  have htake := parseBody_eq (c := c.atBody (pre.length + 2) r) hfits h.filled_le
  rw [← h.between_body hwhole]
  rw [h.length] at hwhole
  rw [h.parse_body eq hbody hfits, htake]
  exact if_neg (Nat.not_lt.mpr hwhole)

end Body

end Blank

/-! ## All bytes -/

/-- Accepted lines are read past. -/
theorem Holds.parse_accepted {ls : List Bytes} {rest : Bytes} (h : Holds c B)
    (accepted : Accepted ls q) (eq : B = joined ls ++ rest) :
    (c.readTo 0 none).parse = (c.readTo (joined ls).length q).parse := by
  induction accepted generalizing rest with
  | nothing => rfl
  | @requestLine l text line plain utf8 accepted =>
    have hline : B = [] ++ (l ++ cr :: lf :: rest) := eq.trans (joined_append_line [] l rest)
    have hstep := h.parse_requestLine hline plain utf8 accepted
    have hlength := length_joined_append_singleton [] l
    rw [List.nil_append] at hlength
    rw [hlength]
    exact hstep
  | @header ls r l text before plain nonempty utf8 fits ih =>
    have hline : B = joined ls ++ (l ++ cr :: lf :: rest) :=
      eq.trans (joined_append_line ls l rest)
    rw [roomBehind, length_joined_append_singleton] at fits
    rw [ih hline, h.parse_header hline plain nonempty utf8 fits, roomBehind,
      length_joined_append_singleton]

/-- No CR stands in front of what follows some lines. -/
theorem Holds.notAfterReturn {ls : List Bytes} {rest : Bytes} (h : Holds c B)
    (eq : B = joined ls ++ rest) : NotAfterReturn c.input (joined ls).length := by
  rcases List.eq_nil_or_concat ls with rfl | ⟨init, l, rfl⟩
  · exact .inl rfl
  · apply Or.inr
    have hlast : B = (joined init ++ l ++ [cr]) ++ (lf :: rest) := by
      rw [eq, List.concat_eq_append, joined_append_line]
      simp
    obtain ⟨-, hlf, -⟩ := between_cons (h.between_eq hlast)
    have hpos : (joined (init.concat l)).length - 1 = (joined init ++ l ++ [cr]).length := by
      rw [List.concat_eq_append, length_joined_append_singleton]
      simp only [List.length_append, List.length_singleton]
      omega
    rw [hpos, hlf]
    decide

theorem Holds.parse_ready {r : Request} (h : Holds c B) (ready : Ready B r) :
    (c.readTo 0 none).parse.1 = .ok .ready ∧ (c.readTo 0 none).parse.2.request = r := by
  obtain @⟨ls, r, rest, head, eq, whole⟩ := ready
  rw [h.parse_accepted head eq]
  rcases Nat.eq_zero_or_pos r.contentLength with hnone | hbody
  · have hempty : (B.drop (headLength ls)).take r.contentLength = r.body := by
      rw [hnone, List.take_zero, head.body]
    rw [h.parse_noBody eq hnone, hempty]
    exact ⟨rfl, rfl⟩
  · have hfits : headLength ls + r.contentLength ≤ readCapacity := by
      rw [h.length] at whole
      exact Nat.le_trans whole h.filled_le_capacity
    rw [h.parse_wholeBody eq hbody hfits whole]
    exact ⟨rfl, rfl⟩

theorem Holds.parse_malformed (h : Holds c B) (malformed : Malformed B) :
    (c.readTo 0 none).parse.1 = .ok .malformed := by
  cases malformed with
  | stray before plain stray eq =>
    rw [h.parse_accepted before eq]
    exact h.parse_stray plain eq stray (h.notAfterReturn eq) _
  | notUtf8 before plain undecodable eq =>
    rw [h.parse_accepted before eq]
    exact h.parse_notUtf8 eq plain undecodable
  | requestLine plain utf8 refused eq =>
    have hline : B = [] ++ _ := eq
    exact h.parse_requestLine_refused hline plain utf8 refused
  | bodyLength before plain utf8 refused eq =>
    rw [roomBehind, length_joined_append_singleton] at refused
    rw [h.parse_accepted before eq]
    exact h.parse_header_refused eq plain utf8 refused
  | longBody head long eq =>
    rw [h.parse_accepted head eq]
    exact h.parse_longBody eq long
  | longHead before plain unended full eq =>
    rw [h.parse_accepted before eq, h.parse_unended plain eq unended,
      if_pos (Nat.le_of_eq full.symm)]

theorem Holds.parse_partial (h : Holds c B) (part : Partial B) :
    (c.readTo 0 none).parse.1 = .ok .incomplete := by
  cases part with
  | head before plain unended room eq =>
    rw [h.parse_accepted before eq, h.parse_unended plain eq unended,
      if_neg (Nat.not_le.mpr room)]
  | @body ls r rest head fits short eq =>
    have hbody : 0 < r.contentLength := by
      have hhead : headLength ls ≤ B.length := by
        rw [eq, headLength, List.length_append, List.length_cons, List.length_cons]
        omega
      omega
    rw [h.parse_accepted head eq]
    exact h.parse_shortBody eq hbody fits short

theorem holds_takeIn_fresh (stale : Array UInt8) (fd : Nat) (peer : Net.SocketAddress)
    (hB : B.length ≤ readCapacity) : Holds ((fresh stale fd peer).takeIn B) B where
  bytes := by
    rw [take_input_takeIn_fresh, List.take_of_length_le hB]
  filled_le := ((cursors_fresh stale fd peer).takeIn B).filled_le
  size := (size_takeIn _ B).trans (size_fresh stale fd peer)

theorem parse_takeIn_fresh (stale : Array UInt8) (fd : Nat) (peer : Net.SocketAddress)
    (hB : B.length ≤ readCapacity) {r : Request} (ready : Ready B r) :
    ((fresh stale fd peer).takeIn B).parse.1 = .ok .ready ∧
      ((fresh stale fd peer).takeIn B).parse.2.request = r :=
  (holds_takeIn_fresh stale fd peer hB).parse_ready ready

/-- A fresh connection that holds no more bytes than the buffer takes finds a request in
them where the grammar does, and the same one, and nowhere else; it finds them malformed
where the grammar does, and nowhere else; and in all other cases it waits for more. -/
theorem parse_fresh_iff (stale : Array UInt8) (fd : Nat) (peer : Net.SocketAddress)
    (hB : B.length ≤ readCapacity) :
    let c := (fresh stale fd peer).takeIn B
    (∀ r, c.parse.1 = .ok .ready ∧ c.parse.2.request = r ↔ Ready B r) ∧
      (c.parse.1 = .ok .malformed ↔ Malformed B) ∧
      (c.parse.1 = .ok .incomplete ↔ (∀ r, ¬ Ready B r) ∧ ¬ Malformed B) := by
  intro c
  have hholds : Holds c B := holds_takeIn_fresh stale fd peer hB
  have hready (r : Request) (h : Ready B r) : c.parse.1 = .ok .ready ∧ c.parse.2.request = r :=
    hholds.parse_ready h
  have hmalformed (h : Malformed B) : c.parse.1 = .ok .malformed := hholds.parse_malformed h
  have hpartial (h : Partial B) : c.parse.1 = .ok .incomplete := hholds.parse_partial h
  -- The grammar leaves nothing out, so each verdict is reached in no other case than its
  -- own.
  have hcases := ready_or_malformed_or_partial hB
  refine ⟨?_, ?_, ?_⟩
  · intro r
    constructor
    · rintro ⟨hverdict, hrequest⟩
      rcases hcases with ⟨r', h⟩ | h | h
      · obtain rfl := (hready r' h).2.symm.trans hrequest
        exact h
      · simp [hmalformed h] at hverdict
      · simp [hpartial h] at hverdict
    · exact hready r
  · constructor
    · intro hverdict
      rcases hcases with ⟨r, h⟩ | h | h
      · simp [(hready r h).1] at hverdict
      · exact h
      · simp [hpartial h] at hverdict
    · exact hmalformed
  · constructor
    · intro hverdict
      constructor
      · intro r h
        simp [(hready r h).1] at hverdict
      · intro h
        simp [hmalformed h] at hverdict
    · rintro ⟨hnot, hwell⟩
      rcases hcases with ⟨r, h⟩ | h | h
      · exact absurd h (hnot r)
      · exact absurd h hwell
      · exact hpartial h

/-- A request with one byte behind its body. -/
def postRequest : Bytes :=
  joined [Text.encode "POST /2 HTTP/1.1", Text.encode "Content-Length: +3 "] ++
    cr :: lf :: Text.encode "abcd"

theorem ready_postRequest :
    Ready postRequest
      { method := .post, url := "/2", version := "HTTP/1.1", contentLength := 3,
        body := Text.encode "abc" } := by
  have hline : RequestLine.parse? "POST /2 HTTP/1.1".toList =
      some ⟨.post, "/2".toList, "HTTP/1.1".toList⟩ := rfl
  have hfirst : Accepted [Text.encode "POST /2 HTTP/1.1"]
      (some { method := .post, url := "/2", version := "HTTP/1.1" }) :=
    .requestLine (by decide) rfl hline
  have hfits : LengthFits (roomBehind [Text.encode "POST /2 HTTP/1.1",
      Text.encode "Content-Length: +3 "]) (Header.ofLine "Content-Length: +3 ".toList) :=
    ⟨3, ⟨['3'], .inr rfl, by decide, List.all_eq_true.mp rfl, rfl⟩, by decide, by decide⟩
  have hutf8 : Text.decode? (Text.encode "Content-Length: +3 ") = some "Content-Length: +3 " := rfl
  have hhead : Accepted [Text.encode "POST /2 HTTP/1.1", Text.encode "Content-Length: +3 "]
      (some { method := .post, url := "/2", version := "HTTP/1.1", contentLength := 3 }) :=
    hfirst.header (by decide) (by decide) hutf8 hfits
  exact .intro hhead rfl (by decide)

theorem parse_fresh_postRequest :
    postRequest.length ≤ readCapacity ∧
      let c := (fresh #[] 5 ⟨.v4 10 0 0 1, 4000⟩).takeIn postRequest
      c.parse.1 = .ok .ready ∧ c.parse.2.request =
        { method := .post, url := "/2", version := "HTTP/1.1", contentLength := 3,
          body := Text.encode "abc" } := by
  have hB : postRequest.length ≤ readCapacity := by decide
  exact ⟨hB, ((parse_fresh_iff #[] 5 ⟨.v4 10 0 0 1, 4000⟩ hB).1 _).mpr ready_postRequest⟩

end Connection
end PageServer
