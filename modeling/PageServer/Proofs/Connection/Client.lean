import PageServer.Proofs.Connection.Preparing
import PageServer.Proofs.Http.Grammar
import PageServer.Proofs.Text.Encoding

/-!
# What a client makes of responses

A client reads lines up to an empty one, takes the status from the first of them and the
length of the body from a header, and then as many bytes as that.  From responses that
follow each other on a stream it reads what each of them is, and it reads nothing from the
beginning of one.
-/

namespace PageServer

namespace Text

theorem toNat_of_mem_digits {n : Nat} {c : Char} (h : c ∈ digits n) :
    48 ≤ c.toNat ∧ c.toNat ≤ 57 :=
  Char.isDigit_iff_toNat.mp (isDigit_of_mem_digits h)

theorem trim_digits (n : Nat) : trim (digits n) = digits n := by
  have hplain : ∀ c ∈ digits n, ¬isSpace c = true := by
    intro c hc
    obtain ⟨hlow, hhigh⟩ := toNat_of_mem_digits hc
    simp only [isSpace, Bool.or_eq_true, Bool.and_eq_true, decide_eq_true_eq, beq_iff_eq]
    omega
  have hkept {l : List Char} (h : ∀ c ∈ l, c ∈ digits n) : l.dropWhile isSpace = l := by
    cases l with
    | nil => rfl
    | cons c l => exact List.dropWhile_cons_of_neg (hplain c (h c List.mem_cons_self))
  rw [trim, hkept fun _ hc => hc, hkept fun _ hc => List.mem_reverse.mp hc, List.reverse_reverse]

theorem utf8Size_of_mem_digits {n : Nat} {c : Char} (h : c ∈ digits n) : c.utf8Size = 1 := by
  have hhigh : c.val ≤ 57 := UInt32.le_iff_toNat_le.mpr (toNat_of_mem_digits h).2
  rw [Char.utf8Size_eq_one_iff]
  exact UInt32.le_trans hhigh (by decide)

/-- The bytes of a number are its digits. -/
theorem mem_encode_digits {n : Nat} {b : UInt8} (h : b ∈ encode (String.ofList (digits n))) :
    ∃ c ∈ digits n, b = c.val.toUInt8 := by
  rw [encode_ofList, List.mem_flatMap] at h
  obtain ⟨c, hc, hb⟩ := h
  rw [String.utf8EncodeChar_eq_singleton (utf8Size_of_mem_digits hc), List.mem_singleton] at hb
  exact ⟨c, hc, hb⟩

end Text

namespace Http

/-! ## The reader -/

/-- Lines up to the first empty one and the bytes behind it, where `line` is what has been
read of the first line. -/
def readLines? (line : Bytes) : Bytes → Option (List Bytes × Bytes)
  | b :: next :: rest =>
    if b = cr ∧ next = lf then
      if line = [] then some ([], rest)
      else (readLines? [] rest).map fun r => (line :: r.1, r.2)
    else readLines? (line ++ [b]) (next :: rest)
  | _ => none

/-- What a client makes of a response. -/
structure Reply where
  status : Status
  /-- The stream stays open for another request. -/
  keepAlive : Bool
  body : Bytes
  deriving DecidableEq, Repr

/-- What the lines of a head say. -/
structure ReplyHead where
  status : Status
  length : Nat
  keepAlive : Bool

def statusOfLine? (line : List Char) : Option Status :=
  (Text.dropLead? "HTTP/1.1 ".toList line).bind fun rest =>
    (Text.natural? (rest.takeWhile (· != ' '))).bind Status.ofCode?

/-- The length of the body that a header announces. -/
def Header.length? : Header → Option Nat
  | .contentLength value => Text.natural? value
  | _ => none

def Header.isKeepAlive : Header → Bool
  | .connection value => Text.eqIgnoreCase value "keep-alive".toList
  | _ => false

def readHead? : List Bytes → Option ReplyHead
  | [] => none
  | first :: rest =>
    (Text.decode? first).bind fun line => (statusOfLine? line.toList).bind fun status =>
      (rest.mapM Text.decode?).bind fun lines =>
        let headers := lines.map fun line => Header.ofLine line.toList
        (headers.findSome? Header.length?).map fun length =>
          ⟨status, length, headers.any Header.isKeepAlive⟩

/-- Reads one response; nothing if it is not there to its end. -/
def readReply? (b : Bytes) : Option (Reply × Bytes) :=
  (readLines? [] b).bind fun r => (readHead? r.1).bind fun head =>
    if r.2.length < head.length then none
    else some (⟨head.status, head.keepAlive, r.2.take head.length⟩, r.2.drop head.length)

theorem length_readLines?_lt {line b : Bytes} {r : List Bytes × Bytes}
    (h : readLines? line b = some r) : r.2.length < b.length := by
  fun_induction readLines? line b generalizing r with
  | case1 b next rest hend =>
    obtain rfl := Option.some.inj h
    simp only [List.length_cons]
    omega
  | case2 line b next rest hend hline ih =>
    obtain ⟨r, hr, rfl⟩ := Option.map_eq_some_iff.mp h
    have := ih hr
    simp only [List.length_cons]
    omega
  | case3 line b next rest hend ih =>
    have := ih h
    simp only [List.length_cons] at this ⊢
    omega
  | case4 => cases h

theorem length_readReply?_lt {b : Bytes} {r : Reply × Bytes} (h : readReply? b = some r) :
    r.2.length < b.length := by
  obtain ⟨lines, hlines, h⟩ := Option.bind_eq_some_iff.mp h
  obtain ⟨head, -, h⟩ := Option.bind_eq_some_iff.mp h
  have hlt := length_readLines?_lt hlines
  split at h
  · cases h
  · obtain rfl := Option.some.inj h
    simp only [List.length_drop]
    omega

/-- Reads responses one after the other; the bytes behind them are not a whole response. -/
def readReplies (b : Bytes) : List Reply × Bytes :=
  match h : readReply? b with
  | none => ([], b)
  | some r =>
    have := length_readReply?_lt h
    let later := readReplies r.2
    (r.1 :: later.1, later.2)
termination_by b.length

/-! ## Responses one after the other -/

theorem readReplies_none {b : Bytes} (h : readReply? b = none) : readReplies b = ([], b) := by
  rw [readReplies]
  split
  · rfl
  · next r hr => rw [h] at hr; cases hr

theorem readReplies_some {b rest : Bytes} {r : Reply} (h : readReply? b = some (r, rest)) :
    readReplies b = (r :: (readReplies rest).1, (readReplies rest).2) := by
  rw [readReplies]
  split
  · next hnone => rw [h] at hnone; cases hnone
  · next x hx =>
    obtain rfl := Option.some.inj (h.symm.trans hx)
    rfl

/-- What has been read to its end is not touched by what follows. -/
theorem readLines?_append {line b : Bytes} {r : List Bytes × Bytes}
    (h : readLines? line b = some r) (more : Bytes) :
    readLines? line (b ++ more) = some (r.1, r.2 ++ more) := by
  fun_induction readLines? line b generalizing r with
  | case1 b next rest hend =>
    obtain rfl := Option.some.inj h
    rw [List.cons_append, List.cons_append, readLines?, if_pos hend, if_pos rfl]
  | case2 line b next rest hend hline ih =>
    obtain ⟨r, hr, rfl⟩ := Option.map_eq_some_iff.mp h
    rw [List.cons_append, List.cons_append, readLines?, if_pos hend, if_neg hline, ih hr]
    rfl
  | case3 line b next rest hend ih =>
    have hnext := ih h
    rw [List.cons_append] at hnext
    rw [List.cons_append, List.cons_append, readLines?, if_neg hend, hnext]
  | case4 => cases h

theorem readReply?_append {b rest : Bytes} {r : Reply} (h : readReply? b = some (r, rest))
    (more : Bytes) : readReply? (b ++ more) = some (r, rest ++ more) := by
  obtain ⟨lines, hlines, h⟩ := Option.bind_eq_some_iff.mp h
  obtain ⟨head, hhead, h⟩ := Option.bind_eq_some_iff.mp h
  split at h
  · cases h
  · next hwhole =>
    obtain ⟨rfl, rfl⟩ := Prod.mk.inj (Option.some.inj h)
    rw [readReply?, readLines?_append hlines more, Option.bind_some, hhead, Option.bind_some,
      List.length_append, if_neg (by omega), List.take_append_of_le_length (by omega),
      List.drop_append_of_le_length (by omega)]

theorem readLines?_line {l : Bytes} (plain : Plain l) (line rest : Bytes) :
    readLines? line (l ++ cr :: lf :: rest) = readLines? (line ++ l) (cr :: lf :: rest) := by
  induction l generalizing line with
  | nil => rw [List.nil_append, List.append_nil]
  | cons b l ih =>
    have hnext := ih plain.tail (line ++ [b])
    rw [List.append_assoc, List.singleton_append] at hnext
    rw [← hnext]
    have hne : ∀ next, ¬(b = cr ∧ next = lf) := fun _ h => plain.head.1 h.1
    cases l with
    | nil => rw [List.nil_append, List.cons_append, List.nil_append, readLines?, if_neg (hne _)]
    | cons next l => rw [List.cons_append, List.cons_append, readLines?, if_neg (hne _)]

theorem readLines?_joined {ls : List Bytes} (plain : ∀ l ∈ ls, Plain l ∧ l ≠ []) (rest : Bytes) :
    readLines? [] (joined ls ++ cr :: lf :: rest) = some (ls, rest) := by
  induction ls with
  | nil =>
    rw [joined, List.flatMap_nil, List.nil_append, readLines?, if_pos ⟨rfl, rfl⟩, if_pos rfl]
  | cons l ls ih =>
    obtain ⟨hplain, hnonempty⟩ := plain l List.mem_cons_self
    have hlater := ih fun x hx => plain x (List.mem_cons_of_mem l hx)
    have hsplit : joined (l :: ls) ++ cr :: lf :: rest =
        l ++ cr :: lf :: (joined ls ++ cr :: lf :: rest) := by
      simp [joined]
    rw [hsplit, readLines?_line hplain, List.nil_append, readLines?, if_pos ⟨rfl, rfl⟩,
      if_neg hnonempty, hlater]
    rfl

/-! ## Whole responses -/

/-- The lines of a head. -/
def headLines (s : Status) (n : Nat) (keepAlive : Bool) : List String :=
  [s!"HTTP/1.1 {s.code} {s.reason}", s!"Content-Length:{n}",
    if keepAlive then "Connection:keep-alive" else "Connection:close"]

theorem head_eq_joined (s : Status) (n : Nat) (keepAlive : Bool) :
    Connection.head s n keepAlive =
      joined ((headLines s n keepAlive).map Text.encode) ++ [cr, lf] := by
  have hline (text : String) :
      Text.encode (text ++ toString "\r\n") = Text.encode text ++ [cr, lf] :=
    Text.encode_append text "\r\n"
  have hconnection : ResponseBuffer.connectionLine keepAlive = Text.encode
      (if keepAlive then "Connection:keep-alive" else "Connection:close") ++ [cr, lf] := by
    cases keepAlive <;> rfl
  have hblank : ResponseBuffer.blankLine = [cr, lf] := rfl
  rw [Connection.head, ResponseBuffer.statusLine, ResponseBuffer.contentLengthLine, hline, hline,
    hconnection, hblank]
  simp only [joined, headLines, List.map_cons, List.map_nil, List.flatMap_cons, List.flatMap_nil,
    List.append_nil, List.append_assoc]

theorem plain_append {l l' : Bytes} (h : Plain l) (h' : Plain l') : Plain (l ++ l') := by
  intro b hb
  exact (List.mem_append.mp hb).elim (h b) (h' b)

theorem plain_encode_digits (n : Nat) : Plain (Text.encode (toString n)) := by
  intro b hb
  obtain ⟨c, hc, rfl⟩ := Text.mem_encode_digits hb
  obtain ⟨hlow, hhigh⟩ := Text.toNat_of_mem_digits hc
  have hvalue : c.val.toUInt8.toNat = c.toNat := by
    rw [UInt32.toNat_toUInt8]
    exact Nat.mod_eq_of_lt (show c.toNat < 256 by omega)
  constructor
  · intro heq
    rw [heq, show cr.toNat = 13 from rfl] at hvalue
    omega
  · intro heq
    rw [heq, show lf.toNat = 10 from rfl] at hvalue
    omega

theorem plain_headLines (s : Status) (n : Nat) (keepAlive : Bool) :
    ∀ l ∈ (headLines s n keepAlive).map Text.encode, Plain l ∧ l ≠ [] := by
  have hstatus : Plain (Text.encode s!"HTTP/1.1 {s.code} {s.reason}") ∧
      Text.encode s!"HTTP/1.1 {s.code} {s.reason}" ≠ [] := by
    cases s <;> decide
  have hconnection (text : String)
      (h : text = "Connection:keep-alive" ∨ text = "Connection:close") :
      Plain (Text.encode text) ∧ Text.encode text ≠ [] := by
    rcases h with rfl | rfl <;> decide
  have hname : Plain (Text.encode "Content-Length:") ∧ Text.encode "Content-Length:" ≠ [] := by
    decide
  have hlength : Plain (Text.encode s!"Content-Length:{n}") ∧
      Text.encode s!"Content-Length:{n}" ≠ [] := by
    rw [Text.encode_append]
    exact ⟨plain_append hname.1 (plain_encode_digits n),
      List.append_ne_nil_of_left_ne_nil hname.2 _⟩
  simp only [headLines, List.map_cons, List.map_nil, List.forall_mem_cons, List.not_mem_nil,
    false_implies, implies_true, and_true]
  refine ⟨hstatus, hlength, hconnection _ ?_⟩
  cases keepAlive
  · exact .inr rfl
  · exact .inl rfl

theorem readHead?_lines {first second third : String} {s : Status} {n : Nat} {value : List Char}
    (hstatus : statusOfLine? first.toList = some s)
    (hlength : Header.ofLine second.toList = .contentLength (Text.digits n))
    (hconnection : Header.ofLine third.toList = .connection value) :
    readHead? ([first, second, third].map Text.encode) =
      some ⟨s, n, Text.eqIgnoreCase value "keep-alive".toList⟩ := by
  simp only [List.map_cons, List.map_nil, readHead?, Text.decode?_encode, Option.bind_some, hstatus,
    List.mapM_cons, List.mapM_nil, Option.bind_eq_bind, Option.pure_def, hlength, hconnection]
  simp only [List.findSome?_cons, List.any_cons, List.any_nil, Header.length?, Header.isKeepAlive,
    Text.natural?_digits, Option.map_some, Bool.false_or, Bool.or_false]

/-- The lines of a head say what they were written for. -/
theorem readHead?_headLines (s : Status) (n : Nat) (keepAlive : Bool) :
    readHead? ((headLines s n keepAlive).map Text.encode) = some ⟨s, n, keepAlive⟩ := by
  have hstatus : statusOfLine? (s!"HTTP/1.1 {s.code} {s.reason}").toList = some s := by
    cases s <;> rfl
  have hlength : Header.ofLine (s!"Content-Length:{n}").toList =
      .contentLength (Text.digits n) := by
    have htext : (s!"Content-Length:{n}").toList = "Content-Length:".toList ++ Text.digits n := by
      rw [String.toList_append, ← Text.toList_toString]
      rfl
    have hnamed : Header.ofLine ("Content-Length:".toList ++ Text.digits n) =
        .contentLength (Text.trim (Text.digits n)) := rfl
    rw [htext, hnamed, Text.trim_digits]
  have hconnection : ∃ value, Header.ofLine
      (if keepAlive then "Connection:keep-alive" else "Connection:close").toList =
        .connection value ∧ Text.eqIgnoreCase value "keep-alive".toList = keepAlive := by
    cases keepAlive
    · exact ⟨"close".toList, rfl, rfl⟩
    · exact ⟨"keep-alive".toList, rfl, rfl⟩
  obtain ⟨value, hvalue, hkeep⟩ := hconnection
  rw [headLines, readHead?_lines hstatus hlength hvalue, hkeep]

/-- The bytes that a reply is read from. -/
def Reply.bytes (r : Reply) : Bytes :=
  Connection.head r.status r.body.length r.keepAlive ++ r.body

theorem readReply?_bytes (r : Reply) (rest : Bytes) :
    readReply? (r.bytes ++ rest) = some (r, rest) := by
  have hsplit : r.bytes ++ rest =
      joined ((headLines r.status r.body.length r.keepAlive).map Text.encode) ++
        cr :: lf :: (r.body ++ rest) := by
    rw [Reply.bytes, head_eq_joined]
    simp
  rw [readReply?, hsplit, readLines?_joined (plain_headLines _ _ _), Option.bind_some,
    readHead?_headLines, Option.bind_some]
  simp

/-- The beginning of a response is not yet one. -/
theorem readReply?_front {r : Reply} {part : Bytes} (h : part <+: r.bytes)
    (hlt : part.length < r.bytes.length) : readReply? part = none := by
  obtain ⟨more, hmore⟩ := h
  cases hpart : readReply? part with
  | none => rfl
  | some x =>
    obtain ⟨r', rest⟩ := x
    have happend := readReply?_append hpart more
    have hwhole := readReply?_bytes r []
    rw [List.append_nil, ← hmore, happend] at hwhole
    have hnil := congrArg List.length (Prod.mk.inj (Option.some.inj hwhole)).2
    rw [← hmore, List.length_append] at hlt
    rw [List.length_append, List.length_nil] at hnil
    omega

/-- From responses and the beginning of one more a client reads what the responses are. -/
theorem readReplies_bytes (replies : List Reply) {part : Bytes} (h : readReply? part = none) :
    readReplies (replies.flatMap Reply.bytes ++ part) = (replies, part) := by
  induction replies with
  | nil => exact readReplies_none h
  | cons r replies ih =>
    rw [List.flatMap_cons, List.append_assoc, readReplies_some (readReply?_bytes r _), ih]

/-- A reply is told by its bytes. -/
theorem Reply.eq_of_bytes_eq {r r' : Reply} (h : r.bytes = r'.bytes) : r = r' := by
  have hread := readReply?_bytes r []
  rw [h, readReply?_bytes] at hread
  exact (congrArg Prod.fst (Option.some.inj hread)).symm

theorem readReply?_nil : readReply? [] = none := rfl

/-- Replies one after the other are told by their bytes. -/
theorem eq_of_flatMap_bytes_eq {replies others : List Reply}
    (h : others.flatMap Reply.bytes = replies.flatMap Reply.bytes) : others = replies := by
  have hothers := readReplies_bytes others readReply?_nil
  have hreplies := readReplies_bytes replies readReply?_nil
  rw [h, hreplies] at hothers
  exact (congrArg Prod.fst hothers).symm

end Http
end PageServer
