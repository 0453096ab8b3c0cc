import PageServer.Connection.Basic
import PageServer.Http.RequestLine
import PageServer.Proofs.Http.BodyLength
import PageServer.Proofs.Http.LineEnd

/-!
# The grammar of requests

A request is a request line, header lines and an empty line, each ended by CR LF, with the
body that the headers announce behind them.  Bytes that fit the buffer are a request with
perhaps more behind it, or malformed, or the start of something that may still become a
request.
-/

namespace PageServer
namespace Http

/-- The bytes of some lines, each with its line end. -/
def joined (ls : List Bytes) : Bytes :=
  ls.flatMap fun l => l ++ [cr, lf]

/-- What is left of the buffer behind some lines. -/
def roomBehind (ls : List Bytes) : Nat :=
  readCapacity - (joined ls).length

/-- Lines that may start a request, and the request that they make: none before the first
line. -/
inductive Accepted : List Bytes → Option Request → Prop
  | nothing : Accepted [] none
  | requestLine {l : Bytes} {text : String} {line : RequestLine} (plain : Plain l)
    (utf8 : Text.decode? l = some text) (accepted : RequestLine.parse? text.toList = some line) :
    Accepted [l] (some (Request.withLine {} line))
  | header {ls : List Bytes} {r : Request} {l : Bytes} {text : String}
    (before : Accepted ls (some r)) (plain : Plain l) (nonempty : l ≠ [])
    (utf8 : Text.decode? l = some text)
    (fits : LengthFits (roomBehind (ls ++ [l])) (Header.ofLine text.toList)) :
    Accepted (ls ++ [l]) (some (r.addHeader (roomBehind (ls ++ [l])) text.toList).2)

/-- Where the empty line behind some lines ends. -/
def headLength (ls : List Bytes) : Nat :=
  (joined ls).length + 2

/-- A whole request at the start of some bytes, and what it asks for. -/
inductive Ready (B : Bytes) : Request → Prop
  | intro {ls : List Bytes} {r : Request} {rest : Bytes} (head : Accepted ls (some r))
    (eq : B = joined ls ++ cr :: lf :: rest) (whole : headLength ls + r.contentLength ≤ B.length) :
    Ready B { r with body := (B.drop (headLength ls)).take r.contentLength }

/-- Bytes that do not start a request, or not one that fits the buffer. -/
inductive Malformed (B : Bytes) : Prop
  /-- An LF behind no CR, or a CR in front of no LF. -/
  | stray {ls : List Bytes} {q : Option Request} {l rest : Bytes} (before : Accepted ls q)
    (plain : Plain l) (stray : Stray rest) (eq : B = joined ls ++ (l ++ rest))
  | notUtf8 {ls : List Bytes} {q : Option Request} {l rest : Bytes} (before : Accepted ls q)
    (plain : Plain l) (undecodable : Text.decode? l = none)
    (eq : B = joined ls ++ (l ++ cr :: lf :: rest))
  | requestLine {l rest : Bytes} {text : String} (plain : Plain l)
    (utf8 : Text.decode? l = some text) (refused : RequestLine.parse? text.toList = none)
    (eq : B = l ++ cr :: lf :: rest)
  /-- A body length that is no number or exceeds what is left behind its header. -/
  | bodyLength {ls : List Bytes} {r : Request} {l rest : Bytes} {text : String}
    (before : Accepted ls (some r)) (plain : Plain l) (utf8 : Text.decode? l = some text)
    (refused : ¬ LengthFits (roomBehind (ls ++ [l])) (Header.ofLine text.toList))
    (eq : B = joined ls ++ (l ++ cr :: lf :: rest))
  /-- A body that exceeds what is left behind the head. -/
  | longBody {ls : List Bytes} {r : Request} {rest : Bytes} (head : Accepted ls (some r))
    (long : readCapacity < headLength ls + r.contentLength)
    (eq : B = joined ls ++ cr :: lf :: rest)
  /-- A head that fills the buffer and is not at its end. -/
  | longHead {ls : List Bytes} {q : Option Request} {l rest : Bytes} (before : Accepted ls q)
    (plain : Plain l) (unended : Unended rest) (full : B.length = readCapacity)
    (eq : B = joined ls ++ (l ++ rest))

/-- Bytes that may still become a request. -/
inductive Partial (B : Bytes) : Prop
  | head {ls : List Bytes} {q : Option Request} {l rest : Bytes} (before : Accepted ls q)
    (plain : Plain l) (unended : Unended rest) (room : B.length < readCapacity)
    (eq : B = joined ls ++ (l ++ rest))
  | body {ls : List Bytes} {r : Request} {rest : Bytes} (head : Accepted ls (some r))
    (fits : headLength ls + r.contentLength ≤ readCapacity)
    (short : B.length < headLength ls + r.contentLength)
    (eq : B = joined ls ++ cr :: lf :: rest)

theorem joined_append_singleton (ls : List Bytes) (l : Bytes) :
    joined (ls ++ [l]) = joined ls ++ (l ++ [cr, lf]) := by
  simp [joined]

theorem joined_append_line (ls : List Bytes) (l rest : Bytes) :
    joined (ls ++ [l]) ++ rest = joined ls ++ (l ++ cr :: lf :: rest) := by
  simp [joined_append_singleton]

theorem length_joined_append_singleton (ls : List Bytes) (l : Bytes) :
    (joined (ls ++ [l])).length = (joined ls).length + l.length + 2 := by
  rw [joined_append_singleton, List.length_append, List.length_append]
  rfl

theorem Accepted.eq_nil {ls : List Bytes} (h : Accepted ls none) : ls = [] := by
  cases h
  rfl

/-- The lines of a head put nothing into the body. -/
theorem Accepted.body {ls : List Bytes} {r : Request} (h : Accepted ls (some r)) : r.body = [] := by
  generalize hq : some r = q at h
  induction h generalizing r with
  | nothing => simp at hq
  | requestLine =>
    obtain rfl := Option.some.inj hq
    rfl
  | header before plain nonempty utf8 fits ih =>
    obtain rfl := Option.some.inj hq
    rw [Request.addHeader, body_withHeader]
    exact ih rfl

/-- However accepted lines go on within the buffer, the bytes are one of the three. -/
theorem Accepted.trichotomy {B rest : Bytes} {ls : List Bytes} {q : Option Request}
    (hB : B.length ≤ readCapacity) (h : Accepted ls q) (eq : B = joined ls ++ rest) :
    (∃ r, Ready B r) ∨ Malformed B ∨ Partial B := by
  cases ahead rest with
  | unended l tail plain short hrest =>
    subst hrest
    rcases Nat.lt_or_eq_of_le hB with hroom | hfull
    · exact .inr (.inr (.head h plain short hroom eq))
    · exact .inr (.inl (.longHead h plain short hfull eq))
  | stray l tail plain bad hrest =>
    subst hrest
    exact .inr (.inl (.stray h plain bad eq))
  | line l tail plain hrest =>
    subst hrest
    have hnext := eq.trans (joined_append_line ls l tail).symm
    cases htext : Text.decode? l with
    | none => exact .inr (.inl (.notUtf8 h plain htext eq))
    | some text =>
      cases q with
      | none =>
        obtain rfl := h.eq_nil
        cases hline : RequestLine.parse? text.toList with
        | none => exact .inr (.inl (.requestLine plain htext hline eq))
        | some line => exact trichotomy hB (.requestLine plain htext hline) hnext
      | some r =>
        by_cases hempty : l = []
        · subst hempty
          by_cases hlong : readCapacity < headLength ls + r.contentLength
          · exact .inr (.inl (.longBody h hlong eq))
          · by_cases hshort : B.length < headLength ls + r.contentLength
            · exact .inr (.inr (.body h (Nat.not_lt.mp hlong) hshort eq))
            · exact .inl ⟨_, .intro h eq (Nat.not_lt.mp hshort)⟩
        · by_cases hfits : LengthFits (roomBehind (ls ++ [l])) (Header.ofLine text.toList)
          · exact trichotomy hB (.header h plain hempty htext hfits) hnext
          · exact .inr (.inl (.bodyLength h plain htext hfits eq))
termination_by rest.length
decreasing_by
  all_goals
    subst hrest
    simp only [List.length_append, List.length_cons]
    omega

/-- Bytes that fit the buffer start a request, do not, or may still come to do so. -/
theorem ready_or_malformed_or_partial {B : Bytes} (hB : B.length ≤ readCapacity) :
    (∃ r, Ready B r) ∨ Malformed B ∨ Partial B :=
  Accepted.nothing.trichotomy hB rfl

/-- The bytes start with a line that reads as a request line. -/
def StartsWith (B : Bytes) (line : RequestLine) : Prop :=
  ∃ l rest text, B = l ++ cr :: lf :: rest ∧ Plain l ∧ Text.decode? l = some text ∧
    RequestLine.parse? text.toList = some line

theorem method_url_withHeader (room : Nat) (r : Request) (h : Header) :
    (r.withHeader room h).2.method = r.method ∧ (r.withHeader room h).2.url = r.url := by
  cases h with
  | contentLength value =>
    simp only [Request.withHeader]
    split <;> exact ⟨rfl, rfl⟩
  | endOfHead | connection | host | other => exact ⟨rfl, rfl⟩

/-- Accepted lines take the method and the url from the first of them. -/
theorem Accepted.startsWith {ls : List Bytes} {r : Request} (h : Accepted ls (some r))
    (rest : Bytes) : ∃ line, StartsWith (joined ls ++ rest) line ∧ r.method = line.method ∧
      r.url = if line.path = ['/'] then welcomePath else String.ofList line.path := by
  generalize hq : some r = q at h
  induction h generalizing r rest with
  | nothing => cases hq
  | @requestLine l text line plain utf8 accepted =>
    obtain rfl := Option.some.inj hq
    exact ⟨line, ⟨l, rest, text, joined_append_line [] l rest, plain, utf8, accepted⟩, rfl, rfl⟩
  | @header ls r' l text before plain nonempty utf8 fits ih =>
    obtain rfl := Option.some.inj hq
    obtain ⟨hmethod, hurl⟩ :=
      method_url_withHeader (roomBehind (ls ++ [l])) r' (Header.ofLine text.toList)
    rw [joined_append_line, Request.addHeader, hmethod, hurl]
    exact ih _ rfl

/-- A request has the method and the url that the request line in front of it gives, with
the welcome page in place of the bare root. -/
theorem Ready.startsWith {B : Bytes} {r : Request} (h : Ready B r) :
    ∃ line, StartsWith B line ∧ r.method = line.method ∧
      r.url = if line.path = ['/'] then welcomePath else String.ofList line.path := by
  obtain @⟨ls, r, rest, head, rfl, whole⟩ := h
  exact head.startsWith (cr :: lf :: rest)

/-! ## Where a request ends -/

/-- A request and nothing behind it. -/
inductive Whole (B : Bytes) : Request → Prop
  | intro {ls : List Bytes} {r : Request} {rest : Bytes} (head : Accepted ls (some r))
    (eq : B = joined ls ++ cr :: lf :: rest) (exact : rest.length = r.contentLength) :
    Whole B { r with body := rest }

theorem drop_headLength (ls : List Bytes) (rest : Bytes) :
    (joined ls ++ cr :: lf :: rest).drop (headLength ls) = rest := by
  rw [headLength, ← List.drop_drop, List.drop_left]
  rfl

theorem length_eq_headLength_add (ls : List Bytes) (rest : Bytes) :
    (joined ls ++ cr :: lf :: rest).length = headLength ls + rest.length := by
  simp only [headLength, List.length_append, List.length_cons]
  omega

theorem Whole.ready {B : Bytes} {r : Request} (h : Whole B r) : Ready B r := by
  obtain @⟨ls, r, rest, head, rfl, exact⟩ := h
  have hready := Ready.intro head rfl
    (Nat.le_of_eq (by rw [length_eq_headLength_add, exact]))
  rw [drop_headLength, List.take_of_length_le (Nat.le_of_eq exact)] at hready
  exact hready

/-- What follows a request is left out of it. -/
theorem Ready.append {B : Bytes} {r : Request} (h : Ready B r) (more : Bytes) :
    Ready (B ++ more) r := by
  obtain @⟨ls, r, rest, head, rfl, whole⟩ := h
  have heq : joined ls ++ cr :: lf :: rest ++ more = joined ls ++ cr :: lf :: (rest ++ more) := by
    simp
  have hrest : r.contentLength ≤ rest.length := by
    rw [length_eq_headLength_add] at whole
    omega
  have hready := Ready.intro head heq (by
    rw [List.length_append]
    omega)
  rw [heq, drop_headLength, List.take_append_of_le_length hrest] at hready
  rw [drop_headLength, heq]
  exact hready

theorem Accepted.plain_ne_nil {ls : List Bytes} {q : Option Request} (h : Accepted ls q) :
    ∀ l ∈ ls, Plain l ∧ l ≠ [] := by
  induction h with
  | nothing => intro l hl; cases hl
  | @requestLine l text line plain utf8 accepted =>
    intro l' hl'
    obtain rfl := List.mem_singleton.mp hl'
    refine ⟨plain, ?_⟩
    rintro rfl
    obtain rfl := Option.some.inj utf8
    cases accepted
  | header before plain nonempty utf8 fits ih =>
    intro l' hl'
    rcases List.mem_append.mp hl' with hl' | hl'
    · exact ih l' hl'
    · obtain rfl := List.mem_singleton.mp hl'
      exact ⟨plain, nonempty⟩

/-- A request has a line. -/
theorem not_accepted_nil (r : Request) : ¬Accepted [] (some r) := by
  intro h
  generalize hls : ([] : List Bytes) = ls, hq : some r = q at h
  cases h with
  | nothing => cases hq
  | requestLine | header => simp at hls

/-- Lines make one request. -/
theorem Accepted.unique {ls : List Bytes} {q q' : Option Request} (h : Accepted ls q)
    (h' : Accepted ls q') : q = q' := by
  induction h generalizing q' with
  | nothing =>
    generalize hls : ([] : List Bytes) = ls at h'
    cases h' with
    | nothing => rfl
    | requestLine | header => simp at hls
  | @requestLine l text line plain utf8 accepted =>
    generalize hls : [l] = ls at h'
    cases h' with
    | nothing => simp at hls
    | requestLine _ utf8' accepted' =>
      obtain rfl := List.singleton_inj.mp hls
      obtain rfl := Option.some.inj (utf8.symm.trans utf8')
      obtain rfl := Option.some.inj (accepted.symm.trans accepted')
      rfl
    | @header ls' r' l' _ before =>
      obtain ⟨rfl, -⟩ := List.append_inj' ((List.nil_append [l]).trans hls) rfl
      exact absurd before (not_accepted_nil r')
  | @header ls r l text before plain nonempty utf8 fits ih =>
    generalize hls : ls ++ [l] = ls' at h'
    cases h' with
    | nothing => simp at hls
    | requestLine =>
      obtain ⟨rfl, -⟩ := List.append_inj' (hls.trans (List.nil_append _).symm) rfl
      exact absurd before (not_accepted_nil r)
    | header before' _ _ utf8' _ =>
      obtain ⟨rfl, hl⟩ := List.append_inj' hls rfl
      obtain rfl := List.singleton_inj.mp hl
      obtain rfl := Option.some.inj (ih before')
      obtain rfl := Option.some.inj (utf8.symm.trans utf8')
      rfl

theorem eq_of_plain {l l' rest rest' : Bytes} (h : Plain l) (h' : Plain l')
    (heq : l ++ cr :: lf :: rest = l' ++ cr :: lf :: rest') : l = l' ∧ rest = rest' := by
  induction l generalizing l' with
  | nil =>
    cases l' with
    | nil => simpa using heq
    | cons b l' => exact absurd (List.cons.inj heq).1.symm h'.head.1
  | cons b l ih =>
    cases l' with
    | nil => exact absurd (List.cons.inj heq).1 h.head.1
    | cons b' l' =>
      obtain ⟨rfl, htail⟩ := List.cons.inj heq
      obtain ⟨rfl, hrest⟩ := ih h.tail h'.tail htail
      exact ⟨rfl, hrest⟩

/-- The first empty line is where a head ends. -/
theorem eq_of_joined {ls ls' : List Bytes} {rest rest' : Bytes} (h : ∀ l ∈ ls, Plain l ∧ l ≠ [])
    (h' : ∀ l ∈ ls', Plain l ∧ l ≠ [])
    (heq : joined ls ++ cr :: lf :: rest = joined ls' ++ cr :: lf :: rest') :
    ls = ls' ∧ rest = rest' := by
  have hcons (l : Bytes) (ls : List Bytes) (rest : Bytes) :
      joined (l :: ls) ++ rest = l ++ cr :: lf :: (joined ls ++ rest) := by
    simp [joined]
  induction ls generalizing ls' with
  | nil =>
    cases ls' with
    | nil => simpa [joined] using heq
    | cons l' ls' =>
      obtain ⟨hplain, hne⟩ := h' l' List.mem_cons_self
      rw [hcons] at heq
      exact absurd (eq_of_plain Plain.nil hplain heq).1.symm hne
  | cons l ls ih =>
    obtain ⟨hplain, hne⟩ := h l List.mem_cons_self
    cases ls' with
    | nil =>
      rw [hcons] at heq
      exact absurd (eq_of_plain hplain Plain.nil heq).1 hne
    | cons l' ls' =>
      rw [hcons, hcons] at heq
      obtain ⟨rfl, htail⟩ := eq_of_plain hplain (h' l' List.mem_cons_self).1 heq
      obtain ⟨rfl, hrest⟩ := ih (fun l hl => h l (List.mem_cons_of_mem _ hl))
        (fun l hl => h' l (List.mem_cons_of_mem _ hl)) htail
      exact ⟨rfl, hrest⟩

/-- No proper beginning of a request is one. -/
theorem Whole.eq_of_isPrefix {B p : Bytes} {r r' : Request} (h : Whole B r) (hp : Ready p r')
    (hfront : p <+: B) : p = B := by
  obtain @⟨ls, r, rest, head, rfl, exact⟩ := h
  obtain @⟨ls', r', rest', head', rfl, whole⟩ := hp
  obtain ⟨more, heq⟩ := hfront
  have heq' : joined ls' ++ cr :: lf :: (rest' ++ more) = joined ls ++ cr :: lf :: rest := by
    rw [← heq]
    simp
  obtain ⟨rfl, rfl⟩ := eq_of_joined head'.plain_ne_nil head.plain_ne_nil heq'
  obtain rfl := Option.some.inj (head.unique head')
  rw [length_eq_headLength_add] at whole
  rw [List.length_append] at exact
  have hmore : more = [] := List.length_eq_zero_iff.mp (by omega)
  rw [hmore, List.append_nil]

end Http
end PageServer
