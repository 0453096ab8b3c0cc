import PageServer.Http.Header

/-!
# Lengths that a header announces

A number is an optional plus sign and at least one decimal digit.  A header announces a
body length when its value is such a number, fits a word, and leaves the body room in the
buffer.
-/

namespace PageServer
namespace Text

/-- The number `n` followed by the digits of `s`. -/
def decimalFrom (n : Nat) (s : List Char) : Nat :=
  s.foldl (fun n c => n * 10 + (c.toNat - '0'.toNat)) n

/-- An optional plus sign and at least one digit, which make the number `n`. -/
def IsDecimal (s : List Char) (n : Nat) : Prop :=
  ∃ digits, (s = digits ∨ s = '+' :: digits) ∧ digits ≠ [] ∧
    (∀ c ∈ digits, c.isDigit = true) ∧ decimalFrom 0 digits = n

theorem digits?_eq_some_iff {acc n : Nat} {s : List Char} :
    digits? acc s = some n ↔ (∀ c ∈ s, c.isDigit = true) ∧ decimalFrom acc s = n := by
  induction s generalizing acc with
  | nil => simp [digits?, decimalFrom]
  | cons c s ih =>
    by_cases hc : c.isDigit = true
    · have hnext : digits? acc (c :: s) = digits? (acc * 10 + (c.toNat - '0'.toNat)) s := by
        simp [digits?, digit?, hc]
      rw [hnext, ih, List.forall_mem_cons]
      constructor
      · intro h
        exact ⟨⟨hc, h.1⟩, h.2⟩
      · intro h
        exact ⟨h.1.2, h.2⟩
    · have hnone : digits? acc (c :: s) = none := by
        simp [digits?, digit?, hc]
      rw [hnone, List.forall_mem_cons]
      constructor
      · intro h
        simp at h
      · intro h
        exact absurd h.1.1 hc

theorem natural?_eq_some_iff {n : Nat} {s : List Char} :
    natural? s = some n ↔ s ≠ [] ∧ (∀ c ∈ s, c.isDigit = true) ∧ decimalFrom 0 s = n := by
  cases s with
  | nil => simp [natural?]
  | cons c s =>
    rw [natural?, digits?_eq_some_iff]
    · simp
    · simp

theorem number?_plus (limit : Nat) (s : List Char) :
    number? limit ('+' :: s) = (natural? s).filter (· ≤ limit) := rfl

theorem number?_of_ne_plus (limit : Nat) {s : List Char} (h : ∀ rest, s ≠ '+' :: rest) :
    number? limit s = (natural? s).filter (· ≤ limit) := by
  unfold number?
  split
  · next rest => exact absurd rfl (h rest)
  · rfl

theorem number?_eq_some_iff {limit n : Nat} {s : List Char} :
    number? limit s = some n ↔ IsDecimal s n ∧ n ≤ limit := by
  by_cases hplus : ∃ rest, s = '+' :: rest
  · obtain ⟨rest, rfl⟩ := hplus
    rw [number?_plus, Option.filter_eq_some_iff, natural?_eq_some_iff, decide_eq_true_eq]
    apply and_congr_left
    intro _
    constructor
    · intro h
      exact ⟨rest, .inr rfl, h⟩
    · rintro ⟨digits, hsign | hsign, hdigits⟩
      · -- A plus sign is no digit.
        subst hsign
        exact absurd (hdigits.2.1 '+' List.mem_cons_self) (by decide)
      · obtain rfl := (List.cons.inj hsign).2
        exact hdigits
  · have hne : ∀ rest, s ≠ '+' :: rest := by
      intro rest h
      exact hplus ⟨rest, h⟩
    rw [number?_of_ne_plus limit hne, Option.filter_eq_some_iff, natural?_eq_some_iff,
      decide_eq_true_eq]
    apply and_congr_left
    intro _
    constructor
    · intro h
      exact ⟨s, .inl rfl, h⟩
    · rintro ⟨digits, hsign | hsign, hdigits⟩
      · subst hsign
        exact hdigits
      · exact absurd hsign (hne digits)

end Text

namespace Http

/-- A header that announces a body whose length is a number, fits a word, and is at most
`room`, or one that announces none. -/
def LengthFits (room : Nat) : Header → Prop
  | .contentLength value => ∃ n, Text.IsDecimal value n ∧ n ≤ Text.wordMax ∧ n ≤ room
  | _ => True

theorem bodyLength?_eq_some_iff {room n : Nat} {value : List Char} :
    bodyLength? room value = some n ↔ Text.IsDecimal value n ∧ n ≤ Text.wordMax ∧ n ≤ room := by
  rw [bodyLength?, Option.filter_eq_some_iff, Text.number?_eq_some_iff, decide_eq_true_eq,
    and_assoc]

variable {room : Nat} {r : Request} {h : Header}

/-- A header is refused only for the length that it announces. -/
theorem withHeader_bad_iff : (r.withHeader room h).1 = .bad ↔ ¬ LengthFits room h := by
  cases h with
  | endOfHead =>
    simp only [Request.withHeader, LengthFits, not_true, iff_false]
    split <;> simp
  | contentLength value =>
    simp only [Request.withHeader, LengthFits, ← bodyLength?_eq_some_iff]
    cases bodyLength? room value <;> simp
  | connection | host | other => simp [Request.withHeader, LengthFits]

/-- A header that is not refused does not end the head unless it is the empty line. -/
theorem withHeader_more_iff (hend : h ≠ .endOfHead) :
    (r.withHeader room h).1 = .more ↔ LengthFits room h := by
  cases h with
  | endOfHead => exact absurd rfl hend
  | contentLength value =>
    simp only [Request.withHeader, LengthFits, ← bodyLength?_eq_some_iff]
    cases bodyLength? room value <;> simp
  | connection | host | other => simp [Request.withHeader, LengthFits]

@[simp] theorem body_withHeader (room : Nat) (r : Request) (h : Header) :
    (r.withHeader room h).2.body = r.body := by
  cases h with
  | contentLength value =>
    simp only [Request.withHeader]
    split <;> rfl
  | endOfHead | connection | host | other => rfl

/-- Only the empty line ends a head. -/
theorem ofLine_ne_endOfHead {line : List Char} (hline : line ≠ []) :
    Header.ofLine line ≠ .endOfHead := by
  cases line with
  | nil => exact absurd rfl hline
  | cons c line =>
    rw [Header.ofLine, if_neg (by simp)]
    split
    · simp
    · split
      · simp
      · split <;> simp

end Http
end PageServer
