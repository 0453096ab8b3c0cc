import PageServer.Http.Line

/-!
# Where a line ends

What follows in a buffer is either a line with its line end, or plain bytes up to a stray
CR or LF, or an unfinished line.  The scanner finds out which one it is and where it ends.
-/

namespace PageServer
namespace Http

/-- The bytes of a buffer from `start` up to `stop`. -/
def between (buf : Array UInt8) (start stop : Nat) : Bytes :=
  (buf.extract start stop).toList

/-- Bytes that are neither CR nor LF. -/
def Plain (l : Bytes) : Prop :=
  ∀ b ∈ l, b ≠ cr ∧ b ≠ lf

instance : DecidablePred Plain := fun l =>
  decidable_of_iff (l.all (fun b => b != cr && b != lf) = true) (by simp [Plain])

/-- Bytes that begin with a CR or LF that ends no line. -/
def Stray (l : Bytes) : Prop :=
  (∃ rest, l = lf :: rest) ∨ ∃ next rest, l = cr :: next :: rest ∧ next ≠ lf

/-- Bytes after which a line may still end. -/
def Unended (l : Bytes) : Prop :=
  l = [] ∨ l = [cr]

/-- How bytes of a head go on. -/
inductive Ahead (t : Bytes) : Prop
  | line (l rest : Bytes) (plain : Plain l) (eq : t = l ++ cr :: lf :: rest)
  | stray (l rest : Bytes) (plain : Plain l) (bad : Stray rest) (eq : t = l ++ rest)
  | unended (l rest : Bytes) (plain : Plain l) (short : Unended rest) (eq : t = l ++ rest)

theorem Plain.nil : Plain [] := by
  intro b hb
  simp at hb

theorem Plain.cons {b : UInt8} {l : Bytes} (hcr : b ≠ cr) (hlf : b ≠ lf) (h : Plain l) :
    Plain (b :: l) := by
  intro x hx
  rcases List.mem_cons.mp hx with rfl | hx
  · exact ⟨hcr, hlf⟩
  · exact h x hx

theorem Plain.head {b : UInt8} {l : Bytes} (h : Plain (b :: l)) : b ≠ cr ∧ b ≠ lf :=
  h b List.mem_cons_self

theorem Plain.tail {b : UInt8} {l : Bytes} (h : Plain (b :: l)) : Plain l := by
  intro x hx
  exact h x (List.mem_cons_of_mem b hx)

theorem cr_ne_lf : cr ≠ lf := by
  decide

theorem ahead (t : Bytes) : Ahead t := by
  induction t with
  | nil => exact .unended [] [] .nil (.inl rfl) rfl
  | cons b t ih =>
    by_cases hlf : b = lf
    · subst hlf
      exact .stray [] (lf :: t) .nil (.inl ⟨t, rfl⟩) rfl
    · by_cases hcr : b = cr
      · subst hcr
        cases t with
        | nil => exact .unended [] [cr] .nil (.inr rfl) rfl
        | cons next t =>
          by_cases hnext : next = lf
          · subst hnext
            exact .line [] t .nil rfl
          · exact .stray [] (cr :: next :: t) .nil (.inr ⟨next, t, rfl, hnext⟩) rfl
      · cases ih with
        | line l rest plain eq => exact .line (b :: l) rest (plain.cons hcr hlf) (by rw [eq]; rfl)
        | stray l rest plain bad eq =>
          exact .stray (b :: l) rest (plain.cons hcr hlf) bad (by rw [eq]; rfl)
        | unended l rest plain short eq =>
          exact .unended (b :: l) rest (plain.cons hcr hlf) short (by rw [eq]; rfl)

/-! ## Bytes of a buffer -/

variable {buf : Array UInt8} {start stop pos : Nat}

theorem between_eq (buf : Array UInt8) (start stop : Nat) :
    between buf start stop = (buf.toList.drop start).take (stop - start) := by
  rw [between, Array.toList_extract, List.extract_eq_take_drop]

theorem length_between (start : Nat) (h : stop ≤ buf.size) :
    (between buf start stop).length = stop - start := by
  rw [between_eq, List.length_take, List.length_drop, Array.length_toList]
  omega

theorem between_cons {b : UInt8} {rest : Bytes} (h : between buf pos stop = b :: rest) :
    pos < stop ∧ buf[pos]? = some b ∧ between buf (pos + 1) stop = rest := by
  rw [between_eq] at h
  have hpos : pos < stop := by
    by_cases hpos : pos < stop
    · exact hpos
    · rw [Nat.sub_eq_zero_of_le (by omega), List.take_zero] at h
      simp at h
  have hsize : pos < buf.toList.length := by
    by_cases hsize : pos < buf.toList.length
    · exact hsize
    · rw [List.drop_eq_nil_of_le (by omega), List.take_nil] at h
      simp at h
  rw [List.drop_eq_getElem_cons hsize, show stop - pos = stop - (pos + 1) + 1 by omega,
    List.take_succ_cons, List.cons.injEq] at h
  refine ⟨hpos, ?_, ?_⟩
  · rw [← h.1, Array.getElem_toList]
    exact Array.getElem?_eq_getElem hsize
  · rw [between_eq]
    exact h.2

theorem between_append {l rest : Bytes} (h : between buf pos stop = l ++ rest) :
    between buf (pos + l.length) stop = rest := by
  induction l generalizing pos with
  | nil => exact h
  | cons b l ih =>
    have htail := (between_cons h).2.2
    rw [List.length_cons, show pos + (l.length + 1) = pos + 1 + l.length by omega]
    exact ih htail

theorem between_of_append {l rest : Bytes} (h : between buf pos stop = l ++ rest) :
    between buf pos (pos + l.length) = l := by
  rw [between_eq] at h ⊢
  have hlength : l.length ≤ stop - pos := by
    have hle := List.length_take_le (stop - pos) (buf.toList.drop pos)
    rw [h, List.length_append] at hle
    omega
  have htake := congrArg (List.take l.length) h
  rw [List.take_take, Nat.min_eq_left hlength, List.take_left] at htake
  rw [Nat.add_sub_cancel_left]
  exact htake

/-- The byte in front of the position is no CR. -/
def NotAfterReturn (buf : Array UInt8) (pos : Nat) : Prop :=
  pos = 0 ∨ buf[pos - 1]? ≠ some cr

theorem notAfterReturn_of_plain {l rest : Bytes} (h : between buf pos stop = l ++ rest)
    (hplain : Plain l) (hpos : NotAfterReturn buf pos) : NotAfterReturn buf (pos + l.length) := by
  induction l generalizing pos with
  | nil => exact hpos
  | cons b l ih =>
    obtain ⟨-, hb, htail⟩ := between_cons h
    have hnext : NotAfterReturn buf (pos + 1) := by
      apply Or.inr
      rw [Nat.add_sub_cancel, hb]
      intro heq
      exact hplain.head.1 (Option.some.inj heq)
    rw [List.length_cons, show pos + (l.length + 1) = pos + 1 + l.length by omega]
    exact ih htail hplain.tail hnext

/-! ## The scanner -/

theorem scanLine_plain {l rest : Bytes} (h : between buf pos stop = l ++ rest)
    (hplain : Plain l) : scanLine buf stop pos = scanLine buf stop (pos + l.length) := by
  induction l generalizing pos with
  | nil => rfl
  | cons b l ih =>
    obtain ⟨hpos, hb, htail⟩ := between_cons h
    rw [scanLine, if_pos hpos, hb]
    simp only [hplain.head.1, hplain.head.2, if_false]
    rw [ih htail hplain.tail, List.length_cons]
    congr 1
    omega

theorem scanLine_line {l rest : Bytes} (h : between buf pos stop = l ++ cr :: lf :: rest)
    (hplain : Plain l) : scanLine buf stop pos = (.ok .complete, pos + l.length + 2) := by
  obtain ⟨hpos, hcr, htail⟩ := between_cons (between_append h)
  obtain ⟨hnext, hlf, -⟩ := between_cons htail
  rw [scanLine_plain h hplain, scanLine, if_pos hpos, hcr]
  simp only [if_true]
  rw [scanReturn, if_neg (by omega), hlf]
  rfl

theorem scanLine_unended {l rest : Bytes} (h : between buf pos stop = l ++ rest)
    (hplain : Plain l) (hshort : Unended rest) (hstop : stop ≤ buf.size) :
    scanLine buf stop pos = (.ok .unfinished, pos + l.length) := by
  have hrest := between_append h
  have hlength := length_between (pos + l.length) hstop
  rw [hrest] at hlength
  rw [scanLine_plain h hplain, scanLine]
  rcases hshort with rfl | rfl
  · rw [List.length_nil] at hlength
    rw [if_neg (by omega)]
  · obtain ⟨hpos, hcr, -⟩ := between_cons hrest
    rw [List.length_singleton] at hlength
    rw [if_pos hpos, hcr]
    simp only [if_true]
    rw [scanReturn, if_pos (by omega)]

theorem scanLine_stray {l rest : Bytes} (h : between buf pos stop = l ++ rest)
    (hplain : Plain l) (hbad : Stray rest) (hpos : NotAfterReturn buf pos) :
    scanLine buf stop pos = (.ok .bad, pos + l.length) := by
  have hrest := between_append h
  have hprev := notAfterReturn_of_plain h hplain hpos
  rw [scanLine_plain h hplain, scanLine]
  rcases hbad with ⟨rest, rfl⟩ | ⟨next, rest, rfl, hne⟩
  · obtain ⟨hlt, hlf, -⟩ := between_cons hrest
    rw [if_pos hlt, hlf]
    simp only [cr_ne_lf.symm, if_true, if_false]
    -- A stray LF ends no line because the byte in front of it is no CR.
    rw [scanFeed, if_neg]
    rintro ⟨hzero, hcr⟩
    rcases hprev with hprev | hprev
    · omega
    · exact hprev hcr
  · obtain ⟨hlt, hcr, htail⟩ := between_cons hrest
    obtain ⟨hlt', hnext, -⟩ := between_cons htail
    rw [if_pos hlt, hcr]
    simp only [if_true]
    rw [scanReturn, if_neg (by omega), hnext]
    simp only [hne, if_false]

end Http
end PageServer
