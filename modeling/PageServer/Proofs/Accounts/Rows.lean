import Mathlib.Data.List.Sort
import Mathlib.Data.String.Basic
import PageServer.Accounts.Rows

/-!
# Rows as a map

What the rows say of each name, and how adding a row and taking it back change that.  Rows
in ascending order are determined by what they say.
-/

namespace PageServer
namespace Accounts
namespace Rows

@[simp] theorem digest?_nil (name : String) : digest? [] name = none := rfl

theorem digest?_cons (row : String × String) (rows : Rows) (name : String) :
    digest? (row :: rows) name = if row.1 = name then some row.2 else digest? rows name := by
  by_cases h : row.1 = name
  · simp [digest?, h]
  · simp [digest?, h]

theorem contains_eq (rows : Rows) (name : String) :
    rows.contains name = (rows.digest? name).isSome := by
  rw [contains, digest?, Option.isSome_map, List.isSome_find?]

theorem digest?_eq_none {rows : Rows} {name : String} (h : rows.contains name = false) :
    rows.digest? name = none := by
  rw [contains_eq] at h
  exact Option.isNone_iff_eq_none.mp (by rw [← Option.not_isSome, h]; rfl)

theorem contains_cons (row : String × String) (rows : Rows) (name : String) :
    contains (row :: rows) name = (row.1 == name || contains rows name) := rfl

/-- Of two lists of rows, one behind the other, the first that knows a name counts. -/
theorem digest?_append (rows more : Rows) (name : String) :
    digest? (rows ++ more) name = (digest? rows name).or (digest? more name) := by
  rw [digest?, digest?, digest?, List.find?_append, Option.map_or]

/-! ## Adding a row -/

/-- Adding a row settles what is said of its name, and of no other. -/
theorem digest?_insert (rows : Rows) (name digest other : String) :
    (rows.insert name digest).digest? other =
      if name = other then some digest else rows.digest? other := by
  induction rows with
  | nil => rw [insert, digest?_cons]
  | cons row rest ih =>
    rw [insert]
    split
    · rw [digest?_cons]
    · split
      · next heq =>
        rw [digest?_cons, digest?_cons, ← heq]
        split <;> rfl
      · next hne =>
        rw [digest?_cons, digest?_cons, ih]
        by_cases hrow : row.1 = other
        · rw [if_pos hrow, if_pos hrow, if_neg fun h => hne (h.trans hrow.symm)]
        · rw [if_neg hrow, if_neg hrow]

theorem contains_insert (rows : Rows) (name digest other : String) :
    (rows.insert name digest).contains other = (name == other || rows.contains other) := by
  rw [contains_eq, contains_eq, digest?_insert]
  by_cases h : name = other
  · simp [h]
  · simp [h]

theorem mem_insert {rows : Rows} {name digest : String} {row : String × String}
    (h : row ∈ rows.insert name digest) : row = (name, digest) ∨ row ∈ rows := by
  induction rows with
  | nil => exact .inl (List.mem_singleton.mp h)
  | cons first rest ih =>
    rw [insert] at h
    split at h
    · exact List.mem_cons.mp h
    · split at h
      · exact (List.mem_cons.mp h).imp_right (List.mem_cons_of_mem first)
      · rcases List.mem_cons.mp h with rfl | h
        · exact .inr List.mem_cons_self
        · exact (ih h).imp_right (List.mem_cons_of_mem first)

theorem Ascending.insert {rows : Rows} (h : rows.Ascending) (name digest : String) :
    (rows.insert name digest).Ascending := by
  induction rows with
  | nil => exact List.pairwise_singleton _ _
  | cons first rest ih =>
    obtain ⟨hfirst, hrest⟩ := List.pairwise_cons.mp h
    rw [Rows.insert]
    split
    · next hlt =>
      refine List.pairwise_cons.mpr ⟨?_, h⟩
      intro row hrow
      rcases List.mem_cons.mp hrow with rfl | hrow
      · exact hlt
      · exact String.lt_trans hlt (hfirst row hrow)
    · next hnot =>
      split
      · next heq =>
        refine List.pairwise_cons.mpr ⟨?_, hrest⟩
        intro row hrow
        rw [heq]
        exact hfirst row hrow
      · next hne =>
        refine List.pairwise_cons.mpr ⟨?_, ih hrest⟩
        intro row hrow
        rcases mem_insert hrow with rfl | hrow
        · exact (lt_trichotomy name first.1).resolve_left hnot |>.resolve_left hne
        · exact hfirst row hrow

/-- A row of a new name is all that is added. -/
theorem perm_insert {rows : Rows} {name : String} (h : rows.contains name = false)
    (digest : String) : (rows.insert name digest).Perm ((name, digest) :: rows) := by
  induction rows with
  | nil => exact .refl _
  | cons first rest ih =>
    rw [contains_cons, Bool.or_eq_false_iff, beq_eq_false_iff_ne] at h
    rw [insert]
    split
    · exact .refl _
    · rw [if_neg (Ne.symm h.1)]
      exact ((ih h.2).cons first).trans (.swap _ _ _)

/-- A row of a new name that is taken back leaves the rows as they were. -/
theorem erase_insert {rows : Rows} {name : String} (h : rows.contains name = false)
    (digest : String) : (rows.insert name digest).erase name = rows := by
  induction rows with
  | nil => simp [insert, Rows.erase]
  | cons first rest ih =>
    rw [contains_cons, Bool.or_eq_false_iff, beq_eq_false_iff_ne] at h
    have hfirst : (first.1 != name) = true := bne_iff_ne.mpr h.1
    have hrest : Rows.erase rest name = rest := by
      refine List.filter_eq_self.mpr ?_
      intro row hrow
      have hnone := List.any_eq_false.mp h.2 row hrow
      simpa [bne_iff_ne] using hnone
    rw [insert]
    split
    · simp only [Rows.erase, List.filter_cons, bne_self_eq_false, hfirst, Bool.false_eq_true,
        if_false, if_true]
      exact congrArg (first :: ·) hrest
    · rw [if_neg (Ne.symm h.1)]
      simp only [Rows.erase, List.filter_cons, hfirst, if_true]
      exact congrArg (first :: ·) (ih h.2)

/-! ## Rows in order -/

theorem Ascending.mem_iff {rows : Rows} (h : rows.Ascending) (name digest : String) :
    (name, digest) ∈ rows ↔ rows.digest? name = some digest := by
  induction rows with
  | nil => simp
  | cons first rest ih =>
    obtain ⟨hfirst, hrest⟩ := List.pairwise_cons.mp h
    rw [digest?_cons, List.mem_cons, ih hrest]
    by_cases hname : first.1 = name
    · have hnone : digest? rest name ≠ some digest := by
        intro hsome
        have hlt := hfirst _ ((ih hrest).mpr hsome)
        rw [hname] at hlt
        exact String.lt_irrefl name hlt
      rw [if_pos hname, Option.some.injEq, Prod.ext_iff]
      constructor
      · rintro (⟨-, hdigest⟩ | hsome)
        · exact hdigest.symm
        · exact absurd hsome hnone
      · intro hdigest
        exact .inl ⟨hname.symm, hdigest.symm⟩
    · rw [if_neg hname, Prod.ext_iff]
      constructor
      · rintro (⟨heq, -⟩ | hsome)
        · exact absurd heq.symm hname
        · exact hsome
      · exact .inr

/-- Rows in order that say the same of every name are the same rows. -/
theorem Ascending.ext {rows more : Rows} (h : rows.Ascending) (h' : more.Ascending)
    (same : ∀ name, rows.digest? name = more.digest? name) : rows = more := by
  have : Std.Irrefl fun row row' : String × String => row.1 < row'.1 :=
    ⟨fun row => String.lt_irrefl row.1⟩
  have : Std.Antisymm fun row row' : String × String => row.1 < row'.1 :=
    ⟨fun _ _ hlt hgt => absurd hgt (String.lt_asymm hlt)⟩
  refine List.Pairwise.eq_of_mem_iff h h' ?_
  rintro ⟨name, digest⟩
  rw [h.mem_iff, h'.mem_iff, same name]

end Rows
end Accounts
end PageServer
