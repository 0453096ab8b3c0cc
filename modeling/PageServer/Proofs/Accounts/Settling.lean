import PageServer.Accounts.Backend
import PageServer.Proofs.Accounts.Rows

/-!
# Insertion by the outcome of its save

What an insertion comes to depends on the rows and on how the save ends, and on nothing
else of the disk.  A row whose save fails leaves no trace in the table.  The rows of a
table that has been loaded are in order, in whatever order its file has them.
-/

namespace PageServer
namespace Accounts

namespace TableFile

variable {σ : Type} {field : σ → String → Bytes → Option (σ × Bytes)} {P : σ → Prop}

/-- What every member keeps, reading all members keeps. -/
theorem members_keeps
    (hfield : ∀ state key s next rest, P state → field state key s = some (next, rest) → P next)
    {fuel : Nat} {state next : σ} {s rest : Bytes} (hstate : P state)
    (h : members field fuel state s = some (next, rest)) : P next := by
  induction fuel generalizing state s with
  | zero => cases h
  | succ fuel ih =>
    rw [members] at h
    split at h
    · cases h
    · split at h
      · split at h
        · cases h
        · next hmember =>
          have hkept := hfield _ _ _ _ _ hstate hmember
          split at h
          · exact ih hkept h
          · cases h
            exact hkept
          · cases h
      · cases h

theorem object_keeps
    (hfield : ∀ state key s next rest, P state → field state key s = some (next, rest) → P next)
    {state next : σ} {s rest : Bytes} (hstate : P state)
    (h : object field state s = some (next, rest)) : P next := by
  rw [object] at h
  split at h
  · split at h
    · cases h
      exact hstate
    · exact members_keeps hfield hstate h
  · cases h

theorem ascending_map {rows : Rows} {s rest : Bytes} (h : object row [] s = some (rows, rest)) :
    rows.Ascending := by
  refine object_keeps (P := Rows.Ascending) ?_ List.Pairwise.nil h
  intro before name s after rest hbefore hrow
  obtain ⟨r, -, heq⟩ := Option.map_eq_some_iff.mp hrow
  cases heq
  exact hbefore.insert name r.1

theorem ascending_member {found found' : Option Rows} {key : String} {s rest : Bytes}
    (hfound : ∀ rows ∈ found, rows.Ascending) (h : member found key s = some (found', rest)) :
    ∀ rows ∈ found', rows.Ascending := by
  unfold member at h
  split at h
  · split at h
    · cases h
    · obtain ⟨r, hmap, heq⟩ := Option.map_eq_some_iff.mp h
      cases heq
      intro rows hrows
      cases hrows
      exact ascending_map hmap
  · obtain ⟨r, -, heq⟩ := Option.map_eq_some_iff.mp h
    cases heq
    exact hfound

/-- The rows in the text of a table are read in order. -/
theorem ascending_read? {s : Bytes} {rows : Rows} (h : read? s = some rows) : rows.Ascending := by
  rw [read?] at h
  split at h
  · next found rest htable =>
    obtain rfl : found = rows := by
      split at h
      · exact Option.some.inj h
      · cases h
    rw [table?] at htable
    split at htable
    · split at htable
      · cases htable
      · next hmap =>
        split at htable
        · cases htable
          exact ascending_map hmap
        · cases htable
    · split at htable
      · next hmembers =>
        cases htable
        have hnone : ∀ rows ∈ (none : Option Rows), rows.Ascending := by simp
        exact object_keeps (P := fun found => ∀ rows ∈ found, Rows.Ascending rows)
          (fun _ _ _ _ _ => ascending_member) hnone hmembers found rfl
      · cases htable
  · cases h

end TableFile

namespace Table

theorem ascending_load {d : Disk} {path : String} {t : Table} (h : load d path = .ok t) :
    t.rows.Ascending := by
  rw [load] at h
  split at h
  · split at h
    · cases h
    · split at h
      · cases h
      · split at h
        · cases h
        · next hread =>
          cases h
          exact TableFile.ascending_read? hread
  · cases h
    exact List.Pairwise.nil

/-- The table with a row for a name. -/
def withRow (t : Table) (name password : String) : Table :=
  { t with rows := t.rows.insert name (hashPassword password) }

/-- How the save of a table ends on a disk that nothing but the disk itself makes fail. -/
def saveOn (t : Table) (d : Disk) : Except ServerError Unit × Disk :=
  ((d.applyAll t.savePlan).1.mapError fun kind => .io kind.error, (d.applyAll t.savePlan).2)

/-- What an insertion comes to, given how the save ends and what it leaves. -/
def settle (t : Table) (d : Disk) (name password : String)
    (saved : Except ServerError Unit × Disk) : Except ServerError Bool × Table × Disk :=
  if t.rows.contains name then (.ok false, t, d)
  else match saved with
    | (.ok _, e) => (.ok true, t.withRow name password, e)
    | (.error f, e) => (.error f, { t with rows := (t.withRow name password).rows.erase name }, e)

variable {t : Table} {d e : Disk} {name password : String}

theorem insert_eq_settle (t : Table) (d : Disk) (name password : String) :
    t.insert d name password = t.settle d name password ((t.withRow name password).saveOn d) := by
  unfold insert settle saveOn
  split
  · rfl
  · simp only [withRow]
    rcases d.applyAll _ with ⟨kind | done, e⟩
    · rfl
    · rfl

theorem settle_taken (h : t.rows.contains name = true) (saved : Except ServerError Unit × Disk) :
    t.settle d name password saved = (.ok false, t, d) := by
  unfold settle
  rw [if_pos h]

theorem settle_saved (h : t.rows.contains name = false) :
    t.settle d name password (.ok (), e) = (.ok true, t.withRow name password, e) := by
  unfold settle
  rw [h]
  rfl

/-- A row that is not saved is taken back. -/
theorem settle_unsaved (h : t.rows.contains name = false) (f : ServerError) :
    t.settle d name password (.error f, e) = (.error f, t, e) := by
  have hrows : (t.withRow name password).rows.erase name = t.rows := Rows.erase_insert h _
  unfold settle
  rw [h, hrows]
  rfl

/-- An insertion leaves the rows alone, or has a new name and adds a row for it. -/
theorem settle_cases (t : Table) (d : Disk) (name password : String)
    (saved : Except ServerError Unit × Disk) :
    (t.rows.contains name = true ∧ t.settle d name password saved = (.ok false, t, d)) ∨
      (t.rows.contains name = false ∧ saved.1 = .ok () ∧
        t.settle d name password saved = (.ok true, t.withRow name password, saved.2)) ∨
      ∃ f, t.rows.contains name = false ∧ saved.1 = .error f ∧
        t.settle d name password saved = (.error f, t, saved.2) := by
  cases h : t.rows.contains name with
  | true => exact .inl ⟨rfl, settle_taken h saved⟩
  | false =>
    rcases saved with ⟨f | done, e⟩
    · exact .inr (.inr ⟨f, rfl, rfl, settle_unsaved h f⟩)
    · exact .inr (.inl ⟨rfl, rfl, settle_saved h⟩)

end Table
end Accounts
end PageServer
