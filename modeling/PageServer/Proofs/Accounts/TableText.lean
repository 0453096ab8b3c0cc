import Mathlib.Data.List.DropRight
import PageServer.Accounts.TableFile
import PageServer.Proofs.Accounts.Rows
import PageServer.Proofs.Json.Quoting

/-!
# The text of a table

The text that is written for rows in order is read as these rows.
-/

namespace PageServer
namespace Accounts

open Json

/-- A row goes behind all those of lesser names. -/
theorem Rows.insert_of_lt {rows : Rows} {name : String} (h : ∀ row ∈ rows, row.1 < name)
    (digest : String) : rows.insert name digest = rows ++ [(name, digest)] := by
  induction rows with
  | nil => rfl
  | cons first rest ih =>
    have hfirst := h first List.mem_cons_self
    have hne : name ≠ first.1 := by
      intro heq
      rw [heq] at hfirst
      exact String.lt_irrefl _ hfirst
    rw [insert, if_neg (String.lt_asymm hfirst), if_neg hne,
      ih fun row hrow => h row (List.mem_cons_of_mem first hrow)]
    rfl

/-- Rows in order that are added one after the other make up the same list. -/
theorem Rows.foldl_insert {before rows : Rows} (h : (before ++ rows).Ascending) :
    rows.foldl (fun rows row => rows.insert row.1 row.2) before = before ++ rows := by
  induction rows generalizing before with
  | nil => rw [List.foldl_nil, List.append_nil]
  | cons row rest ih =>
    have hlt : ∀ first ∈ before, first.1 < row.1 := fun first hfirst =>
      (List.pairwise_append.mp h).2.2 first hfirst row List.mem_cons_self
    have hmoved : before ++ row :: rest = (before ++ [row]) ++ rest := by simp
    rw [hmoved] at h ⊢
    rw [List.foldl_cons, insert_of_lt hlt, ih h]

namespace TableFile

def indent : Bytes :=
  [0x20, 0x20, 0x20, 0x20]

theorem line_eq (name digest : String) :
    line name digest = indent ++ (quoted name ++ 0x3A :: 0x20 :: quoted digest) := by
  have hindent : Text.encode "    " = indent := by decide
  have hcolon : Text.encode ": " = [0x3A, 0x20] := by decide
  rw [line, hindent, hcolon, List.append_assoc, List.append_assoc]
  rfl

theorem lines_cons_cons (first second : String × String) (rows : Rows) :
    lines (first :: second :: rows) =
      line first.1 first.2 ++ Text.encode ",\n" ++ lines (second :: rows) :=
  rfl

/-- Reading a line adds its row. -/
theorem row_line (rows : Rows) (name digest : String) (rest : Bytes) :
    row rows name (0x20 :: quoted digest ++ rest) = some (rows.insert name digest, rest) := by
  have hspace : skipSpace (0x20 :: quoted digest ++ rest) = quoted digest ++ rest := rfl
  rw [row, hspace, string?_quoted]
  rfl

/-- Behind spaces, the name of a line is read. -/
theorem string?_line (name digest : String) {spaces : Bytes} (h : spaces.all isSpace = true)
    (rest : Bytes) : string? (skipSpace (spaces ++ (line name digest ++ rest))) =
      some (name, 0x3A :: (0x20 :: quoted digest ++ rest)) := by
  have hindent : indent.all isSpace = true := rfl
  have hskip : skipSpace (spaces ++ (line name digest ++ rest)) =
      quoted name ++ (0x3A :: (0x20 :: quoted digest ++ rest)) := by
    rw [skipSpace_spaces h, line_eq, List.append_assoc, skipSpace_spaces hindent, List.append_assoc]
    exact skipSpace_quoted _ _
  rw [hskip, string?_quoted]

section Members

variable {σ : Type} {field : σ → String → Bytes → Option (σ × Bytes)} {state state' : σ}
  {key : String} {s value rest : Bytes}

/-- A member with a comma behind it is followed by the next. -/
theorem members_comma (hkey : string? (skipSpace s) = some (key, 0x3A :: value))
    (hfield : field state key value = some (state', rest)) {more : Bytes}
    (hrest : skipSpace rest = 0x2C :: more) (fuel : Nat) :
    members field (fuel + 1) state s = members field fuel state' more := by
  have hcolon : skipSpace (0x3A :: value) = 0x3A :: value := rfl
  rw [members, hkey]
  simp only [hcolon, hfield, hrest]

/-- A member with a brace behind it is the last. -/
theorem members_brace (hkey : string? (skipSpace s) = some (key, 0x3A :: value))
    (hfield : field state key value = some (state', rest)) {more : Bytes}
    (hrest : skipSpace rest = 0x7D :: more) (fuel : Nat) :
    members field (fuel + 1) state s = some (state', more) := by
  have hcolon : skipSpace (0x3A :: value) = 0x3A :: value := rfl
  rw [members, hkey]
  simp only [hcolon, hfield, hrest]

end Members

/-- The lines of rows are read up to the brace behind them. -/
theorem members_lines {rows : Rows} (hrows : rows ≠ []) {fuel : Nat} (hfuel : rows.length ≤ fuel)
    (before : Rows) {spaces : Bytes} (h : spaces.all isSpace = true) (rest : Bytes) :
    members row fuel before (spaces ++ (lines rows ++ 0x20 :: 0x20 :: 0x7D :: rest)) =
      some (rows.foldl (fun rows row => rows.insert row.1 row.2) before, rest) := by
  have hcomma : Text.encode ",\n" = [0x2C, 0x0A] := by decide
  have hnewline : Text.encode "\n" = [0x0A] := by decide
  have hspace : List.all [0x0A] isSpace = true := rfl
  induction rows generalizing before fuel spaces with
  | nil => exact absurd rfl hrows
  | cons first more ih =>
    obtain ⟨fuel, rfl⟩ : ∃ n, fuel = n + 1 := ⟨fuel - 1, by rw [List.length_cons] at hfuel; omega⟩
    cases more with
    | nil =>
      rw [lines, List.append_assoc, hnewline]
      exact members_brace (string?_line _ _ h _) (row_line _ _ _ _) rfl fuel
    | cons second more =>
      rw [lines_cons_cons, List.append_assoc, List.append_assoc, hcomma,
        members_comma (string?_line _ _ h _) (row_line _ _ _ _) rfl fuel]
      exact ih (List.cons_ne_nil _ _) (Nat.le_of_succ_le_succ hfuel) _ hspace

theorem length_line (name digest : String) : 5 ≤ (line name digest).length := by
  rw [line_eq, List.length_append, List.length_append, quoted, List.length_append]
  simp only [indent, List.length_cons]
  omega

theorem length_lines (rows : Rows) : 5 * rows.length ≤ (lines rows).length := by
  induction rows with
  | nil => exact Nat.le_refl 0
  | cons first more ih =>
    have hline := length_line first.1 first.2
    cases more with
    | nil =>
      rw [lines, List.length_append, List.length_cons, List.length_nil]
      omega
    | cons second more =>
      rw [lines_cons_cons, List.length_append, List.length_append, List.length_cons]
      omega

theorem lines_eq {rows : Rows} (h : rows ≠ []) :
    ∃ name more, lines rows = indent ++ (quoted name ++ more) := by
  obtain ⟨first, rest, rfl⟩ := List.exists_cons_of_ne_nil h
  refine ⟨first.1, ?_⟩
  cases rest with
  | nil => exact ⟨_, by rw [lines, line_eq, List.append_assoc, List.append_assoc]⟩
  | cons second rest =>
    exact ⟨_, by rw [lines_cons_cons, line_eq]; simp only [List.append_assoc]; rfl⟩

theorem members_skipSpace {σ : Type} (field : σ → String → Bytes → Option (σ × Bytes)) (fuel : Nat)
    (state : σ) (s : Bytes) :
    members field fuel state (skipSpace s) = members field fuel state s := by
  have hskip : skipSpace (skipSpace s) = skipSpace s := List.dropWhile_idempotent _ _
  cases fuel with
  | zero => rfl
  | succ fuel => rw [members, members, hskip]

/-- An object that begins with a string is read member by member. -/
theorem object_quoted {σ : Type} (field : σ → String → Bytes → Option (σ × Bytes)) (state : σ)
    {s : Bytes} {key : String} {rest : Bytes} (h : skipSpace s = quoted key ++ rest) :
    object field state (0x7B :: s) =
      members field (quoted key ++ rest).length state (quoted key ++ rest) := by
  have hbrace : skipSpace (0x7B :: s) = 0x7B :: s := rfl
  rw [object, hbrace]
  simp only [h]
  rfl

theorem object_spaces {σ : Type} (field : σ → String → Bytes → Option (σ × Bytes)) (state : σ)
    {spaces : Bytes} (h : spaces.all isSpace = true) (s : Bytes) :
    object field state (spaces ++ s) = object field state s := by
  rw [object, object, skipSpace_spaces h]

/-- The map is read as the rows in it. -/
theorem object_map {rows : Rows} (h : rows.Ascending) (rest : Bytes) :
    object row [] (map rows ++ rest) = some (rows, rest) := by
  have hempty : Text.encode "\x7b\x7d" = [0x7B, 0x7D] := by decide
  have hopen : Text.encode "\x7b\n" = [0x7B, 0x0A] := by decide
  have hclose : Text.encode "  \x7d" = [0x20, 0x20, 0x7D] := by decide
  cases hrows : rows.isEmpty with
  | true =>
    rw [map, if_pos hrows, hempty, List.isEmpty_iff.mp hrows]
    rfl
  | false =>
    have hne : rows ≠ [] := by
      rintro rfl
      cases hrows
    obtain ⟨name, more, hlines⟩ := lines_eq hne
    have hlength := length_lines rows
    have hpos := List.length_pos_iff.mpr hne
    have hskip : skipSpace (0x0A :: (lines rows ++ 0x20 :: 0x20 :: 0x7D :: rest)) =
        quoted name ++ (more ++ 0x20 :: 0x20 :: 0x7D :: rest) := by
      rw [hlines, List.append_assoc, List.append_assoc]
      exact skipSpace_quoted _ _
    -- every line has a byte at least, so that the fuel lasts for all of them
    have hfuel : rows.length ≤ (quoted name ++ (more ++ 0x20 :: 0x20 :: 0x7D :: rest)).length := by
      rw [hlines, List.length_append, List.length_append] at hlength
      rw [List.length_append, List.length_append]
      have hindent : indent.length = 4 := rfl
      omega
    have hspace : List.all [0x0A] isSpace = true := rfl
    have hfold := Rows.foldl_insert (show Rows.Ascending ([] ++ rows) from h)
    have hmembers := members_lines hne hfuel [] hspace rest
    rw [← members_skipSpace, List.singleton_append, hskip, hfold, List.nil_append] at hmembers
    have hmap :
        map rows ++ rest = 0x7B :: 0x0A :: (lines rows ++ 0x20 :: 0x20 :: 0x7D :: rest) := by
      rw [map, hrows, hopen, hclose]
      simp only [Bool.false_eq_true, if_false, List.append_assoc]
      rfl
    rw [hmap, object_quoted row [] hskip]
    exact hmembers

theorem table?_object {s rest : Bytes} {rows : Rows}
    (h : object member none (0x7B :: s) = some (some rows, rest)) :
    table? (0x7B :: s) = some (rows, rest) := by
  have hbrace : skipSpace (0x7B :: s) = 0x7B :: s := rfl
  rw [table?, hbrace]
  split
  · next hbracket => simp at hbracket
  · simp only [h]

/-- What is written for rows in order is read as these rows. -/
theorem read?_write {rows : Rows} (h : rows.Ascending) : read? (write rows) = some rows := by
  have hhead : Text.encode "\x7b\n  \"users\": " =
      0x7B :: 0x0A :: 0x20 :: 0x20 :: (quoted "users" ++ [0x3A, 0x20]) := by decide
  have htail : Text.encode "\n\x7d" = [0x0A, 0x7D] := by decide
  have hwrite : write rows = 0x7B :: 0x0A :: 0x20 :: 0x20 ::
      (quoted "users" ++ 0x3A :: (0x20 :: (map rows ++ [0x0A, 0x7D]))) := by
    rw [write, hhead, htail]
    simp only [List.cons_append, List.append_assoc, List.nil_append]
  have hmember : member none "users" (0x20 :: (map rows ++ [0x0A, 0x7D])) =
      some (some rows, [0x0A, 0x7D]) := by
    have hspace : List.all [0x20] isSpace = true := rfl
    rw [member, if_pos rfl, ← List.singleton_append, object_spaces row [] hspace, object_map h]
    rfl
  have hmembers (fuel : Nat) : members member (fuel + 1) none
      (quoted "users" ++ 0x3A :: (0x20 :: (map rows ++ [0x0A, 0x7D]))) = some (some rows, []) := by
    refine members_brace ?_ hmember rfl fuel
    rw [skipSpace_quoted, string?_quoted]
  have hskip : skipSpace (0x0A :: 0x20 :: 0x20 ::
      (quoted "users" ++ 0x3A :: (0x20 :: (map rows ++ [0x0A, 0x7D])))) =
      quoted "users" ++ 0x3A :: (0x20 :: (map rows ++ [0x0A, 0x7D])) := skipSpace_quoted _ _
  have htable := table?_object ((object_quoted member none hskip).trans (hmembers _))
  unfold read?
  rw [hwrite, htable]
  rfl

end TableFile
end Accounts
end PageServer
