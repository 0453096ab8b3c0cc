import PageServer.Disk.Path

/-!
# Names and paths

How the names along a path follow from its pieces, and what they become where something is
appended to the path or its end is cut off.
-/

namespace PageServer
namespace Disk

theorem pieces_eq (path : String) :
    pieces path = (path.toList.splitOn '/').map String.ofList := by
  have hsplit (l : List Char) : l.foldr addToPieces [[]] = l.splitOn '/' := by
    induction l with
    | nil => rfl
    | cons c l ih =>
      rw [List.foldr_cons, ih, List.splitOn_cons_eq_if_modifyHead]
      cases hl : l.splitOn '/' with
      | nil => exact absurd hl (List.splitOn_ne_nil _ _)
      | cons p ps => simp [addToPieces]
  rw [pieces, hsplit]

/-- No piece has a slash in it. -/
theorem slash_notMem_of_mem_pieces {path p : String} (h : p ∈ pieces path) : '/' ∉ p.toList := by
  have hsplit (l : List Char) : ∀ p ∈ l.splitOn '/', '/' ∉ p := by
    induction l with
    | nil => simp
    | cons c l ih =>
      rw [List.splitOn_cons_eq_if_modifyHead]
      cases hl : l.splitOn '/' with
      | nil => exact absurd hl (List.splitOn_ne_nil _ _)
      | cons q qs =>
        rw [hl] at ih
        split
        · next hslash => simpa using ih
        · next hslash =>
          have hc : c ≠ '/' := by simpa using hslash
          simpa [Ne.symm hc] using ih
  rw [pieces_eq] at h
  obtain ⟨l, hl, rfl⟩ := List.mem_map.mp h
  rw [String.toList_ofList]
  exact hsplit _ l hl

/-- What has no slash in it and is appended to a path goes to its last piece. -/
theorem pieces_append (path : String) {s : String} (h : '/' ∉ s.toList) :
    ∃ front last, pieces path = front ++ [last] ∧ pieces (path ++ s) = front ++ [last ++ s] := by
  have hsplit (l : List Char) : ∃ front last, l.splitOn '/' = front ++ [last] ∧
      (l ++ s.toList).splitOn '/' = front ++ [last ++ s.toList] := by
    induction l with
    | nil => exact ⟨[], [], rfl, List.splitOn_eq_singleton h⟩
    | cons c l ih =>
      obtain ⟨front, last, hl, happend⟩ := ih
      rw [List.cons_append, List.splitOn_cons_eq_if_modifyHead, List.splitOn_cons_eq_if_modifyHead,
        hl, happend]
      split
      · exact ⟨[] :: front, last, rfl, rfl⟩
      · cases front with
        | nil => exact ⟨[], c :: last, rfl, rfl⟩
        | cons p front => exact ⟨(c :: p) :: front, last, rfl, rfl⟩
  obtain ⟨front, last, hl, happend⟩ := hsplit path.toList
  refine ⟨front.map String.ofList, String.ofList last, ?_, ?_⟩
  · rw [pieces_eq, hl, List.map_append]
    rfl
  · rw [pieces_eq, String.toList_append, happend, List.map_append]
    simp [String.ofList_append]

/-- Pieces are found again in the path that they make up. -/
theorem pieces_intercalate {l : List String} (h : ∀ p ∈ l, '/' ∉ p.toList) (hne : l ≠ []) :
    pieces ("/".intercalate l) = l := by
  rw [pieces_eq, String.toList_intercalate]
  have hsplit : (['/'].intercalate (l.map String.toList)).splitOn '/' = l.map String.toList := by
    apply List.splitOn_intercalate
    · intro p hp
      obtain ⟨q, hq, rfl⟩ := List.mem_map.mp hp
      exact h q hq
    · simpa using hne
  rw [show "/".toList = ['/'] from rfl, hsplit, List.map_map]
  simp

theorem isAbsolute_iff (path : String) :
    isAbsolute path = true ↔ ∃ more, more ≠ [] ∧ pieces path = "" :: more := by
  rw [isAbsolute, pieces_eq]
  cases path.toList with
  | nil => simp
  | cons c l =>
    rw [List.splitOn_cons_eq_if_modifyHead]
    cases hl : l.splitOn '/' with
    | nil => exact absurd hl (List.splitOn_ne_nil _ _)
    | cons p ps => by_cases hc : c = '/' <;> simp [hc]

/-- A path that ends in a slash has nothing behind it. -/
theorem last_eq_of_slash {path last : String} {front : List String}
    (h : pieces path = front ++ [last]) (hslash : path.toList.getLast? = some '/') : last = "" := by
  obtain ⟨l, hl⟩ := List.getLast?_eq_some_iff.mp hslash
  have hsplit : pieces path = (l.splitOn '/').map String.ofList ++ [""] := by
    rw [pieces_eq, hl, List.splitOn_append_cons_self, List.map_append]
    rfl
  rw [hsplit] at h
  exact (List.append_inj' h rfl).2 |> List.singleton_inj.mp |> Eq.symm

/-! ## Routes -/

/-- The names among some pieces. -/
def namesOf (l : List String) : List String :=
  l.filter (· != "")

theorem namesOf_append (l m : List String) : namesOf (l ++ m) = namesOf l ++ namesOf m :=
  List.filter_append _ _

theorem namesOf_singleton {name : String} (h : name ≠ "") : namesOf [name] = [name] := by
  rw [namesOf, List.filter_cons, if_pos (bne_iff_ne.mpr h)]
  rfl

theorem names_ofPath (path : String) : (Route.ofPath path).names = namesOf (pieces path) :=
  rfl

/-- A name with an ending is none of those that stand for a directory. -/
theorem append_ne {last s : String} (h : 2 < s.length) :
    last ++ s ≠ "" ∧ last ++ s ≠ "." ∧ last ++ s ≠ ".." := by
  have hlength : (last ++ s).length = last.length + s.length := String.length_append _ _
  refine ⟨?_, ?_, ?_⟩
  all_goals
    intro heq
    rw [heq] at hlength
  · rw [show "".length = 0 from rfl] at hlength
    omega
  · rw [show ".".length = 1 from rfl] at hlength
    omega
  · rw [show "..".length = 2 from rfl] at hlength
    omega

/-- An ending that is appended to a path is appended to its last name. -/
theorem ofPath_append {path s : String} {front : List String} {last : String}
    (hpieces : pieces (path ++ s) = front ++ [last ++ s])
    (hlength : 2 < s.length) (hhead : s.toList.head? ≠ some '/')
    (hlast : s.toList.getLast? ≠ some '/') :
    Route.ofPath (path ++ s) = ⟨isAbsolute path, namesOf front ++ [last ++ s], false⟩ := by
  have hne : s.toList ≠ [] := by
    intro hnil
    rw [← String.length_toList, hnil] at hlength
    simp at hlength
  have habsolute : isAbsolute (path ++ s) = isAbsolute path := by
    rw [isAbsolute, isAbsolute, String.toList_append, List.head?_append]
    cases path.toList with
    | nil => simpa using hhead
    | cons c l => rfl
  have hnames : (Route.ofPath (path ++ s)).names = namesOf front ++ [last ++ s] := by
    rw [names_ofPath, hpieces, namesOf_append, namesOf_singleton (append_ne hlength).1]
  have hslash : ((path ++ s).toList.getLast? == some '/') = false := by
    rw [String.toList_append, List.getLast?_append]
    cases hend : s.toList.getLast? with
    | none => exact absurd (List.getLast?_eq_none_iff.mp hend) hne
    | some c =>
      rw [hend] at hlast
      simpa using hlast
  rw [← habsolute, ← hnames, ← hslash]
  rfl

/-! ## Directories above -/

theorem dropIdle_suffix (l : List String) :
    ∃ idle, l = idle ++ dropIdle l ∧ ∀ p ∈ idle, p = "" ∨ p = "." := by
  fun_induction dropIdle l with
  | case1 => exact ⟨[], rfl, by simp⟩
  | case2 => exact ⟨[""], rfl, by simp⟩
  | case3 first h => exact ⟨[], rfl, by simp⟩
  | case4 p q rest h ih =>
    obtain ⟨idle, heq, hidle⟩ := ih
    refine ⟨p :: idle, by rw [List.cons_append, ← heq], ?_⟩
    intro x hx
    rcases List.mem_cons.mp hx with rfl | hx
    · simpa using h
    · exact hidle x hx
  | case5 => exact ⟨[], rfl, by simp⟩

/-- What remains in front names something. -/
theorem dropIdle_cons {l above : List String} {p : String} (h : dropIdle l = p :: above) :
    p ≠ "" ∧ (p = "." → above = []) := by
  fun_induction dropIdle l with
  | case1 => cases h
  | case2 => cases h
  | case3 first hne =>
    cases h
    exact ⟨hne, fun _ => rfl⟩
  | case4 q r rest hidle ih => exact ih h
  | case5 q r rest hkept =>
    cases h
    simp only [Bool.or_eq_true, decide_eq_true_eq, not_or] at hkept
    exact ⟨hkept.1, fun hdot => absurd hdot hkept.2⟩

theorem dropIdle_dropIdle (l : List String) : dropIdle (dropIdle l) = dropIdle l := by
  fun_induction dropIdle l with
  | case1 => rfl
  | case2 => rfl
  | case3 first hne => rw [dropIdle, if_neg hne]
  | case4 q r rest hidle ih => exact ih
  | case5 q r rest hkept => rw [dropIdle, if_neg hkept]

/-- The path `q` is made of the pieces `kept` of `path`, last one first, and a name is cut
off. -/
structure Upper (path q : String) (kept : List String) : Prop where
  eq : q = ofPieces (isAbsolute path) kept
  dropIdle_eq : dropIdle kept = kept
  cut : ∃ behind, (pieces path).reverse = behind ++ kept ∧ ∃ p ∈ behind, p ≠ "" ∧ p ≠ "."

variable {path q : String} {kept : List String}

theorem upper_of_parentPath? (h : parentPath? path = some q) (hq : q ≠ "") :
    ∃ kept, Upper path q kept := by
  rw [parentPath?] at h
  split at h
  · cases h
  · next p above hdrop =>
    cases h
    obtain ⟨idle, hall, -⟩ := dropIdle_suffix (pieces path).reverse
    obtain ⟨idle', habove, -⟩ := dropIdle_suffix above
    obtain ⟨hp, hdot⟩ := dropIdle_cons hdrop
    refine ⟨dropIdle above, rfl, dropIdle_dropIdle above, idle ++ p :: idle', ?_, p, by simp, hp,
      ?_⟩
    · rw [List.append_assoc, List.cons_append, ← habove, ← hdrop, ← hall]
    · rintro rfl
      have hnil := hdot rfl
      subst hnil
      have hpieces : pieces path = "." :: idle.reverse := by
        rw [← List.reverse_inj, hall, hdrop]
        simp
      have hrelative : isAbsolute path = false := by
        cases habsolute : isAbsolute path with
        | false => rfl
        | true =>
          obtain ⟨more, -, heq⟩ := (isAbsolute_iff path).mp habsolute
          rw [hpieces] at heq
          exact absurd (List.cons.inj heq).1 (by decide)
      rw [hrelative] at hq
      exact hq rfl

/-- The directory above is made of fewer pieces. -/
theorem Upper.up (h : Upper path q kept) {p : String} {above : List String}
    (hkept : kept = p :: above) :
    Upper path (ofPieces (isAbsolute path) (dropIdle above)) (dropIdle above) := by
  obtain ⟨behind, hall, hcut⟩ := h.cut
  obtain ⟨idle, habove, -⟩ := dropIdle_suffix above
  obtain ⟨x, hx, hname⟩ := hcut
  refine ⟨rfl, dropIdle_dropIdle above, behind ++ p :: idle, ?_, x, List.mem_append_left _ hx,
    hname⟩
  rw [List.append_assoc, List.cons_append, ← habove, ← hkept, hall]

theorem Upper.pieces_eq (h : Upper path q kept) (hkept : kept ≠ []) : pieces q = kept.reverse := by
  obtain ⟨behind, hall, -⟩ := h.cut
  have hq : q = "/".intercalate kept.reverse := by
    rw [h.eq]
    cases kept with
    | nil => exact absurd rfl hkept
    | cons p above => rfl
  rw [hq]
  apply pieces_intercalate
  · intro p hp
    apply @slash_notMem_of_mem_pieces path
    rw [← List.mem_reverse, hall]
    exact List.mem_append_right _ (List.mem_reverse.mp hp)
  · simpa using hkept

theorem Upper.absolute_eq (h : Upper path q kept) (hq : q ≠ "") :
    isAbsolute q = isAbsolute path := by
  cases hkept : kept with
  | nil =>
    have heq := h.eq
    rw [hkept, ofPieces] at heq
    split at heq
    · next habsolute =>
      rw [heq, habsolute]
      rfl
    · exact absurd heq hq
  | cons p above =>
    have hpieces := h.pieces_eq (by simp [hkept])
    obtain ⟨behind, hall, -⟩ := h.cut
    have hpath : pieces path = kept.reverse ++ behind.reverse := by
      rw [← List.reverse_append, ← hall, List.reverse_reverse]
    rw [Bool.eq_iff_iff, isAbsolute_iff, isAbsolute_iff, hpieces, hpath]
    constructor
    · rintro ⟨more, hmore, heq⟩
      exact ⟨more ++ behind.reverse, by simp [hmore], by rw [heq]; rfl⟩
    · rintro ⟨more, -, heq⟩
      obtain ⟨first, rest, hrest⟩ : ∃ first rest, kept.reverse = first :: rest :=
        List.exists_cons_of_ne_nil (by simp [hkept])
      rw [hrest] at heq ⊢
      obtain rfl : first = "" := (List.cons.inj heq).1
      refine ⟨rest, ?_, rfl⟩
      rintro rfl
      have hsingle : kept = [""] := by rw [← List.reverse_inj, hrest]; rfl
      have hdrop := h.dropIdle_eq
      rw [hsingle] at hdrop
      cases hdrop

/-- The way to the directory above leads along the names of its pieces. -/
theorem Upper.names_eq (h : Upper path q kept) (hq : q ≠ "") :
    (Route.ofPath q).names = namesOf kept.reverse := by
  cases hkept : kept with
  | nil =>
    have heq := h.eq
    rw [hkept, ofPieces] at heq
    split at heq
    · rw [heq]
      decide
    · exact absurd heq hq
  | cons p above => rw [← hkept, names_ofPath, h.pieces_eq (by simp [hkept])]

theorem Upper.dropIdle_pieces (h : Upper path q kept) (hq : q ≠ "") :
    dropIdle (pieces q).reverse = kept := by
  cases hkept : kept with
  | nil =>
    have heq := h.eq
    rw [hkept, ofPieces] at heq
    split at heq
    · rw [heq]
      decide
    · exact absurd heq hq
  | cons p above =>
    rw [← hkept, h.pieces_eq (by simp [hkept]), List.reverse_reverse, h.dropIdle_eq]

theorem Upper.parentPath? {up : String} (h : Upper path q kept) (hq : q ≠ "")
    (hup : Disk.parentPath? q = some up) : ∃ kept, Upper path up kept := by
  rw [Disk.parentPath?, h.dropIdle_pieces hq, h.absolute_eq hq] at hup
  cases hkept : kept with
  | nil =>
    rw [hkept] at hup
    cases hup
  | cons p above =>
    rw [hkept] at hup
    cases hup
    exact ⟨_, h.up hkept⟩

/-- The way to the path goes on from the directory above, by a name at least. -/
theorem Upper.names_path (h : Upper path q kept) {front : List String} {last : String}
    (hpath : pieces path = front ++ [last]) :
    ∃ more, namesOf front = namesOf kept.reverse ++ more ∧
      ∃ p ∈ more ++ namesOf [last], p ≠ "." := by
  obtain ⟨behind, hall, p, hp, hname, hdot⟩ := h.cut
  rw [hpath, List.reverse_append, List.reverse_singleton, List.singleton_append] at hall
  cases behind with
  | nil => cases hp
  | cons first behind =>
    obtain ⟨rfl, hfront⟩ := List.cons.inj hall
    refine ⟨namesOf behind.reverse, ?_, p, ?_, hdot⟩
    · have hreverse : front.reverse = behind ++ kept := hfront
      rw [← namesOf_append, ← List.reverse_append, ← hreverse, List.reverse_reverse]
    · rw [← namesOf_append, namesOf, List.mem_filter, bne_iff_ne]
      refine ⟨?_, hname⟩
      simpa [or_comm] using hp

end Disk
end PageServer
