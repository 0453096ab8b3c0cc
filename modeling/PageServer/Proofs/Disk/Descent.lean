import PageServer.Disk.Change
import PageServer.Proofs.Disk.Growth
import PageServer.Proofs.Disk.Paths

/-!
# Trees without links

Without links and without the name of the directory above, names lead from a directory to
itself or to something in it, at any depth.  A path that goes on behind a slash is walked
from where the path in front of the slash leads, whatever the names of its siblings.  No
change of a plan makes a link.
-/

namespace PageServer
namespace Disk

/-- No entry is a link. -/
def Linkless (d : Disk) : Prop :=
  ∀ n target, d.entry? n ≠ some (.link target)

/-- An entry that is `top` itself or lies in the directory `top`, at any depth. -/
inductive Under (d : Disk) (top : Nat) : Nat → Prop
  | self : Under d top top
  | named {dir n : Nat} {name : String} (above : Under d top dir)
    (child : d.child? dir name = .ok (some n)) : Under d top n

variable {d e : Disk} {links dir n : Nat} {slash : Bool} {name : String} {names : List String}

theorem Under.trans {top middle : Nat} (h : Under d top middle) (h' : Under d middle n) :
    Under d top n := by
  induction h' with
  | self => exact h
  | named _ child ih => exact .named ih child

/-! ## Walking down -/

theorem Linkless.under_of_hop (h : Linkless d) (hup : name ≠ "..") {next : Hop}
    (hhop : d.hop dir name = .ok next) : ∃ n, next = .to n ∧ Under d dir n := by
  cases (hop_eq_ok_iff.mp hhop).2 with
  | here => exact ⟨dir, rfl, .self⟩
  | up => exact absurd rfl hup
  | down _ _ child _ => exact ⟨_, rfl, .named .self child⟩
  | link _ _ _ entry => exact absurd entry (h _ _)

/-- A way that never goes up stays in the directory where it begins. -/
theorem Linkless.under_of_approach (h : Linkless d) (hup : ".." ∉ names) {last left : Nat}
    (hway : d.approach links dir names = .ok (last, left)) : Under d dir last := by
  induction names generalizing dir with
  | nil =>
    rw [approach_nil] at hway
    cases hway
    exact .self
  | cons name rest ih =>
    have hname : name ≠ ".." := fun heq => hup (by rw [heq]; exact List.mem_cons_self)
    obtain ⟨next, hhop⟩ := hop_of_approach_cons hway
    obtain ⟨n, rfl, hunder⟩ := h.under_of_hop hname hhop
    rw [approach_cons, hhop] at hway
    exact hunder.trans (ih (fun hmem => hup (List.mem_cons_of_mem name hmem)) hway)

theorem Linkless.under_of_reach (h : Linkless d) (hup : ".." ∉ names)
    (hreach : d.reach links dir slash names = .ok n) : Under d dir n := by
  have hfront {front : List String} {last : String} (hnames : ".." ∉ front ++ [last]) :
      ".." ∉ front ∧ last ≠ ".." := by
    constructor
    · exact fun hmem => hnames (List.mem_append_left _ hmem)
    · rintro rfl
      exact hnames (List.mem_append_right _ List.mem_cons_self)
  cases leads_of_reach hreach with
  | nil => exact .self
  | entry hway _ _ _ hchild _ _ =>
    exact .named (h.under_of_approach (hfront hup).1 hway) hchild
  | directory hway hhop =>
    obtain ⟨next, heq, hunder⟩ := h.under_of_hop (hfront hup).2 hhop
    cases heq
    exact (h.under_of_approach (hfront hup).1 hway).trans hunder
  | link _ hhop _ =>
    obtain ⟨next, heq, -⟩ := h.under_of_hop (hfront hup).2 hhop
    cases heq

/-! ## Going on behind a slash -/

theorem pieces_append_slash (path more : String) :
    pieces (path ++ "/" ++ more) = pieces path ++ pieces more := by
  have hslash : (path ++ "/" ++ more).toList = path.toList ++ '/' :: more.toList := by
    rw [String.toList_append, String.toList_append, List.append_assoc]
    rfl
  rw [pieces_eq, pieces_eq, pieces_eq, hslash, List.splitOn_append_cons_self, List.map_append]

/-- A text in which no name stands between slashes is made of slashes. -/
theorem eq_slash_of_namesOf_eq_nil {more : String} (h : namesOf (pieces more) = []) :
    ∀ c ∈ more.toList, c = '/' := by
  have hsplit (l : List Char) (hl : ∀ p ∈ l.splitOn '/', p = []) : ∀ c ∈ l, c = '/' := by
    induction l with
    | nil => simp
    | cons c l ih =>
      rw [List.splitOn_cons_eq_if_modifyHead] at hl
      split at hl
      · next hc =>
        intro x hx
        rcases List.mem_cons.mp hx with rfl | hx
        · simpa using hc
        · exact ih (fun p hp => hl p (List.mem_cons_of_mem _ hp)) x hx
      · obtain ⟨p, ps, hps⟩ := List.exists_cons_of_ne_nil (List.splitOn_ne_nil '/' l)
        rw [hps] at hl
        exact absurd (hl (c :: p) List.mem_cons_self) (List.cons_ne_nil c p)
  apply hsplit
  intro p hp
  cases p with
  | nil => rfl
  | cons c p =>
    have hname : String.ofList (c :: p) ∈ namesOf (pieces more) := by
      rw [namesOf, List.mem_filter, pieces_eq, bne_iff_ne]
      refine ⟨List.mem_map_of_mem hp, fun heq => ?_⟩
      have hnil := congrArg String.toList heq
      rw [String.toList_ofList] at hnil
      cases hnil
    rw [h] at hname
    cases hname

theorem slash_append {path more : String} (h : namesOf (pieces more) = []) :
    (Route.ofPath (path ++ "/" ++ more)).slash = true := by
  have hlist : (path ++ "/" ++ more).toList = path.toList ++ '/' :: more.toList := by
    rw [String.toList_append, String.toList_append, List.append_assoc]
    rfl
  have hlast : (path ++ "/" ++ more).toList.getLast? = some '/' := by
    rw [hlist, List.getLast?_append, List.getLast?_cons]
    cases hend : more.toList.getLast? with
    | none => rfl
    | some c =>
      rw [eq_slash_of_namesOf_eq_nil h c (List.mem_of_getLast? hend)]
      rfl
  simp only [Route.ofPath, hlast, beq_self_eq_true]

theorem start_append (d : Disk) {path : String} (h : path ≠ "") (more : String) :
    d.start (path ++ more) = d.start path := by
  obtain ⟨c, l, hlist⟩ := List.exists_cons_of_ne_nil
    (fun hnil => h (String.toList_eq_nil_iff.mp hnil) : path.toList ≠ [])
  have habsolute : isAbsolute (path ++ more) = isAbsolute path := by
    rw [isAbsolute, isAbsolute, String.toList_append, hlist]
    rfl
  simp only [start, Route.base, Route.ofPath, habsolute]
  rfl

theorem checkPath_of_append {path more : String} (hpath : path ≠ "") {u : Unit}
    (h : checkPath (path ++ more) = .ok u) : checkPath path = .ok () := by
  rw [checkPath] at h ⊢
  split at h
  · cases h
  · next hplain =>
    split at h
    · cases h
    · split at h
      · cases h
      · next hlength =>
        rw [String.utf8ByteSize_append] at hlength
        rw [if_neg, if_neg hpath, if_neg (by omega)]
        intro hzero
        rw [String.contains_char_eq, decide_eq_true_eq] at hzero hplain
        rw [String.toList_append] at hplain
        exact hplain (List.mem_append_left _ hzero)

/-- What leads to an entry with a slash behind it leads there without. -/
theorem Leads.without_slash {slash' : Bool} (h : Leads d links dir slash names n)
    (hslash : slash' = true → slash = true) : Leads d links dir slash' names n := by
  induction h generalizing slash' with
  | nil => exact .nil
  | entry hway hopen hdot hup hchild hlink hdirectory =>
    exact .entry hway hopen hdot hup hchild hlink fun h => hdirectory (hslash h)
  | directory hway hhop => exact .directory hway hhop
  | link hway hhop _ ih =>
    refine .link hway hhop (ih fun h => ?_)
    rcases Bool.or_eq_true_iff.mp h with h | h
    · exact Bool.or_eq_true_iff.mpr (.inl (hslash h))
    · exact Bool.or_eq_true_iff.mpr (.inr h)

/-- What a path leads to that goes on behind a slash, and never up, lies where the path in
front of the slash leads. -/
theorem Linkless.find_append_slash (h : Linkless d) {path more : String} (hpath : path ≠ "")
    (hup : ".." ∉ pieces more) (hfind : d.find (path ++ "/" ++ more) = .ok n) :
    ∃ top, d.find path = .ok top ∧ Under d top n := by
  rw [find_eq] at hfind
  obtain ⟨_, hcheck, hreach⟩ := bind_eq_ok.mp hfind
  rw [String.append_assoc] at hcheck
  have hcheck' := checkPath_of_append hpath hcheck
  rw [String.append_assoc, start_append d hpath, ← String.append_assoc, names_ofPath,
    pieces_append_slash, namesOf_append] at hreach
  by_cases hnames : namesOf (pieces more) = []
  · rw [hnames, List.append_nil, slash_append hnames] at hreach
    refine ⟨n, ?_, .self⟩
    rw [find_eq, hcheck']
    exact ((leads_of_reach hreach).without_slash fun _ => rfl).reach
  · rw [reach_append _ hnames] at hreach
    obtain ⟨⟨top, left⟩, hway, hreach⟩ := bind_eq_ok.mp hreach
    refine ⟨top, ?_, h.under_of_reach (fun hmem => hup (List.mem_filter.mp hmem).1) hreach⟩
    rw [find_eq, hcheck']
    exact reach_of_approach hway _

/-! ## Changes -/

theorem Linkless.put (h : Linkless d) (m : Nat) {x : Entry} (hx : ∀ target, x ≠ .link target) :
    Linkless (d.put m x) := by
  intro n target
  rw [entry?_put]
  split
  · split
    · exact fun heq => hx target (Option.some.inj heq)
    · simp
  · exact h n target

theorem Linkless.setNames (h : Linkless d) (dir : Nat) (l : List (String × Nat)) :
    Linkless (d.setNames dir l) := by
  rw [Disk.setNames]
  split
  · exact h.put dir (by simp)
  · exact h

theorem Linkless.add (h : Linkless d) (dir : Nat) (name : String) {x : Entry}
    (hx : ∀ target, x ≠ .link target) : Linkless (d.add dir name x) := by
  have hpush : Linkless { d with entries := d.entries.push x } := by
    intro n target
    rw [ entry?, Array.getElem?_push]
    split
    · exact fun heq => hx target (Option.some.inj heq)
    · exact h n target
  exact hpush.setNames _ _

theorem Linkless.setData (h : Linkless d) (n : Nat) (data : Bytes) :
    Linkless (d.setData n data) := by
  rw [Disk.setData]
  split
  · exact h.put n (by simp)
  · exact h

theorem Linkless.makeDirectory (h : Linkless d) {path : String}
    (he : d.makeDirectory path = .ok e) : Linkless e := by
  obtain ⟨place, -, hplace⟩ := bind_eq_ok.mp he
  cases place with
  | directory => cases hplace
  | name dir name slash =>
    obtain ⟨child, -, hchild⟩ := bind_eq_ok.mp hplace
    cases child with
    | some => cases hchild
    | none =>
      obtain ⟨-, -, rfl⟩ := map_eq_ok.mp hchild
      exact h.add dir name (by simp)

theorem Linkless.ensureDirectory (h : Linkless d) {path : String}
    (he : d.ensureDirectory path = .ok e) : Linkless e := by
  rw [Disk.ensureDirectory] at he
  split at he
  · split at he
    · cases he
      exact h
    · cases he
  · exact h.makeDirectory he

theorem Linkless.makeUpwards (h : Linkless d) {absolute : Bool} {path : String} {l : List String}
    (he : Disk.makeUpwards absolute path l d = .ok e) : Linkless e := by
  fun_induction Disk.makeUpwards absolute path l d generalizing e with
  | case1 => cases he
  | case2 path l _ p above _ up =>
    rename_i ih
    obtain ⟨g, hg, he⟩ := bind_eq_ok.mp he
    refine Linkless.ensureDirectory ?_ he
    split at hg
    · cases hg
      exact h
    · exact ih hg
  | case3 => exact h.ensureDirectory he

theorem Linkless.makeDirectories (h : Linkless d) {path : String}
    (he : d.makeDirectories path = .ok e) : Linkless e := by
  rw [Disk.makeDirectories] at he
  split at he
  · cases he
    exact h
  · exact h.makeUpwards he

theorem Linkless.openForWriting (h : Linkless d) {path : String}
    (he : d.openForWriting path = .ok (n, e)) : Linkless e := by
  obtain ⟨-, -, he⟩ := bind_eq_ok.mp he
  obtain ⟨place, -, he⟩ := bind_eq_ok.mp he
  split at he
  · cases he
  · cases he
  · obtain ⟨child, -, he⟩ := bind_eq_ok.mp he
    cases child with
    | none =>
      obtain ⟨-, -, he⟩ := map_eq_ok.mp he
      cases he
      exact h.add _ _ (by simp)
    | some m =>
      simp only at he
      split at he
      · cases he
      · obtain ⟨-, -, he⟩ := map_eq_ok.mp he
        cases he
        exact h

theorem Linkless.rename (h : Linkless d) {source target : String}
    (he : d.rename source target = .ok e) : Linkless e := by
  obtain ⟨old, -, he⟩ := bind_eq_ok.mp he
  obtain ⟨new, -, he⟩ := bind_eq_ok.mp he
  split at he
  · obtain ⟨child, -, he⟩ := bind_eq_ok.mp he
    cases child with
    | none => cases he
    | some n =>
      obtain ⟨other, -, he⟩ := bind_eq_ok.mp he
      split at he
      · cases he
      · split at he
        · cases he
          exact h
        · obtain ⟨-, -, he⟩ := bind_eq_ok.mp he
          obtain ⟨-, -, he⟩ := bind_eq_ok.mp he
          split at he
          · cases he
          · cases he
            exact (h.setNames _ _).setNames _ _
  · cases he

theorem Linkless.apply (h : Linkless d) {change : Change} (he : d.apply change = .ok e) :
    Linkless e := by
  cases change with
  | makeDirectories path => exact h.makeDirectories he
  | create path =>
    obtain ⟨⟨n, g⟩, hg, rfl⟩ := map_eq_ok.mp he
    exact (h.openForWriting hg).setData n []
  | append path data =>
    obtain ⟨n, -, he⟩ := bind_eq_ok.mp he
    obtain ⟨old, -, rfl⟩ := map_eq_ok.mp he
    exact h.setData n _
  | rename source target => exact h.rename he

/-- However far a plan is carried out, it makes no link. -/
theorem Linkless.applyAll (h : Linkless d) (plan : List Change) : Linkless (d.applyAll plan).2 := by
  induction plan generalizing d with
  | nil => exact h
  | cons change rest ih =>
    rw [Disk.applyAll]
    split
    · next e he => exact ih (h.apply he)
    · exact h

end Disk
end PageServer
