import PageServer.Disk.Change
import PageServer.Proofs.Disk.Approach

/-!
# Trees that grow

What a tree keeps where entries are added to it and files are written: whatever a path led
to, it leads to still.
-/

namespace PageServer

/-- What may become of an entry while its name stays: a file is written, a directory names
more. -/
inductive Entry.Grows : Entry → Entry → Prop
  | file (mode : Nat) (data data' : Bytes) : Grows (.file mode data) (.file mode data')
  | directory {mode parent : Nat} {names names' : List (String × Nat)}
    (kept : ∀ name n, names.lookup name = some n → names'.lookup name = some n) :
    Grows (.directory mode parent names) (.directory mode parent names')
  | link (target : String) : Grows (.link target) (.link target)

theorem Entry.Grows.refl (x : Entry) : x.Grows x := by
  cases x with
  | file => exact .file _ _ _
  | directory => exact .directory fun _ _ h => h
  | link => exact .link _

theorem Entry.Grows.trans {x y z : Entry} (h : x.Grows y) (h' : y.Grows z) : x.Grows z := by
  cases h with
  | file => cases h' with | file => exact .file _ _ _
  | directory kept => cases h' with
    | directory kept' => exact .directory fun name n hn => kept' name n (kept name n hn)
  | link => exact h'

theorem Entry.Grows.permits {x y : Entry} (h : x.Grows y) (a : Access) :
    y.permits a = x.permits a := by
  cases h <;> rfl

theorem Entry.Grows.isDirectory {x y : Entry} (h : x.Grows y) : y.isDirectory = x.isDirectory := by
  cases h <;> rfl

namespace Disk

/-- The disk `e` has all entries of `d`, each of them as it was or grown. -/
structure Extends (d e : Disk) : Prop where
  here : e.here = d.here
  canOpen : e.canOpen = d.canOpen
  entries : ∀ n x, d.entry? n = some x → ∃ y, e.entry? n = some y ∧ x.Grows y

variable {d e g : Disk} {f : Following} {links dir n : Nat} {slash : Bool} {name : String}

theorem Extends.refl (d : Disk) : Extends d d :=
  ⟨rfl, rfl, fun _ x h => ⟨x, h, .refl x⟩⟩

theorem Extends.trans (h : Extends d e) (h' : Extends e g) : Extends d g := by
  refine ⟨h'.here.trans h.here, h'.canOpen.trans h.canOpen, ?_⟩
  intro n x hx
  obtain ⟨y, hy, hgrows⟩ := h.entries n x hx
  obtain ⟨z, hz, hgrows'⟩ := h'.entries n y hy
  exact ⟨z, hz, hgrows.trans hgrows'⟩

/-! ## What is kept -/

theorem exists_of_permits {a : Access} (h : d.permits n a = true) : ∃ x, d.entry? n = some x := by
  rw [Disk.permits] at h
  cases hx : d.entry? n with
  | none => simp [hx] at h
  | some x => exact ⟨x, rfl⟩

theorem exists_of_isDirectory (h : d.isDirectory n = true) :
    ∃ mode parent names, d.entry? n = some (.directory mode parent names) := by
  rw [Disk.isDirectory] at h
  rcases hx : d.entry? n with _ | _ | ⟨mode, parent, names⟩ | _
  · simp [hx] at h
  · simp [hx, Entry.isDirectory] at h
  · exact ⟨mode, parent, names, rfl⟩
  · simp [hx, Entry.isDirectory] at h

theorem Extends.permits_eq (h : Extends d e) {x : Entry} (hx : d.entry? n = some x) (a : Access) :
    e.permits n a = d.permits n a := by
  obtain ⟨y, hy, hgrows⟩ := h.entries n x hx
  rw [Disk.permits, Disk.permits, hx, hy, Option.any_some, Option.any_some, hgrows.permits]

theorem Extends.permits (h : Extends d e) {a : Access} (hpermits : d.permits n a = true) :
    e.permits n a = true := by
  obtain ⟨x, hx⟩ := exists_of_permits hpermits
  rw [h.permits_eq hx, hpermits]

theorem Extends.isDirectory_eq (h : Extends d e) {x : Entry} (hx : d.entry? n = some x) :
    e.isDirectory n = d.isDirectory n := by
  obtain ⟨y, hy, hgrows⟩ := h.entries n x hx
  rw [Disk.isDirectory, Disk.isDirectory, hx, hy, Option.any_some, Option.any_some,
    hgrows.isDirectory]

theorem Extends.isDirectory (h : Extends d e) (hdirectory : d.isDirectory n = true) :
    e.isDirectory n = true := by
  obtain ⟨mode, parent, names, hx⟩ := exists_of_isDirectory hdirectory
  rw [h.isDirectory_eq hx, hdirectory]

theorem Extends.parent_eq (h : Extends d e) {x : Entry} (hx : d.entry? n = some x) :
    e.parent n = d.parent n := by
  obtain ⟨y, hy, hgrows⟩ := h.entries n x hx
  rw [Disk.parent, Disk.parent, hx, hy]
  cases hgrows <;> rfl

theorem Extends.lookup (h : Extends d e) {m : Nat} (hname : (d.names n).lookup name = some m) :
    (e.names n).lookup name = some m := by
  rw [names] at hname ⊢
  rcases hx : d.entry? n with _ | _ | ⟨mode, parent, names⟩ | _
  · simp [hx] at hname
  · simp [hx] at hname
  · obtain ⟨y, hy, hgrows⟩ := h.entries n _ hx
    rw [hx] at hname
    rw [hy]
    cases hgrows with
    | directory kept => exact kept name m hname
  · simp [hx] at hname

theorem child?_eq_ok {r : Option Nat} : d.child? dir name = .ok r ↔
    name.utf8ByteSize ≤ maxName ∧ (d.names dir).lookup name = r := by
  rw [child?]
  split
  · next hlong => simp [Nat.not_le.mpr hlong]
  · next hshort => simp [Nat.not_lt.mp hshort]

theorem WellFormed.exists_of_child? (h : WellFormed d) {m : Nat}
    (hchild : d.child? dir name = .ok (some m)) : ∃ x, d.entry? m = some x :=
  ⟨_, Array.getElem?_eq_getElem (h.named _ _ _ (child?_eq_ok.mp hchild).2)⟩

theorem Extends.child? (h : Extends d e) {m : Nat} (hchild : d.child? dir name = .ok (some m)) :
    e.child? dir name = .ok (some m) := by
  obtain ⟨hshort, hname⟩ := child?_eq_ok.mp hchild
  exact child?_eq_ok.mpr ⟨hshort, h.lookup hname⟩

theorem Extends.hop (h : Extends d e) {next : Hop} (hhop : d.hop dir name = .ok next) :
    e.hop dir name = .ok next := by
  obtain ⟨hopen, hgoes⟩ := hop_eq_ok_iff.mp hhop
  obtain ⟨x, hx⟩ := exists_of_permits hopen
  refine hop_eq_ok_iff.mpr ⟨h.permits hopen, ?_⟩
  cases hgoes with
  | here => exact .here
  | up =>
    rw [← h.parent_eq hx]
    exact .up
  | down hdot hup child directory =>
    exact .down hdot hup (h.child? child) (h.isDirectory directory)
  | link hdot hup child entry =>
    obtain ⟨y, hy, hgrows⟩ := h.entries _ _ entry
    cases hgrows
    exact .link hdot hup (h.child? child) hy

theorem Extends.approach (h : Extends d e) {names : List String} {way : Nat × Nat}
    (hway : d.approach links dir names = .ok way) : e.approach links dir names = .ok way :=
  approach_congr (fun _ _ => False) (fun _ _ _ _ hhop => h.hop hhop) (fun _ _ _ _ _ => False.elim)
    hway

/-- What names lead to, they lead to still. -/
theorem Extends.leads (h : Extends d e) (hd : WellFormed d) {names : List String}
    (hleads : Leads d links dir slash names n) : Leads e links dir slash names n := by
  induction hleads with
  | nil => exact .nil
  | entry hway hopen hdot hup hchild hlink hslash =>
    obtain ⟨x, hx⟩ := hd.exists_of_child? hchild
    refine .entry (h.approach hway) (h.permits hopen) hdot hup (h.child? hchild) ?_
      fun hs => h.isDirectory (hslash hs)
    intro target hentry
    obtain ⟨y, hy, hgrows⟩ := h.entries _ x hx
    obtain rfl := Option.some.inj (hy.symm.trans hentry)
    cases hgrows
    exact hlink target hx
  | directory hway hhop => exact .directory (h.approach hway) (h.hop hhop)
  | link hway hhop _ ih => exact .link (h.approach hway) (h.hop hhop) ih

/-- Where a walk that follows no last link ends. -/
theorem walk_never_last (hopen : d.permits dir .search = true) :
    d.walk .never links dir slash [name] =
      .ok (if name = "." then .directory dir else if name = ".." then .directory (d.parent dir)
        else .name dir name slash) := by
  by_cases hdot : name = "."
  · rw [walk, hopen, if_neg (by decide), if_pos hdot, if_pos hdot, walk]
  · by_cases hup : name = ".."
    · rw [walk, hopen, if_neg (by decide), if_neg hdot, if_pos hup, if_neg hdot, if_pos hup, walk]
    · rw [walk_last hopen hdot hup, if_neg hdot, if_neg hup]
      rfl

/-- A walk that follows no last link ends where it ended. -/
theorem Extends.walk_never (h : Extends d e) {names : List String} {p : Place}
    (hwalk : d.walk .never links dir slash names = .ok p) :
    e.walk .never links dir slash names = .ok p := by
  rcases List.eq_nil_or_concat names with rfl | ⟨front, last, rfl⟩
  · rw [walk] at hwalk ⊢
    exact hwalk
  · rw [List.concat_eq_append] at hwalk ⊢
    rw [walk_append front (List.cons_ne_nil _ _)] at hwalk ⊢
    rcases hway : d.approach links dir front with kind | ⟨here, left⟩
    · rw [hway] at hwalk
      cases hwalk
    · rw [hway] at hwalk
      rw [h.approach hway]
      simp only [Except.bind] at hwalk ⊢
      by_cases hopen : d.permits here .search = true
      · obtain ⟨x, hx⟩ := exists_of_permits hopen
        rw [walk_never_last hopen] at hwalk
        rw [walk_never_last (h.permits hopen), h.parent_eq hx, hwalk]
      · rw [walk, if_pos (by simpa using hopen)] at hwalk
        cases hwalk

/-- What names lead to has an entry. -/
theorem WellFormed.exists_of_leads (hd : WellFormed d) (hdir : d.isDirectory dir = true)
    {names : List String} (hleads : Leads d links dir slash names n) :
    ∃ x, d.entry? n = some x := by
  have hentry {n : Nat} (hn : d.isDirectory n = true) : ∃ x, d.entry? n = some x := by
    obtain ⟨mode, parent, l, hx⟩ := exists_of_isDirectory hn
    exact ⟨_, hx⟩
  induction hleads with
  | nil => exact hentry hdir
  | entry _ _ _ _ hchild _ _ => exact hd.exists_of_child? hchild
  | directory hway hhop => exact hentry (hd.hop (hd.approach hdir hway) hhop)
  | link hway _ _ ih => exact ih (hd.base (hd.approach hdir hway) _)

theorem Extends.start_eq (h : Extends d e) (path : String) : e.start path = d.start path := by
  rw [start, start, h.here]

theorem Extends.place_never (h : Extends d e) {path : String} {p : Place}
    (hplace : d.place .never path = .ok p) : e.place .never path = .ok p := by
  rw [place_eq] at hplace ⊢
  obtain ⟨_, hcheck, hwalk⟩ := bind_eq_ok.mp hplace
  rw [h.start_eq]
  exact bind_eq_ok.mpr ⟨_, hcheck, h.walk_never hwalk⟩

theorem Extends.find (h : Extends d e) (hd : WellFormed d) {path : String}
    (hfind : d.find path = .ok n) : e.find path = .ok n := by
  rw [find_eq] at hfind ⊢
  obtain ⟨_, hcheck, hreach⟩ := bind_eq_ok.mp hfind
  rw [h.start_eq]
  exact bind_eq_ok.mpr ⟨_, hcheck, (h.leads hd (leads_of_reach hreach)).reach⟩

theorem WellFormed.exists_of_find (hd : WellFormed d) {path : String}
    (hfind : d.find path = .ok n) : ∃ x, d.entry? n = some x := by
  rw [find_eq] at hfind
  obtain ⟨_, -, hreach⟩ := bind_eq_ok.mp hfind
  exact hd.exists_of_leads (hd.start path) (leads_of_reach hreach)

/-! ## In an empty directory -/

/-- A walk in an empty directory ends there, or at the first name that it comes to. -/
theorem walk_empty (hempty : d.names dir = []) (hopen : d.permits dir .search = true)
    {names : List String} (hup : ".." ∉ names) {p : Place}
    (hwalk : d.walk f links dir slash names = .ok p) :
    (p = .directory dir ∧ ∀ x ∈ names, x = ".") ∨
      ∃ idle last, names = idle ++ [last] ∧ (∀ x ∈ idle, x = ".") ∧ last ≠ "." ∧
        p = .name dir last slash := by
  have hfree (name : String) (m : Nat) : d.child? dir name ≠ .ok (some m) := by
    intro hchild
    have hlookup := (child?_eq_ok.mp hchild).2
    rw [hempty] at hlookup
    cases hlookup
  induction names with
  | nil =>
    rw [walk] at hwalk
    cases hwalk
    exact .inl ⟨rfl, by simp⟩
  | cons name rest ih =>
    have hup' : name ≠ ".." ∧ ".." ∉ rest := by
      simpa [eq_comm] using hup
    by_cases hdot : name = "."
    · subst hdot
      rw [walk, hopen, if_neg (by decide), if_pos rfl] at hwalk
      rcases ih hup'.2 hwalk with ⟨hp, hall⟩ | ⟨idle, last, hrest, hidle, hlast, hp⟩
      · exact .inl ⟨hp, by simpa using hall⟩
      · exact .inr ⟨"." :: idle, last, by rw [hrest]; rfl, by simpa using hidle, hlast, hp⟩
    · cases rest with
      | nil =>
        refine .inr ⟨[], name, rfl, by simp, hdot, ?_⟩
        rw [walk_last hopen hdot hup'.1] at hwalk
        rcases hchild : d.child? dir name with kind | _ | m
        · rw [hchild] at hwalk
          split at hwalk <;> cases hwalk
          rfl
        · rw [hchild] at hwalk
          split at hwalk <;> cases hwalk <;> rfl
        · exact absurd hchild (hfree name m)
      | cons second rest =>
        -- another name behind this one would need a directory here
        rw [walk_cons (List.cons_ne_nil _ _)] at hwalk
        cases hhop : d.hop dir name with
        | error kind =>
          rw [hhop] at hwalk
          cases hwalk
        | ok next => exact absurd hhop (hop_ne_of_free hdot hup'.1 (hfree name) next)

/-- Nothing is found in an empty directory but the directory itself. -/
theorem occupant_empty (hempty : d.names dir = []) (hopen : d.permits dir .search = true)
    {names : List String} (hup : ".." ∉ names) (hname : ∃ x ∈ names, x ≠ ".") :
    (d.walk f links dir slash names).bind d.occupant ≠ .ok n := by
  intro hfound
  rcases hwalk : d.walk f links dir slash names with kind | p
  · rw [hwalk] at hfound
    cases hfound
  · rw [hwalk] at hfound
    rcases walk_empty hempty hopen hup hwalk with ⟨-, hall⟩ | ⟨_, last, -, -, -, rfl⟩
    · obtain ⟨x, hx, hdot⟩ := hname
      exact hdot (hall x hx)
    · rw [Except.bind, occupant, child?, hempty] at hfound
      split at hfound <;> cases hfound

/-! ## How a tree grows -/

@[simp] theorem setNames_here (d : Disk) (dir : Nat) (l : List (String × Nat)) :
    (d.setNames dir l).here = d.here := by
  rw [setNames]
  split <;> rfl

@[simp] theorem setNames_canOpen (d : Disk) (dir : Nat) (l : List (String × Nat)) :
    (d.setNames dir l).canOpen = d.canOpen := by
  rw [setNames]
  split <;> rfl

@[simp] theorem size_setNames (d : Disk) (dir : Nat) (l : List (String × Nat)) :
    (d.setNames dir l).entries.size = d.entries.size := by
  rw [setNames]
  split
  · exact Array.size_setIfInBounds
  · rfl

theorem entry?_put (d : Disk) (n : Nat) (x : Entry) (m : Nat) :
    entry? (d.put n x) m = if n = m then (if n < d.entries.size then some x else none)
      else d.entry? m := by
  rw [ entry?, put, Array.getElem?_setIfInBounds]
  rfl

theorem lt_of_entry {x : Entry} (h : d.entry? n = some x) : n < d.entries.size :=
  (Array.getElem?_eq_some_iff.mp h).1

theorem entry?_put_of_some {x y : Entry} (h : d.entry? n = some y) (m : Nat) :
    entry? (d.put n x) m = if n = m then some x else d.entry? m := by
  rw [entry?_put, if_pos (lt_of_entry h)]

theorem entry?_setNames {mode parent : Nat} {l : List (String × Nat)}
    (h : d.entry? dir = some (.directory mode parent l)) (l' : List (String × Nat)) (m : Nat) :
    entry? (d.setNames dir l') m =
      if dir = m then some (.directory mode parent l') else d.entry? m := by
  rw [setNames, h]
  exact entry?_put_of_some h m

theorem lookup_without (l : List (String × Nat)) (name other : String) :
    (l.filter (·.1 != name)).lookup other = if other = name then none else l.lookup other := by
  induction l with
  | nil => simp
  | cons row l ih =>
    rcases row with ⟨first, n⟩
    by_cases hfirst : first = name
    · rw [List.filter_cons, if_neg (by simp [hfirst]), ih, List.lookup_cons]
      by_cases hother : other = name
      · rw [if_pos hother, if_pos hother]
      · have hne : (other == first) = false := by simpa [hfirst] using hother
        rw [if_neg hother, if_neg hother, hne]
    · rw [List.filter_cons, if_pos (by simpa using hfirst), List.lookup_cons, List.lookup_cons, ih]
      by_cases hother : other = first
      · simp [hother, hfirst]
      · rw [show (other == first) = false by simpa using hother]

/-- A name that is given to an entry, and every other name. -/
theorem lookup_give (l : List (String × Nat)) (name : String) (n : Nat) (other : String) :
    (l.filter (·.1 != name) ++ [(name, n)]).lookup other =
      if other = name then some n else l.lookup other := by
  rw [List.lookup_append, lookup_without, List.lookup_cons, List.lookup_nil]
  by_cases hother : other = name
  · simp [hother]
  · rw [if_neg hother, if_neg hother, show (other == name) = false by simpa using hother]
    exact Option.or_none

/-- The entries after one has been added under a name. -/
theorem entry?_add {mode parent : Nat} {l : List (String × Nat)}
    (h : d.entry? dir = some (.directory mode parent l)) (name : String) (x : Entry) (m : Nat) :
    entry? (d.add dir name x) m =
      if dir = m then
        some (.directory mode parent (l.filter (·.1 != name) ++ [(name, d.entries.size)]))
      else if m = d.entries.size then some x else d.entry? m := by
  have hlt := lt_of_entry h
  have hpush (m : Nat) : entry? ({ d with entries := d.entries.push x } : Disk) m =
      if m = d.entries.size then some x else d.entry? m := Array.getElem?_push
  have hdir : entry? ({ d with entries := d.entries.push x } : Disk) dir =
      some (.directory mode parent l) := by
    rw [hpush, if_neg (by omega), h]
  have hnames : ({ d with entries := d.entries.push x } : Disk).names dir = l := by
    rw [names, hdir]
  rw [add, setName, hnames, entry?_setNames hdir, hpush]

theorem extends_add {mode parent : Nat} {l : List (String × Nat)}
    (h : d.entry? dir = some (.directory mode parent l)) (hfree : l.lookup name = none)
    (x : Entry) : Extends d (d.add dir name x) := by
  refine ⟨setNames_here _ _ _, setNames_canOpen _ _ _, ?_⟩
  · intro n y hy
    rw [entry?_add h]
    have hlt := lt_of_entry hy
    by_cases hdir : dir = n
    · subst hdir
      rw [if_pos rfl]
      obtain rfl := Option.some.inj (h.symm.trans hy)
      refine ⟨_, rfl, .directory ?_⟩
      intro other n hother
      rw [lookup_give, if_neg, hother]
      rintro rfl
      rw [hfree] at hother
      cases hother
    · rw [if_neg hdir, if_neg (by omega)]
      exact ⟨y, hy, .refl y⟩

theorem size_add (d : Disk) (dir : Nat) (name : String) (x : Entry) :
    (d.add dir name x).entries.size = d.entries.size + 1 := by
  rw [add, setName, size_setNames]
  exact Array.size_push x

theorem names_of_entry {mode parent : Nat} {l : List (String × Nat)}
    (h : d.entry? n = some (.directory mode parent l)) : d.names n = l := by
  rw [names, h]

theorem parent_of_entry {mode parent : Nat} {l : List (String × Nat)}
    (h : d.entry? n = some (.directory mode parent l)) : d.parent n = parent := by
  rw [Disk.parent, h]

theorem exists_of_lookup {m : Nat} (h : (d.names n).lookup name = some m) :
    ∃ mode parent l, d.entry? n = some (.directory mode parent l) := by
  rw [names] at h
  split at h
  · next hentry => exact ⟨_, _, _, hentry⟩
  · simp at h

theorem isDirectory_of_entry {mode parent : Nat} {l : List (String × Nat)}
    (h : d.entry? n = some (.directory mode parent l)) : d.isDirectory n = true := by
  rw [isDirectory, h]
  rfl

/-- The names after an entry has been added. -/
theorem lookup_add {mode parent : Nat} {l : List (String × Nat)}
    (h : d.entry? dir = some (.directory mode parent l)) {x : Entry}
    (hx : ∀ m p k, x = .directory m p k → p = dir ∧ k = []) (at' : Nat) (other : String) :
    ((d.add dir name x).names at').lookup other =
      if at' = dir ∧ other = name then some d.entries.size else (d.names at').lookup other := by
  have hentry := entry?_add h name x at'
  by_cases hdir : dir = at'
  · subst hdir
    rw [if_pos rfl] at hentry
    rw [names_of_entry hentry, names_of_entry h]
    simp only [lookup_give, true_and]
  · rw [if_neg hdir] at hentry
    rw [if_neg fun heq => hdir heq.1.symm, Disk.names, Disk.names, hentry]
    by_cases hnew : at' = d.entries.size
    · rw [if_pos hnew, entry?, hnew, Array.getElem?_size]
      rcases x with _ | ⟨m, p, k⟩ | _
      · rfl
      · obtain ⟨-, rfl⟩ := hx m p k rfl
        rfl
      · rfl
    · rw [if_neg hnew]

/-- A tree stays one where a file or an empty directory is added to it. -/
theorem WellFormed.add (hd : WellFormed d) {mode parent : Nat} {l : List (String × Nat)}
    (h : d.entry? dir = some (.directory mode parent l)) (hfree : l.lookup name = none) {x : Entry}
    (hx : ∀ m p k, x = .directory m p k → p = dir ∧ k = []) : WellFormed (d.add dir name x) := by
  have hext := extends_add h hfree x
  have hentry := entry?_add h name x
  refine ⟨hext.isDirectory hd.root, ?_, ?_, ?_⟩
  · rw [hext.here]
    exact hext.isDirectory hd.here
  · intro n hn
    obtain ⟨m, p, k, hk⟩ := exists_of_isDirectory hn
    rw [parent_of_entry hk]
    rw [hentry] at hk
    split at hk
    · cases hk
      rw [← parent_of_entry h]
      exact hext.isDirectory (hd.parent dir (isDirectory_of_entry h))
    · split at hk
      · obtain ⟨rfl, -⟩ := hx m p k (Option.some.inj hk)
        exact hext.isDirectory (isDirectory_of_entry h)
      · rw [← parent_of_entry hk]
        exact hext.isDirectory (hd.parent n (isDirectory_of_entry hk))
  · intro n other m hname
    rw [size_add]
    obtain ⟨mode', p, k, hk⟩ := exists_of_lookup hname
    rw [names_of_entry hk] at hname
    rw [hentry] at hk
    split at hk
    · cases hk
      rw [lookup_give] at hname
      split at hname
      · cases hname
        exact Nat.lt_succ_self _
      · exact Nat.lt_succ_of_lt (hd.named dir other m (by rw [names_of_entry h, hname]))
    · split at hk
      · obtain ⟨-, rfl⟩ := hx mode' p k (Option.some.inj hk)
        cases hname
      · exact Nat.lt_succ_of_lt (hd.named n other m (by rw [names_of_entry hk, hname]))

/-! ## A new directory -/

/-- The disk `e` has an empty directory in addition, where names lead to that led nowhere
in `d`. -/
structure Made (d e : Disk) (dir : Nat) (names : List String) : Prop where
  tree : WellFormed e
  kept : Extends d e
  missing : ∀ links way, d.approach links dir names ≠ .ok way
  found : ∃ new left, e.approach maxLinks dir names = .ok (new, left) ∧ e.names new = [] ∧
    e.permits new .search = true

theorem made_add (hd : WellFormed d) {at' left : Nat} {front : List String}
    (hway : d.approach maxLinks at' front = .ok (dir, left)) (hdir : d.isDirectory dir = true)
    (hopen : d.permits dir .search = true) (hdot : name ≠ ".") (hup : name ≠ "..")
    (hfree : d.child? dir name = .ok none) :
    Made d (d.add dir name (.directory directoryMode dir [])) at' (front ++ [name]) := by
  obtain ⟨mode, parent, l, h⟩ := exists_of_isDirectory hdir
  have hnone := (child?_eq_ok.mp hfree).2
  rw [names_of_entry h] at hnone
  have hx : ∀ m p k, Entry.directory directoryMode dir [] = .directory m p k →
      p = dir ∧ k = [] := by
    rintro m p k heq
    cases heq
    exact ⟨rfl, rfl⟩
  have hext := extends_add h hnone (.directory directoryMode dir [])
  have hlt := lt_of_entry h
  have hnew : entry? (d.add dir name (.directory directoryMode dir [])) d.entries.size =
      some (.directory directoryMode dir []) := by
    rw [entry?_add h, if_neg (by omega), if_pos rfl]
  refine ⟨hd.add h hnone hx, hext, ?_, d.entries.size, left, ?_, names_of_entry hnew, ?_⟩
  · intro links way hreached
    rw [approach_append] at hreached
    obtain ⟨⟨dir', left'⟩, hway', hlast⟩ := bind_eq_ok.mp hreached
    obtain rfl := approach_unique hway hway'
    obtain ⟨next, hhop⟩ := hop_of_approach_cons hlast
    refine hop_ne_of_free hdot hup (fun n hchild => ?_) next hhop
    cases hfree.symm.trans hchild
  · have hchild : (d.add dir name (.directory directoryMode dir [])).child? dir name =
        .ok (some d.entries.size) := by
      refine child?_eq_ok.mpr ⟨(child?_eq_ok.mp hfree).1, ?_⟩
      rw [lookup_add h hx, if_pos ⟨rfl, rfl⟩]
    have hhop := hop_eq_ok_iff.mpr
      ⟨hext.permits hopen, .down hdot hup hchild (isDirectory_of_entry hnew)⟩
    rw [approach_append, hext.approach hway, Except.bind, approach_cons, hhop]
    exact approach_nil
  · rw [permits, hnew, Option.any_some]
    simp [Entry.permits, Entry.mode, directoryMode, Access.bit]

theorem makeDirectory_made (hd : WellFormed d) {path : String} (h : d.makeDirectory path = .ok e) :
    Made d e (d.start path) (Route.ofPath path).names := by
  obtain ⟨p, hplace, h⟩ := bind_eq_ok.mp h
  rw [place_eq] at hplace
  obtain ⟨-, -, hwalk⟩ := bind_eq_ok.mp hplace
  rcases List.eq_nil_or_concat (Route.ofPath path).names with hnil | ⟨front, last, hnames⟩
  · rw [hnil, walk] at hwalk
    cases hwalk
    cases h
  · rw [List.concat_eq_append] at hnames
    rw [hnames, walk_append front (List.cons_ne_nil _ _)] at hwalk
    obtain ⟨⟨dir, left⟩, hway, hwalk⟩ := bind_eq_ok.mp hwalk
    have hdir := hd.approach (hd.start path) hway
    have hopen := permits_of_walk hwalk
    rw [walk_never_last hopen] at hwalk
    split at hwalk
    · cases hwalk
      cases h
    · next hdot =>
      split at hwalk
      · cases hwalk
        cases h
      · next hup =>
        cases hwalk
        obtain ⟨found, hchild, h⟩ := bind_eq_ok.mp h
        cases found with
        | some n => cases h
        | none =>
          obtain ⟨-, -, rfl⟩ := map_eq_ok.mp h
          rw [hnames]
          exact made_add hd hway hdir hopen hdot hup hchild

/-! ## A new file -/

section

variable {mode parent : Nat} {l : List (String × Nat)} {at' : Nat} {names : List String}

variable {data : Bytes} (hd : WellFormed d) (h : d.entry? dir = some (.directory mode parent l))
  (hfree : l.lookup name = none)

include h in
theorem entry?_add_self :
    entry? (d.add dir name (.file fileMode data)) d.entries.size = some (.file fileMode data) := by
  have hlt := lt_of_entry h
  rw [entry?_add h, if_neg (by omega), if_pos rfl]

include h in
theorem exists_of_permits_add
    (hopen : (d.add dir name (.file fileMode data)).permits at' .search = true) :
    ∃ x, d.entry? at' = some x := by
  obtain ⟨y, hy⟩ := exists_of_permits hopen
  have hentry := entry?_add h name (.file fileMode data) at'
  split at hentry
  · next heq => exact ⟨_, heq ▸ h⟩
  · split at hentry
    · have hclosed : (Entry.file fileMode data).permits .search = false := by
        simp [Entry.permits, Entry.mode, fileMode, Access.bit]
      rw [permits, hentry, Option.any_some, hclosed] at hopen
      cases hopen
    · exact ⟨y, hentry.symm.trans hy⟩

include h hfree in
theorem child?_add_self {r : Option Nat}
    (hchild : (d.add dir name (.file fileMode data)).child? dir name = .ok r) :
    r = some d.entries.size ∧ d.child? dir name = .ok none := by
  obtain ⟨hshort, hlookup⟩ := child?_eq_ok.mp hchild
  rw [lookup_add h (by simp), if_pos ⟨rfl, rfl⟩] at hlookup
  refine ⟨hlookup.symm, child?_eq_ok.mpr ⟨hshort, ?_⟩⟩
  rw [names_of_entry h, hfree]

include hd h hfree

theorem child?_of_add {other : String} (hne : ¬(at' = dir ∧ other = name)) {n : Nat}
    (hchild : (d.add dir name (.file fileMode data)).child? at' other = .ok (some n)) :
    d.child? at' other = .ok (some n) ∧ ∃ x y, d.entry? n = some x ∧
      entry? (d.add dir name (.file fileMode data)) n = some y ∧ x.Grows y := by
  obtain ⟨hshort, hlookup⟩ := child?_eq_ok.mp hchild
  rw [lookup_add h (by simp), if_neg hne] at hlookup
  have hchild' := child?_eq_ok.mpr ⟨hshort, hlookup⟩
  obtain ⟨x, hx⟩ := hd.exists_of_child? hchild'
  obtain ⟨y, hy, hgrows⟩ := (extends_add h hfree (.file fileMode data)).entries n x hx
  exact ⟨hchild', x, y, hx, hy, hgrows⟩

/-- A new file leads on to nothing, and all else leads on as it did. -/
theorem hop_of_add (hdot : name ≠ ".") (hup : name ≠ "..") {other : String} {next : Hop}
    (hhop : (d.add dir name (.file fileMode data)).hop at' other = .ok next) :
    ¬(at' = dir ∧ other = name) ∧ d.hop at' other = .ok next := by
  have hext := extends_add h hfree (.file fileMode data)
  have hself : entry? (d.add dir name (.file fileMode data)) d.entries.size =
      some (.file fileMode data) := entry?_add_self h
  obtain ⟨hopen, hgoes⟩ := hop_eq_ok_iff.mp hhop
  have hne : ¬(at' = dir ∧ other = name) := by
    rintro ⟨rfl, rfl⟩
    cases hgoes with
    | here => exact hdot rfl
    | up => exact hup rfl
    | down _ _ hchild hdirectory =>
      cases (child?_add_self h hfree hchild).1
      rw [isDirectory, hself] at hdirectory
      cases hdirectory
    | link _ _ hchild hentry =>
      cases (child?_add_self h hfree hchild).1
      rw [hself] at hentry
      cases hentry
  obtain ⟨x, hx⟩ := exists_of_permits_add h hopen
  refine ⟨hne, hop_eq_ok_iff.mpr ⟨by rw [← hext.permits_eq hx, hopen], ?_⟩⟩
  cases hgoes with
  | here => exact .here
  | up =>
    rw [hext.parent_eq hx]
    exact .up
  | down hdot' hup' hchild hdirectory =>
    obtain ⟨hchild', x, -, hx, -, -⟩ := child?_of_add hd h hfree hne hchild
    rw [hext.isDirectory_eq hx] at hdirectory
    exact .down hdot' hup' hchild' hdirectory
  | link hdot' hup' hchild hentry =>
    obtain ⟨hchild', x, y, hx, hy, hgrows⟩ := child?_of_add hd h hfree hne hchild
    obtain rfl := Option.some.inj (hy.symm.trans hentry)
    cases hgrows
    exact .link hdot' hup' hchild' hx

theorem approach_of_add (hdot : name ≠ ".") (hup : name ≠ "..") {way : Nat × Nat}
    (hway : (d.add dir name (.file fileMode data)).approach links at' names = .ok way) :
    d.approach links at' names = .ok way := by
  refine approach_congr (fun _ _ => False) ?_ (fun _ _ _ _ _ => False.elim) hway
  intro _ _ _ _ hhop
  exact (hop_of_add hd h hfree hdot hup hhop).2

/-- A new file is all that can be found in addition, and it is found where its name was
free. -/
theorem leads_of_add (hdot : name ≠ ".") (hup : name ≠ "..")
    (hleads : Leads (d.add dir name (.file fileMode data)) links at' slash names n) :
    Leads d links at' slash names n ∨
      d.walk .always links at' slash names = .ok (.name dir name false) := by
  have hext := extends_add h hfree (.file fileMode data)
  induction hleads with
  | nil => exact .inl .nil
  | @entry links at' slash front here left last n hway hopen hdot' hup' hchild hlink hslash =>
    have hway' := approach_of_add hd h hfree hdot hup hway
    obtain ⟨x, hx⟩ := exists_of_permits_add h hopen
    have hopen' : d.permits here .search = true := by rw [← hext.permits_eq hx, hopen]
    by_cases hself : here = dir ∧ last = name
    · obtain ⟨rfl, rfl⟩ := hself
      obtain ⟨hn, hnone⟩ := child?_add_self h hfree hchild
      obtain rfl := Option.some.inj hn
      have hslash' : slash = false := by
        rw [isDirectory, entry?_add_self h] at hslash
        exact Bool.eq_false_iff.mpr fun hs => by cases hslash hs
      rw [walk_append front (List.cons_ne_nil _ _), hway', Except.bind,
        walk_last hopen' hdot' hup', hnone, hslash']
      exact .inr rfl
    · obtain ⟨hchild', x, y, hx, hy, hgrows⟩ := child?_of_add hd h hfree hself hchild
      refine .inl (.entry hway' hopen' hdot' hup' hchild' ?_ fun hs => ?_)
      · rintro target hentry
        rw [hentry] at hx
        cases hx
        cases hgrows
        exact hlink target hy
      · rw [← hext.isDirectory_eq hx, hslash hs]
  | directory hway hhop =>
    exact .inl (.directory (approach_of_add hd h hfree hdot hup hway)
      (hop_of_add hd h hfree hdot hup hhop).2)
  | @link links at' slash front here left last r n hway hhop _ ih =>
    have hway' := approach_of_add hd h hfree hdot hup hway
    have hhop' := (hop_of_add hd h hfree hdot hup hhop).2
    rcases ih with hleads | hwalk
    · exact .inl (.link hway' hhop' hleads)
    · rw [walk_append front (List.cons_ne_nil _ _), hway', Except.bind, walk_along hhop']
      simpa using .inr hwalk

theorem find_of_add (hdot : name ≠ ".") (hup : name ≠ "..") {path : String}
    (hfind : (d.add dir name (.file fileMode data)).find path = .ok n) :
    d.find path = .ok n ∨ d.place .always path = .ok (.name dir name false) := by
  rw [find_eq, (extends_add h hfree _).start_eq] at hfind
  obtain ⟨_, hcheck, hreach⟩ := bind_eq_ok.mp hfind
  rw [find_eq, place_eq, hcheck]
  exact (leads_of_add hd h hfree hdot hup (leads_of_reach hreach)).imp_left Leads.reach

end

/-! ## Writing a file -/

theorem entry?_setData {mode : Nat} {old : Bytes} (h : d.entry? n = some (.file mode old))
    (data : Bytes) (m : Nat) :
    entry? (d.setData n data) m = if n = m then some (.file mode data) else d.entry? m := by
  rw [setData, h]
  exact entry?_put_of_some h m

theorem size_setData {mode : Nat} {old : Bytes} (h : d.entry? n = some (.file mode old))
    (data : Bytes) : (d.setData n data).entries.size = d.entries.size := by
  rw [setData, h]
  exact Array.size_setIfInBounds

theorem extends_setData {mode : Nat} {old : Bytes} (h : d.entry? n = some (.file mode old))
    (data : Bytes) : Extends d (d.setData n data) := by
  refine ⟨?_, ?_, ?_⟩
  · rw [setData, h]
    rfl
  · rw [setData, h]
    rfl
  · intro m x hx
    rw [entry?_setData h]
    by_cases hm : n = m
    · subst hm
      rw [h] at hx
      cases hx
      exact ⟨_, if_pos rfl, .file _ _ _⟩
    · exact ⟨x, by rw [if_neg hm, hx], .refl x⟩

/-- A file that has been written can be thought to become what it was. -/
theorem extends_of_setData {mode : Nat} {old : Bytes} (h : d.entry? n = some (.file mode old))
    (data : Bytes) : Extends (d.setData n data) d := by
  have hext := extends_setData h data
  refine ⟨hext.here.symm, hext.canOpen.symm, ?_⟩
  intro m x hx
  rw [entry?_setData h] at hx
  by_cases hm : n = m
  · subst hm
    rw [if_pos rfl] at hx
    cases hx
    exact ⟨_, h, .file _ _ _⟩
  · rw [if_neg hm] at hx
    exact ⟨x, hx, .refl x⟩

theorem names_setData {mode : Nat} {old : Bytes} (h : d.entry? n = some (.file mode old))
    (data : Bytes) (m : Nat) : (d.setData n data).names m = d.names m := by
  rw [names, names, entry?_setData h]
  by_cases hm : n = m
  · rw [if_pos hm, ← hm, h]
  · rw [if_neg hm]

theorem WellFormed.setData (hd : WellFormed d) {mode : Nat} {old : Bytes}
    (h : d.entry? n = some (.file mode old)) (data : Bytes) : WellFormed (d.setData n data) := by
  have hext := extends_setData h data
  refine ⟨hext.isDirectory hd.root, ?_, ?_, ?_⟩
  · rw [hext.here]
    exact hext.isDirectory hd.here
  · intro m hm
    obtain ⟨m', p, k, hk⟩ := exists_of_isDirectory hm
    rw [entry?_setData h] at hk
    split at hk
    · cases hk
    · rw [hext.parent_eq hk]
      exact hext.isDirectory (hd.parent m (isDirectory_of_entry hk))
  · intro m other k hname
    rw [names_setData h] at hname
    rw [size_setData h]
    exact hd.named m other k hname

end Disk
end PageServer
