import PageServer.Accounts.Table
import PageServer.Proofs.Disk.Opening
import PageServer.Proofs.Disk.Paths

/-!
# Where a table is kept

A table can be kept at a path if what a save does on the way to the new file never shows
at the path itself: the directories that are missing lead to no other table when they have
been made, and what is written under the name of the draft is not what the path leads to.
-/

namespace PageServer
namespace Accounts

open Disk

/-- A table can be kept at the path. -/
structure Sited (d : Disk) (path : String) : Prop where
  tree : d.WellFormed
  /-- The directories above it are there, or they can be made without walking back up. -/
  straight : (∃ p, d.place .never path = .ok p) ∨ ".." ∉ (Route.ofPath path).names
  /-- It is not the path of a directory, however many links may be followed. -/
  leaf : ∀ links way, d.approach links (d.start path) (Route.ofPath path).names ≠ .ok way
  /-- What is opened for the draft, along links or not, can be read and is not what the
  path leads to. -/
  draft : ∀ n e, d.openForWriting (path ++ ".tmp") = .ok (n, e) →
    e.permits n .read = true ∧ e.find path ≠ .ok n

variable {d e g : Disk} {path q : String} {front kept : List String} {last : String} {t : Table}

/-! ## What is read -/

theorem read_eq_ok {data : Bytes} : d.read path = .ok data ↔
    d.canOpen = true ∧ ∃ n mode, d.find path = .ok n ∧ d.entry? n = some (.file mode data) ∧
      d.permits n .read = true := by
  constructor
  · intro hread
    obtain ⟨n, hopen, hdata⟩ := bind_eq_ok.mp hread
    obtain ⟨_, hcheck, hopen⟩ := bind_eq_ok.mp hopen
    obtain ⟨m, hfind, hopen⟩ := bind_eq_ok.mp hopen
    obtain ⟨_, hrequire, rfl⟩ := map_eq_ok.mp hopen
    obtain ⟨_, -, hcheck⟩ := bind_eq_ok.mp hcheck
    have hcan : d.canOpen = true := by
      cases hcan : d.canOpen with
      | true => rfl
      | false =>
        rw [hcan] at hcheck
        cases hcheck
    have hreadable := require_eq_ok.mp hrequire
    rw [readAll] at hdata
    split at hdata
    · next mode data' hentry =>
      cases hdata
      exact ⟨hcan, m, mode, hfind, hentry, hreadable⟩
    · cases hdata
  · rintro ⟨hcan, n, mode, hfind, hentry, hreadable⟩
    have hcheck : checkPath path = .ok () := by
      rw [find_eq] at hfind
      exact (bind_eq_ok.mp hfind).choose_spec.1
    rw [Disk.read, openEntry, checkOpen, hcheck, hcan, hfind]
    simp only [Except.bind, if_true, require, hreadable, Except.map, readAll, hentry]

/-- A table that is loaded has no file, or one whose text is read as its rows. -/
theorem load_eq_ok (h : d.WellFormed) : Table.load d path = .ok t ↔
    t.path = path ∧ ((∀ n, d.find path ≠ .ok n) ∧ t.rows = [] ∨
      ∃ data, d.read path = .ok data ∧ TableFile.read? data = some t.rows) := by
  rcases hfind : d.find path with kind | n
  · have hexists : d.exists? path = false := by
      rw [exists?, stat, hfind]
      rfl
    have hread (data : Bytes) : d.read path ≠ .ok data := by
      intro hread
      obtain ⟨-, n, -, hn, -⟩ := read_eq_ok.mp hread
      cases hfind.symm.trans hn
    rw [Table.load, hexists]
    rcases t with ⟨path', rows⟩
    simp [hread, eq_comm]
  · obtain ⟨x, hentry⟩ := h.exists_of_find hfind
    have hexists : d.exists? path = true := by
      rw [exists?, stat, hfind]
      simp [Except.bind, hentry]
    rw [Table.load, if_pos hexists]
    rcases hopen : d.openEntry path with kind | m
    · simp [Disk.read, hopen, Except.bind]
    · rcases hdata : d.readAll m with kind | data
      · simp [Disk.read, hopen, Except.bind, hdata]
      · rcases t with ⟨path', rows⟩
        cases hrows : TableFile.read? data with
        | none => simp [Disk.read, hopen, Except.bind, hdata, hrows]
        | some rows => simp [Disk.read, hopen, Except.bind, hdata, hrows, eq_comm]

/-- What the table's file holds; none where there is none to be read. -/
def text? (d : Disk) (path : String) : Option Bytes :=
  (d.read path).toOption

/-- What a table is read from is on the disk `e` as on `d`. -/
structure Keeps (path : String) (d e : Disk) : Prop where
  sited : Sited e path
  canOpen : e.canOpen = d.canOpen
  found : ∀ n, e.find path = .ok n ↔ d.find path = .ok n
  same : ∀ n mode data, d.find path = .ok n → d.entry? n = some (.file mode data) →
    e.entry? n = some (.file mode data)

theorem Keeps.refl (h : Sited d path) : Keeps path d d :=
  ⟨h, rfl, fun _ => .rfl, fun _ _ _ _ hentry => hentry⟩

theorem Keeps.trans (h : Keeps path d e) (h' : Keeps path e g) : Keeps path d g where
  sited := h'.sited
  canOpen := h'.canOpen.trans h.canOpen
  found := fun n => (h'.found n).trans (h.found n)
  same := fun n mode data hfind hentry =>
    h'.same n mode data ((h.found n).mpr hfind) (h.same n mode data hfind hentry)

theorem Keeps.read (h : Keeps path d e) {data : Bytes} (hread : d.read path = .ok data) :
    e.read path = .ok data := by
  obtain ⟨hopen, n, mode, hfind, hentry, hreadable⟩ := read_eq_ok.mp hread
  have hentry' := h.same n mode data hfind hentry
  refine read_eq_ok.mpr ⟨by rw [h.canOpen, hopen], n, mode, (h.found n).mpr hfind, hentry', ?_⟩
  rw [permits, hentry] at hreadable
  rw [permits, hentry', hreadable]

/-- The table is loaded as before, from the same text. -/
theorem Keeps.load (h : Keeps path d e) (hd : d.WellFormed) (hload : Table.load d path = .ok t) :
    Table.load e path = .ok t ∧ text? e path = text? d path := by
  obtain ⟨hpath, ⟨hnone, hrows⟩ | ⟨data, hread, hrows⟩⟩ := (load_eq_ok hd).mp hload
  · have hnone' (n : Nat) : e.find path ≠ .ok n := fun hfind => hnone n ((h.found n).mp hfind)
    have habsent {d : Disk} (hnone : ∀ n, d.find path ≠ .ok n) : text? d path = none := by
      rcases hread : d.read path with kind | data
      · rw [text?, hread]
        rfl
      · obtain ⟨-, n, -, hfind, -⟩ := read_eq_ok.mp hread
        exact absurd hfind (hnone n)
    exact ⟨(load_eq_ok h.sited.tree).mpr ⟨hpath, .inl ⟨hnone', hrows⟩⟩,
      (habsent hnone').trans (habsent hnone).symm⟩
  · refine ⟨(load_eq_ok h.sited.tree).mpr ⟨hpath, .inr ⟨data, h.read hread, hrows⟩⟩, ?_⟩
    rw [text?, text?, hread, h.read hread]

/-! ## The pieces of the path -/

/-- The pieces of the path of a table and of that of its draft. -/
structure Pieces (path : String) (front : List String) (last : String) : Prop where
  whole : pieces path = front ++ [last]
  draft : pieces (path ++ ".tmp") = front ++ [last ++ ".tmp"]

theorem exists_pieces (path : String) : ∃ front last, Pieces path front last := by
  obtain ⟨front, last, hpath, hdraft⟩ := pieces_append path (s := ".tmp") (by decide)
  exact ⟨front, last, hpath, hdraft⟩

theorem ne_draft (last : String) : last ≠ last ++ ".tmp" := by
  intro h
  have hlength := congrArg String.length h
  rw [String.length_append, show ".tmp".length = 4 from rfl] at hlength
  omega

/-- A name that leads on by itself, and that is not passed over. -/
def Plain (name : String) : Prop :=
  name ≠ "" ∧ name ≠ "." ∧ name ≠ ".."

theorem plain_draft (last : String) : Plain (last ++ ".tmp") :=
  append_ne (by decide)

namespace Pieces

theorem names_path (h : Pieces path front last) :
    (Route.ofPath path).names = namesOf front ++ namesOf [last] := by
  rw [names_ofPath, h.whole, namesOf_append]

theorem place_draft (h : Pieces path front last) (d : Disk) (f : Following) :
    d.place f (path ++ ".tmp") = (checkPath (path ++ ".tmp")).bind fun _ =>
      d.walk f maxLinks (d.start path) false (namesOf front ++ [last ++ ".tmp"]) := by
  have hroute := ofPath_append h.draft (by decide) (by decide) (by decide)
  have hstart : d.start (path ++ ".tmp") = d.start path := by
    rw [start, start, hroute]
    rfl
  rw [place_eq, hstart, hroute]

theorem slash_eq (h : Pieces path front last) (hplain : Plain last) :
    (Route.ofPath path).slash = false := by
  rw [Bool.eq_false_iff]
  intro hslash
  exact hplain.1 (last_eq_of_slash h.whole (by simpa [Route.ofPath] using hslash))

theorem place_path (h : Pieces path front last) (hplain : Plain last) (d : Disk) (f : Following) :
    d.place f path = (checkPath path).bind fun _ =>
      d.walk f maxLinks (d.start path) false (namesOf front ++ [last]) := by
  rw [place_eq, h.slash_eq hplain, h.names_path, namesOf_singleton hplain.1]

theorem find_path (h : Pieces path front last) (hplain : Plain last) (d : Disk) :
    d.find path = (checkPath path).bind fun _ =>
      d.reach maxLinks (d.start path) false (namesOf front ++ [last]) := by
  rw [find_eq, h.slash_eq hplain, h.names_path, namesOf_singleton hplain.1]

/-- The table has a name of its own where its directory can be walked through. -/
theorem plain (h : Pieces path front last) (hs : Sited d path) {links dir left : Nat}
    (hway : d.approach links (d.start path) (namesOf front) = .ok (dir, left))
    (hopen : d.permits dir .search = true) : Plain last := by
  have hleaf := hs.leaf links
  rw [h.names_path] at hleaf
  refine ⟨?_, ?_, ?_⟩
  · rintro rfl
    refine hleaf (dir, left) ?_
    rw [approach_append, hway]
    exact approach_nil
  · rintro rfl
    refine hleaf (dir, left) ?_
    rw [approach_append, hway, Except.bind, namesOf_singleton (by decide), approach_cons,
      hop_dot hopen]
    exact approach_nil
  · rintro rfl
    refine hleaf (d.parent dir, left) ?_
    rw [approach_append, hway, Except.bind, namesOf_singleton (by decide), approach_cons,
      hop_up hopen]
    exact approach_nil

end Pieces

/-! ## Making the directories above -/

section

variable {base more : List String} {new left : Nat} (hp : Pieces path front last)
  (hfront : namesOf front = base ++ more) (hname : ∃ x ∈ more ++ namesOf [last], x ≠ ".")
include hp hfront

theorem Pieces.names_path_append :
    (Route.ofPath path).names = base ++ (more ++ namesOf [last]) := by
  rw [hp.names_path, hfront, List.append_assoc]

include hname

/-- What lies behind names that lead nowhere has no place. -/
theorem place_ne_of_missing
    (hmissing : ∀ way, d.approach maxLinks (d.start path) base ≠ .ok way) (f : Following)
    (p : Place) : d.place f path ≠ .ok p := by
  intro hplace
  obtain ⟨x, hx, -⟩ := hname
  rw [place_eq, hp.names_path_append hfront] at hplace
  obtain ⟨_, -, hwalk⟩ := bind_eq_ok.mp hplace
  rw [walk_append _ (List.ne_nil_of_mem hx)] at hwalk
  obtain ⟨way, hway, -⟩ := bind_eq_ok.mp hwalk
  exact hmissing way hway

variable (he : e.WellFormed) (hway : e.approach maxLinks (e.start path) base = .ok (new, left))
  (hempty : e.names new = []) (hopen : e.permits new .search = true)
  (hup : ".." ∉ (Route.ofPath path).names)
include he hway hempty hopen hup

omit hname he hway hempty hopen in
theorem up_notMem : ".." ∉ more ++ namesOf [last] ∧ ".." ∉ more ++ [last ++ ".tmp"] := by
  rw [hp.names_path_append hfront, List.mem_append, not_or] at hup
  refine ⟨hup.2, ?_⟩
  rw [List.mem_append, not_or, List.mem_singleton]
  rw [List.mem_append, not_or] at hup
  exact ⟨hup.2.1, (plain_draft last).2.2.symm⟩

omit he in
/-- Behind an empty directory there is no table. -/
theorem find_ne_of_empty (n : Nat) : e.find path ≠ .ok n := by
  intro hfind
  have ⟨x, hx, _⟩ := hname
  rw [find_eq, hp.names_path_append hfront] at hfind
  obtain ⟨_, -, hreach⟩ := bind_eq_ok.mp hfind
  rw [reach_append _ (List.ne_nil_of_mem hx), hway] at hreach
  exact occupant_empty hempty hopen (up_notMem hp hfront hup).1 hname hreach

omit hname he in
/-- A draft behind an empty directory has a free name there, and no other name in
between. -/
theorem eq_of_place_draft {f : Following} {p : Place}
    (hplace : e.place f (path ++ ".tmp") = .ok p) :
    p = .name new (last ++ ".tmp") false ∧ ∀ x ∈ more, x = "." := by
  rw [hp.place_draft, hfront, List.append_assoc] at hplace
  obtain ⟨_, -, hplace⟩ := bind_eq_ok.mp hplace
  rw [walk_append _ (by simp), hway] at hplace
  rcases walk_empty hempty hopen (up_notMem hp hfront hup).2 hplace with
    ⟨-, hall⟩ | ⟨idle, y, hsplit, hidle, -, rfl⟩
  · exact absurd (hall _ (by simp)) (plain_draft last).2.1
  · obtain ⟨rfl, hy⟩ := List.append_inj' hsplit rfl
    obtain rfl := List.singleton_inj.mp hy
    exact ⟨rfl, hidle⟩

omit he in
/-- The path itself does not come to that name. -/
theorem place_ne_draft (hidle : ∀ x ∈ more, x = ".") :
    e.place .always path ≠ .ok (.name new (last ++ ".tmp") false) := by
  intro hplace
  obtain ⟨x, hx, hdot⟩ := hname
  rw [place_eq, hp.names_path_append hfront] at hplace
  obtain ⟨_, -, hplace⟩ := bind_eq_ok.mp hplace
  rw [walk_append _ (List.ne_nil_of_mem hx), hway] at hplace
  rcases walk_empty hempty hopen (up_notMem hp hfront hup).1 hplace with
    ⟨heq, -⟩ | ⟨idle, y, hsplit, -, -, heq⟩
  · cases heq
  · obtain ⟨-, rfl, -⟩ := Place.name.inj heq
    have hlast : last ≠ "" := by
      rintro rfl
      have hnone : namesOf [""] = [] := rfl
      rw [hnone, List.append_nil] at hx
      exact hdot (hidle x hx)
    rw [namesOf_singleton hlast] at hsplit
    exact ne_draft last (List.singleton_inj.mp (List.append_inj' hsplit rfl).2)

theorem sited_of_empty : Sited e path where
  tree := he
  straight := .inr hup
  leaf := by
    intro links way hreached
    rw [hp.names_path_append hfront, approach_append] at hreached
    obtain ⟨⟨dir, left'⟩, hway', hrest⟩ := bind_eq_ok.mp hreached
    obtain rfl := approach_unique hway hway'
    exact occupant_empty hempty hopen (up_notMem hp hfront hup).1 hname
      (reach_of_approach hrest false)
  draft := by
    intro n g hopened
    cases opened_of_openForWriting he hopened with
    | found h =>
      obtain ⟨-, dir, name, hplace, hchild, -⟩ := openForWriting_self.mp h
      obtain ⟨heq, -⟩ := eq_of_place_draft hp hfront hway hempty hopen hup hplace
      cases heq
      have hnamed := (child?_eq_ok.mp hchild).2
      rw [hempty] at hnamed
      cases hnamed
    | made hentry hfree hfinal hplace hnew =>
      obtain ⟨heq, hidle⟩ := eq_of_place_draft hp hfront hway hempty hopen hup hplace
      cases heq
      have hnone := (child?_eq_ok.mp hfree).2
      rw [names_of_entry hentry] at hnone
      rw [hnew]
      refine ⟨permits_add_self hentry nofun, fun hfind => ?_⟩
      -- only where the path led to the free name of the draft would it lead to the new file
      rcases find_of_add he hentry hnone hfinal.dot hfinal.up hfind with hfind | hplace
      · exact find_ne_of_empty hp hfront hname hway hempty hopen hup _ hfind
      · exact place_ne_draft hp hfront hname hway hempty hopen hup hidle hplace

end

theorem Sited.makeDirectory (hs : Sited d path) (hup : Upper path q kept)
    (h : d.makeDirectory q = .ok e) : Keeps path d e := by
  have hq : q ≠ "" := by
    rintro rfl
    obtain ⟨p, hplace, -⟩ := bind_eq_ok.mp h
    obtain ⟨u, hcheck, -⟩ := bind_eq_ok.mp hplace
    simp [checkPath] at hcheck
  have hmade := makeDirectory_made hs.tree h
  have hstart : d.start q = d.start path := by
    rw [start, start, Route.base, Route.base]
    exact congrArg (fun absolute => if absolute = true then 0 else d.here) (hup.absolute_eq hq)
  have hstart' := hmade.kept.start_eq path
  rw [hstart, hup.names_eq hq] at hmade
  obtain ⟨front, last, hp⟩ := exists_pieces path
  obtain ⟨more, hfront, hname⟩ := hup.names_path hp.whole
  have hmissing := place_ne_of_missing (d := d) hp hfront hname (hmade.missing maxLinks)
  have hup' : ".." ∉ (Route.ofPath path).names := by
    refine hs.straight.resolve_left ?_
    rintro ⟨p, hplace⟩
    exact hmissing _ p hplace
  obtain ⟨new, left, hway, hempty, hopen⟩ := hmade.found
  rw [← hstart'] at hway
  have hgone := find_ne_of_empty hp hfront hname hway hempty hopen hup'
  have hnone (n : Nat) : d.find path ≠ .ok n := by
    intro hfind
    obtain ⟨p, hplace, -⟩ := bind_eq_ok.mp hfind
    exact hmissing _ p hplace
  exact {
    sited := sited_of_empty hp hfront hname hmade.tree hway hempty hopen hup'
    canOpen := hmade.kept.canOpen
    found := fun n => iff_of_false (hgone n) (hnone n)
    same := fun n _ _ hfind => absurd hfind (hnone n) }

theorem Sited.ensureDirectory (hs : Sited d path) (hup : Upper path q kept)
    (h : d.ensureDirectory q = .ok e) : Keeps path d e := by
  rw [Disk.ensureDirectory] at h
  split at h
  · split at h
    · cases h
      exact .refl hs
    · cases h
  · exact hs.makeDirectory hup h

/-- The directories above are made one after the other, the first of all in front. -/
theorem Sited.makeUpwards (hs : Sited d path) {l : List String} (hup : Upper path q (dropIdle l))
    (h : makeUpwards (isAbsolute path) q l d = .ok e) : Keeps path d e := by
  induction hlength : l.length using Nat.strongRecOn generalizing d e q l with
  | _ n ih =>
    rw [Disk.makeUpwards] at h
    split at h
    · split at h
      · cases h
      · next first above hkept =>
        obtain ⟨g, hmade, hlast⟩ := bind_eq_ok.mp h
        have hkeeps : Keeps path d g := by
          split at hmade
          · cases hmade
            exact .refl hs
          · have hshort := length_dropIdle_le l
            rw [hkept, List.length_cons] at hshort
            exact ih above.length (by omega) hs (hup.up hkept) hmade rfl
        exact hkeeps.trans (hkeeps.sited.ensureDirectory hup hlast)
    · exact hs.ensureDirectory hup h

theorem Sited.makeDirectories (hs : Sited d path) (hup : Upper path q kept)
    (h : d.makeDirectories q = .ok e) : Keeps path d e := by
  rw [Disk.makeDirectories] at h
  split at h
  · cases h
    exact .refl hs
  · next hq =>
    rw [hup.absolute_eq hq] at h
    have hkept := hup.dropIdle_pieces hq
    exact hs.makeUpwards (hkept ▸ hup) h

end Accounts
end PageServer
