import PageServer.Proofs.Disk.Renaming

/-!
# Opening a file for writing

A file is opened for writing at the name that a path comes to behind all links, and where
there is none one is made there.  So a file may be opened far from the directory that its
path names, and a link that is renamed goes on leading there.
-/

namespace PageServer
namespace Disk

/-- A name at which a walk may come to its end, be it free or not. -/
structure Final (d : Disk) (dir : Nat) (name : String) : Prop where
  opens : d.permits dir .search = true
  dot : name ≠ "."
  up : name ≠ ".."
  short : name.utf8ByteSize ≤ maxName
  unlinked : ∀ n, (d.names dir).lookup name = some n → ∀ target, d.entry? n ≠ some (.link target)

/-- From the directory `at'`, names come to the name `name` in the directory `dir`.  The
last of them is this name, or a link from where its own names come to it. -/
inductive Arrives (d : Disk) (dir : Nat) (name : String) : Nat → Nat → List String → Prop
  | name {links at' left : Nat} {front : List String}
    (hway : d.approach links at' front = .ok (dir, left)) :
    Arrives d dir name links at' (front ++ [name])
  | link {links at' here left : Nat} {front : List String} {last : String} {r : Route}
    (hway : d.approach links at' front = .ok (here, left + 1))
    (hhop : d.hop here last = .ok (.along r)) (hslash : r.slash = false)
    (h : Arrives d dir name left (r.base here) r.names) :
    Arrives d dir name links at' (front ++ [last])

variable {d e : Disk} {f : Following} {links at' dir n : Nat} {slash : Bool} {name : String}
  {names : List String} {path : String}

theorem Final.child? (h : Final d dir name) :
    d.child? dir name = .ok ((d.names dir).lookup name) :=
  child?_eq_ok.mpr ⟨h.short, rfl⟩

/-! ## Walking to a name -/

/-- A walk that comes to a name has it as the last one, or goes along the link that is
there. -/
theorem walk_eq_ok_name {front : List String} {last : String} {slash' : Bool}
    (h : d.walk f links at' slash (front ++ [last]) = .ok (.name dir name slash')) :
    ∃ here left, d.approach links at' front = .ok (here, left) ∧
      ((dir = here ∧ name = last ∧ slash' = slash ∧
          (f.goesOn slash = true → Final d dir name)) ∨
        ∃ r fewer, left = fewer + 1 ∧ d.hop here last = .ok (.along r) ∧
          d.walk f fewer (r.base here) (slash || r.slash) r.names =
            .ok (.name dir name slash')) := by
  rw [walk_append front (List.cons_ne_nil _ _)] at h
  obtain ⟨⟨here, left⟩, hway, h⟩ := bind_eq_ok.mp h
  refine ⟨here, left, hway, ?_⟩
  have hopen := permits_of_walk h
  by_cases hdots : last = "." ∨ last = ".."
  · -- behind a dot there is a directory, and no name
    obtain rfl | rfl := hdots
    · rw [walk, hopen, if_neg (by decide), if_pos rfl, walk] at h
      cases h
    · rw [walk, hopen, if_neg (by decide), if_neg (by decide), if_pos rfl, walk] at h
      cases h
  rw [not_or] at hdots
  rw [walk_last hopen hdots.1 hdots.2] at h
  split at h
  · rcases hchild : d.child? here last with kind | _ | m
    · rw [hchild] at h
      cases h
    · rw [hchild] at h
      cases h
      obtain ⟨hshort, hnone⟩ := child?_eq_ok.mp hchild
      refine .inl ⟨rfl, rfl, rfl, fun _ => ⟨hopen, hdots.1, hdots.2, hshort, fun n hn => ?_⟩⟩
      cases hnone.symm.trans hn
    · rw [hchild] at h
      simp only at h
      split at h
      · next target hentry =>
        split at h
        · cases h
        · next fewer =>
          exact .inr ⟨Route.ofPath target, fewer, rfl,
            hop_eq_ok_iff.mpr ⟨hopen, .link hdots.1 hdots.2 hchild hentry⟩, h⟩
      · next hlink =>
        cases h
        obtain ⟨hshort, hm⟩ := child?_eq_ok.mp hchild
        refine .inl ⟨rfl, rfl, rfl, fun _ => ⟨hopen, hdots.1, hdots.2, hshort, ?_⟩⟩
        intro n hn target hentry
        cases hm.symm.trans hn
        exact hlink target hentry
  · next hstays =>
    cases h
    exact .inl ⟨rfl, rfl, rfl, fun hgoes => absurd hgoes hstays⟩

/-- A slash that is behind the names stays behind those of the links. -/
theorem slash_of_walk (h : d.walk f links at' true names = .ok (.name dir name slash)) :
    slash = true := by
  induction links using Nat.strongRecOn generalizing at' names with
  | _ links ih =>
    rcases List.eq_nil_or_concat names with rfl | ⟨front, last, rfl⟩
    · rw [walk] at h
      cases h
    · rw [List.concat_eq_append] at h
      obtain ⟨here, left, hway, ⟨-, -, hslash, -⟩ | ⟨r, fewer, rfl, -, h⟩⟩ := walk_eq_ok_name h
      · exact hslash
      · have hleft := left_le_of_approach hway
        exact ih fewer (by omega) h

theorem Arrives.walk (h : Arrives d dir name links at' names) (hfinal : Final d dir name)
    (hf : f.goesOn false = true) :
    d.walk f links at' false names = .ok (.name dir name false) := by
  induction h with
  | name hway =>
    rw [walk_append _ (List.cons_ne_nil _ _), hway, Except.bind,
      walk_last hfinal.opens hfinal.dot hfinal.up, if_pos hf, hfinal.child?]
    cases hlookup : (d.names dir).lookup name with
    | none => rfl
    | some m =>
      simp only
      split
      · next target hentry => exact absurd hentry (hfinal.unlinked m hlookup target)
      · rfl
  | link hway hhop hslash _ ih =>
    rw [walk_append _ (List.cons_ne_nil _ _), hway, Except.bind]
    obtain ⟨hopen, hgoes⟩ := hop_eq_ok_iff.mp hhop
    cases hgoes with
    | link hdot hup hchild hentry =>
      rw [walk_last hopen hdot hup, if_pos hf, hchild]
      simp only [hentry, hslash, Bool.or_false]
      exact ih

theorem reach_of_arrives (hfinal : Final d dir name) (hchild : d.child? dir name = .ok (some n))
    (h : Arrives d dir name links at' names) : d.reach links at' false names = .ok n := by
  rw [reach, h.walk hfinal rfl, Except.bind, occupant, hchild]
  rfl

theorem arrives_of_walk (hf : f.goesOn false = true)
    (h : d.walk f links at' false names = .ok (.name dir name false)) :
    Final d dir name ∧ Arrives d dir name links at' names := by
  induction links using Nat.strongRecOn generalizing at' names with
  | _ links ih =>
    rcases List.eq_nil_or_concat names with rfl | ⟨front, last, rfl⟩
    · rw [Disk.walk] at h
      cases h
    · rw [List.concat_eq_append] at h ⊢
      obtain ⟨here, left, hway, ⟨rfl, rfl, -, hfinal⟩ | ⟨r, fewer, rfl, hhop, h⟩⟩ :=
        walk_eq_ok_name h
      · exact ⟨hfinal hf, .name hway⟩
      · have hleft := left_le_of_approach hway
        cases hslash : r.slash with
        | true =>
          rw [hslash] at h
          cases slash_of_walk h
        | false =>
          rw [hslash] at h
          obtain ⟨hfinal, harrives⟩ := ih fewer (by omega) h
          exact ⟨hfinal, .link hway hhop hslash harrives⟩

/-- Where a path comes to a name, whatever it does at a slash. -/
theorem place_eq_ok_name (hf : f.goesOn false = true) :
    d.place f path = .ok (.name dir name false) ↔
      checkPath path = .ok () ∧ (Route.ofPath path).slash = false ∧ Final d dir name ∧
        Arrives d dir name maxLinks (d.start path) (Route.ofPath path).names := by
  rw [place_eq]
  constructor
  · intro h
    obtain ⟨_, hcheck, hwalk⟩ := bind_eq_ok.mp h
    cases hslash : (Route.ofPath path).slash with
    | true =>
      rw [hslash] at hwalk
      cases slash_of_walk hwalk
    | false =>
      rw [hslash] at hwalk
      exact ⟨hcheck, rfl, arrives_of_walk hf hwalk⟩
  · rintro ⟨hcheck, hslash, hfinal, harrives⟩
    rw [hcheck, hslash]
    exact harrives.walk hfinal hf

/-- A walk that stops at a slash and one that goes on come to the same name. -/
theorem place_bareNames : d.place .bareNames path = .ok (.name dir name false) ↔
    d.place .always path = .ok (.name dir name false) := by
  rw [place_eq_ok_name rfl, place_eq_ok_name rfl]

theorem find_of_place (hplace : d.place .always path = .ok (.name dir name false))
    (hchild : d.child? dir name = .ok (some n)) : d.find path = .ok n := by
  rw [find, hplace, Except.bind, occupant, hchild]
  rfl

/-! ## The same name on another disk -/

theorem Arrives.extends (h : Arrives d dir name links at' names) (hext : Extends d e) :
    Arrives e dir name links at' names := by
  induction h with
  | name hway => exact .name (hext.approach hway)
  | link hway hhop hslash _ ih => exact .link (hext.approach hway) (hext.hop hhop) hslash ih

/-- Links that may be followed in addition change nothing. -/
theorem Arrives.add (h : Arrives d dir name links at' names) (more : Nat) :
    Arrives d dir name (links + more) at' names := by
  induction h with
  | name hway => exact .name (approach_add more hway)
  | @link _ _ here left _ _ _ hway hhop hslash _ ih =>
    have hway' := approach_add more hway
    rw [Nat.succ_add] at hway'
    exact .link hway' hhop hslash ih

/-- There is a number of links that is just enough. -/
theorem Arrives.exists_least (h : Arrives d dir name links at' names) :
    ∃ least ≤ links, Arrives d dir name least at' names ∧
      ∀ fewer < least, ¬Arrives d dir name fewer at' names := by
  induction links using Nat.strongRecOn with
  | _ links ih =>
    by_cases hfewer : ∃ fewer < links, Arrives d dir name fewer at' names
    · obtain ⟨fewer, hlt, hfewer⟩ := hfewer
      obtain ⟨least, hle, hleast⟩ := ih fewer hlt hfewer
      exact ⟨least, by omega, hleast⟩
    · exact ⟨links, Nat.le_refl _, h, fun fewer hlt hfewer' => hfewer ⟨fewer, hlt, hfewer'⟩⟩

/-- A name that is come to where it stands. -/
theorem Arrives.here : Arrives d dir name links dir [name] :=
  @Arrives.name d dir name links dir links [] approach_nil

/-- A link that stands there, from where its own names come to the name. -/
theorem Arrives.along {left : Nat} {x : String} {r : Route} (hhop : d.hop at' x = .ok (.along r))
    (hslash : r.slash = false) (h : Arrives d dir name left (r.base at') r.names) :
    Arrives d dir name (left + 1) at' [x] :=
  @Arrives.link d dir name (left + 1) at' at' left [] x r approach_nil hhop hslash h

/-- One name is the one that is come to, or a link. -/
theorem Arrives.singleton {x : String} (h : Arrives d dir name links at' [x]) :
    (dir = at' ∧ name = x) ∨ ∃ r fewer, links = fewer + 1 ∧ d.hop at' x = .ok (.along r) ∧
      r.slash = false ∧ Arrives d dir name fewer (r.base at') r.names := by
  generalize hnames : [x] = names at h
  cases h with
  | name hway =>
    obtain ⟨rfl, hlast⟩ := List.append_inj' (show [] ++ [x] = _ from hnames) rfl
    rw [approach_nil] at hway
    cases hway
    exact .inl ⟨rfl, (List.singleton_inj.mp hlast).symm⟩
  | @link _ _ _ fewer _ _ r hway hhop hslash hrest =>
    obtain ⟨rfl, hlast⟩ := List.append_inj' (show [] ++ [x] = _ from hnames) rfl
    obtain rfl := List.singleton_inj.mp hlast
    rw [approach_nil] at hway
    cases hway
    exact .inr ⟨r, fewer, rfl, hhop, hslash, hrest⟩

/-- What names come to is a name in a directory. -/
theorem WellFormed.isDirectory_of_arrives (hd : WellFormed d) (hdir : d.isDirectory at' = true)
    (h : Arrives d dir name links at' names) : d.isDirectory dir = true := by
  induction h with
  | name hway => exact hd.approach hdir hway
  | link hway _ _ _ ih => exact ih (hd.base (hd.approach hdir hway) _)

/-! ## Opening -/

theorem openForWriting_eq_ok : d.openForWriting path = .ok (n, e) ↔
    d.canOpen = true ∧ ∃ dir name, d.place .bareNames path = .ok (.name dir name false) ∧
      (d.child? dir name = .ok none ∧ d.permits dir .write = true ∧ n = d.entries.size ∧
          e = d.add dir name (.file fileMode []) ∨
        d.child? dir name = .ok (some n) ∧ d.isDirectory n = false ∧
          d.permits n .write = true ∧ e = d) := by
  constructor
  · intro h
    obtain ⟨_, hcheck, h⟩ := bind_eq_ok.mp h
    obtain ⟨_, -, hcan⟩ := bind_eq_ok.mp hcheck
    have hcan' : d.canOpen = true := by
      cases hcan' : d.canOpen with
      | true => rfl
      | false =>
        rw [hcan'] at hcan
        cases hcan
    obtain ⟨p, hplace, h⟩ := bind_eq_ok.mp h
    rcases p with _ | ⟨dir, name, _ | _⟩
    · cases h
    · refine ⟨hcan', dir, name, hplace, ?_⟩
      obtain ⟨_ | m, hchild, h⟩ := bind_eq_ok.mp h
      · obtain ⟨_, hrequire, heq⟩ := map_eq_ok.mp h
        cases heq
        exact .inl ⟨hchild, require_eq_ok.mp hrequire, rfl, rfl⟩
      · simp only at h
        split at h
        · cases h
        · next hdirectory =>
          obtain ⟨_, hrequire, heq⟩ := map_eq_ok.mp h
          cases heq
          exact .inr ⟨hchild, by simpa using hdirectory, require_eq_ok.mp hrequire, rfl⟩
    · cases h
  · rintro ⟨hcan, dir, name, hplace, hfound⟩
    have hcheck : checkPath path = .ok () :=
      ((place_eq_ok_name (f := .bareNames) rfl).mp hplace).1
    rw [openForWriting, checkOpen, hcheck, hcan, hplace]
    rcases hfound with ⟨hchild, hwrite, rfl, rfl⟩ | ⟨hchild, hdirectory, hwrite, rfl⟩
    · simp [Except.bind, Except.map, require, hchild, hwrite]
    · simp [Except.bind, Except.map, require, hchild, hdirectory, hwrite]

/-- What has been there before it is opened. -/
theorem openForWriting_self : d.openForWriting path = .ok (n, d) ↔
    d.canOpen = true ∧ ∃ dir name, d.place .bareNames path = .ok (.name dir name false) ∧
      d.child? dir name = .ok (some n) ∧ d.isDirectory n = false ∧
        d.permits n .write = true := by
  rw [openForWriting_eq_ok]
  constructor
  · rintro ⟨hcan, dir, name, hplace, ⟨-, -, -, heq⟩ | ⟨hchild, hdirectory, hwrite, -⟩⟩
    · -- a disk is not one to which an entry has been added
      have hsize := congrArg (fun d : Disk => d.entries.size) heq
      rw [size_add] at hsize
      omega
    · exact ⟨hcan, dir, name, hplace, hchild, hdirectory, hwrite⟩
  · rintro ⟨hcan, dir, name, hplace, hchild, hdirectory, hwrite⟩
    exact ⟨hcan, dir, name, hplace, .inr ⟨hchild, hdirectory, hwrite, rfl⟩⟩

/-- What has been opened is a file, and the path leads to it. -/
theorem find_of_opened (hd : WellFormed d) (h : d.openForWriting path = .ok (n, d)) :
    d.find path = .ok n ∧ ∃ mode data, d.entry? n = some (.file mode data) := by
  obtain ⟨-, dir, name, hplace, hchild, hdirectory, -⟩ := openForWriting_self.mp h
  have hplace' := place_bareNames.mp hplace
  obtain ⟨-, -, hfinal, -⟩ := (place_eq_ok_name rfl).mp hplace'
  refine ⟨find_of_place hplace' hchild, ?_⟩
  obtain ⟨x, hx⟩ := hd.exists_of_child? hchild
  rw [isDirectory, hx] at hdirectory
  cases x with
  | file mode data => exact ⟨mode, data, hx⟩
  | directory => cases hdirectory
  | link target => exact absurd hx (hfinal.unlinked n (child?_eq_ok.mp hchild).2 target)

/-- A new file may be read and written. -/
theorem permits_add_self {mode parent : Nat} {l : List (String × Nat)}
    (h : d.entry? dir = some (.directory mode parent l)) {a : Access} (ha : a ≠ .search) :
    (d.add dir name (.file fileMode [])).permits d.entries.size a = true := by
  rw [permits, entry?_add_self h, Option.any_some]
  cases a with
  | read => simp [Entry.permits, Entry.mode, fileMode, Access.bit]
  | write => simp [Entry.permits, Entry.mode, fileMode, Access.bit]
  | search => exact absurd rfl ha

/-- A new file is found at every path that came to its name. -/
theorem place_add {mode parent : Nat} {l : List (String × Nat)}
    (h : d.entry? dir = some (.directory mode parent l)) (hfree : d.child? dir name = .ok none)
    (hf : f.goesOn false = true) (hplace : d.place f path = .ok (.name dir name false)) :
    (d.add dir name (.file fileMode [])).place f path = .ok (.name dir name false) ∧
      (d.add dir name (.file fileMode [])).child? dir name = .ok (some d.entries.size) := by
  obtain ⟨hshort, hnone⟩ := child?_eq_ok.mp hfree
  rw [names_of_entry h] at hnone
  have hext := extends_add h hnone (.file fileMode [])
  have hlookup :
      ((d.add dir name (.file fileMode [])).names dir).lookup name = some d.entries.size := by
    rw [lookup_add h (by simp), if_pos ⟨rfl, rfl⟩]
  obtain ⟨hcheck, hslash, hfinal, harrives⟩ := (place_eq_ok_name hf).mp hplace
  refine ⟨(place_eq_ok_name hf).mpr ⟨hcheck, hslash, ?_, ?_⟩,
    child?_eq_ok.mpr ⟨hshort, hlookup⟩⟩
  · refine ⟨hext.permits hfinal.opens, hfinal.dot, hfinal.up, hshort, ?_⟩
    intro n hn target
    cases hlookup.symm.trans hn
    rw [entry?_add_self h]
    exact nofun
  · rw [hext.start_eq]
    exact harrives.extends hext

/-- A name that has an entry is come to as before. -/
theorem Extends.place (hext : Extends d e) (hd : WellFormed d) (hf : f.goesOn false = true)
    (hplace : d.place f path = .ok (.name dir name false))
    (hchild : d.child? dir name = .ok (some n)) :
    e.place f path = .ok (.name dir name false) := by
  obtain ⟨hcheck, hslash, hfinal, harrives⟩ := (place_eq_ok_name hf).mp hplace
  have hlookup := (child?_eq_ok.mp hchild).2
  obtain ⟨x, hx⟩ := hd.exists_of_child? hchild
  obtain ⟨y, hy, hgrows⟩ := hext.entries n x hx
  refine (place_eq_ok_name hf).mpr ⟨hcheck, hslash, ?_, ?_⟩
  · refine ⟨hext.permits hfinal.opens, hfinal.dot, hfinal.up, hfinal.short, ?_⟩
    intro m hm target hentry
    cases (hext.lookup hlookup).symm.trans hm
    cases hy.symm.trans hentry
    cases hgrows
    exact hfinal.unlinked n hlookup target hx
  · rw [hext.start_eq]
    exact harrives.extends hext

theorem Extends.opened (hext : Extends d e) (hd : WellFormed d)
    (h : d.openForWriting path = .ok (n, d)) : e.openForWriting path = .ok (n, e) := by
  obtain ⟨-, mode, data, hentry⟩ := find_of_opened hd h
  obtain ⟨hcan, dir, name, hplace, hchild, hdirectory, hwrite⟩ := openForWriting_self.mp h
  refine openForWriting_self.mpr ⟨by rw [hext.canOpen, hcan], dir, name,
    hext.place hd rfl hplace hchild, hext.child? hchild, ?_, hext.permits hwrite⟩
  rw [hext.isDirectory_eq hentry, hdirectory]

/-- What is opened has been there, or it is made in a directory where the path comes to a
free name. -/
inductive Opened (d : Disk) (path : String) (n : Nat) : Disk → Prop
  | found (h : d.openForWriting path = .ok (n, d)) : Opened d path n d
  | made {dir mode parent : Nat} {name : String} {l : List (String × Nat)}
    (entry : d.entry? dir = some (.directory mode parent l))
    (free : d.child? dir name = .ok none) (final : Final d dir name)
    (place : d.place .always path = .ok (.name dir name false)) (new : n = d.entries.size) :
    Opened d path n (d.add dir name (.file fileMode []))

theorem opened_of_openForWriting (hd : WellFormed d) (h : d.openForWriting path = .ok (n, e)) :
    Opened d path n e := by
  obtain ⟨-, dir, name, hplace, ⟨hfree, -, hn, rfl⟩ | ⟨-, -, -, rfl⟩⟩ :=
    openForWriting_eq_ok.mp h
  · have hplace' := place_bareNames.mp hplace
    obtain ⟨-, -, hfinal, harrives⟩ := (place_eq_ok_name rfl).mp hplace'
    obtain ⟨mode, parent, l, hentry⟩ :=
      exists_of_isDirectory (hd.isDirectory_of_arrives (hd.start path) harrives)
    exact .made hentry hfree hfinal hplace' hn
  · exact .found h

/-- A file that has been opened is opened again. -/
theorem opened_again (hd : WellFormed d) (h : d.openForWriting path = .ok (n, e)) :
    e.openForWriting path = .ok (n, e) := by
  cases opened_of_openForWriting hd h with
  | found h => exact h
  | @made dir mode parent name l hentry hfree _ hplace hn =>
    obtain ⟨hplace', hchild⟩ := place_add hentry hfree rfl (place_bareNames.mpr hplace)
    have hdirectory :
        isDirectory (d.add dir name (.file fileMode [])) d.entries.size = false := by
      rw [isDirectory, entry?_add_self hentry]
      rfl
    rw [hn]
    refine openForWriting_self.mpr ⟨?_, _, _, hplace', hchild, hdirectory,
      permits_add_self hentry (by decide)⟩
    rw [add, setName, setNames_canOpen]
    exact (openForWriting_eq_ok.mp h).1

/-! ## Renaming what leads there -/

/-- Two names of one entry lead to the same. -/
theorem reach_eq_of_child {k : Nat} {source target : String} (hopen : d.permits dir .search = true)
    (hsource : source ≠ "." ∧ source ≠ "..") (htarget : target ≠ "." ∧ target ≠ "..")
    (hk : d.child? dir source = .ok (some k)) (hk' : d.child? dir target = .ok (some k)) :
    d.reach links dir slash [target] = d.reach links dir slash [source] := by
  rw [reach, reach, walk_last hopen hsource.1 hsource.2, walk_last hopen htarget.1 htarget.2, hk,
    hk']
  simp only [Following.goesOn, if_true]
  split
  · rfl
  · simp only [Except.bind, occupant, hk, hk']

section

variable {here k mode parent : Nat} {l : List (String × Nat)} {source target : String}
  (h : d.entry? here = some (.directory mode parent l))
include h

/-- Neither of two names is passed, of which one leads to a file and the other to no
directory. -/
theorem approach_ne_of_arrives {left : Nat} (hd : WellFormed d) (hfinal : Final d dir name)
    (hchild : d.child? dir name = .ok (some n)) (hfile : d.isDirectory n = false)
    (harrives : Arrives d dir name left here [source])
    (hleaf : ∀ links way, d.approach links here [target] ≠ .ok way) (links : Nat) (x : String)
    (rest : List String) (way : Nat × Nat) (hx : x = source ∨ x = target) :
    d.approach links here (x :: rest) ≠ .ok way := by
  intro hway
  rw [← List.singleton_append, approach_append] at hway
  obtain ⟨⟨next, left'⟩, hway, -⟩ := bind_eq_ok.mp hway
  obtain rfl | rfl := hx
  · -- the file would be the directory that the walk goes on from
    obtain rfl := eq_of_reach_of_approach hway (reach_of_arrives hfinal hchild harrives)
    rw [hd.approach (isDirectory_of_entry h) hway] at hfile
    cases hfile
  · exact hleaf links _ hway

section

variable (havoid : ∀ links x rest way, x = source ∨ x = target →
  d.approach links here (x :: rest) ≠ .ok way)
include havoid

theorem approach_moved {way : Nat × Nat} (hway : d.approach links at' names = .ok way) :
    (d.moved here source target k).approach links at' names = .ok way :=
  approach_congr (fun at' x => at' = here ∧ (x = source ∨ x = target))
    (fun _ _ _ hne hhop => hop_moved h hne hhop)
    (fun links _ x rest way ⟨hat, hx⟩ => hat ▸ havoid links x rest way hx) hway

/-- Names come to the same name where they do not come by the two that change. -/
theorem Arrives.moved {bound : Nat}
    (hlast : ∀ links < bound, ∀ x, x = source ∨ x = target →
      ¬Arrives d dir name links here [x])
    (harrives : Arrives d dir name links at' names) (hlinks : links < bound) :
    Arrives (d.moved here source target k) dir name links at' names := by
  induction harrives with
  | name hway => exact .name (approach_moved h havoid hway)
  | @link _ _ at'' left _ last _ hway hhop hslash hrest ih =>
    have hleft := left_le_of_approach hway
    have hne : ¬(at'' = here ∧ (last = source ∨ last = target)) := by
      rintro ⟨rfl, hchanged⟩
      exact hlast (left + 1) (by omega) last hchanged
        (.along hhop hslash hrest)
    exact .link (approach_moved h havoid hway) (hop_moved h hne hhop) hslash (ih (by omega))

end

theorem child?_moved_self (hshort : target.utf8ByteSize ≤ maxName) :
    (d.moved here source target k).child? here target = .ok (some k) :=
  child?_eq_ok.mpr ⟨hshort, by rw [lookup_moved h, if_pos ⟨rfl, rfl⟩]⟩

theorem child?_moved (hne : ¬(dir = here ∧ (name = source ∨ name = target)))
    (hchild : d.child? dir name = .ok (some n)) :
    (d.moved here source target k).child? dir name = .ok (some n) := by
  obtain ⟨hshort, hn⟩ := child?_eq_ok.mp hchild
  refine child?_eq_ok.mpr ⟨hshort, ?_⟩
  rw [lookup_moved h, if_neg fun heq => hne ⟨heq.1, .inr heq.2⟩,
    if_neg fun heq => hne ⟨heq.1, .inl heq.2⟩, hn]

/-- A walk comes to its end at a file, whatever name the file has. -/
theorem final_moved {dir' : Nat} {name' : String} (hd : WellFormed d) (hfinal : Final d dir name)
    (hchild : d.child? dir name = .ok (some n)) (hfile : d.isDirectory n = false)
    (hopen : d.permits dir' .search = true) (hdot : name' ≠ ".") (hup : name' ≠ "..")
    (hchild' : (d.moved here source target k).child? dir' name' = .ok (some n)) :
    Final (d.moved here source target k) dir' name' := by
  obtain ⟨hshort, hn⟩ := child?_eq_ok.mp hchild'
  obtain ⟨x, hx⟩ := hd.exists_of_child? hchild
  refine ⟨by rw [permits_moved h, hopen], hdot, hup, hshort, ?_⟩
  intro m hm link hentry
  cases hn.symm.trans hm
  rw [isDirectory, hx] at hfile
  rw [entry?_moved_of_ne h hfile hx] at hentry
  cases hentry
  exact hfinal.unlinked n (child?_eq_ok.mp hchild).2 link hx

/-- The new name leads to the file that the old one led to, unless it led there itself. -/
theorem reach_moved {left : Nat} (hd : WellFormed d) (hdot : target ≠ ".") (hup : target ≠ "..")
    (hshort : target.utf8ByteSize ≤ maxName) (hk : d.child? here source = .ok (some k))
    (hfinal : Final d dir name) (hchild : d.child? dir name = .ok (some n))
    (hfile : d.isDirectory n = false) (harrives : Arrives d dir name left here [source])
    (havoid : ∀ links x rest way, x = source ∨ x = target →
      d.approach links here (x :: rest) ≠ .ok way)
    (hother : ¬Arrives d dir name left here [target]) :
    (d.moved here source target k).reach left here false [target] = .ok n := by
  have hnamed : (d.moved here source target k).child? here target = .ok (some k) :=
    child?_moved_self h hshort
  -- with as few links to follow as it needs, the walk does not come by `source` again
  obtain ⟨least, hleast, harrives, hmin⟩ := harrives.exists_least
  rcases harrives.singleton with ⟨rfl, rfl⟩ | ⟨r, fewer, rfl, hhop, hslash, hrest⟩
  · cases hk.symm.trans hchild
    exact reach_of_arrives (final_moved h hd hfinal hchild hfile hfinal.opens hdot hup hnamed)
      hnamed .here
  · obtain ⟨hopen, hgoes⟩ := hop_eq_ok_iff.mp hhop
    cases hgoes with
    | @link _ t _ _ _ hk' hlink =>
      cases hk.symm.trans hk'
      have hhop' :
          (d.moved here source target k).hop here target = .ok (.along (Route.ofPath t)) :=
        hop_eq_ok_iff.mpr ⟨by rw [permits_moved h, hopen],
          .link hdot hup hnamed (entry?_moved_of_ne h rfl hlink)⟩
      have hne : ¬(dir = here ∧ (name = source ∨ name = target)) := by
        rintro ⟨rfl, rfl | rfl⟩
        · exact hfinal.unlinked k (child?_eq_ok.mp hk).2 t hlink
        · exact hother .here
      have hlast (links : Nat) (hlt : links < fewer + 1) (x : String)
          (hx : x = source ∨ x = target) : ¬Arrives d dir name links here [x] := by
        intro hcomes
        obtain rfl | rfl := hx
        · exact hmin links hlt hcomes
        · have hmore := hcomes.add (left - links)
          rw [Nat.add_sub_cancel' (by omega)] at hmore
          exact hother hmore
      have hrest' : Arrives (d.moved here source target k) dir name (fewer + 1) here [target] :=
        .along hhop' hslash (hrest.moved h havoid hlast (Nat.lt_succ_self fewer))
      have hmore := hrest'.add (left - (fewer + 1))
      rw [Nat.add_sub_cancel' hleast] at hmore
      have hchild' : (d.moved here source target k).child? dir name = .ok (some n) :=
        child?_moved h hne hchild
      exact reach_of_arrives
        (final_moved h hd hfinal hchild hfile hfinal.opens hfinal.dot hfinal.up hchild') hchild'
        hmore

end

end Disk
end PageServer
