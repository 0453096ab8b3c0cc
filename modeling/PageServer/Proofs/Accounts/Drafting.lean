import PageServer.Proofs.Accounts.Site

/-!
# The draft of a table

A draft is opened beside the table, or where a link beside the table leads, and written,
and nothing of that shows in the table.  Then what has the name of the draft takes the
table's name, and what was written is what the table is read from.
-/

namespace PageServer
namespace Accounts

open Disk

/-- The draft of the table at `path` is the file `n`, and holds `data`. -/
structure Drafted (e : Disk) (path : String) (n : Nat) (data : Bytes) : Prop where
  sited : Sited e path
  opened : e.openForWriting (path ++ ".tmp") = .ok (n, e)
  file : ∃ mode, e.entry? n = some (.file mode data)

variable {d e g : Disk} {path last : String} {front : List String} {dir n : Nat}
  {data old : Bytes} {t : Table}

/-- Where a walk to the draft ends that follows no link at its end. -/
theorem Pieces.place_draft_never (h : Pieces path front last) {left : Nat}
    (hsayable : checkPath (path ++ ".tmp") = .ok ())
    (hway : d.approach maxLinks (d.start path) (namesOf front) = .ok (dir, left))
    (hopen : d.permits dir .search = true) :
    d.place .never (path ++ ".tmp") = .ok (.name dir (last ++ ".tmp") false) := by
  obtain ⟨-, hdot, hup⟩ := plain_draft last
  rw [h.place_draft, hsayable, walk_append _ (List.cons_ne_nil _ _), hway]
  exact (walk_never_last hopen).trans (by rw [if_neg hdot, if_neg hup])

/-- Where a walk to the table ends that follows no link at its end. -/
theorem Pieces.place_path_never (h : Pieces path front last) (hplain : Plain last) {left : Nat}
    {u : Unit} (hcheck : checkPath path = .ok u)
    (hway : d.approach maxLinks (d.start path) (namesOf front) = .ok (dir, left))
    (hopen : d.permits dir .search = true) :
    d.place .never path = .ok (.name dir last false) := by
  obtain ⟨-, hdot, hup⟩ := id hplain
  rw [h.place_path hplain, hcheck, Except.bind, walk_append _ (List.cons_ne_nil _ _), hway]
  exact (walk_never_last hopen).trans (by rw [if_neg hdot, if_neg hup])

/-- The directory of the table, and what the name of the draft comes to from there. -/
theorem Pieces.way_of_place (h : Pieces path front last) {at' : Nat} {name : String}
    (hplace : d.place .bareNames (path ++ ".tmp") = .ok (.name at' name false)) :
    ∃ dir left, d.approach maxLinks (d.start path) (namesOf front) = .ok (dir, left) ∧
      d.permits dir .search = true ∧ checkPath (path ++ ".tmp") = .ok () ∧
      Final d at' name ∧ Arrives d at' name left dir [last ++ ".tmp"] := by
  rw [h.place_draft] at hplace
  obtain ⟨_, hsayable, hwalk⟩ := bind_eq_ok.mp hplace
  rw [walk_append _ (List.cons_ne_nil _ _)] at hwalk
  obtain ⟨⟨dir, left⟩, hway, hwalk⟩ := bind_eq_ok.mp hwalk
  exact ⟨dir, left, hway, permits_of_walk hwalk, hsayable, arrives_of_walk rfl hwalk⟩

/-- The name of the table leads to no directory, however many more links may be followed. -/
theorem Pieces.approach_ne (h : Pieces path front last) (hs : Sited d path) (hplain : Plain last)
    {left : Nat} (hway : d.approach maxLinks (d.start path) (namesOf front) = .ok (dir, left))
    (links : Nat) (way : Nat × Nat) : d.approach links dir [last] ≠ .ok way := by
  rcases way with ⟨next, rest⟩
  intro hlast
  refine hs.leaf (maxLinks + links) (next, rest + left) ?_
  rw [h.names_path, namesOf_singleton hplain.1, approach_append, approach_add links hway,
    Except.bind, Nat.add_comm left]
  exact approach_add left hlast

/-- A table can be kept where it has a file, if the name of its draft is free. -/
theorem sited_of_file {left : Nat} (hg : g.WellFormed) (hp : Pieces path front last)
    (hplain : Plain last)
    (hway : g.approach maxLinks (g.start path) (namesOf front) = .ok (dir, left))
    (hopen : g.permits dir .search = true) (hfind : g.find path = .ok n)
    (hfile : g.isDirectory n = false)
    (hgone : (g.names dir).lookup (last ++ ".tmp") = none) : Sited g path := by
  obtain ⟨-, hdot, hup⟩ := plain_draft last
  obtain ⟨_, hcheck, hreach⟩ := bind_eq_ok.mp ((find_eq g path).symm.trans hfind)
  refine ⟨hg, .inl ⟨_, hp.place_path_never hplain hcheck hway hopen⟩, ?_, ?_⟩
  · rintro links ⟨at', left'⟩ hreached
    obtain rfl := eq_of_reach_of_approach hreached hreach
    rw [hg.approach (hg.start path) hreached] at hfile
    cases hfile
  · intro m e hopened
    have hplace {at' : Nat} {name : String}
        (h : g.place .bareNames (path ++ ".tmp") = .ok (.name at' name false)) :
        at' = dir ∧ name = last ++ ".tmp" := by
      obtain ⟨dir', left', hway', -, -, -, harrives⟩ := hp.way_of_place h
      obtain rfl := approach_unique hway hway'
      rcases harrives.singleton with hself | ⟨r, fewer, -, hhop, -⟩
      · exact hself
      · refine absurd hhop (hop_ne_of_free hdot hup (fun k hchild => ?_) _)
        cases hgone.symm.trans (child?_eq_ok.mp hchild).2
    cases opened_of_openForWriting hg hopened with
    | found h =>
      obtain ⟨-, at', name, hfree, hchild, -⟩ := openForWriting_self.mp h
      obtain ⟨rfl, rfl⟩ := hplace hfree
      cases hgone.symm.trans (child?_eq_ok.mp hchild).2
    | made hentry hfree _ _ hnew =>
      rw [hnew]
      refine ⟨permits_add_self hentry nofun, fun hfind' => ?_⟩
      have hnone := (child?_eq_ok.mp hfree).2
      rw [names_of_entry hentry] at hnone
      obtain ⟨x, hx⟩ := hg.exists_of_find hfind
      cases ((extends_add hentry hnone _).find hg hfind).symm.trans hfind'
      exact absurd (lt_of_entry hx) (Nat.lt_irrefl _)

/-! ## Making the draft -/

/-- A table is kept where it was when a file has been opened for its draft. -/
theorem Sited.opened (hs : Sited d path) (h : d.openForWriting (path ++ ".tmp") = .ok (n, e)) :
    Keeps path d e := by
  obtain ⟨hreadable, hother⟩ := hs.draft n e h
  cases opened_of_openForWriting hs.tree h with
  | found => exact .refl hs
  | @made dir mode parent name l hentry hfree hfinal hplace hnew =>
    have hnone := (child?_eq_ok.mp hfree).2
    rw [names_of_entry hentry] at hnone
    have hext := extends_add hentry hnone (.file fileMode [])
    have hagain := opened_again hs.tree h
    have hfound (k : Nat) : (d.add dir name (.file fileMode [])).find path = .ok k ↔
        d.find path = .ok k := by
      refine ⟨fun hfind => ?_, hext.find hs.tree⟩
      -- only where the path led to the free name would it lead to the new file
      rcases find_of_add hs.tree hentry hnone hfinal.dot hfinal.up hfind with hfind | hplace'
      · exact hfind
      · obtain ⟨hplace', hchild⟩ := place_add hentry hfree rfl hplace'
        rw [hnew] at hother
        exact absurd (find_of_place hplace' hchild) hother
    refine ⟨⟨hs.tree.add hentry hnone (by simp), ?_, ?_, ?_⟩, hext.canOpen, hfound, ?_⟩
    · exact hs.straight.imp_left fun ⟨p, hplace⟩ => ⟨p, hext.place_never hplace⟩
    · intro links way hreached
      rw [hext.start_eq] at hreached
      exact hs.leaf links way
        (approach_of_add hs.tree hentry hnone hfinal.dot hfinal.up hreached)
    · intro m g hopened
      cases hagain.symm.trans hopened
      exact ⟨hreadable, hother⟩
    · intro k mode' data _ hk
      have hlt := lt_of_entry hk
      rw [entry?_add hentry, if_neg, if_neg (by omega), hk]
      rintro rfl
      cases hentry.symm.trans hk

/-- Making the draft adds a file beside the table, or finds one there, and empties it. -/
theorem Sited.exists_drafted (hs : Sited d path) (h : d.create (path ++ ".tmp") = .ok e) :
    ∃ g n old, Drafted g path n old ∧ Keeps path d g ∧ e = g.setData n [] := by
  obtain ⟨⟨n, g⟩, hopened, rfl⟩ := map_eq_ok.mp h
  have hkeeps := hs.opened hopened
  have hagain := opened_again hs.tree hopened
  obtain ⟨-, mode, old, hfile⟩ := find_of_opened hkeeps.sited.tree hagain
  exact ⟨g, n, old, ⟨hkeeps.sited, hagain, mode, hfile⟩, hkeeps, rfl⟩

/-! ## Writing it -/

namespace Drafted

theorem setData (h : Drafted e path n old) (data : Bytes) :
    Drafted (e.setData n data) path n data ∧ Keeps path e (e.setData n data) := by
  obtain ⟨mode, hentry⟩ := h.file
  have hs := h.sited
  obtain ⟨hreadable, hother⟩ := hs.draft n e h.opened
  have hext := extends_setData hentry data
  have hback := extends_of_setData hentry data
  have htree := hs.tree.setData hentry data
  have hopened := hext.opened hs.tree h.opened
  have hfound (k : Nat) : (e.setData n data).find path = .ok k ↔ e.find path = .ok k :=
    ⟨hback.find htree, hext.find hs.tree⟩
  have hsited : Sited (e.setData n data) path := by
    refine ⟨htree, ?_, ?_, ?_⟩
    · exact hs.straight.imp_left fun ⟨p, hplace⟩ => ⟨p, hext.place_never hplace⟩
    · intro links way hreached
      rw [hext.start_eq] at hreached
      exact hs.leaf links way (hback.approach hreached)
    · intro m g hopened'
      cases hopened.symm.trans hopened'
      exact ⟨hext.permits hreadable, by rwa [Ne, hfound]⟩
  refine ⟨⟨hsited, hopened, mode, by rw [entry?_setData hentry, if_pos rfl]⟩,
    hsited, hext.canOpen, hfound, ?_⟩
  intro k mode' data' hfind hk
  rw [entry?_setData hentry, if_neg, hk]
  rintro rfl
  exact hother hfind

end Drafted

theorem Sited.create (hs : Sited d path) (h : d.create (path ++ ".tmp") = .ok e) :
    ∃ n, Drafted e path n [] ∧ Keeps path d e := by
  obtain ⟨g, n, old, hdrafted, hkeeps, rfl⟩ := hs.exists_drafted h
  obtain ⟨hemptied, hkeeps'⟩ := hdrafted.setData []
  exact ⟨n, hemptied, hkeeps.trans hkeeps'⟩

namespace Drafted

theorem append (h : Drafted e path n old) (hg : e.append (path ++ ".tmp") data = .ok g) :
    Drafted g path n (old ++ data) ∧ Keeps path e g := by
  obtain ⟨mode, hentry⟩ := h.file
  obtain ⟨hfind, -⟩ := find_of_opened h.sited.tree h.opened
  rw [Disk.append, hfind, Except.bind, readAll, hentry] at hg
  cases hg
  exact h.setData (old ++ data)

/-! ## Putting it in the table's place -/

theorem rename (h : Drafted e path n data)
    (hg : e.rename (path ++ ".tmp") path = .ok g) : Sited g path ∧ g.read path = .ok data := by
  have hs := h.sited
  obtain ⟨mode, hfile⟩ := h.file
  obtain ⟨hreadable, hother⟩ := hs.draft n e h.opened
  obtain ⟨front, last, hp⟩ := exists_pieces path
  obtain ⟨hcan, at', name, hplace, hchild, hdirectory, -⟩ := openForWriting_self.mp h.opened
  obtain ⟨dir, left, hway, hopen, hsayable, hfinal, harrives⟩ := hp.way_of_place hplace
  have hplain := hp.plain hs hway hopen
  obtain ⟨-, hdot, hup⟩ := id hplain
  obtain ⟨u, hcheck⟩ : ∃ u, checkPath path = .ok u := by
    obtain ⟨_, -, hg⟩ := bind_eq_ok.mp hg
    obtain ⟨_, hplace, -⟩ := bind_eq_ok.mp hg
    obtain ⟨u, hcheck, -⟩ := bind_eq_ok.mp hplace
    exact ⟨u, hcheck⟩
  have hfind : e.find path = e.reach left dir false [last] := by
    rw [hp.find_path hplain, hcheck, Except.bind, reach_append _ (List.cons_ne_nil _ _), hway]
    rfl
  obtain ⟨mode', parent, l, hentry⟩ :=
    exists_of_isDirectory (hs.tree.approach (hs.tree.start path) hway)
  obtain ⟨k, hk, ⟨hsame, -⟩ | ⟨hshort, hmoved⟩⟩ :=
    rename_eq_ok hg (hp.place_draft_never hsayable hway hopen)
      (hp.place_path_never hplain hcheck hway hopen)
  · -- both names would be those of one entry, but the path does not lead to the draft
    refine absurd ?_ hother
    rw [hfind, reach_eq_of_child hopen (plain_draft last).2 hplain.2 hk hsame]
    exact reach_of_arrives hfinal hchild harrives
  · have havoid (links : Nat) (x : String) (rest : List String) (way : Nat × Nat)
        (hx : x = last ++ ".tmp" ∨ x = last) : e.approach links dir (x :: rest) ≠ .ok way :=
      approach_ne_of_arrives hentry hs.tree hfinal hchild hdirectory harrives
        (hp.approach_ne hs hplain hway) links x rest way hx
    have hother' : ¬Arrives e at' name left dir [last] := fun hcomes =>
      hother (hfind.trans (reach_of_arrives hfinal hchild hcomes))
    have htree : g.WellFormed := by
      rw [hmoved]
      exact hs.tree.moved hentry (child?_eq_ok.mp hk).2
    have hway' : g.approach maxLinks (g.start path) (namesOf front) = .ok (dir, left) := by
      rw [hmoved, start, moved_here]
      exact approach_moved hentry havoid hway
    have hopen' : g.permits dir .search = true := by rw [hmoved, permits_moved hentry, hopen]
    have hfind' : g.find path = .ok n := by
      rw [hp.find_path hplain, hcheck, Except.bind, reach_append _ (List.cons_ne_nil _ _), hway',
        hmoved]
      exact reach_moved hentry hs.tree hdot hup hshort hk hfinal hchild hdirectory harrives havoid
        hother'
    have hfile' : g.entry? n = some (.file mode data) := by
      rw [hmoved]
      exact entry?_moved_of_ne hentry rfl hfile
    have hgone : (g.names dir).lookup (last ++ ".tmp") = none := by
      rw [hmoved, lookup_moved hentry, if_neg fun heq => ne_draft last heq.2.symm,
        if_pos ⟨rfl, rfl⟩]
    refine ⟨sited_of_file htree hp hplain hway' hopen' hfind' ?_ hgone,
      read_eq_ok.mpr ⟨?_, n, mode, hfind', hfile', ?_⟩⟩
    · rw [hmoved, isDirectory_moved hentry, hdirectory]
    · rw [hmoved, moved_canOpen, hcan]
    · rw [hmoved, permits_moved hentry, hreadable]

end Drafted

end Accounts
end PageServer
