import Mathlib
import PageServer.Proofs.Accounts.Drafting
import PageServer.Proofs.Accounts.Settling
import PageServer.Proofs.Accounts.TableText

/-!
# Saving a table

Calls insert names into a table that has been opened, and each save ends as the disk has
it or is broken off by a failure at any step.  The file of the table holds at every moment
the rows before or the rows after the call, and when the call has returned it is opened as
the rows in memory.
-/

namespace PageServer

namespace Disk

theorem applyAll_append (d : Disk) (plan rest : List Change) :
    d.applyAll (plan ++ rest) = match d.applyAll plan with
      | (.ok _, e) => e.applyAll rest
      | (.error kind, e) => (.error kind, e) := by
  induction plan generalizing d with
  | nil => rfl
  | cons change plan ih =>
    rw [List.cons_append, applyAll, applyAll]
    cases d.apply change with
    | error kind => rfl
    | ok e => exact ih e

theorem applyAll_cons {d e : Disk} {change : Change} {rest : List Change} :
    d.applyAll (change :: rest) = (.ok (), e) ↔
      ∃ g, d.apply change = .ok g ∧ g.applyAll rest = (.ok (), e) := by
  rw [applyAll]
  cases d.apply change <;> simp

theorem applyAll_singleton {d e : Disk} {change : Change} :
    d.applyAll [change] = (.ok (), e) ↔ d.apply change = .ok e := by
  rw [applyAll]
  cases d.apply change <;> simp [applyAll]

/-- The directory at `q` is one of those above `path`. -/
inductive Above (path : String) : String → Prop
  | parent {q : String} (h : parentPath? path = some q) : Above path q
  | up {q r : String} (h : Above path q) (hup : parentPath? q = some r) : Above path r

theorem Above.upper {path q : String} (h : Above path q) (hq : q ≠ "") :
    ∃ kept, Upper path q kept := by
  induction h with
  | parent h => exact upper_of_parentPath? h hq
  | @up q r _ hup ih =>
    have hne : q ≠ "" := by
      rintro rfl
      have hnone : parentPath? "" = none := by decide
      cases hnone.symm.trans hup
    obtain ⟨kept, hupper⟩ := ih hne
    exact hupper.parentPath? hne hup

end Disk

namespace Accounts

open Disk

namespace Table

/-- The part of a save that makes the directories above the table. -/
def directoryPlan (t : Table) : List Change :=
  match parentPath? t.path with
  | some up => if up = "" then [] else [.makeDirectories up]
  | none => []

theorem savePlan_eq (t : Table) : t.savePlan = t.directoryPlan ++
    [.create t.draftPath, .append t.draftPath (TableFile.write t.rows),
      .rename t.draftPath t.path] :=
  rfl

/-- What has been done of a save that is broken off before its file is in place. -/
inductive Partial (t : Table) : List Change → Prop
  | start : Partial t []
  | directories {up : String} (h : Above t.path up) : Partial t [.makeDirectories up]
  | created : Partial t (t.directoryPlan ++ [.create t.draftPath])
  | written (n : Nat) : Partial t (t.directoryPlan ++
      [.create t.draftPath, .append t.draftPath ((TableFile.write t.rows).take n)])

theorem partial_directoryPlan (t : Table) : t.Partial t.directoryPlan := by
  rw [directoryPlan]
  split
  · next up hup =>
    split
    · exact .start
    · exact .directories (.parent hup)
  · exact .start

/-- The disk `e` is what a save leaves that is broken off on the way. -/
def Midway (t : Table) (d e : Disk) : Prop :=
  ∃ plan, t.Partial plan ∧ d.applyAll plan = (.ok (), e)

/-- How a save may end: as the disk has it, or broken off by a failure on the way. -/
inductive Saves (t : Table) (d : Disk) : Except ServerError Unit × Disk → Prop
  | whole : Saves t d (t.saveOn d)
  | broken {e : Disk} (h : t.Midway d e) (f : ServerError) : Saves t d (.error f, e)

end Table

variable {d e : Disk} {path : String} {t : Table}

theorem Sited.above (hs : Sited d path) {up : String} (h : Above path up)
    (hmade : d.makeDirectories up = .ok e) : Keeps path d e := by
  by_cases hempty : up = ""
  · rw [Disk.makeDirectories, if_pos hempty] at hmade
    cases hmade
    exact .refl hs
  · obtain ⟨kept, hupper⟩ := h.upper hempty
    exact hs.makeDirectories hupper hmade

theorem Sited.directoryPlan (hs : Sited d t.path) (h : d.applyAll t.directoryPlan = (.ok (), e)) :
    Keeps t.path d e := by
  rw [Table.directoryPlan] at h
  split at h
  · next up hup =>
    split at h
    · cases h
      exact .refl hs
    · exact hs.above (.parent hup) (applyAll_singleton.mp h)
  · cases h
    exact .refl hs

/-- A plan that begins with the directories and goes on with the draft. -/
theorem Sited.planned (hs : Sited d t.path) {rest : List Change} {r : Except IoErrorKind Unit}
    (h : d.applyAll (t.directoryPlan ++ rest) = (r, e)) :
    (∃ kind, r = .error kind ∧ e = d) ∨
      ∃ g, d.applyAll t.directoryPlan = (.ok (), g) ∧ Keeps t.path d g ∧
        g.applyAll rest = (r, e) := by
  rw [applyAll_append] at h
  rcases hmade : d.applyAll t.directoryPlan with ⟨kind | _, g⟩
  · rw [hmade] at h
    cases h
    refine .inl ⟨kind, rfl, ?_⟩
    -- the directories are made at once or not at all
    rw [Table.directoryPlan] at hmade
    split at hmade
    · split at hmade
      · cases hmade
      · rw [applyAll] at hmade
        split at hmade
        · cases hmade
        · cases hmade
          rfl
    · cases hmade
  · rw [hmade] at h
    exact .inr ⟨g, rfl, hs.directoryPlan hmade, h⟩

/-- As long as a save is on the way, nothing of it shows in the table. -/
theorem Sited.midway (hs : Sited d t.path) (h : t.Midway d e) : Keeps t.path d e := by
  obtain ⟨plan, hpartial, happly⟩ := h
  cases hpartial with
  | start =>
    cases happly
    exact .refl hs
  | directories habove => exact hs.above habove (applyAll_singleton.mp happly)
  | created =>
    obtain ⟨kind, hkind, -⟩ | ⟨g, -, hkeeps, hrest⟩ := hs.planned happly
    · cases hkind
    · obtain ⟨_, -, hcreated⟩ := hkeeps.sited.create (applyAll_singleton.mp hrest)
      exact hkeeps.trans hcreated
  | written n =>
    obtain ⟨kind, hkind, -⟩ | ⟨g, -, hkeeps, hrest⟩ := hs.planned happly
    · cases hkind
    · obtain ⟨g', hcreate, hrest⟩ := applyAll_cons.mp hrest
      obtain ⟨_, hdrafted, hcreated⟩ := hkeeps.sited.create hcreate
      obtain ⟨-, hwritten⟩ := hdrafted.append (applyAll_singleton.mp hrest)
      exact hkeeps.trans (hcreated.trans hwritten)

/-- A save that the disk carries out puts the rows into the file, and one that fails has
been on the way. -/
theorem Sited.savePlan (hs : Sited d t.path) {r : Except IoErrorKind Unit}
    (h : d.applyAll t.savePlan = (r, e)) :
    (r = .ok () ∧ Sited e t.path ∧ e.read t.path = .ok (TableFile.write t.rows)) ∨
      ∃ kind, r = .error kind ∧ t.Midway d e := by
  rw [Table.savePlan_eq] at h
  obtain ⟨kind, hr, rfl⟩ | ⟨g, hmade, hkeeps, hrest⟩ := hs.planned h
  · exact .inr ⟨kind, hr, [], .start, rfl⟩
  have hbegun (rest : List Change) : d.applyAll (t.directoryPlan ++ rest) = g.applyAll rest := by
    rw [applyAll_append, hmade]
  rw [applyAll] at hrest
  split at hrest
  · next e₁ hcreate =>
    obtain ⟨n, hdrafted, -⟩ := hkeeps.sited.create hcreate
    rw [applyAll] at hrest
    split at hrest
    · next e₂ happend =>
      obtain ⟨hwritten, -⟩ := hdrafted.append happend
      rw [applyAll] at hrest
      split at hrest
      · next e₃ hrename =>
        cases hrest
        obtain ⟨hsited, hread⟩ := hwritten.rename hrename
        exact .inl ⟨rfl, hsited, hread⟩
      · next kind hrename =>
        cases hrest
        refine .inr ⟨kind, rfl, _, .written (TableFile.write t.rows).length, ?_⟩
        rw [hbegun, List.take_length]
        exact applyAll_cons.mpr ⟨e₁, hcreate, applyAll_singleton.mpr happend⟩
    · next kind happend =>
      cases hrest
      refine .inr ⟨kind, rfl, _, .created, ?_⟩
      rw [hbegun]
      exact applyAll_singleton.mpr hcreate
  · next kind hcreate =>
    cases hrest
    exact .inr ⟨kind, rfl, _, t.partial_directoryPlan, hmade⟩

/-- Whatever a save comes to, it has put the rows into the file, or failed on the way. -/
theorem Sited.saves (hs : Sited d t.path) {saved : Except ServerError Unit × Disk}
    (h : t.Saves d saved) :
    (saved.1 = .ok () ∧ Sited saved.2 t.path ∧
        saved.2.read t.path = .ok (TableFile.write t.rows)) ∨
      ∃ f, saved.1 = .error f ∧ Keeps t.path d saved.2 := by
  cases h with
  | whole =>
    rcases hs.savePlan (Prod.eta _).symm with ⟨hr, hsited, hread⟩ | ⟨kind, hr, hmidway⟩
    · exact .inl ⟨by rw [Table.saveOn, hr]; rfl, hsited, hread⟩
    · exact .inr ⟨.io kind.error, by rw [Table.saveOn, hr]; rfl, hs.midway hmidway⟩
  | broken hmidway f => exact .inr ⟨f, rfl, hs.midway hmidway⟩

/-! ## Calls one after the other -/

/-- What comes of a table that has been opened and of its disk. -/
inductive Reached (path : String) : Table → Disk → Prop
  | opened {t : Table} {d : Disk} (sited : Sited d path) (h : Table.load d path = .ok t) :
    Reached path t d
  | insert {t : Table} {d : Disk} (h : Reached path t d) (name password : String)
    {saved : Except ServerError Unit × Disk} (hsaved : (t.withRow name password).Saves d saved) :
    Reached path (t.settle d name password saved).2.1 (t.settle d name password saved).2.2

/-- What one call does to a table that is opened as it is in memory. -/
theorem settle_spec (hs : Sited d path) (hload : Table.load d path = .ok t) (name password : String)
    {saved : Except ServerError Unit × Disk} (hsaved : (t.withRow name password).Saves d saved) :
    (t.rows.contains name = true ∧ t.settle d name password saved = (.ok false, t, d)) ∨
      (t.rows.contains name = false ∧ saved.1 = .ok () ∧
        t.settle d name password saved = (.ok true, t.withRow name password, saved.2) ∧
        Sited saved.2 path ∧
        saved.2.read path = .ok (TableFile.write (t.withRow name password).rows) ∧
        Table.load saved.2 path = .ok (t.withRow name password)) ∨
      ∃ f, t.rows.contains name = false ∧ saved.1 = .error f ∧
        t.settle d name password saved = (.error f, t, saved.2) ∧ Keeps path d saved.2 := by
  obtain ⟨hpath, -⟩ := (load_eq_ok hs.tree).mp hload
  have hpath' : (t.withRow name password).path = path := hpath
  have hsaves := Sited.saves (t := t.withRow name password) (by rwa [hpath']) hsaved
  rw [hpath'] at hsaves
  rcases t.settle_cases d name password saved with h | ⟨hnew, hok, h⟩ | ⟨f, hnew, hfail, h⟩
  · exact .inl h
  · rcases hsaves with ⟨-, hsited, hread⟩ | ⟨f, hfail, -⟩
    · have hrows := (Table.ascending_load hload).insert name (hashPassword password)
      refine .inr (.inl ⟨hnew, hok, h, hsited, hread, (load_eq_ok hsited.tree).mpr ⟨hpath', ?_⟩⟩)
      exact .inr ⟨_, hread, TableFile.read?_write hrows⟩
    · cases hok.symm.trans hfail
  · rcases hsaves with ⟨hok, -, -⟩ | ⟨f', -, hkeeps⟩
    · cases hok.symm.trans hfail
    · exact .inr (.inr ⟨f, hnew, hfail, h, hkeeps⟩)

theorem Reached.kept (h : Reached path t d) : Sited d path ∧ Table.load d path = .ok t := by
  induction h with
  | opened sited h => exact ⟨sited, h⟩
  | insert _ name password hsaved ih =>
    obtain ⟨hs, hload⟩ := ih
    rcases settle_spec hs hload name password hsaved with
      ⟨-, h⟩ | ⟨-, -, h, hsited, -, hload'⟩ | ⟨f, -, -, h, hkeeps⟩
    · rw [h]
      exact ⟨hs, hload⟩
    · rw [h]
      exact ⟨hsited, hload'⟩
    · rw [h]
      exact ⟨hkeeps.sited, (hkeeps.load hs.tree hload).1⟩

/-- However the calls before went, a call leaves the table and its file in agreement: the
file is opened as the rows in memory, which ascend.  An error says that the name was new
and the save failed, and then neither the rows nor the file have changed; a refusal
changes nothing; and otherwise one row has been added and the file holds the text of all
rows.  A save that stops on the way leaves the file as it was. -/
theorem Reached.opens_as_left (h : Reached path t d) (name password : String)
    {saved : Except ServerError Unit × Disk} (hsaved : (t.withRow name password).Saves d saved)
    {r : Except ServerError Bool} {t' : Table} {e : Disk}
    (hcall : t.settle d name password saved = (r, t', e)) :
    Table.load e path = .ok t' ∧ t'.rows.Ascending ∧
    ((∃ f, r = .error f) ↔ t.rows.contains name = false ∧ ∃ f, saved.1 = .error f) ∧
    ((∃ f, r = .error f) → t' = t ∧ text? e path = text? d path) ∧
    (r = .ok false ↔ t.rows.contains name = true) ∧
    (r = .ok false → t' = t ∧ e = d) ∧
    (r = .ok true → t'.rows.Perm ((name, hashPassword password) :: t.rows) ∧
      text? e path = some (TableFile.write t'.rows)) ∧
    ∀ g, (t.withRow name password).Midway d g →
      Table.load g path = .ok t ∧ text? g path = text? d path := by
  obtain ⟨hs, hload⟩ := h.kept
  have hpath : (t.withRow name password).path = path := ((load_eq_ok hs.tree).mp hload).1
  have hload' : Table.load e path = .ok t' := by
    have hkept := (h.insert name password hsaved).kept.2
    rwa [hcall] at hkept
  have hmidway (g : Disk) (hg : (t.withRow name password).Midway d g) :
      Table.load g path = .ok t ∧ text? g path = text? d path := by
    have hkeeps := Sited.midway (by rwa [hpath]) hg
    rw [hpath] at hkeeps
    exact hkeeps.load hs.tree hload
  refine ⟨hload', Table.ascending_load hload', ?_⟩
  rcases settle_spec hs hload name password hsaved with
    ⟨htaken, h⟩ | ⟨hnew, hok, h, -, hread, -⟩ | ⟨f, hnew, hfail, h, hkeeps⟩
  · cases hcall.symm.trans h
    refine ⟨iff_of_false (by simp) ?_, by simp, iff_of_true rfl htaken, fun _ => ⟨rfl, rfl⟩,
      by simp, hmidway⟩
    rintro ⟨hnew, -⟩
    cases htaken.symm.trans hnew
  · cases hcall.symm.trans h
    refine ⟨iff_of_false (by simp) ?_, by simp, iff_of_false (by simp) (by simp [hnew]), by simp,
      fun _ => ⟨Rows.perm_insert hnew _, ?_⟩, hmidway⟩
    · rintro ⟨-, f, hfail⟩
      cases hok.symm.trans hfail
    · rw [text?, hread]
      rfl
  · cases hcall.symm.trans h
    refine ⟨iff_of_true ⟨f, rfl⟩ ⟨hnew, f, hfail⟩, fun _ => ⟨rfl, ?_⟩,
      iff_of_false (by simp) (by simp [hnew]), by simp, by simp, hmidway⟩
    exact (hkeeps.load hs.tree hload).2

/-- A tree without any directory but its root. -/
theorem wellFormed_of_flat {d : Disk} {mode : Nat} {l : List (String × Nat)}
    (hroot : d.entry? 0 = some (.directory mode 0 l)) (hhere : d.here = 0)
    (honly : ∀ n, d.isDirectory n = true → n = 0)
    (hnamed : ∀ name n, l.lookup name = some n → n < d.entries.size) : WellFormed d := by
  have hdirectory := isDirectory_of_entry hroot
  refine ⟨hdirectory, by rw [hhere, hdirectory], ?_, ?_⟩
  · intro n hn
    rw [honly n hn, parent_of_entry hroot, hdirectory]
  · intro dir name n hname
    obtain ⟨_, _, _, hentry⟩ := exists_of_lookup hname
    obtain rfl := honly dir (isDirectory_of_entry hentry)
    rw [names_of_entry hroot] at hname
    exact hnamed name n hname

/-- A table can be kept on an empty disk. -/
theorem sited_fresh : Sited {} "users.json" where
  tree := by
    refine wellFormed_of_flat rfl rfl ?_ (by simp)
    rintro (_ | n) hn
    · rfl
    · simp [isDirectory, entry?] at hn
  straight := .inl ⟨.name 0 "users.json" false, by cbv⟩
  leaf := by
    intro links way
    have hnames : (Route.ofPath "users.json").names = ["users.json"] := by cbv
    rw [hnames, approach_cons]
    rintro ⟨⟩
  draft := by
    have hopened : ({} : Disk).openForWriting ("users.json" ++ ".tmp") =
        .ok (1, ({} : Disk).add 0 "users.json.tmp" (.file fileMode [])) := by cbv
    rw [hopened]
    rintro n e ⟨⟩
    have hfind : (({} : Disk).add 0 "users.json.tmp" (.file fileMode [])).find "users.json" =
        .error .notFound := by cbv
    rw [hfind]
    refine ⟨by cbv, ?_⟩
    rintro ⟨⟩

/-- A disk where the name of the draft is that of a link, to a file that is not there
yet. -/
def detour : Disk :=
  { entries := #[.directory directoryMode 0 [("users.json.tmp", 1)], .link "spare.json"] }

/-- A table can be kept where its draft goes elsewhere. -/
theorem sited_detour : Sited detour "users.json" where
  tree := by
    refine wellFormed_of_flat rfl rfl ?_ ?_
    · rintro (_ | _ | n) hn
      · rfl
      · cases hn
      · simp [detour, isDirectory, entry?] at hn
    · intro name n hn
      rw [List.lookup_cons, List.lookup_nil] at hn
      split at hn
      · cases hn
        decide
      · cases hn
  straight := .inl ⟨.name 0 "users.json" false, by cbv⟩
  leaf := by
    intro links way
    have hnames : (Route.ofPath "users.json").names = ["users.json"] := by cbv
    have hhop : detour.hop (detour.start "users.json") "users.json" = .error .notFound := by cbv
    rw [hnames, approach_cons, hhop]
    rintro ⟨⟩
  draft := by
    have hopened : detour.openForWriting ("users.json" ++ ".tmp") =
        .ok (2, detour.add 0 "spare.json" (.file fileMode [])) := by cbv
    rw [hopened]
    rintro n e ⟨⟩
    have hfind : (detour.add 0 "spare.json" (.file fileMode [])).find "users.json" =
        .error .notFound := by cbv
    rw [hfind]
    refine ⟨by cbv, ?_⟩
    rintro ⟨⟩

/-- A first call on an empty disk, and one whose draft is written elsewhere. -/
theorem Reached.opens_as_left_first :
    let t : Table := { path := "users.json" }
    ((t.insert {} "k" "v").1 = .ok true ∧
      Table.load (t.insert {} "k" "v").2.2 "users.json" = .ok (t.withRow "k" "v")) ∧
    (t.insert detour "k" "v").1 = .ok true ∧
      Table.load (t.insert detour "k" "v").2.2 "users.json" = .ok (t.withRow "k" "v") := by
  intro t
  have hfirst (d : Disk) (hs : Sited d "users.json") (hload : Table.load d "users.json" = .ok t)
      (hsaved : ((t.withRow "k" "v").saveOn d).1 = .ok ()) :
      (t.insert d "k" "v").1 = .ok true ∧
        Table.load (t.insert d "k" "v").2.2 "users.json" = .ok (t.withRow "k" "v") := by
    have hcall : t.insert d "k" "v" =
        (.ok true, t.withRow "k" "v", ((t.withRow "k" "v").saveOn d).2) := by
      rw [Table.insert_eq_settle, ← Table.settle_saved rfl, ← hsaved]
    have hspec := Reached.opens_as_left (.opened hs hload) "k" "v" .whole
      ((Table.insert_eq_settle t d "k" "v").symm.trans hcall)
    rw [hcall]
    exact ⟨rfl, hspec.1⟩
  exact ⟨hfirst {} sited_fresh (by cbv) (by cbv), hfirst detour sited_detour (by cbv) (by cbv)⟩

/-- A path with a link at every name, one more than a walk follows. -/
def roundabout : String :=
  "/".intercalate (List.replicate (maxLinks + 1) "x")

/-- A link to the directory that it is in. -/
def circular : Disk :=
  { entries := #[.directory directoryMode 0 [("x", 1)], .link "."] }

set_option maxRecDepth 8192 in
/-- A path through a link to its own directory, once too often, has no table.  A save puts
a file in the place of that link, and then the path leads to nothing. -/
theorem insert_circular :
    let t : Table := { path := roundabout }
    Table.load circular t.path = .ok t ∧ (t.insert circular "k" "v").1 = .ok true ∧
      Table.load (t.insert circular "k" "v").2.2 t.path = .ok t := by
  intro t
  let drafted (data : Bytes) : Disk :=
    { entries := #[.directory directoryMode 0 [("x", 1), ("x.tmp", 2)], .link ".",
        .file fileMode data] }
  let saved (data : Bytes) : Disk :=
    { entries := #[.directory directoryMode 0 [("x", 2)], .link ".", .file fileMode data] }
  have hplan : circular.applyAll t.directoryPlan = (.ok (), circular) := by cbv
  have hcreate : circular.apply (.create t.draftPath) = .ok (drafted []) := by cbv
  have happend (data : Bytes) :
      (drafted []).apply (.append t.draftPath data) = .ok (drafted data) := by cbv
  have hrename (data : Bytes) :
      (drafted data).apply (.rename t.draftPath t.path) = .ok (saved data) := by cbv
  have hload (data : Bytes) : Table.load (saved data) t.path = .ok t := by cbv
  have hsaved : (t.withRow "k" "v").saveOn circular =
      (.ok (), saved (TableFile.write (t.withRow "k" "v").rows)) := by
    have happly : circular.applyAll (t.withRow "k" "v").savePlan =
        (.ok (), saved (TableFile.write (t.withRow "k" "v").rows)) := by
      have hdirectories : circular.applyAll (t.withRow "k" "v").directoryPlan =
          (.ok (), circular) := hplan
      rw [Table.savePlan_eq, applyAll_append, hdirectories]
      exact applyAll_cons.mpr ⟨_, hcreate, applyAll_cons.mpr
        ⟨_, happend _, applyAll_singleton.mpr (hrename _)⟩⟩
    rw [Table.saveOn, happly]
    rfl
  have hinsert : t.insert circular "k" "v" = (.ok true, t.withRow "k" "v",
      saved (TableFile.write (t.withRow "k" "v").rows)) := by
    rw [Table.insert_eq_settle, hsaved, Table.settle_saved rfl]
  rw [hinsert]
  exact ⟨by cbv, rfl, hload _⟩

/-- A link under the name of the draft becomes the table, and the row that is told to be
there is in no file; a path that ends in dots leads, when the directory has been made, to
one; and a table that is a link to its draft holds no rows while this is written.  A draft
that may not be read is no table that can be opened, one that is the table's own file is
emptied in its place, and a link that the path goes through gives way to the table. -/
theorem Table.insert_elsewhere :
    let t : Table := { path := "users.json" }
    let dotted : Table := { path := "d/.." }
    let looped : Table := { path := roundabout }
    let d : Disk :=
      { entries := #[.directory directoryMode 0 [("users.json.tmp", 1)], .link "users.json"] }
    let e : Disk :=
      { entries := #[.directory directoryMode 0 [("users.json", 1)], .link "users.json.tmp"] }
    let shut : Disk :=
      { entries := #[.directory directoryMode 0 [("users.json.tmp", 1)], .file 0o200 []] }
    let shared : Disk :=
      { entries := #[.directory directoryMode 0 [("users.json", 1), ("users.json.tmp", 1)],
          .file fileMode (TableFile.write [])] }
    (Table.load d t.path = .ok t ∧ (t.insert d "k" "v").1 = .ok true ∧
      (t.insert d "k" "v").2.1 = t.withRow "k" "v" ∧
      Table.load (t.insert d "k" "v").2.2 t.path = .ok t) ∧
    (Table.load {} dotted.path = .ok dotted ∧
      (dotted.insert {} "k" "v").1 = .error (.io IoErrorKind.resourceBusy.error) ∧
      Table.load (dotted.insert {} "k" "v").2.2 dotted.path = .error (Table.corrupt dotted.path)) ∧
    (Table.load e t.path = .ok t ∧
      Table.load (e.applyAll [.create t.draftPath]).2 t.path = .error (Table.corrupt t.path)) ∧
    (Table.load shut t.path = .ok t ∧ (t.insert shut "k" "v").1 = .ok true ∧
      Table.load (t.insert shut "k" "v").2.2 t.path =
        .error (.io IoErrorKind.permissionDenied.error)) ∧
    (Table.load shared t.path = .ok t ∧
      Table.load (shared.applyAll [.create t.draftPath]).2 t.path =
        .error (Table.corrupt t.path)) ∧
    (Table.load circular looped.path = .ok looped ∧
      (looped.insert circular "k" "v").1 = .ok true ∧
      Table.load (looped.insert circular "k" "v").2.2 looped.path = .ok looped) := by
  refine ⟨⟨?_, ?_, ?_, ?_⟩, ⟨?_, ?_, ?_⟩, ⟨?_, ?_⟩, ⟨?_, ?_, ?_⟩, ⟨?_, ?_⟩, insert_circular⟩ <;> cbv

end Accounts
end PageServer
