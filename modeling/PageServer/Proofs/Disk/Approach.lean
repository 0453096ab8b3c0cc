import PageServer.Disk.Tree

/-!
# The way to a directory

A walk along a path passes every name but the last in the same manner, whatever it does
where it ends.  So the way there is a walk of its own, which can be cut in two, and which
leads, where it is taken to its end, to the directory that it ends in.
-/

namespace PageServer

theorem bind_eq_ok {ε α β : Type} {x : Except ε α} {f : α → Except ε β} {b : β} :
    x.bind f = .ok b ↔ ∃ a, x = .ok a ∧ f a = .ok b := by
  cases x <;> simp [Except.bind]

theorem map_eq_ok {ε α β : Type} {x : Except ε α} {f : α → β} {b : β} :
    x.map f = .ok b ↔ ∃ a, x = .ok a ∧ f a = b := by
  cases x <;> simp [Except.map]

namespace Disk

theorem require_eq_ok {d : Disk} {n : Nat} {a : Access} {u : Unit} :
    d.require n a = .ok u ↔ d.permits n a = true := by
  rw [require]
  split <;> simp [*]

/-- What a name leads on to. -/
inductive Hop
  | to (dir : Nat)
  | along (target : Route)
  deriving DecidableEq

/-- Where a walk goes on behind a name in a directory. -/
def hop (d : Disk) (dir : Nat) (name : String) : Except IoErrorKind Hop :=
  if !d.permits dir .search then .error .permissionDenied
  else if name = "." then .ok (.to dir)
  else if name = ".." then .ok (.to (d.parent dir))
  else match d.child? dir name with
    | .error e => .error e
    | .ok none => .error .notFound
    | .ok (some n) => match d.entry? n with
      | some (.link target) => .ok (.along (Route.ofPath target))
      | e => if e.any (·.isDirectory) then .ok (.to n) else .error .notADirectory

/-- Where a route begins, seen from a directory. -/
def Route.base (r : Route) (dir : Nat) : Nat :=
  if r.absolute then 0 else dir

/-- The directory that names lead to, and the links that may still be followed. -/
def approach (d : Disk) (links dir : Nat) : List String → Except IoErrorKind (Nat × Nat)
  | [] => .ok (dir, links)
  | name :: rest => match d.hop dir name with
    | .error e => .error e
    | .ok (.to dir) => d.approach links dir rest
    | .ok (.along r) => match links with
      | 0 => .error .filesystemLoop
      | links + 1 => d.approach links (r.base dir) (r.names ++ rest)
termination_by l => (links, l.length)

variable {d : Disk} {f : Following} {links dir : Nat} {slash : Bool} {name : String}
  {rest : List String}

/-- A walk that has names left behind this one. -/
theorem walk_cons (hrest : rest ≠ []) :
    d.walk f links dir slash (name :: rest) = match d.hop dir name with
      | .error e => .error e
      | .ok (.to next) => d.walk f links next slash rest
      | .ok (.along r) => match links with
        | 0 => .error .filesystemLoop
        | links + 1 => d.walk f links (r.base dir) slash (r.names ++ rest) := by
  have hempty : rest.isEmpty = false := by simpa using hrest
  rw [walk, hop]
  simp only [hempty, Bool.false_and, Bool.or_false, Bool.false_eq_true, if_false]
  split
  · rfl
  · split
    · rfl
    · split
      · rfl
      · cases d.child? dir name with
        | error e => rfl
        | ok child =>
          cases child with
          | none => rfl
          | some n =>
            simp only
            rcases d.entry? n with _ | _ | _ | target
            · rfl
            · rfl
            · rfl
            · cases links <;> rfl

theorem permits_of_walk {p : Place} (h : d.walk f links dir slash (name :: rest) = .ok p) :
    d.permits dir .search = true := by
  by_cases hopen : d.permits dir .search = true
  · exact hopen
  · rw [walk, if_pos (by simpa using hopen)] at h
    cases h

/-! ## What the last name leads to -/

/-- A last name that stands for no directory of its own. -/
theorem walk_last (hopen : d.permits dir .search = true) (hdot : name ≠ ".") (hup : name ≠ "..") :
    d.walk f links dir slash [name] =
      if f.goesOn slash then match d.child? dir name with
        | .error e => .error e
        | .ok none => .ok (.name dir name slash)
        | .ok (some n) => match d.entry? n with
          | some (.link target) => match links with
            | 0 => .error .filesystemLoop
            | links + 1 =>
              let r := Route.ofPath target
              d.walk f links (r.base dir) (slash || r.slash) r.names
          | _ => .ok (.name dir name slash)
      else .ok (.name dir name slash) := by
  rw [walk, hopen, if_neg (by decide), if_neg hdot, if_neg hup]
  cases f.goesOn slash with
  | false => rfl
  | true =>
    simp only [List.isEmpty_nil, Bool.not_true, Bool.and_false, Bool.false_eq_true, if_false,
      if_true, Bool.true_and, List.append_nil]
    rcases d.child? dir name with e | _ | n
    · rfl
    · rfl
    · simp only
      rcases d.entry? n with _ | _ | _ | target
      · rfl
      · rfl
      · rfl
      · cases links <;> rfl

/-- The entry that names lead to. -/
def reach (d : Disk) (links dir : Nat) (slash : Bool) (names : List String) :
    Except IoErrorKind Nat :=
  (d.walk .always links dir slash names).bind d.occupant

theorem reach_nil : d.reach links dir slash [] = .ok dir := by
  rw [reach, walk]
  rfl

/-- A last name that is no link. -/
theorem reach_last {n : Nat} (hopen : d.permits dir .search = true) (hdot : name ≠ ".")
    (hup : name ≠ "..") (hchild : d.child? dir name = .ok (some n))
    (hentry : ∀ target, d.entry? n ≠ some (.link target)) :
    d.reach links dir slash [name] =
      if slash && !d.isDirectory n then .error .notADirectory else .ok n := by
  have hwalk : d.walk .always links dir slash [name] = .ok (.name dir name slash) := by
    rw [walk_last hopen hdot hup, hchild]
    simp only [Following.goesOn, if_true]
  rw [reach, hwalk]
  simp only [Except.bind, occupant, hchild]

theorem hop_dot (hopen : d.permits dir .search = true) : d.hop dir "." = .ok (.to dir) := by
  rw [hop, hopen]
  rfl

theorem hop_up (hopen : d.permits dir .search = true) :
    d.hop dir ".." = .ok (.to (d.parent dir)) := by
  rw [hop, hopen]
  rfl

/-- What it takes for a walk to go on behind a name. -/
inductive Goes (d : Disk) (dir : Nat) : String → Hop → Prop
  | here : Goes d dir "." (.to dir)
  | up : Goes d dir ".." (.to (d.parent dir))
  | down {name : String} {n : Nat} (hdot : name ≠ ".") (hup : name ≠ "..")
    (child : d.child? dir name = .ok (some n)) (directory : d.isDirectory n = true) :
    Goes d dir name (.to n)
  | link {name target : String} {n : Nat} (hdot : name ≠ ".") (hup : name ≠ "..")
    (child : d.child? dir name = .ok (some n)) (entry : d.entry? n = some (.link target)) :
    Goes d dir name (.along (Route.ofPath target))

theorem hop_eq_ok_iff {h : Hop} :
    d.hop dir name = .ok h ↔ d.permits dir .search = true ∧ Goes d dir name h := by
  constructor
  · intro hhop
    rw [hop] at hhop
    split at hhop
    · cases hhop
    · next hopen =>
      refine ⟨by simpa using hopen, ?_⟩
      split at hhop
      · next hdot =>
        cases hhop
        rw [hdot]
        exact .here
      · next hdot =>
        split at hhop
        · next hup =>
          cases hhop
          rw [hup]
          exact .up
        · next hup =>
          rcases hchild : d.child? dir name with e | _ | n
          · simp [hchild] at hhop
          · simp [hchild] at hhop
          · simp only [hchild] at hhop
            rcases hentry : d.entry? n with _ | _ | _ | target
            · simp [hentry] at hhop
            · simp [hentry, Entry.isDirectory] at hhop
            · simp only [hentry, Option.any_some, Entry.isDirectory, if_true,
                Except.ok.injEq] at hhop
              rw [← hhop]
              exact .down hdot hup hchild (by rw [isDirectory, hentry]; rfl)
            · simp only [hentry, Except.ok.injEq] at hhop
              rw [← hhop]
              exact .link hdot hup hchild hentry
  · rintro ⟨hopen, hgoes⟩
    cases hgoes with
    | here => exact hop_dot hopen
    | up => exact hop_up hopen
    | down hdot hup hchild hdirectory =>
      rw [hop, hopen, if_neg (by decide), if_neg hdot, if_neg hup, hchild]
      simp only
      split
      · next target hentry =>
        rw [isDirectory, hentry] at hdirectory
        cases hdirectory
      · exact if_pos hdirectory
    | link hdot hup hchild hentry =>
      rw [hop, hopen, if_neg (by decide), if_neg hdot, if_neg hup, hchild]
      simp only [hentry]

/-- No walk goes on behind a name that is not there. -/
theorem hop_ne_of_free (hdot : name ≠ ".") (hup : name ≠ "..")
    (hfree : ∀ n, d.child? dir name ≠ .ok (some n)) (next : Hop) : d.hop dir name ≠ .ok next := by
  intro hhop
  cases (hop_eq_ok_iff.mp hhop).2 with
  | here => exact hdot rfl
  | up => exact hup rfl
  | down _ _ hchild _ => exact hfree _ hchild
  | link _ _ hchild _ => exact hfree _ hchild

theorem reach_to {next : Nat} (h : d.hop dir name = .ok (.to next)) :
    d.reach links dir slash (name :: rest) = d.reach links next slash rest := by
  cases rest with
  | cons second rest => rw [reach, walk_cons (List.cons_ne_nil _ _), h]; rfl
  | nil =>
    obtain ⟨hopen, hgoes⟩ := hop_eq_ok_iff.mp h
    rw [reach_nil]
    cases hgoes with
    | here =>
      rw [reach, walk, hopen, if_neg (by decide), if_pos rfl, walk]
      rfl
    | up =>
      rw [reach, walk, hopen, if_neg (by decide), if_neg (by decide), if_pos rfl, walk]
      rfl
    | down hdot hup hchild hdirectory =>
      have hentry (target : String) : d.entry? next ≠ some (.link target) := by
        intro heq
        rw [isDirectory, heq] at hdirectory
        cases hdirectory
      rw [reach_last hopen hdot hup hchild hentry, hdirectory]
      simp

theorem walk_along {r : Route} (h : d.hop dir name = .ok (.along r)) :
    d.walk .always links dir slash (name :: rest) = match links with
      | 0 => .error .filesystemLoop
      | links + 1 =>
        d.walk .always links (r.base dir) (slash || rest.isEmpty && r.slash) (r.names ++ rest) := by
  cases rest with
  | cons second rest =>
    rw [walk_cons (List.cons_ne_nil _ _), h]
    cases links with
    | zero => rfl
    | succ links => simp
  | nil =>
    obtain ⟨hopen, hgoes⟩ := hop_eq_ok_iff.mp h
    cases hgoes with
    | link hdot hup hchild hentry =>
      rw [walk_last hopen hdot hup, hchild]
      simp only [Following.goesOn, if_true, hentry]
      cases links with
      | zero => rfl
      | succ links => simp

theorem reach_along {r : Route} (h : d.hop dir name = .ok (.along r)) :
    d.reach links dir slash (name :: rest) = match links with
      | 0 => .error .filesystemLoop
      | links + 1 =>
        d.reach links (r.base dir) (slash || rest.isEmpty && r.slash) (r.names ++ rest) := by
  rw [reach, walk_along h]
  cases links <;> rfl

/-- The directory where the walk along a path begins. -/
def start (d : Disk) (path : String) : Nat :=
  (Route.ofPath path).base d.here

theorem place_eq (d : Disk) (f : Following) (path : String) :
    d.place f path = (checkPath path).bind fun _ =>
      d.walk f maxLinks (d.start path) (Route.ofPath path).slash (Route.ofPath path).names :=
  rfl

theorem find_eq (d : Disk) (path : String) :
    d.find path = (checkPath path).bind fun _ =>
      d.reach maxLinks (d.start path) (Route.ofPath path).slash (Route.ofPath path).names := by
  rw [find, place_eq]
  cases checkPath path <;> rfl

/-! ## Cutting the way in two -/

theorem approach_nil : d.approach links dir [] = .ok (dir, links) := by
  rw [approach]

theorem approach_cons : d.approach links dir (name :: rest) = match d.hop dir name with
    | .error e => .error e
    | .ok (.to next) => d.approach links next rest
    | .ok (.along r) => match links with
      | 0 => .error .filesystemLoop
      | links + 1 => d.approach links (r.base dir) (r.names ++ rest) := by
  rw [approach]

theorem hop_of_approach_cons {way : Nat × Nat}
    (hway : d.approach links dir (name :: rest) = .ok way) : ∃ next, d.hop dir name = .ok next := by
  rw [approach_cons] at hway
  cases hhop : d.hop dir name with
  | error kind =>
    rw [hhop] at hway
    cases hway
  | ok next => exact ⟨next, rfl⟩

theorem approach_append (front : List String) :
    d.approach links dir (front ++ rest) =
      (d.approach links dir front).bind fun r => d.approach r.2 r.1 rest := by
  -- a link puts its names in front of those that are left, so the cut stays behind them
  fun_induction approach d links dir front with
  | case1 => rfl
  | case2 links dir name front e hhop => rw [List.cons_append, approach_cons, hhop]; rfl
  | case3 links dir name front next hhop ih => rw [List.cons_append, approach_cons, hhop]; exact ih
  | case4 dir name front r hhop => rw [List.cons_append, approach_cons, hhop]; rfl
  | case5 dir name front r hhop links ih =>
    rw [List.cons_append, approach_cons, hhop]
    rw [List.append_assoc] at ih
    exact ih

/-- A walk takes the way to all names but the last ones. -/
theorem walk_append (front : List String) (hrest : rest ≠ []) :
    d.walk f links dir slash (front ++ rest) =
      (d.approach links dir front).bind fun r => d.walk f r.2 r.1 slash rest := by
  fun_induction approach d links dir front with
  | case1 => rfl
  | case2 links dir name front e hhop =>
    rw [List.cons_append, walk_cons (by simp [hrest]), hhop]
    rfl
  | case3 links dir name front next hhop ih =>
    rw [List.cons_append, walk_cons (by simp [hrest]), hhop]
    exact ih
  | case4 dir name front r hhop =>
    rw [List.cons_append, walk_cons (by simp [hrest]), hhop]
    rfl
  | case5 dir name front r hhop links ih =>
    rw [List.cons_append, walk_cons (by simp [hrest]), hhop]
    rw [List.append_assoc] at ih
    exact ih

theorem reach_append (front : List String) (hrest : rest ≠ []) :
    d.reach links dir slash (front ++ rest) =
      (d.approach links dir front).bind fun r => d.reach r.2 r.1 slash rest := by
  rw [reach, walk_append front hrest]
  cases d.approach links dir front <;> rfl

/-- A tree in which every directory has one above it, and every name that is given has an
entry. -/
structure WellFormed (d : Disk) : Prop where
  root : d.isDirectory 0 = true
  here : d.isDirectory d.here = true
  parent : ∀ n, d.isDirectory n = true → d.isDirectory (d.parent n) = true
  named : ∀ dir name n, (d.names dir).lookup name = some n → n < d.entries.size

theorem WellFormed.base (h : WellFormed d) (hdir : d.isDirectory dir = true) (r : Route) :
    d.isDirectory (r.base dir) = true := by
  rw [Route.base]
  split
  · exact h.root
  · exact hdir

theorem WellFormed.start (h : WellFormed d) (path : String) :
    d.isDirectory (d.start path) = true :=
  h.base h.here _

theorem WellFormed.hop (h : WellFormed d) (hdir : d.isDirectory dir = true) {next : Nat}
    (hhop : d.hop dir name = .ok (.to next)) : d.isDirectory next = true := by
  cases (hop_eq_ok_iff.mp hhop).2 with
  | here => exact hdir
  | up => exact h.parent dir hdir
  | down _ _ _ hdirectory => exact hdirectory

/-- The way leads to a directory. -/
theorem WellFormed.approach (h : WellFormed d) (hdir : d.isDirectory dir = true)
    {names : List String} {last left : Nat} (hway : d.approach links dir names = .ok (last, left)) :
    d.isDirectory last = true := by
  fun_induction Disk.approach d links dir names with
  | case1 =>
    cases hway
    exact hdir
  | case2 | case4 => cases hway
  | case3 links dir name rest next hhop ih => exact ih (h.hop hdir hhop) hway
  | case5 dir name rest r hhop links ih => exact ih (h.base hdir r) hway

/-- The names of a way, taken as a path, lead to the directory where the way ends. -/
theorem reach_of_approach {names : List String} {last left : Nat}
    (hway : d.approach links dir names = .ok (last, left)) (slash : Bool) :
    d.reach links dir slash names = .ok last := by
  fun_induction Disk.approach d links dir names generalizing slash with
  | case1 =>
    cases hway
    exact reach_nil
  | case2 | case4 => cases hway
  | case3 links dir name rest next hhop ih =>
    rw [reach_to hhop]
    exact ih hway slash
  | case5 dir name rest r hhop links ih =>
    rw [reach_along hhop]
    exact ih hway _

/-- Where names lead to anything, they lead to one entry, however many links may be
followed. -/
theorem eq_of_reach_of_approach {names : List String} {last left more n : Nat}
    (hway : d.approach links dir names = .ok (last, left))
    (hreach : d.reach more dir slash names = .ok n) : n = last := by
  fun_induction Disk.approach d links dir names generalizing slash more with
  | case1 =>
    rw [reach_nil] at hreach
    cases hway
    exact (Except.ok.inj hreach).symm
  | case2 | case4 => cases hway
  | case3 links dir name rest next hhop ih =>
    rw [reach_to hhop] at hreach
    exact ih hway hreach
  | case5 dir name rest r hhop links ih =>
    rw [reach_along hhop] at hreach
    cases more with
    | zero => cases hreach
    | succ more => exact ih hway hreach

theorem approach_unique {names : List String} {last left more last' left' : Nat}
    (h : d.approach links dir names = .ok (last, left))
    (h' : d.approach more dir names = .ok (last', left')) : last' = last :=
  eq_of_reach_of_approach h (reach_of_approach h' false)

/-- Links that may be followed in addition are left at the end. -/
theorem approach_add {names : List String} {last left : Nat} (more : Nat)
    (hway : d.approach links dir names = .ok (last, left)) :
    d.approach (links + more) dir names = .ok (last, left + more) := by
  fun_induction Disk.approach d links dir names with
  | case1 =>
    cases hway
    rw [approach_nil]
  | case2 | case4 => cases hway
  | case3 links dir name rest next hhop ih =>
    rw [approach_cons, hhop]
    exact ih hway
  | case5 dir name rest r hhop links ih =>
    rw [approach_cons, hhop, Nat.succ_add]
    exact ih hway

/-- A way goes on as it did where no name that it passes leads elsewhere. -/
theorem approach_congr {e : Disk} (Changed : Nat → String → Prop)
    (same : ∀ dir name next, ¬Changed dir name → d.hop dir name = .ok next →
      e.hop dir name = .ok next)
    (avoided : ∀ links dir name rest way, Changed dir name →
      d.approach links dir (name :: rest) ≠ .ok way)
    {names : List String} {way : Nat × Nat} (hway : d.approach links dir names = .ok way) :
    e.approach links dir names = .ok way := by
  fun_induction Disk.approach d links dir names with
  | case1 => rwa [approach_nil]
  | case2 | case4 => cases hway
  | case3 links dir name rest next hhop ih =>
    have hunchanged : ¬Changed dir name := fun hchanged =>
      avoided links dir name rest way hchanged (by rw [approach_cons, hhop]; exact hway)
    rw [approach_cons, same dir name _ hunchanged hhop]
    exact ih hway
  | case5 dir name rest r hhop links ih =>
    have hunchanged : ¬Changed dir name := fun hchanged =>
      avoided (links + 1) dir name rest way hchanged (by rw [approach_cons, hhop]; exact hway)
    rw [approach_cons, same dir name _ hunchanged hhop]
    exact ih hway

/-- Links are used up along the way. -/
theorem left_le_of_approach {names : List String} {last left : Nat}
    (hway : d.approach links dir names = .ok (last, left)) : left ≤ links := by
  fun_induction Disk.approach d links dir names with
  | case1 =>
    cases hway
    exact Nat.le_refl _
  | case2 | case4 => cases hway
  | case3 links dir name rest next hhop ih => exact ih hway
  | case5 dir name rest r hhop links ih => exact Nat.le_succ_of_le (ih hway)

/-! ## What names lead to -/

/-- A last name that leads on to nothing leads to an entry only by itself. -/
theorem reach_last_inv {kind : IoErrorKind} (hhop : d.hop dir name = .error kind)
    (hreach : d.reach links dir slash [name] = .ok n) :
    d.permits dir .search = true ∧ name ≠ "." ∧ name ≠ ".." ∧ d.child? dir name = .ok (some n) ∧
      ∀ target, d.entry? n ≠ some (.link target) := by
  by_cases hopen : d.permits dir .search = true
  · have hdot : name ≠ "." := by
      rintro rfl
      rw [hop_dot hopen] at hhop
      cases hhop
    have hup : name ≠ ".." := by
      rintro rfl
      rw [hop_up hopen] at hhop
      cases hhop
    have hlink (m : Nat) (hchild : d.child? dir name = .ok (some m)) (target : String) :
        d.entry? m ≠ some (.link target) := by
      intro hentry
      rw [hop_eq_ok_iff.mpr ⟨hopen, .link hdot hup hchild hentry⟩] at hhop
      cases hhop
    rcases hchild : d.child? dir name with e | _ | m
    · rw [reach, walk_last hopen hdot hup, hchild] at hreach
      cases hreach
    · rw [reach, walk_last hopen hdot hup, hchild] at hreach
      simp [Following.goesOn, Except.bind, occupant, hchild] at hreach
    · rw [reach_last hopen hdot hup hchild (hlink m hchild)] at hreach
      split at hreach
      · cases hreach
      · cases hreach
        exact ⟨hopen, hdot, hup, rfl, hlink n hchild⟩
  · rw [reach, walk, if_pos (by simpa using hopen)] at hreach
    cases hreach

/-- From a directory, names lead to an entry.  They end in a directory or with the name of
an entry, or the last of them is a link, from where they lead on. -/
inductive Leads (d : Disk) : Nat → Nat → Bool → List String → Nat → Prop
  | nil {links dir : Nat} {slash : Bool} : Leads d links dir slash [] dir
  | entry {links dir : Nat} {slash : Bool} {front : List String} {here left : Nat} {last : String}
    {n : Nat} (hway : d.approach links dir front = .ok (here, left))
    (hopen : d.permits here .search = true) (hdot : last ≠ ".") (hup : last ≠ "..")
    (hchild : d.child? here last = .ok (some n))
    (hlink : ∀ target, d.entry? n ≠ some (.link target))
    (hslash : slash = true → d.isDirectory n = true) : Leads d links dir slash (front ++ [last]) n
  | directory {links dir : Nat} {slash : Bool} {front : List String} {here left : Nat}
    {last : String} {next : Nat} (hway : d.approach links dir front = .ok (here, left))
    (hhop : d.hop here last = .ok (.to next)) : Leads d links dir slash (front ++ [last]) next
  | link {links dir : Nat} {slash : Bool} {front : List String} {here left : Nat} {last : String}
    {r : Route} {n : Nat} (hway : d.approach links dir front = .ok (here, left + 1))
    (hhop : d.hop here last = .ok (.along r))
    (h : Leads d left (r.base here) (slash || r.slash) r.names n) :
    Leads d links dir slash (front ++ [last]) n

theorem Leads.reach {names : List String} {n : Nat} (h : Leads d links dir slash names n) :
    d.reach links dir slash names = .ok n := by
  induction h with
  | nil => exact reach_nil
  | entry hway hopen hdot hup hchild hlink hslash =>
    rw [reach_append _ (List.cons_ne_nil _ _), hway, Except.bind,
      reach_last hopen hdot hup hchild hlink, if_neg]
    simpa using hslash
  | directory hway hhop =>
    rw [reach_append _ (List.cons_ne_nil _ _), hway, Except.bind, reach_to hhop, reach_nil]
  | link hway hhop _ ih =>
    rw [reach_append _ (List.cons_ne_nil _ _), hway, Except.bind, reach_along hhop]
    simpa using ih

/-- The names of a link can be more than those that it stands for; but there are fewer
links to follow. -/
theorem leads_of_reach {names : List String} {n : Nat}
    (hreach : d.reach links dir slash names = .ok n) : Leads d links dir slash names n := by
  induction links using Nat.strongRecOn generalizing dir slash names with
  | _ links ih =>
    rcases List.eq_nil_or_concat names with rfl | ⟨front, last, rfl⟩
    · rw [reach_nil] at hreach
      cases hreach
      exact .nil
    · rw [List.concat_eq_append] at hreach ⊢
      rw [reach_append front (List.cons_ne_nil _ _)] at hreach
      obtain ⟨⟨here, left⟩, hway, hreach⟩ := bind_eq_ok.mp hreach
      have hleft := left_le_of_approach hway
      rcases hhop : d.hop here last with kind | next | r
      · obtain ⟨hopen, hdot, hup, hchild, hlink⟩ := reach_last_inv hhop hreach
        refine .entry hway hopen hdot hup hchild hlink fun hslash => ?_
        rw [reach_last hopen hdot hup hchild hlink, hslash] at hreach
        cases hdirectory : d.isDirectory n with
        | true => rfl
        | false =>
          rw [hdirectory] at hreach
          cases hreach
      · rw [reach_to hhop, reach_nil] at hreach
        cases hreach
        exact .directory hway hhop
      · rw [reach_along hhop] at hreach
        cases left with
        | zero => cases hreach
        | succ left =>
          refine .link hway hhop (ih left (by omega) ?_)
          simpa using hreach

end Disk
end PageServer
