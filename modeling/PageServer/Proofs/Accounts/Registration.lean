import Mathlib
import PageServer.Proofs.Accounts.Settling

/-!
# Registrations side by side

Any number of calls register names and check passwords at the same time, through whatever
handles: all handles are on one table.  A registration looks into the copy for logins,
then inserts into the table, whose lock it holds until the save has ended, and last takes
the name into the copy; between any two of these the other calls go on.  Names that are in
the table and not yet in the copy are those of registrations that have their last part
before them.
-/

namespace PageServer
namespace Accounts

theorem Backend.verify_iff (b : Backend) (name password : String) :
    b.verify name password = true ↔ b.known.digest? name = some (hashPassword password) := by
  rw [verify]
  split
  · next digest hdigest => rw [hdigest, beq_iff_eq, Option.some.injEq]
  · next hnone => simp [hnone]

/-- What a registration does next. -/
inductive Registration.Stage
  /-- It looks into the copy. -/
  | looking
  /-- It inserts into the table. -/
  | inserting
  /-- It takes the name into the copy. -/
  | learning
  deriving DecidableEq

/-- A registration that has not returned. -/
structure Registration where
  name : String
  password : String
  stage : Registration.Stage := .looking

/-- It has put the name into the table, and not yet into the copy. -/
def Registration.isPending (r : Registration) (name : String) : Bool :=
  r.stage = .learning && r.name == name

/-- What a call has returned. -/
inductive Answer
  | registered (name password : String) (result : Except ServerError Bool)
  | verified (name password : String) (result : Bool)

/-- The call has registered the name. -/
def Answer.isMade (name : String) : Answer → Bool
  | registered n _ (.ok true) => n == name
  | _ => false

theorem Answer.isMade_of_ne {name n password : String} {result : Except ServerError Bool}
    (h : result ≠ .ok true) : (Answer.registered n password result).isMade name = false := by
  unfold isMade
  split
  · next heq =>
    cases heq
    exact absurd rfl h
  · rfl

/-- Accounts that calls use side by side. -/
structure Registry where
  backend : Backend
  /-- The registrations that have not returned. -/
  calls : List Registration := []
  /-- What calls have returned, in order. -/
  log : List Answer := []

namespace Registry

/-- Calls that have registered a name. -/
def made (s : Registry) (name : String) : Nat :=
  s.log.countP (·.isMade name)

/-- Calls that have put a name into the table, and not yet into the copy. -/
def pending (s : Registry) (name : String) : Nat :=
  s.calls.countP (·.isPending name)

/-- One section under the lock of the copy or of the table, or a change of the disk.  A
save may end in any way and leave any disk. -/
inductive Step : Registry → Registry → Prop
  | call {s : Registry} (name password : String) :
    Step s { s with calls := s.calls ++ [{ name, password }] }
  | known {s : Registry} {before after : List Registration} {r : Registration}
    (who : s.calls = before ++ r :: after) (looks : r.stage = .looking)
    (h : s.backend.contains r.name = true) :
    Step s { s with
      calls := before ++ after
      log := s.log ++ [.registered r.name r.password (.ok false)] }
  | unknown {s : Registry} {before after : List Registration} {r : Registration}
    (who : s.calls = before ++ r :: after) (looks : r.stage = .looking)
    (h : s.backend.contains r.name = false) :
    Step s { s with calls := before ++ { r with stage := .inserting } :: after }
  /-- The insertion has made a row. -/
  | insert {s : Registry} {before after : List Registration} {r : Registration}
    (who : s.calls = before ++ r :: after) (inserts : r.stage = .inserting)
    {saved : Except ServerError Unit × Disk} {table : Table} {disk : Disk}
    (h : s.backend.table.settle s.backend.disk r.name r.password saved = (.ok true, table, disk)) :
    Step s { s with
      backend := { s.backend with table, disk }
      calls := before ++ { r with stage := .learning } :: after }
  /-- The insertion has made none, and so the call returns. -/
  | refuse {s : Registry} {before after : List Registration} {r : Registration}
    (who : s.calls = before ++ r :: after) (inserts : r.stage = .inserting)
    {saved : Except ServerError Unit × Disk} {result : Except ServerError Bool} {table : Table}
    {disk : Disk} (hresult : result ≠ .ok true)
    (h : s.backend.table.settle s.backend.disk r.name r.password saved = (result, table, disk)) :
    Step s { s with
      backend := { s.backend with table, disk }
      calls := before ++ after
      log := s.log ++ [.registered r.name r.password result] }
  | learn {s : Registry} {before after : List Registration} {r : Registration}
    (who : s.calls = before ++ r :: after) (learns : r.stage = .learning) :
    Step s {
      backend := s.backend.learn r.name r.password
      calls := before ++ after
      log := s.log ++ [.registered r.name r.password (.ok true)] }
  | verify {s : Registry} (name password : String) :
    Step s { s with log := s.log ++ [.verified name password (s.backend.verify name password)] }
  | disk {s : Registry} (disk : Disk) : Step s { s with backend := { s.backend with disk } }

/-- Steps one after the other. -/
abbrev Steps : Registry → Registry → Prop :=
  Relation.ReflTransGen Step

/-- What comes of a table that has been loaded and taken into the copy. -/
inductive Reached (table : Table) : Registry → Prop
  | start {d : Disk} (h : Table.load d table.path = .ok table) (disk : Disk) (known : Rows) :
    Reached table { backend := (Backend.preload { disk, table, known }).2 }
  | step {s t : Registry} (h : Reached table s) (hstep : Step s t) : Reached table t

/-- Whether rows have a name, as a number. -/
def held (rows : Rows) (name : String) : Nat :=
  if rows.contains name then 1 else 0

/-- The copy lags behind the table by the registrations that have yet to take their names
into it, and each name that was not there from the start has been registered by one
call. -/
structure Sound (table : Table) (s : Registry) : Prop where
  rows : s.backend.table.rows.Ascending
  known : s.backend.known.Ascending
  agree : ∀ name digest, s.backend.known.digest? name = some digest →
    s.backend.table.rows.digest? name = some digest
  learning : ∀ r ∈ s.calls, r.stage = .learning →
    s.backend.table.rows.digest? r.name = some (hashPassword r.password)
  inTable : ∀ name, held table.rows name + s.made name + s.pending name =
    held s.backend.table.rows name
  inCopy : ∀ name, held table.rows name + s.made name = held s.backend.known name
  verified : ∀ name password, .verified name password true ∈ s.log →
    s.backend.verify name password = true

variable {table : Table} {s t : Registry} {before after : List Registration} {r r' : Registration}

theorem held_le_one (rows : Rows) (name : String) : held rows name ≤ 1 := by
  rw [held]
  split <;> omega

theorem held_of_contains {rows : Rows} {name : String} (h : rows.contains name = true) :
    held rows name = 1 := by
  rw [held, if_pos h]

theorem held_eq_zero_iff {rows : Rows} {name : String} :
    held rows name = 0 ↔ rows.contains name = false := by
  rw [held]
  cases rows.contains name <;> simp

theorem held_insert {rows : Rows} {name : String} (h : rows.contains name = false)
    (digest other : String) :
    held (rows.insert name digest) other = held rows other + if name == other then 1 else 0 := by
  rw [held, held, Rows.contains_insert]
  cases hname : name == other with
  | false => simp
  | true =>
    rw [beq_iff_eq] at hname
    simp [← hname, h]

theorem pending_split (who : s.calls = before ++ r :: after) (name : String) :
    s.pending name =
      (before ++ after).countP (·.isPending name) + if r.isPending name then 1 else 0 := by
  rw [pending, who, List.countP_append, List.countP_append, List.countP_cons]
  omega

theorem pending_of_not_learning (h : r.stage ≠ .learning) (name : String) :
    r.isPending name = false := by
  rw [Registration.isPending, decide_eq_false h]
  rfl

theorem pending_of_learning (h : r.stage = .learning) (name : String) :
    r.isPending name = (r.name == name) := by
  rw [Registration.isPending, decide_eq_true h]
  rfl

theorem mem_calls_of_mem (who : s.calls = before ++ r :: after) {c : Registration}
    (h : c ∈ before ++ after) : c ∈ s.calls := by
  rw [who]
  exact (List.perm_middle.mem_iff).mpr (List.mem_cons_of_mem r h)

namespace Sound

theorem start {d : Disk} (h : Table.load d table.path = .ok table) (disk : Disk) (known : Rows) :
    Sound table { backend := (Backend.preload { disk, table, known }).2 } where
  rows := Table.ascending_load h
  known := Table.ascending_load h
  agree := fun _ _ hdigest => hdigest
  learning := nofun
  inTable := fun _ => rfl
  inCopy := fun _ => rfl
  verified := nofun

/-- Where the table and the copy stay as they are, so does the balance if the calls that
have made a row do, and if the call that returns has made none. -/
theorem update (h : Sound table s) (calls : List Registration) (log : List Answer) (disk : Disk)
    (learning : ∀ c ∈ calls, c.stage = .learning → c ∈ s.calls)
    (same : ∀ name, calls.countP (·.isPending name) = s.pending name)
    (made : ∀ a ∈ log, ∀ name, a.isMade name = false)
    (verified : ∀ name password, .verified name password true ∈ log →
      s.backend.verify name password = true) :
    Sound table { backend := { s.backend with disk }, calls, log := s.log ++ log } where
  rows := h.rows
  known := h.known
  agree := h.agree
  learning := fun c hc hlearning => h.learning c (learning c hc hlearning) hlearning
  inTable := by
    intro name
    have hnone : log.countP (·.isMade name) = 0 :=
      List.countP_eq_zero.mpr fun a ha => by simp [made a ha name]
    have htotal := h.inTable name
    simp only [Registry.made, Registry.pending, List.countP_append, hnone] at same htotal ⊢
    rw [same name]
    exact htotal
  inCopy := by
    intro name
    have hnone : log.countP (·.isMade name) = 0 :=
      List.countP_eq_zero.mpr fun a ha => by simp [made a ha name]
    have hcopy := h.inCopy name
    simp only [Registry.made, List.countP_append, hnone] at hcopy ⊢
    exact hcopy
  verified := by
    intro name password hmem
    rcases List.mem_append.mp hmem with hmem | hmem
    · exact h.verified name password hmem
    · exact verified name password hmem

/-- A call leaves or goes on, and has made no row before or after. -/
theorem replace (h : Sound table s) (who : s.calls = before ++ r :: after)
    (idle : r.stage ≠ .learning) (rest : List Registration) (log : List Answer) (disk : Disk)
    (hrest : ∀ c ∈ rest, c.stage ≠ .learning) (made : ∀ a ∈ log, ∀ name, a.isMade name = false)
    (verified : ∀ name password, .verified name password true ∉ log) :
    Sound table {
      backend := { s.backend with disk }
      calls := before ++ (rest ++ after)
      log := s.log ++ log } := by
  refine h.update _ _ _ ?_ ?_ made fun name password hmem => absurd hmem (verified name password)
  · intro c hc hlearning
    rcases List.mem_append.mp hc with hc | hc
    · exact mem_calls_of_mem who (List.mem_append_left after hc)
    · rcases List.mem_append.mp hc with hc | hc
      · exact absurd hlearning (hrest c hc)
      · exact mem_calls_of_mem who (List.mem_append_right before hc)
  · intro name
    have hnone : rest.countP (·.isPending name) = 0 :=
      List.countP_eq_zero.mpr fun c hc => by simp [pending_of_not_learning (hrest c hc) name]
    rw [pending_split who, pending_of_not_learning idle, List.countP_append, List.countP_append,
      List.countP_append, hnone]
    simp

/-- A name that is on its way into the copy is not there yet. -/
theorem unknown (h : Sound table s) (who : s.calls = before ++ r :: after)
    (learns : r.stage = .learning) : s.backend.known.contains r.name = false := by
  have htable := h.inTable r.name
  have hcopy := h.inCopy r.name
  have hle := held_le_one s.backend.table.rows r.name
  rw [pending_split who, pending_of_learning learns, beq_self_eq_true, if_pos rfl] at htable
  exact held_eq_zero_iff.mp (by omega)

theorem insert (h : Sound table s) (who : s.calls = before ++ r :: after)
    (inserts : r.stage = .inserting) (new : s.backend.table.rows.contains r.name = false)
    (disk : Disk) : Sound table { s with
      backend := { s.backend with table := s.backend.table.withRow r.name r.password, disk }
      calls := before ++ { r with stage := .learning } :: after } where
  rows := h.rows.insert r.name (hashPassword r.password)
  known := h.known
  agree := by
    intro name digest hdigest
    have hrow := h.agree name digest hdigest
    have hne : r.name ≠ name := by
      rintro rfl
      rw [Rows.digest?_eq_none new] at hrow
      cases hrow
    rw [Table.withRow, Rows.digest?_insert, if_neg hne]
    exact hrow
  learning := by
    intro c hc hlearning
    rw [Table.withRow, Rows.digest?_insert]
    rcases List.mem_cons.mp ((List.perm_middle.mem_iff).mp hc) with rfl | hc
    · exact if_pos rfl
    · have hrow := h.learning c (mem_calls_of_mem who hc) hlearning
      have hne : r.name ≠ c.name := by
        intro heq
        rw [← heq, Rows.digest?_eq_none new] at hrow
        cases hrow
      rw [if_neg hne]
      exact hrow
  inTable := by
    intro name
    have htable := h.inTable name
    have hidle : r.stage ≠ .learning := by simp [inserts]
    rw [pending_split who, pending_of_not_learning hidle] at htable
    rw [Table.withRow, held_insert new, pending_split rfl, pending_of_learning rfl]
    simp only [Bool.false_eq_true, if_false, made] at htable ⊢
    omega
  inCopy := h.inCopy
  verified := h.verified

theorem learn (h : Sound table s) (who : s.calls = before ++ r :: after)
    (learns : r.stage = .learning) : Sound table {
      backend := s.backend.learn r.name r.password
      calls := before ++ after
      log := s.log ++ [.registered r.name r.password (.ok true)] } where
  rows := h.rows
  known := h.known.insert r.name (hashPassword r.password)
  agree := by
    intro name digest hdigest
    rw [Backend.learn, Rows.digest?_insert] at hdigest
    have hmem : r ∈ s.calls := by
      rw [who]
      exact (List.perm_middle.mem_iff).mpr List.mem_cons_self
    split at hdigest
    · next heq =>
      rw [← heq, ← Option.some.inj hdigest]
      exact h.learning r hmem learns
    · exact h.agree name digest hdigest
  learning := fun c hc hlearning => h.learning c (mem_calls_of_mem who hc) hlearning
  inTable := by
    intro name
    have htable := h.inTable name
    rw [pending_split who, pending_of_learning learns] at htable
    -- one call less is to return, and one more has returned
    simp only [made, pending, Backend.learn, List.countP_append, List.countP_singleton,
      Answer.isMade] at htable ⊢
    omega
  inCopy := by
    intro name
    have hcopy := h.inCopy name
    rw [Backend.learn, held_insert (h.unknown who learns)]
    simp only [made, List.countP_append, List.countP_singleton, Answer.isMade] at hcopy ⊢
    omega
  verified := by
    intro name password hmem
    have hlog : .verified name password true ∈ s.log := by
      rcases List.mem_append.mp hmem with hmem | hmem
      · exact hmem
      · cases List.mem_singleton.mp hmem
    have hknown := (Backend.verify_iff _ _ _).mp (h.verified name password hlog)
    have hne : r.name ≠ name := by
      rintro rfl
      rw [Rows.digest?_eq_none (h.unknown who learns)] at hknown
      cases hknown
    rw [Backend.verify_iff, Backend.learn, Rows.digest?_insert, if_neg hne]
    exact hknown

theorem step (h : Sound table s) (hstep : Step s t) : Sound table t := by
  cases hstep with
  | call name password =>
    have hnew := h.update (s.calls ++ [{ name, password }]) [] s.backend.disk ?_ ?_ nofun nofun
    · rwa [List.append_nil] at hnew
    · intro c hc hlearning
      rcases List.mem_append.mp hc with hc | hc
      · exact hc
      · cases List.mem_singleton.mp hc
        cases hlearning
    · intro other
      simp [pending, Registration.isPending]
  | @known before after r who looks hknown =>
    exact h.replace who (by simp [looks]) [] [.registered r.name r.password (.ok false)]
      s.backend.disk nofun (by simp [Answer.isMade]) (by simp)
  | @unknown before after r who looks hunknown =>
    have hgoes := h.replace who (by simp [looks]) [{ r with stage := .inserting }] []
      s.backend.disk (by simp) nofun (by simp)
    rwa [List.append_nil] at hgoes
  | @insert before after r who inserts saved table disk hsettle =>
    rcases s.backend.table.settle_cases s.backend.disk r.name r.password saved with
      ⟨-, heq⟩ | ⟨hnew, -, heq⟩ | ⟨f, -, -, heq⟩
    all_goals
      rw [heq] at hsettle
      cases hsettle
    exact h.insert who inserts hnew saved.2
  | @refuse before after r who inserts saved result table disk hresult hsettle =>
    obtain rfl : table = s.backend.table := by
      rcases s.backend.table.settle_cases s.backend.disk r.name r.password saved with
        ⟨-, heq⟩ | ⟨-, -, heq⟩ | ⟨f, -, -, heq⟩
      all_goals
        rw [heq] at hsettle
        cases hsettle
      · rfl
      · exact absurd rfl hresult
      · rfl
    refine h.replace who (by simp [inserts]) [] [.registered r.name r.password result] disk nofun
      ?_ (by simp)
    intro a ha name
    rw [List.mem_singleton.mp ha]
    exact Answer.isMade_of_ne hresult
  | learn who learns => exact h.learn who learns
  | verify name password =>
    refine h.update s.calls _ s.backend.disk (fun c hc _ => hc) (fun _ => rfl)
      (by simp [Answer.isMade]) ?_
    intro other attempt hmem
    obtain ⟨rfl, rfl, htrue⟩ := Answer.verified.inj (List.mem_singleton.mp hmem)
    exact htrue.symm
  | disk disk =>
    have hsame := h.update s.calls [] disk (fun c hc _ => hc) (fun _ => rfl) nofun nofun
    rwa [List.append_nil] at hsame

end Sound

theorem Reached.sound (h : Reached table s) : Sound table s := by
  induction h with
  | start h disk known => exact .start h disk known
  | step _ hstep ih => exact ih.step hstep

theorem Reached.steps (h : Reached table s) (hsteps : Steps s t) : Reached table t := by
  induction hsteps with
  | refl => exact h
  | tail _ hstep ih => exact ih.step hstep

/-- Only a call that has put its name into the table, and that now returns, changes the
copy. -/
theorem Step.learns (hstep : Step s t) : t.backend.known = s.backend.known ∨
    ∃ before after r, s.calls = before ++ r :: after ∧ t.calls = before ++ after ∧
      r.stage = .learning ∧
      t.backend.known = s.backend.known.insert r.name (hashPassword r.password) ∧
      t.log = s.log ++ [.registered r.name r.password (.ok true)] := by
  cases hstep with
  | learn who learns => exact .inr ⟨_, _, _, who, rfl, learns, rfl, rfl⟩
  | call | known | unknown | insert | refuse | verify | disk => exact .inl rfl

/-- A password that is right stays right. -/
theorem Sound.verify_step (h : Sound table s) (hstep : Step s t) {name password : String}
    (hright : s.backend.verify name password = true) : t.backend.verify name password = true := by
  rw [Backend.verify_iff] at hright ⊢
  rcases hstep.learns with hsame | ⟨before, after, r, who, -, learns, hknown, -⟩
  · rwa [hsame]
  · have hne : r.name ≠ name := by
      rintro rfl
      rw [Rows.digest?_eq_none (h.unknown who learns)] at hright
      cases hright
    rwa [hknown, Rows.digest?_insert, if_neg hne]

theorem Reached.verify_steps (h : Reached table s) (hsteps : Steps s t) {name password : String}
    (hright : s.backend.verify name password = true) : t.backend.verify name password = true := by
  induction hsteps with
  | refl => exact hright
  | tail hsteps hstep ih => exact (h.steps hsteps).sound.verify_step hstep ih

/-- With no registration under way the copy has caught up with the table. -/
theorem Sound.caughtUp (h : Sound table s) (idle : s.calls = []) :
    s.backend.known = s.backend.table.rows := by
  refine h.known.ext h.rows fun name => ?_
  have htable := h.inTable name
  have hcopy := h.inCopy name
  have hpending : s.pending name = 0 := by rw [pending, idle, List.countP_nil]
  cases hrow : s.backend.known.digest? name with
  | some digest => exact (h.agree name digest hrow).symm
  | none =>
    have hunknown : s.backend.known.contains name = false := by rw [Rows.contains_eq, hrow]; rfl
    have hheld : held s.backend.table.rows name = 0 := by
      rw [← htable, hpending, hcopy, held_eq_zero_iff.mpr hunknown]
    exact (Rows.digest?_eq_none (held_eq_zero_iff.mp hheld)).symm

/-- A registration that nothing comes between is a run of these steps. -/
theorem steps_register (s : Registry) (name password : String) : Steps s { s with
    backend := (s.backend.register name password).2
    log := s.log ++ [.registered name password (s.backend.register name password).1] } := by
  have hcall : Step s { s with calls := s.calls ++ [{ name, password }] } := .call name password
  cases hcontains : s.backend.contains name with
  | true =>
    have hknown := Step.known (s := { s with calls := s.calls ++ [{ name, password }] }) rfl rfl
      hcontains
    rw [Backend.register, if_pos hcontains]
    rw [List.append_nil] at hknown
    exact .tail (.single hcall) hknown
  | false =>
    have hunknown := Step.unknown (s := { s with calls := s.calls ++ [{ name, password }] }) rfl rfl
      hcontains
    have hinsert := Table.insert_eq_settle s.backend.table s.backend.disk name password
    rw [Backend.register, hcontains, Backend.insert]
    rcases h : s.backend.table.insert s.backend.disk name password with ⟨result, table, disk⟩
    rw [h] at hinsert
    by_cases hresult : result = .ok true
    · subst hresult
      have hmade := Step.insert
        (s := { s with calls := s.calls ++ [{ name, password, stage := .inserting }] }) rfl rfl
        hinsert.symm
      have hlearn := Step.learn
        (s := {
          backend := { s.backend with table, disk }
          calls := s.calls ++ [{ name, password, stage := .learning }]
          log := s.log }) rfl rfl
      rw [List.append_nil] at hlearn
      exact .tail (.tail (.tail (.single hcall) hunknown) hmade) hlearn
    · have hrefuse := Step.refuse
        (s := { s with calls := s.calls ++ [{ name, password, stage := .inserting }] }) rfl rfl
        hresult hinsert.symm
      rw [List.append_nil] at hrefuse
      have hreturns := Relation.ReflTransGen.tail (.tail (.single hcall) hunknown) hrefuse
      rcases result with f | _ | _
      · exact hreturns
      · exact hreturns
      · exact absurd rfl hresult

/-- Each entry of the copy is the row of the table.  Of the calls that register one name
at most one succeeds, and none if the name was there from the start.  What verifies
changes only where such a call returns, and a password that is right is that of the row
and stays right. -/
theorem Reached.registers_each_once (h : Reached table s) :
    (∀ name digest, s.backend.known.digest? name = some digest →
      s.backend.table.rows.digest? name = some digest) ∧
    (∀ name, s.made name ≤ 1) ∧
    (∀ name, table.rows.contains name = true → s.made name = 0) ∧
    (s.calls = [] → s.backend.known = s.backend.table.rows) ∧
    (∀ t, Step s t →
      (∀ name password, t.backend.verify name password = s.backend.verify name password) ∨
        ∃ before after r, s.calls = before ++ r :: after ∧ t.calls = before ++ after ∧
          t.log = s.log ++ [.registered r.name r.password (.ok true)]) ∧
    (∀ name password, s.backend.verify name password = true →
      s.backend.table.rows.digest? name = some (hashPassword password)) ∧
    (∀ name password t, s.backend.verify name password = true → Steps s t →
      t.backend.verify name password = true) ∧
    ∀ name password, .verified name password true ∈ s.log →
      s.backend.verify name password = true := by
  have hsound := h.sound
  refine ⟨hsound.agree, fun name => ?_, fun name hname => ?_, hsound.caughtUp, fun t hstep => ?_,
    fun name password hright => ?_, fun name password t hright hsteps =>
      h.verify_steps hsteps hright, hsound.verified⟩
  · have hcopy := hsound.inCopy name
    have hle := held_le_one s.backend.known name
    omega
  · have hcopy := hsound.inCopy name
    have hle := held_le_one s.backend.known name
    rw [held_of_contains hname] at hcopy
    omega
  · rcases hstep.learns with hsame | ⟨before, after, r, who, calls, -, -, log⟩
    · refine .inl fun name password => ?_
      rw [Backend.verify, Backend.verify, hsame]
    · exact .inr ⟨before, after, r, who, calls, log⟩
  · exact hsound.agree name _ ((Backend.verify_iff _ _ _).mp hright)

/-- Of two calls for one name the first has not been able to save its row, and the second
has. -/
def raced : Registry where
  backend := {
    disk := {}
    table := { path := "users.db", rows := [("eva", hashPassword "34")] }
    known := [("eva", hashPassword "34")] }
  log := [
    .registered "eva" "12" (.error (.io IoErrorKind.permissionDenied.error)),
    .verified "eva" "34" false,
    .registered "eva" "34" (.ok true)]

/-- Both calls have found the name free, and the second inserts while the first is
failing. -/
theorem Reached.registers_each_once_raced : Reached { path := "users.db" } raced ∧
    raced.made "eva" ≤ 1 ∧ raced.backend.known = raced.backend.table.rows ∧
      raced.backend.table.rows.digest? "eva" = some (hashPassword "34") := by
  have hload : Table.load {} "users.db" = .ok { path := "users.db" } := by cbv
  have hstart : Reached { path := "users.db" } _ := .start hload {} []
  have hcalled := (hstart.step (.call "eva" "12")).step (.call "eva" "34")
  have hfirst := hcalled.step (@Step.unknown _ [] _ _ rfl rfl rfl)
  have hsecond := hfirst.step (@Step.unknown _ [⟨"eva", "12", .inserting⟩] _ _ rfl rfl rfl)
  have hunsaved : (.error (.io IoErrorKind.permissionDenied.error) : Except ServerError Bool) ≠
      .ok true := by
    rintro ⟨⟩
  have hfailed := hsecond.step (@Step.refuse _ [] _ _ rfl rfl _ (.error _) _ {} hunsaved
    (Table.settle_unsaved rfl (.io IoErrorKind.permissionDenied.error)))
  have hsaved := hfailed.step (@Step.insert _ [] _ _ rfl rfl _ _ {} (Table.settle_saved rfl))
  have hasked := hsaved.step (.verify "eva" "34")
  have hlearned := hasked.step (@Step.learn _ [] [] ⟨"eva", "34", .learning⟩ rfl rfl)
  have hreached : Reached { path := "users.db" } raced := hlearned
  obtain ⟨-, hmade, -, hcaughtUp, -, hright, -⟩ := hreached.registers_each_once
  exact ⟨hreached, hmade "eva", hcaughtUp rfl, hright "eva" "34" (beq_self_eq_true _)⟩

end Registry
end Accounts
end PageServer
