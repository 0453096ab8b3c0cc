import PageServer.Proofs.Accounts.Registration
import PageServer.Proofs.Accounts.Saving
import PageServer.Site.Page

/-!
# What a request asks of the accounts

A posted form is checked against the copy for logins or registers a name, and no other
request has to do with the accounts.  How the save of a registration ends is left open
here: it may be broken off on the way, and where it is not, the page is the one that is
selected in fact.
-/

namespace PageServer

namespace Accounts
namespace Backend

/-- How the saves of tables end. -/
abbrev Save := Table → Disk → Except ServerError Unit × Disk

/-- Saves that put the rows into the file, or fail on the way. -/
def Proper (save : Save) : Prop :=
  ∀ (t : Table) (d : Disk), t.Saves d (save t d)

theorem proper_saveOn : Proper Table.saveOn :=
  fun _ _ => .whole

/-- Registers a name, where saves end in a given way. -/
def registerBy (save : Save) (b : Backend) (name password : String) :
    Except ServerError Bool × Backend :=
  if b.contains name then (.ok false, b)
  else
    let r := b.table.settle b.disk name password (save (b.table.withRow name password) b.disk)
    let b' := { b with table := r.2.1, disk := r.2.2 }
    match r.1 with
    | .ok true => (.ok true, b'.learn name password)
    | r => (r, b')

theorem registerBy_saveOn (b : Backend) (name password : String) :
    b.registerBy Table.saveOn name password = b.register name password := by
  unfold registerBy register
  split
  · rfl
  · simp only [insert, Table.insert_eq_settle]
    rcases (b.table.settle b.disk name password
      ((b.table.withRow name password).saveOn b.disk)).1 with f | _ | _ <;> rfl

/-- The accounts after a registration. -/
def registered (b : Backend) (name password : String) (disk : Disk) : Backend :=
  { b with table := b.table.withRow name password, disk }.learn name password

/-- Where the copy knows the rows of the table, a registration depends on these and on the
save. -/
theorem registerBy_cases (save : Save) {b : Backend} (hknown : b.known = b.table.rows)
    (name password : String) :
    (b.table.rows.contains name = true ∧ b.registerBy save name password = (.ok false, b)) ∨
      (b.table.rows.contains name = false ∧
        ∃ e, save (b.table.withRow name password) b.disk = (.ok (), e) ∧
          b.registerBy save name password = (.ok true, b.registered name password e)) ∨
      ∃ f e, b.table.rows.contains name = false ∧
        save (b.table.withRow name password) b.disk = (.error f, e) ∧
        b.registerBy save name password = (.error f, { b with disk := e }) := by
  have hcontains : b.contains name = b.table.rows.contains name := by
    rw [contains, hknown]
  unfold registerBy
  rw [hcontains]
  cases hname : b.table.rows.contains name with
  | true => exact .inl ⟨rfl, rfl⟩
  | false =>
    rcases hsaved : save (b.table.withRow name password) b.disk with ⟨f | _, e⟩
    · refine .inr (.inr ⟨f, e, rfl, rfl, ?_⟩)
      rw [Table.settle_unsaved hname]
      rfl
    · refine .inr (.inl ⟨rfl, e, rfl, ?_⟩)
      rw [Table.settle_saved hname]
      rfl

end Backend
end Accounts

namespace Site

open Accounts (Backend)
open Accounts.Backend (Save)

/-- What a request has to do with the accounts. -/
inductive Errand
  | login (form : Credentials)
  | register (form : Credentials)
  /-- A form was posted that cannot be read. -/
  | unreadable
  | none
  deriving DecidableEq

/-- What a request has to do with the accounts. -/
def errand (r : Http.Request) : Errand :=
  match r.method, selector? r.url with
  | .post, some '2' => (Credentials.ofForm? r.body).elim .unreadable .login
  | .post, some '3' => (Credentials.ofForm? r.body).elim .unreadable .register
  | _, _ => .none

variable {r : Http.Request} {b : Backend} {form : Credentials}

/-- Each errand is done, or it is none. -/
theorem selectPage_eq (r : Http.Request) (b : Backend) : match errand r with
    | .login form => selectPage r b = (some (loginAnswer b form), b)
    | .register form => selectPage r b =
      (some (registerAnswer b form).1, (registerAnswer b form).2)
    | .unreadable => selectPage r b = (none, b)
    | .none => ∃ page, selectPage r b = (some page, b) := by
  fun_cases errand r with
  | case1 hmethod hselector =>
    rw [selectPage, hmethod, hselector]
    cases Credentials.ofForm? r.body <;> rfl
  | case2 hmethod hselector =>
    rw [selectPage, hmethod, hselector]
    cases Credentials.ofForm? r.body <;> rfl
  | case3 hlogin hregister =>
    show ∃ page, selectPage r b = (some page, b)
    unfold selectPage
    split
    · next hmethod hselector => exact (hlogin hmethod hselector).elim
    · next hmethod hselector => exact (hregister hmethod hselector).elim
    · exact ⟨_, rfl⟩
    · exact ⟨_, rfl⟩
    · exact ⟨_, rfl⟩

/-- The page for a request, where saves end in a given way. -/
def selectPageBy (save : Save) (r : Http.Request) (b : Backend) : Option String × Backend :=
  match errand r with
  | .register form => match b.registerBy save form.user form.password with
    | (.ok true, b') => (some loginPage, b')
    | (_, b') => (some registerErrorPage, b')
  | _ => selectPage r b

theorem selectPageBy_saveOn (r : Http.Request) (b : Backend) :
    selectPageBy Accounts.Table.saveOn r b = selectPage r b := by
  have heq := selectPage_eq r b
  unfold selectPageBy
  cases herrand : errand r with
  | register form =>
    rw [herrand] at heq
    simp only at heq ⊢
    rw [heq, Accounts.Backend.registerBy_saveOn, registerAnswer]
    rcases b.register form.user form.password with ⟨f | _ | _, b'⟩ <;> rfl
  | login | unreadable | none => rfl

theorem selectPageBy_unreadable (save : Save) (b : Backend) (h : errand r = .unreadable) :
    selectPageBy save r b = (none, b) := by
  have heq := selectPage_eq r b
  rw [h] at heq
  unfold selectPageBy
  rw [h]
  exact heq

/-! ## What comes of a request -/

/-- The request registers the name in its form: the name is new, and the save of its row
succeeds. -/
structure Registers (save : Save) (b : Backend) (r : Http.Request) (form : Credentials) : Prop where
  asked : errand r = .register form
  new : b.table.rows.contains form.user = false
  saved : (save (b.table.withRow form.user form.password) b.disk).1 = .ok ()

/-- The table and the copy for logins agree with each other and with what has been
registered since the table `t₀` was loaded; and with the file, where this is said to be
looked after. -/
structure Agrees (path : String) (filed : Prop) (t₀ : Accounts.Table) (since : Accounts.Rows)
    (b : Backend) : Prop where
  file : filed → Accounts.Sited b.disk path ∧ Accounts.Table.load b.disk path = .ok b.table
  known : b.known = b.table.rows
  digests : ∀ name, b.known.digest? name = Accounts.Rows.digest? (t₀.rows ++ since) name

namespace Agrees

open Accounts

variable {path : String} {filed : Prop} {t₀ : Table} {since : Rows} {save : Save} {e : Disk}
  {name password : String}

/-- A row that has been saved is in the file. -/
theorem file_saved (h : Agrees path filed t₀ since b) (hsave : Backend.Proper save) (hfiled : filed)
    (hnew : b.table.rows.contains name = false)
    (hsaved : save (b.table.withRow name password) b.disk = (.ok (), e)) :
    (Sited e path ∧ Table.load e path = .ok (b.table.withRow name password)) ∧
      text? e path = some (TableFile.write (b.table.withRow name password).rows) := by
  obtain ⟨hs, hload⟩ := h.file hfiled
  have hproper := hsaved ▸ hsave (b.table.withRow name password) b.disk
  rcases settle_spec hs hload name password hproper with
    ⟨htaken, -⟩ | ⟨-, -, -, hsited, hread, hload'⟩ | ⟨f, -, hfail, -⟩
  · cases hnew.symm.trans htaken
  · refine ⟨⟨hsited, hload'⟩, ?_⟩
    rw [text?, hread]
    rfl
  · cases hfail

/-- A row that has not been saved has left the file as it was. -/
theorem file_unsaved (h : Agrees path filed t₀ since b) (hsave : Backend.Proper save)
    (hfiled : filed) (hnew : b.table.rows.contains name = false) {f : ServerError}
    (hsaved : save (b.table.withRow name password) b.disk = (.error f, e)) :
    Keeps path b.disk e := by
  obtain ⟨hs, hload⟩ := h.file hfiled
  have hproper := hsaved ▸ hsave (b.table.withRow name password) b.disk
  rcases settle_spec hs hload name password hproper with
    ⟨htaken, -⟩ | ⟨-, hok, -⟩ | ⟨_, -, -, -, hkeeps⟩
  · cases hnew.symm.trans htaken
  · cases hok
  · exact hkeeps

theorem registered (h : Agrees path filed t₀ since b) (hsave : Backend.Proper save)
    (hreg : Registers save b r form) :
    ∃ e, selectPageBy save r b = (some loginPage, b.registered form.user form.password e) ∧
      Agrees path filed t₀ (since ++ [(form.user, hashPassword form.password)])
        (b.registered form.user form.password e) ∧
      (filed →
        text? e path = some (TableFile.write (b.table.withRow form.user form.password).rows)) := by
  obtain ⟨hasked, hnew, hok⟩ := hreg
  rcases Backend.registerBy_cases save h.known form.user form.password with
    ⟨htaken, -⟩ | ⟨-, e, hsaved, hby⟩ | ⟨f, e, -, hsaved, -⟩
  · cases hnew.symm.trans htaken
  · refine ⟨e, ?_, ⟨?_, ?_, ?_⟩, fun hfiled => (h.file_saved hsave hfiled hnew hsaved).2⟩
    · rw [selectPageBy, hasked]
      simp only [hby]
    · exact fun hfiled => (h.file_saved hsave hfiled hnew hsaved).1
    · rw [Backend.registered, Backend.learn, h.known]
      rfl
    · intro name
      have hunknown : b.known.digest? form.user = none := by
        rw [h.known]
        exact Rows.digest?_eq_none hnew
      rw [Backend.registered, Backend.learn, Rows.digest?_insert, ← List.append_assoc,
        Rows.digest?_append, ← h.digests, Rows.digest?_cons, Rows.digest?_nil]
      by_cases hname : form.user = name
      · rw [if_pos hname, if_pos hname, ← hname, hunknown]
        rfl
      · rw [if_neg hname, if_neg hname, Option.or_none]
  · rw [hsaved] at hok
    cases hok

theorem unregistered (h : Agrees path filed t₀ since b) (hsave : Backend.Proper save)
    (hreg : ∀ form, ¬Registers save b r form) :
    ∃ e, (selectPageBy save r b).2 = { b with disk := e } ∧ (filed → Keeps path b.disk e) ∧
      (∀ form, errand r = .register form → (selectPageBy save r b).1 = some registerErrorPage) ∧
      ((∀ form, errand r ≠ .register form) → e = b.disk) := by
  have heq := selectPage_eq r b
  have hkeeps : filed → Keeps path b.disk b.disk := fun hfiled => .refl (h.file hfiled).1
  unfold selectPageBy
  cases herrand : errand r with
  | register form =>
    rcases Backend.registerBy_cases save h.known form.user form.password with
      ⟨-, hby⟩ | ⟨hnew, e, hsaved, -⟩ | ⟨f, e, hnew, hsaved, hby⟩
    · simp only [hby]
      exact ⟨b.disk, rfl, hkeeps, fun _ _ => trivial, fun _ => rfl⟩
    · exact absurd ⟨herrand, hnew, by rw [hsaved]⟩ (hreg form)
    · simp only [hby]
      exact ⟨e, rfl, fun hfiled => h.file_unsaved hsave hfiled hnew hsaved, fun _ _ => trivial,
        fun hnone => absurd rfl (hnone form)⟩
  | login form =>
    rw [herrand] at heq
    exact ⟨b.disk, by rw [heq], hkeeps, nofun, fun _ => rfl⟩
  | unreadable =>
    rw [herrand] at heq
    exact ⟨b.disk, by rw [heq], hkeeps, nofun, fun _ => rfl⟩
  | none =>
    rw [herrand] at heq
    obtain ⟨page, heq⟩ := heq
    exact ⟨b.disk, by rw [heq], hkeeps, nofun, fun _ => rfl⟩

theorem login (h : Agrees path filed t₀ since b) (hlogin : errand r = .login form) :
    selectPageBy save r b = (some (if Rows.digest? (t₀.rows ++ since) form.user =
      some (hashPassword form.password) then welcomePage else loginErrorPage), b) := by
  have heq := selectPage_eq r b
  rw [hlogin] at heq
  simp only at heq
  unfold selectPageBy
  rw [hlogin]
  simp only [heq, loginAnswer, ← h.digests, ← Backend.verify_iff]

end Agrees

end Site
end PageServer
