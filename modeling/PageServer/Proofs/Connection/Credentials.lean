import PageServer.Proofs.Connection.Lifecycle
import PageServer.Proofs.Site.Selection

/-!
# Requests that change the accounts

Requests are worked on one after the other, on whatever connections.  The accounts change
with a posted form that registers a new name and whose save succeeds, and with nothing
else; and a login is told apart by what was loaded and what has been registered since.
-/

namespace PageServer
namespace Connection

open Accounts (Backend Keeps Rows Sited Table hashPassword text?)
open Accounts.Backend (Proper Save)
open Site (Agrees Credentials Errand selectPageBy)

variable {path : String} {filed : Prop} {save : Save} {b : Backend} {c : Connection}
  {form : Credentials} {t₀ : Table} {since : Rows}

/-- Reads on in the buffer and prepares the response, where saves end in a given way. -/
def processBy (save : Save) (root : String) (b : Backend) (c : Connection) :
    Except Fault ProcessOutcome × Connection × Backend :=
  match c.parse with
  | (.error f, d) => (.error f, d, b)
  | (.ok .ready, d) => match selectPageBy save d.request b with
    | (none, b') =>
      let r := d.answer .malformed
      (r.1, r.2, b')
    | (some page, b') =>
      let found := lookup b'.disk (Site.realPath root page)
      let r := { d with file := found.2.or d.file }.answer found.1
      (r.1, r.2, b')
  | (.ok v, d) =>
    let r := d.answer v
    (r.1, r.2, b)

/-- Where no save is broken off, this is what processing comes to. -/
theorem processBy_saveOn (root : String) (b : Backend) (c : Connection) :
    c.processBy Table.saveOn root b = c.process root b := by
  rcases hparse : c.parse with ⟨f | v, d⟩
  · simp only [processBy, process, hparse]
  · cases v with
    | ready =>
      simp only [processBy, process, dispatch, hparse, Site.selectPageBy_saveOn]
      rcases Site.selectPage d.request b with ⟨_ | page, b'⟩ <;> rfl
    | incomplete | malformed | missing | forbidden | found | broken =>
      simp only [processBy, process, hparse]

/-- What the request on a connection has to do with the accounts: nothing, unless it is
complete. -/
def errand (c : Connection) : Errand :=
  match c.parse.1 with
  | .ok .ready => Site.errand c.parse.2.request
  | _ => .none

/-- The page that is selected for a complete request. -/
def pageBy (save : Save) (b : Backend) (c : Connection) : Option String :=
  (selectPageBy save c.parse.2.request b).1

/-- The request on the connection registers the name in its form: it is complete, the name
is new, and the save of its row succeeds. -/
structure Registers (save : Save) (b : Backend) (c : Connection) (form : Credentials) : Prop where
  asked : c.errand = .register form
  new : b.table.rows.contains form.user = false
  saved : (save (b.table.withRow form.user form.password) b.disk).1 = .ok ()

theorem errand_cases (c : Connection) :
    (c.parse.1 = .ok .ready ∧ c.errand = Site.errand c.parse.2.request) ∨
      (c.parse.1 ≠ .ok .ready ∧ c.errand = .none) := by
  unfold errand
  split
  · next hready => exact .inl ⟨hready, rfl⟩
  · next hready => exact .inr ⟨hready, rfl⟩

theorem ready_of_errand (h : c.errand ≠ .none) :
    c.parse.1 = .ok .ready ∧ c.errand = Site.errand c.parse.2.request := by
  rcases c.errand_cases with hready | ⟨-, hnone⟩
  · exact hready
  · exact absurd hnone h

/-- The accounts after a complete request are those that selecting its page has left. -/
theorem backend_processBy (hready : c.parse.1 = .ok .ready) :
    (c.processBy save root b).2.2 = (selectPageBy save c.parse.2.request b).2 := by
  rcases hparse : c.parse with ⟨v, d⟩
  rw [hparse] at hready
  cases hready
  simp only [processBy, hparse]
  rcases selectPageBy save d.request b with ⟨_ | page, b'⟩ <;> rfl

theorem backend_processBy_of_not_ready (hready : c.parse.1 ≠ .ok .ready) :
    (c.processBy save root b).2.2 = b := by
  rcases hparse : c.parse with ⟨f | v, d⟩
  · simp only [processBy, hparse]
  · rw [hparse] at hready
    cases v with
    | ready => exact absurd rfl hready
    | incomplete | malformed | missing | forbidden | found | broken => simp only [processBy, hparse]

/-- Requests one after the other, from when the table `t₀` was loaded and the copy filled;
and the rows that have been registered since.  In between the disk may change.  Where
`filed` holds, a table can be kept at the path, and what changes in between is not the
table. -/
inductive Served (path : String) (filed : Prop) (t₀ : Table) : Rows → Backend → Prop
  | preloaded {d : Disk} (sited : filed → Sited d path) (h : Table.load d path = .ok t₀)
    (known : Rows) : Served path filed t₀ [] (Backend.preload { disk := d, table := t₀, known }).2
  | registered {since : Rows} {b : Backend} (h : Served path filed t₀ since b) {save : Save}
    (hsave : Proper save) (root : String) {c : Connection} {form : Credentials}
    (hreg : c.Registers save b form) :
    Served path filed t₀ (since ++ [(form.user, hashPassword form.password)])
      (c.processBy save root b).2.2
  | served {since : Rows} {b : Backend} (h : Served path filed t₀ since b) {save : Save}
    (hsave : Proper save) (root : String) {c : Connection}
    (hreg : ∀ form, ¬c.Registers save b form) :
    Served path filed t₀ since (c.processBy save root b).2.2
  | disk {since : Rows} {b : Backend} (h : Served path filed t₀ since b) {e : Disk}
    (hkeeps : filed → Keeps path b.disk e) : Served path filed t₀ since { b with disk := e }

/-! ## One request -/

theorem agrees_registered (h : Agrees path filed t₀ since b) (hsave : Proper save)
    (hreg : c.Registers save b form) (root : String) :
    c.pageBy save b = some Site.loginPage ∧
      Agrees path filed t₀ (since ++ [(form.user, hashPassword form.password)])
        (c.processBy save root b).2.2 ∧
      (c.processBy save root b).2.2.table = b.table.withRow form.user form.password ∧
      (filed → text? (c.processBy save root b).2.2.disk path =
        some (Accounts.TableFile.write (b.table.withRow form.user form.password).rows)) := by
  have hasked := hreg.asked
  obtain ⟨hready, herrand⟩ := ready_of_errand (by rw [hasked]; exact nofun)
  obtain ⟨e, hselect, hagrees, htext⟩ :=
    h.registered hsave ⟨herrand.symm.trans hasked, hreg.new, hreg.saved⟩
  rw [pageBy, backend_processBy hready, hselect]
  exact ⟨rfl, hagrees, rfl, htext⟩

/-- A request that registers no name leaves all as it is, but that the disk may show
traces of a registration that has failed. -/
theorem agrees_served (h : Agrees path filed t₀ since b) (hsave : Proper save)
    (hreg : ∀ form, ¬c.Registers save b form) (root : String) :
    ∃ e, (c.processBy save root b).2.2 = { b with disk := e } ∧ (filed → Keeps path b.disk e) ∧
      (∀ form, c.errand = .register form → c.pageBy save b = some Site.registerErrorPage) ∧
      ((∀ form, c.errand ≠ .register form) → e = b.disk) := by
  rcases c.errand_cases with ⟨hready, herrand⟩ | ⟨hready, herrand⟩
  · rw [backend_processBy hready, herrand]
    refine h.unregistered hsave fun form hform => hreg form ?_
    exact ⟨herrand.trans hform.asked, hform.new, hform.saved⟩
  · rw [backend_processBy_of_not_ready hready, herrand]
    exact ⟨b.disk, rfl, fun hfiled => .refl (h.file hfiled).1, nofun, fun _ => rfl⟩

theorem agrees_disk (h : Agrees path filed t₀ since b) {e : Disk}
    (hkeeps : filed → Keeps path b.disk e) : Agrees path filed t₀ since { b with disk := e } where
  file := by
    intro hfiled
    obtain ⟨hs, hload⟩ := h.file hfiled
    exact ⟨(hkeeps hfiled).sited, ((hkeeps hfiled).load hs.tree hload).1⟩
  known := h.known
  digests := h.digests

theorem Served.agrees (h : Served path filed t₀ since b) : Agrees path filed t₀ since b := by
  induction h with
  | preloaded sited h known =>
    exact ⟨fun hfiled => ⟨sited hfiled, h⟩, rfl, fun name => by rw [List.append_nil]; rfl⟩
  | registered _ hsave root hreg ih => exact (agrees_registered ih hsave hreg root).2.1
  | served _ hsave root hreg ih =>
    obtain ⟨e, heq, hkeeps, -⟩ := agrees_served ih hsave hreg root
    rw [heq]
    exact agrees_disk ih hkeeps
  | disk _ hkeeps ih => exact agrees_disk ih hkeeps

/-- A form that cannot be read is answered as a bad request. -/
theorem status_unreadable (hunreadable : c.errand = .unreadable) (save : Save) (root : String)
    (b : Backend) : (c.processBy save root b).2.1.status = some .badRequest ∧
      (Reached .processing c → Refused (c.processBy save root b)) := by
  obtain ⟨hready, herrand⟩ := ready_of_errand (by rw [hunreadable]; exact nofun)
  have hselect := Site.selectPageBy_unreadable save b (herrand.symm.trans hunreadable)
  have heq : c.processBy save root b =
      ((c.parse.2.answer .malformed).1, (c.parse.2.answer .malformed).2, b) := by
    rcases hparse : c.parse with ⟨v, d⟩
    rw [hparse] at hready hselect
    cases hready
    simp only [processBy, hparse, hselect]
  rw [heq]
  constructor
  · obtain ⟨output, total, -, hrespond⟩ := respond_eq .badRequest c.parse.2
    simp only [answer, statusOf?, hrespond]
  · intro hreached
    have hreceiving : Receiving c := hreached.consistent
    exact answer_malformed b hreceiving.parse_output
      (hreceiving.unanswered.parse hreceiving.held.cursors).file

/-- What a request does, after any other requests.  It registers the name in its form, so
that one row is added and the login page is selected; or else it leaves the table, its
file and the copy for logins alone.  A registration that does not succeed selects the page
that says so, and a login is welcome if its name was loaded or has been registered with
that password.  What is said of the file holds where a table can be kept at the path. -/
theorem Served.credentials (h : Served path filed t₀ since b) (hsave : Proper save) (root : String)
    (c : Connection) {r : Except Fault ProcessOutcome × Connection × Backend}
    (hr : c.processBy save root b = r) :
    (∀ form, c.Registers save b form → c.pageBy save b = some Site.loginPage ∧
      r.2.2.table.rows.Perm ((form.user, hashPassword form.password) :: b.table.rows) ∧
      r.2.2.known.Perm ((form.user, hashPassword form.password) :: b.known) ∧
      (filed → text? r.2.2.disk path = some (Accounts.TableFile.write r.2.2.table.rows))) ∧
    ((∀ form, ¬c.Registers save b form) → r.2.2.table = b.table ∧ r.2.2.known = b.known ∧
      (filed → text? r.2.2.disk path = text? b.disk path)) ∧
    ((∀ form, c.errand ≠ .register form) → r.2.2 = b) ∧
    (∀ form, c.errand = .register form → ¬c.Registers save b form →
      c.pageBy save b = some Site.registerErrorPage) ∧
    (c.errand = .unreadable → r.2.1.status = some .badRequest ∧
      (Reached .processing c → Refused r)) ∧
    ∀ form, c.errand = .login form → c.pageBy save b =
      some (if Rows.digest? (t₀.rows ++ since) form.user = some (hashPassword form.password) then
        Site.welcomePage else Site.loginErrorPage) := by
  subst hr
  have hagrees := h.agrees
  refine ⟨?_, ?_, ?_, ?_, fun hunreadable => status_unreadable hunreadable save root b, ?_⟩
  · intro form hreg
    obtain ⟨hpage, hafter, htable, htext⟩ := agrees_registered hagrees hsave hreg root
    have hrows := Rows.perm_insert hreg.new (hashPassword form.password)
    refine ⟨hpage, by rw [htable]; exact hrows, ?_, fun hfiled => by rw [htable, htext hfiled]⟩
    rw [hafter.known, htable, hagrees.known]
    exact hrows
  · intro hreg
    obtain ⟨e, heq, hkeeps, -⟩ := agrees_served hagrees hsave hreg root
    rw [heq]
    refine ⟨rfl, rfl, fun hfiled => ?_⟩
    obtain ⟨hs, hload⟩ := hagrees.file hfiled
    exact ((hkeeps hfiled).load hs.tree hload).2
  · intro hidle
    have hnone (form : Credentials) : ¬c.Registers save b form := fun hreg => hidle form hreg.asked
    obtain ⟨e, heq, -, -, hdisk⟩ := agrees_served hagrees hsave hnone root
    rw [heq, hdisk hidle]
  · intro form hasked hreg
    have hnone (other : Credentials) : ¬c.Registers save b other := by
      intro hother
      cases hasked.symm.trans hother.asked
      exact hreg hother
    obtain ⟨e, -, -, hpage, -⟩ := agrees_served hagrees hsave hnone root
    exact hpage form hasked
  · intro form hlogin
    obtain ⟨-, herrand⟩ := ready_of_errand (by rw [hlogin]; exact nofun)
    rw [pageBy, hagrees.login (herrand.symm.trans hlogin)]

/-- A connection on which a form has arrived behind its head. -/
def posting (url body : String) : Connection where
  input := (Text.encode body).toArray
  filled := (Text.encode body).length
  phase := .body
  request := { method := .post, url, contentLength := (Text.encode body).length }

theorem Served.credentials_registered_then_welcome :
    let b : Backend := { disk := {}, table := { path := "users.json" } }
    let c := posting "/3" "user=k&password=v"
    let d := posting "/2" "user=k&password=v"
    c.pageBy Table.saveOn b = some Site.loginPage ∧
      d.pageBy Table.saveOn (c.process "/srv" b).2.2 = some Site.welcomePage := by
  intro b c d
  have hserved : Served "users.json" True b.table [] b :=
    .preloaded (fun _ => Accounts.sited_fresh) (by cbv) []
  have hreg : c.Registers Table.saveOn b ⟨"k", "v"⟩ := ⟨by cbv, rfl, by cbv⟩
  have hlogin : d.errand = .login ⟨"k", "v"⟩ := by cbv
  have hafter := hserved.registered Accounts.Backend.proper_saveOn "/srv" hreg
  have hfirst := (Served.credentials hserved Accounts.Backend.proper_saveOn "/srv" c rfl).1 _ hreg
  have hsecond := (Served.credentials hafter Accounts.Backend.proper_saveOn "/srv" d rfl).2.2.2.2.2
    _ hlogin
  rw [processBy_saveOn] at hsecond
  have hdigest : Rows.digest? [("k", hashPassword "v")] "k" = some (hashPassword "v") := by
    rw [Rows.digest?_cons]
    rfl
  exact ⟨hfirst.1, hsecond.trans (congrArg some (if_pos hdigest))⟩

/-- Where the name of the draft is that of a link to the table, a name is registered and
the file is lost. -/
theorem registered_without_file :
    let b : Backend :=
      { disk := { entries := #[.directory Disk.directoryMode 0 [("users.json.tmp", 1)],
          .link "users.json"] }
        table := { path := "users.json" } }
    let c := posting "/3" "user=k&password=v"
    Table.load b.disk "users.json" = .ok b.table ∧ c.pageBy Table.saveOn b = some Site.loginPage ∧
      (c.process "/srv" b).2.2.table.rows = [("k", hashPassword "v")] ∧
      text? (c.process "/srv" b).2.2.disk "users.json" = none := by
  intro b c
  have hready : c.parse.1 = .ok .ready := by cbv
  have hprocess : (c.process "/srv" b).2.2 = (Site.selectPage c.parse.2.request b).2 := by
    rw [← processBy_saveOn, backend_processBy hready, Site.selectPageBy_saveOn]
  rw [hprocess]
  refine ⟨?_, ?_, ?_, ?_⟩ <;> cbv

end Connection
end PageServer
