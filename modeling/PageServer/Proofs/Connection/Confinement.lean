import PageServer.Proofs.Connection.Serving
import PageServer.Proofs.Disk.Descent
import PageServer.Proofs.Http.RequestLine

/-!
# Staying below the document root

The page of a request begins with a slash, whatever the target in front of it was.  The
path that is looked up is the root with this page behind it, so its names begin with those
of the root.  In a tree without links a url that never goes up leads to where the root
leads or to something below.
-/

namespace PageServer

/-! ## Registering makes no link -/

namespace Accounts

theorem Table.linkless_insert {d : Disk} (h : d.Linkless) (t : Table) (name password : String) :
    (t.insert d name password).2.2.Linkless := by
  have hsaved := h.applyAll ({ t with rows := t.rows.insert name (hashPassword password) }).savePlan
  unfold Table.insert
  simp only
  split
  · exact h
  · split
    · next heq =>
      rw [heq] at hsaved
      exact hsaved
    · next heq =>
      rw [heq] at hsaved
      exact hsaved

theorem Backend.linkless_register {b : Backend} (h : b.disk.Linkless) (name password : String) :
    (b.register name password).2.disk.Linkless := by
  have hinsert : (b.insert name password).2.disk.Linkless := b.table.linkless_insert h name password
  unfold Backend.register
  split
  · exact h
  · split
    · next heq =>
      rw [heq] at hinsert
      exact hinsert
    · exact hinsert

end Accounts

namespace Site

open Accounts (Backend)

theorem linkless_registerAnswer {b : Backend} (h : b.disk.Linkless) (form : Credentials) :
    (registerAnswer b form).2.disk.Linkless := by
  have hregister := b.linkless_register h form.user form.password
  unfold registerAnswer
  split
  · next heq =>
    rw [heq] at hregister
    exact hregister
  · next heq =>
    rw [heq] at hregister
    exact hregister

theorem linkless_selectPage {b : Backend} (h : b.disk.Linkless) (r : Http.Request) :
    (selectPage r b).2.disk.Linkless := by
  unfold selectPage
  split
  · exact h
  · split
    · next form _ =>
      exact linkless_registerAnswer h form
    · exact h
  · exact h
  · exact h
  · exact h

/-! ## Pages begin with a slash -/

/-- The pages that do not depend on the url. -/
def fixedPages : List String :=
  [registerPage, loginPage, welcomePage, loginErrorPage, registerErrorPage]

theorem selectPage_cases {r : Http.Request} {b : Backend} {page : String}
    (h : (selectPage r b).1 = some page) : page ∈ fixedPages ∨ page = r.url := by
  have hlogin (form : Credentials) : loginAnswer b form ∈ fixedPages := by
    unfold loginAnswer
    split <;> simp [fixedPages]
  have hregister (form : Credentials) : (registerAnswer b form).1 ∈ fixedPages := by
    unfold registerAnswer
    split <;> simp [fixedPages]
  unfold selectPage at h
  split at h
  · obtain ⟨form, -, rfl⟩ := Option.map_eq_some_iff.mp h
    exact .inl (hlogin form)
  · split at h
    · obtain rfl := Option.some.inj h
      exact .inl (hregister _)
    · cases h
  · obtain rfl := Option.some.inj h
    exact .inl (by simp [fixedPages])
  · obtain rfl := Option.some.inj h
    exact .inl (by simp [fixedPages])
  · exact .inr (Option.some.inj h).symm

/-- A text that begins with a slash. -/
def Rooted (text : String) : Prop :=
  ∃ below, text = "/" ++ below

theorem rooted_iff {text : String} : Rooted text ↔ text.toList.head? = some '/' := by
  constructor
  · rintro ⟨below, rfl⟩
    rw [String.toList_append]
    rfl
  · intro h
    obtain ⟨below, hbelow⟩ := List.head?_eq_some_iff.mp h
    refine ⟨String.ofList below, ?_⟩
    simp [← String.toList_inj, hbelow]

theorem rooted_of_mem_fixedPages {page : String} (h : page ∈ fixedPages) :
    Rooted page ∧ ".." ∉ Disk.pieces page := by
  rw [rooted_iff]
  simp only [fixedPages, List.mem_cons, List.not_mem_nil, or_false] at h
  rcases h with rfl | rfl | rfl | rfl | rfl <;> decide

/-- Where the url begins with a slash, so does the page, and where the url never goes up,
neither does the page. -/
theorem rooted_selectPage {r : Http.Request} {b : Backend} {page : String}
    (hurl : Rooted r.url) (h : (selectPage r b).1 = some page) :
    Rooted page ∧ (".." ∉ Disk.pieces r.url → ".." ∉ Disk.pieces page) := by
  rcases selectPage_cases h with hfixed | rfl
  · obtain ⟨hrooted, hup⟩ := rooted_of_mem_fixedPages hfixed
    exact ⟨hrooted, fun _ => hup⟩
  · exact ⟨hurl, id⟩

end Site

/-! ## What is found -/

namespace Disk

/-- Where `root` leads, or below it. -/
def Within (d : Disk) (root : String) (n : Nat) : Prop :=
  ∃ top, d.find root = .ok top ∧ Under d top n

end Disk

namespace Connection

open Accounts (Backend)
open Http

variable {c : Connection}

theorem rooted_url {line : RequestLine} (h : line.path.head? = some '/') {url : String}
    (hurl : url = if line.path = ['/'] then welcomePath else String.ofList line.path) :
    Site.Rooted url := by
  rw [Site.rooted_iff, hurl]
  split
  · rfl
  · rw [String.toList_ofList]
    exact h

/-- The page that answers a whole request begins with a slash, whatever scheme and host
the target has in front of its path, and the path that is looked up has the names of the
root in front of those of the page.  In a tree without links, below a root that is not
empty, a url that never goes up leads to what the root leads to or to something below it,
and to no other entry: neither what is asked about nor the file that is sent lies anywhere
else. -/
theorem Reached.confined (h : Reached .processing c) {r : Request} (ready : Ready c.received r)
    (root : String) (b : Backend) :
    let chosen := Site.selectPage r b
    let disk := chosen.2.disk
    (∃ l rest text line, c.received = l ++ cr :: lf :: rest ∧ Text.decode? l = some text ∧
      Spells text.toList line ∧
      r.url = if line.path = ['/'] then "/judge.html" else String.ofList line.path) ∧
    ∀ page, chosen.1 = some page →
      (∃ below, page = "/" ++ below ∧ Site.realPath root page = root ++ "/" ++ below) ∧
      (Disk.Route.ofPath (Site.realPath root page)).names =
        (Disk.Route.ofPath root).names ++ (Disk.Route.ofPath page).names ∧
      (root ≠ "" → b.disk.Linkless → ".." ∉ Disk.pieces r.url →
        (∀ entry, disk.stat (Site.realPath root page) = .ok entry →
          ∃ n, disk.find (Site.realPath root page) = .ok n ∧ disk.entry? n = some entry ∧
            disk.Within root n) ∧
        ∀ m, (c.process root b).2.1.file = some m →
          disk.find (Site.realPath root page) = .ok m.number ∧
            (∃ mode, disk.entry? m.number = some (.file mode m.bytes)) ∧
            disk.Within root m.number) := by
  intro chosen disk
  have hreceiving : Receiving c := h.consistent
  obtain ⟨hready, hrequest⟩ := (h.ready_iff r).mpr ready
  obtain ⟨line, ⟨l, rest, text, hreceived, -, hutf8, hline⟩, -, hurl⟩ := ready.startsWith
  obtain ⟨-, -, -, -, -, -, -, -, hslash⟩ := parse?_eq_some.mp hline
  refine ⟨⟨l, rest, text, line, hreceived, hutf8, parse?_eq_some_iff.mp hline, hurl⟩, ?_⟩
  intro page hpage
  obtain ⟨⟨below, rfl⟩, hup⟩ := Site.rooted_selectPage (rooted_url hslash hurl) hpage
  have hpath : Site.realPath root ("/" ++ below) = root ++ "/" ++ below :=
    String.append_assoc.symm
  have hpieces : Disk.pieces ("/" ++ below) = "" :: Disk.pieces below := by
    have hbehind := Disk.pieces_append_slash "" below
    rwa [String.empty_append] at hbehind
  refine ⟨⟨below, rfl, hpath⟩, ?_, ?_⟩
  · simp only [Disk.names_ofPath, hpath, Disk.pieces_append_slash, hpieces, Disk.namesOf_append]
    rfl
  · intro hroot hlinkless hnot
    have hdisk : disk.Linkless := Site.linkless_selectPage hlinkless r
    have hbelow : ".." ∉ Disk.pieces below := by
      intro hmem
      apply hup hnot
      rw [hpieces]
      exact List.mem_cons_of_mem _ hmem
    rw [hpath]
    have hfound {n : Nat} (hfind : disk.find (root ++ "/" ++ below) = .ok n) :
        disk.Within root n := hdisk.find_append_slash hroot hbelow hfind
    constructor
    · intro entry hstat
      obtain ⟨n, hfind, hentry⟩ := Disk.stat_eq_ok.mp hstat
      exact ⟨n, hfind, hentry, hfound hfind⟩
    · intro m hm
      have hchosen : Site.selectPage c.parse.2.request b = (some ("/" ++ below), chosen.2) := by
        rw [hrequest]
        exact Prod.ext hpage rfl
      rw [hreceiving.process_file hready hchosen, hpath] at hm
      obtain ⟨hfind, hentry⟩ := Disk.found_of_map (map_of_lookup hm)
      exact ⟨hfind, hentry, hfound hfind⟩

/-- A request whose target has a scheme in capitals and dots for a host. -/
def hostRequest : Bytes :=
  joined [Text.encode "GET HTTP://../judge.html HTTP/1.1"] ++ [cr, lf]

theorem ready_hostRequest :
    Ready hostRequest { url := "/judge.html", version := "HTTP/1.1" } := by
  have hline : RequestLine.parse? "GET HTTP://../judge.html HTTP/1.1".toList =
      some ⟨.get, "/judge.html".toList, "HTTP/1.1".toList⟩ := rfl
  have hhead : Accepted [Text.encode "GET HTTP://../judge.html HTTP/1.1"]
      (some { url := "/judge.html", version := "HTTP/1.1" }) :=
    .requestLine (by decide) rfl hline
  exact .intro hhead rfl (by decide)

theorem linkless_welcomeSite : welcomeSite.disk.Linkless := by
  intro n target
  match n with
  | 0 | 1 | 2 => simp [ Disk.entry?, welcomeSite]
  | n + 3 => simp [ Disk.entry?, welcomeSite]

theorem Reached.confined_judge :
    ∃ c, Reached .processing c ∧ Ready c.received { url := "/judge.html", version := "HTTP/1.1" } ∧
      "/srv" ≠ "" ∧ welcomeSite.disk.Linkless ∧ ".." ∉ Disk.pieces "/judge.html" ∧
      ∃ m, (c.process "/srv" welcomeSite).2.1.file = some m ∧ m.bytes = Text.encode "Welcome!" ∧
        welcomeSite.disk.Within "/srv" m.number := by
  obtain ⟨c, hreached, hready⟩ := exists_reached_ready ready_hostRequest (by decide) (by decide)
  have hnot : ".." ∉ Disk.pieces "/judge.html" := by decide
  obtain ⟨-, hconfined⟩ := hreached.confined hready "/srv" welcomeSite
  obtain ⟨-, -, hinside⟩ := hconfined "/judge.html" rfl
  obtain ⟨-, hserved⟩ := hinside (by decide) linkless_welcomeSite hnot
  have hfile := hreached.file_welcome hready
  exact ⟨c, hreached, hready, by decide, linkless_welcomeSite, hnot, _, hfile, rfl,
    (hserved _ hfile).2.2⟩

end Connection
end PageServer
