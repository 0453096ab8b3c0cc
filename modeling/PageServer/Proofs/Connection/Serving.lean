import PageServer.Proofs.Connection.Conversation
import PageServer.Proofs.Connection.Rereading
import PageServer.Proofs.Disk.Approach
import PageServer.Proofs.Site.Pages

/-!
# What is served

The page of a request is looked up below the document root, and what is found there
decides the status: whether there is anything, whether others may read it, whether it is a
directory, and whether it can be mapped, in this order.  A file that is found is the body
of the response as it is.
-/

namespace PageServer

namespace Disk

theorem stat_eq_ok {d : Disk} {path : String} {entry : Entry} :
    d.stat path = .ok entry ↔ ∃ n, d.find path = .ok n ∧ d.entry? n = some entry := by
  rw [stat, bind_eq_ok]
  apply exists_congr
  intro n
  cases d.entry? n <;> simp

/-- What is mapped is the file that the path leads to. -/
theorem found_of_map {d : Disk} {path : String} {m : Mapping} (h : d.map path = .ok m) :
    d.find path = .ok m.number ∧ ∃ mode, d.entry? m.number = some (.file mode m.bytes) := by
  obtain ⟨n, hopen, hmap⟩ := bind_eq_ok.mp h
  obtain ⟨-, -, hfind⟩ := bind_eq_ok.mp hopen
  obtain ⟨n', hn, hrequire⟩ := bind_eq_ok.mp hfind
  obtain ⟨-, -, rfl⟩ := map_eq_ok.mp hrequire
  split at hmap
  · cases hmap
  · next mode data _ hentry =>
    obtain rfl := Except.ok.inj hmap
    exact ⟨hn, mode, hentry⟩
  · cases hmap

theorem stat_of_map {d : Disk} {path : String} {m : Mapping} (h : d.map path = .ok m) :
    ∃ mode, d.stat path = .ok (.file mode m.bytes) := by
  obtain ⟨hfind, mode, hentry⟩ := found_of_map h
  exact ⟨mode, stat_eq_ok.mpr ⟨m.number, hfind, hentry⟩⟩

end Disk

namespace Text

theorem length_encode_digits (n : Nat) :
    (encode (String.ofList (digits n))).length = (digits n).length := by
  have hone {l : List Char} (h : ∀ c ∈ l, c ∈ digits n) :
      (l.flatMap String.utf8EncodeChar).length = l.length := by
    induction l with
    | nil => rfl
    | cons c l ih =>
      rw [List.flatMap_cons, List.length_append, ih fun c hc => h c (List.mem_cons_of_mem _ hc),
        String.length_utf8EncodeChar, utf8Size_of_mem_digits (h c List.mem_cons_self),
        List.length_cons, Nat.add_comm]
  rw [encode_ofList]
  exact hone fun _ hc => hc

/-- A word has at most twenty digits. -/
theorem length_digits_le {n : Nat} (h : n < wordRange) : (digits n).length ≤ 20 :=
  (Nat.length_toDigits_le_iff (by decide) (by decide)).mpr
    (Nat.lt_trans h (by decide))

end Text

namespace Connection

open Accounts (Backend)
open Http

variable {c : Connection}

/-! ## What is found at a path -/

/-- The status that answers what is found at a path. -/
structure StatusFor (disk : Disk) (path : String) (s : Status) : Prop where
  notFound : s = .notFound ↔ ∃ e, disk.stat path = .error e
  forbidden : s = .forbidden ↔ ∃ entry, disk.stat path = .ok entry ∧ entry.isReadable = false
  badRequest : s = .badRequest ↔ ∃ entry, disk.stat path = .ok entry ∧
    entry.isReadable = true ∧ entry.isDirectory = true
  internalError : s = .internalError ↔ ∃ entry, disk.stat path = .ok entry ∧
    entry.isReadable = true ∧ entry.isDirectory = false ∧ entry.size ≠ 0 ∧
      ∃ e, disk.map path = .error e
  ok : s = .ok ↔ ∃ entry, disk.stat path = .ok entry ∧
    entry.isReadable = true ∧ entry.isDirectory = false ∧
      (entry.size = 0 ∨ ∃ m, disk.map path = .ok m)

theorem statusFor_lookup (disk : Disk) (path : String) :
    ∃ s, statusOf? (lookup disk path).1 = some s ∧ StatusFor disk path s := by
  unfold lookup
  cases hstat : disk.stat path with
  | error e => exact ⟨.notFound, rfl, by constructor <;> simp [hstat]⟩
  | ok entry =>
    cases hreadable : entry.isReadable with
    | false =>
      exact ⟨.forbidden, by simp [hreadable, statusOf?],
        by constructor <;> simp [hstat, hreadable]⟩
    | true =>
      cases hdirectory : entry.isDirectory with
      | true =>
        exact ⟨.badRequest, by simp [hreadable, hdirectory, statusOf?],
          by constructor <;> simp [hstat, hreadable, hdirectory]⟩
      | false =>
        by_cases hsize : entry.size = 0
        · exact ⟨.ok, by simp [hreadable, hdirectory, hsize, statusOf?],
            by constructor <;> simp [hstat, hreadable, hdirectory, hsize]⟩
        · cases hmap : disk.map path with
          | error e =>
            exact ⟨.internalError, by simp [hreadable, hdirectory, hsize, statusOf?],
              by constructor <;> simp [hstat, hreadable, hdirectory, hsize, hmap]⟩
          | ok m =>
            exact ⟨.ok, by simp [hreadable, hdirectory, hsize, statusOf?],
              by constructor <;> simp [hstat, hreadable, hdirectory, hmap]⟩

theorem found_of_statusOf? {v : Verdict} (h : statusOf? v = some .ok) : v = .found := by
  cases v <;> simp_all [statusOf?]

/-- The file that is found is the one that the path leads to, unless it is empty. -/
theorem lookup_file_eq (disk : Disk) (path : String) (hstatus : (lookup disk path).1 = .found)
    {entry : Entry} (hentry : disk.stat path = .ok entry) :
    entry.size = 0 ∧ (lookup disk path).2 = none ∨
      ∃ mode m, entry = .file mode m.bytes ∧ m.bytes ≠ [] ∧ (lookup disk path).2 = some m := by
  unfold lookup at hstatus ⊢
  rw [hentry] at hstatus ⊢
  simp only at hstatus ⊢
  split at hstatus
  · cases hstatus
  · split at hstatus
    · cases hstatus
    · split at hstatus
      · next hreadable hdirectory hsize =>
        left
        simp [hreadable, hdirectory, hsize]
      · next hreadable hdirectory hsize =>
        right
        cases hmap : disk.map path with
        | error e => simp [hmap] at hstatus
        | ok m =>
          obtain ⟨mode, hstat⟩ := Disk.stat_of_map hmap
          obtain rfl := Except.ok.inj (hentry.symm.trans hstat)
          refine ⟨mode, m, rfl, ?_, ?_⟩
          · intro hnil
            exact hsize (by rw [Entry.size, hnil]; rfl)
          · simp [hreadable, hdirectory, hsize]

theorem map_of_lookup {disk : Disk} {path : String} {m : Mapping}
    (h : (lookup disk path).2 = some m) : disk.map path = .ok m := by
  unfold lookup at h
  split at h
  · cases h
  · split at h
    · cases h
    · split at h
      · cases h
      · split at h
        · cases h
        · split at h
          · cases h
          · next file hfile =>
            obtain rfl := Option.some.inj h
            exact hfile

/-! ## Making room for the response -/

theorem length_head_le (s : Status) {n : Nat} (keepAlive : Bool) (h : n < wordRange) :
    (head s n keepAlive).length ≤ 110 := by
  have hstatus : (ResponseBuffer.statusLine s).length ≤ 36 := by
    cases s <;> decide
  have hlength : (ResponseBuffer.contentLengthLine n).length ≤ 37 := by
    have hdigits := Text.length_digits_le h
    have heq : ResponseBuffer.contentLengthLine n =
        Text.encode "Content-Length:" ++ Text.encode (String.ofList (Text.digits n)) ++
          Text.encode "\r\n" := by
      rw [← Text.encode_append, ← Text.encode_append]
      rfl
    have hname : (Text.encode "Content-Length:").length = 15 := by decide
    have hend : (Text.encode "\r\n").length = 2 := by decide
    rw [heq, List.length_append, List.length_append, Text.length_encode_digits]
    omega
  have hconnection : (ResponseBuffer.connectionLine keepAlive).length ≤ 24 := by
    cases keepAlive <;> decide
  have hblank : ResponseBuffer.blankLine.length = 2 := by decide
  simp only [head, List.length_append]
  omega

theorem addHead_fits (s : Status) {n : Nat} (keepAlive : Bool) (h : n < wordRange) :
    (addHead s n keepAlive { capacity := writeCapacity }).1 = .ok true := by
  have hle := length_head_le s keepAlive h
  have hmemory : writeCapacity ≤ memoryLimit := by decide
  have hcapacity : writeCapacity = 1024 := rfl
  simp only [head, List.length_append] at hle
  have hstatus := ResponseBuffer.append_fits { capacity := writeCapacity }
    (ResponseBuffer.statusLine s) hmemory (by simp only [List.length_nil]; omega)
  have hlength := ResponseBuffer.append_fits
    { capacity := writeCapacity, bytes := [] ++ ResponseBuffer.statusLine s }
    (ResponseBuffer.contentLengthLine n) hmemory
    (by simp only [List.length_append, List.length_nil]; omega)
  have hconnection := ResponseBuffer.append_fits
    { capacity := writeCapacity, bytes := [] ++ ResponseBuffer.statusLine s ++
      ResponseBuffer.contentLengthLine n }
    (ResponseBuffer.connectionLine keepAlive) hmemory
    (by simp only [List.length_append, List.length_nil]; omega)
  have hblank := ResponseBuffer.append_fits
    { capacity := writeCapacity, bytes := [] ++ ResponseBuffer.statusLine s ++
      ResponseBuffer.contentLengthLine n ++ ResponseBuffer.connectionLine keepAlive }
    ResponseBuffer.blankLine hmemory
    (by simp only [List.length_append, List.length_nil]; omega)
  rw [addHead, ResponseBuffer.addStatusLine, ResponseBuffer.andThen_fits hstatus,
    ResponseBuffer.addHeaders, ResponseBuffer.addContentLength, ResponseBuffer.andThen_fits hlength,
    ResponseBuffer.addConnection, ResponseBuffer.andThen_fits hconnection,
    ResponseBuffer.addBlankLine, hblank]

/-- A response with a file fits as long as its length is a word. -/
theorem respond_file_fits {m : Mapping} (houtput : c.output = { capacity := writeCapacity })
    (hfile : c.file = some m) (h : m.length < wordRange) : (respond .ok c).1 = .ok true := by
  unfold respond
  simp only [houtput, hfile]
  exact addHead_fits .ok _ h

/-! ## The answer to a request -/

theorem dispatch_page {root page : String} {b b' : Backend} (hfile : c.file = none)
    (hpage : Site.selectPage c.request b = (some page, b')) :
    dispatch root b c = ((lookup b'.disk (Site.realPath root page)).1,
      { c with file := (lookup b'.disk (Site.realPath root page)).2 }, b') := by
  unfold dispatch
  simp only [hpage, hfile, Option.or_none]

theorem dispatch_unreadable {root : String} {b b' : Backend}
    (hpage : Site.selectPage c.request b = (none, b')) :
    dispatch root b c = (.malformed, c, b') := by
  unfold dispatch
  rw [hpage]

theorem answer_of_statusOf? {v : Verdict} {s : Status} (h : statusOf? v = some s) :
    c.answer v = ((respond s c).1.map fun fits =>
      if fits then .readyToWrite else .abort, (respond s c).2) := by
  cases v with
  | incomplete | ready => cases h
  | found | malformed | missing | forbidden | broken =>
    obtain rfl := Option.some.inj h
    rfl

/-- The answer has the status of the verdict and the file that is there, and is ready to
be sent where the length of the body is a word. -/
structure AnswersWith (s : Status) (c : Connection)
    (r : Except Fault ProcessOutcome × Connection) : Prop where
  status : r.2.status = some s
  file : r.2.file = c.file
  sent : r.2.body.length < wordRange → r.1 = .ok .readyToWrite ∧ Framed s c.request.keepAlive r.2

theorem answersWith {v : Verdict} {s : Status} (h : statusOf? v = some s)
    (houtput : c.output = { capacity := writeCapacity }) (hfile : c.file = none ∨ s = .ok) :
    AnswersWith s c (c.answer v) := by
  obtain ⟨output, total, -, heq⟩ := respond_eq s c
  rw [answer_of_statusOf? h]
  refine ⟨by rw [heq], by rw [heq], ?_⟩
  intro hlength
  have hfits : (respond s c).1 = .ok true := by
    cases hc : c.file with
    | none => exact respond_fits s houtput hc
    | some m =>
      obtain rfl : s = .ok := hfile.resolve_left (by simp [hc])
      refine respond_file_fits houtput hc ?_
      rw [heq] at hlength
      simp only [body, hc] at hlength
      exact hlength
  exact ⟨by rw [hfits]; rfl, respond_framed hfits hfile (by rw [houtput])⟩

/-- What is served for a path: the status, and with a status of success the file that the
path leads to, or a fixed page where the file is empty. -/
structure ServedFrom (disk : Disk) (path : String) (s : Status) (d : Connection) : Prop where
  status : StatusFor disk path s
  file : s = .ok → ∀ {mode data}, disk.stat path = .ok (.file mode data) → data ≠ [] →
    d.body = data
  empty : s = .ok → ∀ {entry}, disk.stat path = .ok entry → entry.size = 0 →
    d.body = Text.encode "<html><body></body></html>"

/-- The answer to what is looked up serves it. -/
theorem served_lookup {disk : Disk} {path : String} {s : Status} {d : Connection}
    (hverdict : statusOf? (lookup disk path).1 = some s) (hfound : StatusFor disk path s)
    (hstatus : d.status = some s) (hfile : d.file = (lookup disk path).2) :
    ServedFrom disk path s d := by
  refine ⟨hfound, ?_, ?_⟩
  · rintro rfl mode data hstat hdata
    rcases lookup_file_eq disk path (found_of_statusOf? hverdict) hstat with
      ⟨hsize, -⟩ | ⟨mode', m, hentry, -, hm⟩
    · exact absurd (List.length_eq_zero_iff.mp hsize) hdata
    · obtain ⟨-, rfl⟩ := Entry.file.inj hentry
      rw [body, hfile, hm]
  · rintro rfl entry hstat hsize
    rcases lookup_file_eq disk path (found_of_statusOf? hverdict) hstat with
      ⟨-, hnone⟩ | ⟨mode, m, rfl, hbytes, -⟩
    · rw [body, hfile, hnone, hstatus]
      rfl
    · exact absurd (List.length_eq_zero_iff.mp hsize) hbytes

theorem Receiving.process_served (h : Receiving c) (hready : c.parse.1 = .ok .ready) (root : String)
    (b : Backend) :
    let r := c.parse.2.request
    let chosen := Site.selectPage r b
    let d := (c.process root b).2.1
    (c.process root b).2.2 = chosen.2 ∧ ∃ s, d.status = some s ∧
      (d.body.length < wordRange →
        (c.process root b).1 = .ok .readyToWrite ∧ Framed s r.keepAlive d) ∧
      match chosen.1 with
      | none => s = .badRequest
      | some page => ServedFrom chosen.2.disk (Site.realPath root page) s d := by
  have hfile : c.parse.2.file = none := (h.unanswered.parse h.held.cursors).file
  have houtput := h.parse_output
  rw [process_ready root b hready]
  generalize c.parse.2 = c' at hfile houtput
  rcases hchosen : Site.selectPage c'.request b with ⟨_ | page, b'⟩
  · have hanswer := answersWith (v := .malformed) rfl houtput (.inl hfile)
    simp only [hchosen, dispatch_unreadable hchosen]
    exact ⟨trivial, .badRequest, hanswer.status, hanswer.sent, rfl⟩
  · obtain ⟨s, hverdict, hfound⟩ := statusFor_lookup b'.disk (Site.realPath root page)
    have hfits : (lookup b'.disk (Site.realPath root page)).2 = none ∨ s = .ok := by
      cases hm : (lookup b'.disk (Site.realPath root page)).2 with
      | none => exact .inl rfl
      | some m =>
        rw [lookup_file hm] at hverdict
        exact .inr (Option.some.inj hverdict).symm
    have hanswer := answersWith
      (c := { c' with file := (lookup b'.disk (Site.realPath root page)).2 })
      hverdict houtput hfits
    simp only [hchosen, dispatch_page hfile hchosen]
    exact ⟨trivial, s, hanswer.status, hanswer.sent,
      served_lookup hverdict hfound hanswer.status hanswer.file⟩

/-- The file that goes out behind the head is the one that was looked up. -/
theorem Receiving.process_file (h : Receiving c) (hready : c.parse.1 = .ok .ready)
    {root page : String} {b b' : Backend}
    (hpage : Site.selectPage c.parse.2.request b = (some page, b')) :
    (c.process root b).2.1.file = (lookup b'.disk (Site.realPath root page)).2 := by
  have hfile : c.parse.2.file = none := (h.unanswered.parse h.held.cursors).file
  rw [process_ready root b hready]
  simp only [dispatch_page hfile hpage]
  obtain ⟨keepAlive, status, output, total, -, heq⟩ := answer_eq
    (lookup b'.disk (Site.realPath root page)).1
    { c.parse.2 with file := (lookup b'.disk (Site.realPath root page)).2 }
  rw [heq]

/-- What a complete request is answered with.  The first line gives the method and the
url, and these choose the page; only a posted registration changes accounts and disk.  A
form that cannot be read makes the request a bad one.  Otherwise the page is looked up
below the root: the status is by what is there, and what is found is sent byte for byte
behind a head that tells its length. -/
theorem Reached.serves (h : Reached .processing c) {r : Request} (ready : Ready c.received r)
    (root : String) (b : Backend) :
    let chosen := Site.selectPage r b
    let d := (c.process root b).2.1
    (∃ line, StartsWith c.received line ∧ r.method = line.method ∧
      r.url = if line.path = ['/'] then "/judge.html" else String.ofList line.path) ∧
    Site.Chosen b r chosen.1 ∧
    ((r.method = .post → ¬Site.Marked r.url '3') → chosen.2 = b) ∧
    (c.process root b).2.2 = chosen.2 ∧
    ∃ s, d.status = some s ∧
      (d.body.length < wordRange → (c.process root b).1 = .ok .readyToWrite ∧
        d.response = head s d.body.length d.request.keepAlive ++ d.body ∧
        d.total = d.response.length) ∧
      match chosen.1 with
      | none => s = .badRequest
      | some page => ServedFrom chosen.2.disk (root ++ page) s d := by
  have hreceiving : Receiving c := h.consistent
  obtain ⟨hready, hrequest⟩ := (h.ready_iff r).mpr ready
  obtain ⟨hbackend, s, hstatus, hsent, hserved⟩ := hreceiving.process_served hready root b
  rw [hrequest] at hbackend hsent hserved
  refine ⟨ready.startsWith, Site.chosen_selectPage b r, Site.selectPage_unchanged b, hbackend, s,
    hstatus, ?_, hserved⟩
  intro hlength
  obtain ⟨houtcome, hframed⟩ := hsent hlength
  exact ⟨houtcome, hframed.response, hframed.total⟩

/-- Bytes that start a request can be what a connection has received. -/
theorem exists_reached_ready {B : Bytes} {r : Request} (ready : Ready B r) (hB : B ≠ [])
    (hfits : B.length ≤ readCapacity) : ∃ c, Reached .processing c ∧ Ready c.received r := by
  have hattached : Conversation .reading (fresh #[] 5 ⟨.v4 10 0 0 1, 4000⟩) [] [] :=
    .attach .start 5 ⟨.v4 10 0 0 1, 4000⟩
  obtain ⟨c, hc, hreceived, -⟩ := hattached.receive hB hfits
  refine ⟨c, hc.reached, ?_⟩
  rw [hreceived]
  exact ready

theorem Reached.file_welcome (h : Reached .processing c)
    (ready : Ready c.received { url := "/judge.html", version := "HTTP/1.1" }) :
    (c.process "/srv" welcomeSite).2.1.file = some ⟨2, Text.encode "Welcome!", 0⟩ := by
  have hreceiving : Receiving c := h.consistent
  obtain ⟨hparse, hrequest⟩ := (h.ready_iff _).mpr ready
  have hpage : Site.selectPage c.parse.2.request welcomeSite =
      (some "/judge.html", welcomeSite) := by
    rw [hrequest]
    rfl
  rw [hreceiving.process_file hparse hpage]
  cbv

theorem Reached.serves_welcome :
    ∃ c, Reached .processing c ∧ Ready c.received { url := "/judge.html", version := "HTTP/1.1" } ∧
      (c.process "/srv" welcomeSite).1 = .ok .readyToWrite ∧
      (c.process "/srv" welcomeSite).2.1.status = some .ok ∧
      (c.process "/srv" welcomeSite).2.1.body = Text.encode "Welcome!" := by
  have hattached : Conversation .reading (fresh #[] 5 ⟨.v4 10 0 0 1, 4000⟩) [] [] :=
    .attach .start 5 ⟨.v4 10 0 0 1, 4000⟩
  obtain ⟨c, hc, hreceived, -⟩ := hattached.receive (B := rootRequest) (by decide) (by decide)
  have hready : Ready c.received { url := "/judge.html", version := "HTTP/1.1" } := by
    rw [hreceived]
    exact ready_rootRequest
  obtain ⟨-, -, -, -, s, hstatus, hsent, hserved⟩ := hc.reached.serves hready "/srv" welcomeSite
  have hstat : welcomeSite.disk.stat "/srv/judge.html" =
      .ok (.file Disk.fileMode (Text.encode "Welcome!")) := by
    cbv
  have hmap : welcomeSite.disk.map "/srv/judge.html" = .ok ⟨2, Text.encode "Welcome!", 0⟩ := by
    cbv
  replace hserved : ServedFrom welcomeSite.disk "/srv/judge.html" s
    (c.process "/srv" welcomeSite).2.1 := hserved
  obtain rfl : s = .ok :=
    hserved.status.ok.mpr ⟨_, hstat, by decide, by decide, .inr ⟨_, hmap⟩⟩
  have hbody := hserved.file rfl hstat (by decide)
  exact ⟨c, hc.reached, hready, (hsent (by rw [hbody]; decide)).1, hstatus, hbody⟩

end Connection
end PageServer
