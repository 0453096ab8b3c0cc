import Mathlib.Data.List.Induction
import PageServer.Proofs.Http.HeaderLine

/-!
# What a block of header lines says

Header lines are added to a request one after the other, each with its own bound for the
body that it may announce.  As long as none is refused, the request is kept alive once a
line asks for it, the last length and the last host count, and nothing else changes.
Therefore lines without a known name may be left out, and lines without a common one may
pass each other.
-/

namespace PageServer
namespace Http

/-- What the last line with a name means, and the old value where no line has the name. -/
inductive Latest {α : Type} (name : String) (means : List Char → α → Prop) (old : α) :
    List (List Char) → α → Prop
  | kept {lines : List (List Char)} (unnamed : ∀ line ∈ lines, ¬HasName name line) :
    Latest name means old lines old
  | replaced {before after : List (List Char)} {line value : List Char} {x : α}
    (named : Names name line value) (meant : means value x)
    (unnamed : ∀ line ∈ after, ¬HasName name line) :
    Latest name means old (before ++ line :: after) x

/-- A line that asks to keep the connection alive. -/
def AsksKeepAlive (line : List Char) : Prop :=
  ∃ value word, Names "Connection" line value ∧ Text.BehindBlanks value word ∧
    Text.eqIgnoreCase word "keep-alive".toList = true

/-- A request is another one with what the lines say. -/
structure Merged (r : Request) (lines : List (List Char)) (r' : Request) : Prop where
  keepAlive : r'.keepAlive = true ↔ r.keepAlive = true ∨ ∃ line ∈ lines, AsksKeepAlive line
  contentLength : Latest "Content-Length"
    (fun value n => ∃ core, Text.Trimmed value core ∧ Text.IsDecimal core n) r.contentLength lines
    r'.contentLength
  host : Latest "Host"
    (fun value h => ∃ word, Text.BehindBlanks value word ∧ h = some (String.ofList word)) r.host
    lines r'.host
  others : r'.method = r.method ∧ r'.url = r.url ∧ r'.version = r.version ∧ r'.body = r.body

/-- A line whose length is no number, or exceeds a word or the bound. -/
def LengthRefused (room : Nat) (line : List Char) : Prop :=
  ∃ value core, Names "Content-Length" line value ∧ Text.Trimmed value core ∧
    ¬∃ n, Text.IsDecimal core n ∧ n ≤ Text.wordMax ∧ n ≤ room

/-- Lines that say the same: some without a known name are left out, and neighbours
without a common one have passed each other. -/
inductive Alike : List (List Char) → List (List Char) → Prop
  | refl (lines : List (List Char)) : Alike lines lines
  | without (before : List (List Char)) {line : List Char} (after : List (List Char))
    (unknown : ∀ name ∈ knownNames, ¬HasName name line) :
    Alike (before ++ line :: after) (before ++ after)
  | past (before : List (List Char)) {line line' : List Char} (after : List (List Char))
    (different : ∀ name ∈ knownNames, ¬(HasName name line ∧ HasName name line')) :
    Alike (before ++ line :: line' :: after) (before ++ line' :: line :: after)
  | symm {lines lines' : List (List Char)} (h : Alike lines lines') : Alike lines' lines
  | trans {lines lines' lines'' : List (List Char)} (h : Alike lines lines')
    (h' : Alike lines' lines'') : Alike lines lines''

namespace Request

/-- The request behind header lines, each with the bound for the body that it may
announce. -/
def addHeaders (r : Request) (block : List (List Char × Nat)) : Request :=
  block.foldl (fun r l => (r.addHeader l.2 l.1).2) r

/-- What follows each of the header lines. -/
def statuses (r : Request) : List (List Char × Nat) → List HeaderStatus
  | [] => []
  | l :: block => (r.addHeader l.2 l.1).1 :: (r.addHeader l.2 l.1).2.statuses block

/-- `addHeader`, cutting the line at bytes. -/
def addHeaderBytewise (room : Nat) (r : Request) (line : List Char) :
    Except Nat (HeaderStatus × Request) :=
  (Header.ofLineBytewise line).map (r.withHeader room)

/-- The request with what a header says, whatever room there is. -/
def hear (r : Request) : Header → Request
  | .connection value =>
    { r with keepAlive := r.keepAlive || Text.eqIgnoreCase value "keep-alive".toList }
  | .contentLength value =>
    { r with contentLength := (Text.number? Text.wordMax value).getD r.contentLength }
  | .host value => { r with host := some (String.ofList value) }
  | .endOfHead | .other => r

def hearAll (r : Request) (lines : List (List Char)) : Request :=
  lines.foldl (fun r line => r.hear (Header.ofLine line)) r

end Request

variable {r r' : Request} {room : Nat} {line : List Char} {lines lines' : List (List Char)}
  {block : List (List Char × Nat)}

/-! ## One line -/

theorem withHeader_of_fits {h : Header} (hfits : LengthFits room h) :
    (r.withHeader room h).2 = r.hear h := by
  cases h with
  | contentLength value =>
    obtain ⟨n, hdecimal, hword, hroom⟩ := hfits
    have hlength : bodyLength? room value = some n :=
      bodyLength?_eq_some_iff.mpr ⟨hdecimal, hword, hroom⟩
    have hnumber : Text.number? Text.wordMax value = some n :=
      Text.number?_eq_some_iff.mpr ⟨hdecimal, hword⟩
    simp only [Request.withHeader, Request.hear, hlength, hnumber]
    rfl
  | endOfHead | connection | host | other => rfl

theorem addHeader_bad_iff : (r.addHeader room line).1 = .bad ↔ LengthRefused room line := by
  rw [Request.addHeader, withHeader_bad_iff]
  constructor
  · intro h
    have hreads := reads_ofLine line
    generalize Header.ofLine line = header at h hreads
    cases hreads with
    | contentLength named trimmed => exact ⟨_, _, named, trimmed, h⟩
    | endOfHead | connection | host | other => exact absurd trivial h
  · rintro ⟨value, core, named, trimmed, hrefused⟩
    rw [ofLine_eq_iff.mpr (.contentLength named trimmed)]
    exact hrefused

/-- A refused line changes nothing. -/
theorem withHeader_of_bad {h : Header} (hbad : (r.withHeader room h).1 = .bad) :
    (r.withHeader room h).2 = r := by
  cases h with
  | contentLength value =>
    cases hlength : bodyLength? room value with
    | none => simp only [Request.withHeader, hlength]
    | some n => simp [Request.withHeader, hlength] at hbad
  | endOfHead => rfl
  | connection | host | other => cases hbad

theorem addHeaderBytewise_eq (room : Nat) (r : Request) (line : List Char) :
    r.addHeaderBytewise room line = .ok (r.addHeader room line) := by
  rw [Request.addHeaderBytewise, ofLineBytewise_eq]
  rfl

/-! ## Many lines -/

/-- Whether a line is refused does not depend on what the request says already. -/
theorem bad_notMem_statuses :
    .bad ∉ r.statuses block ↔ ∀ l ∈ block, LengthFits l.2 (Header.ofLine l.1) := by
  induction block generalizing r with
  | nil => simp [Request.statuses]
  | cons l block ih =>
    rw [Request.statuses, List.mem_cons, not_or, ih, List.forall_mem_cons, eq_comm,
      Request.addHeader, withHeader_bad_iff, not_not]

theorem addHeaders_eq_hearAll (h : ∀ l ∈ block, LengthFits l.2 (Header.ofLine l.1)) :
    r.addHeaders block = r.hearAll (block.map Prod.fst) := by
  induction block generalizing r with
  | nil => rfl
  | cons l block ih =>
    rw [List.forall_mem_cons] at h
    have hfirst : (r.addHeader l.2 l.1).2 = r.hear (Header.ofLine l.1) := withHeader_of_fits h.1
    calc r.addHeaders (l :: block) = (r.addHeader l.2 l.1).2.addHeaders block := rfl
      _ = (r.hear (Header.ofLine l.1)).hearAll (block.map Prod.fst) := by rw [hfirst, ih h.2]

theorem keepAlive_hear (r : Request) (h : Header) :
    (r.hear h).keepAlive = true ↔ r.keepAlive = true ∨
      ∃ word, h = .connection word ∧ Text.eqIgnoreCase word "keep-alive".toList = true := by
  cases h with
  | connection value => simp [Request.hear]
  | endOfHead | contentLength | host | other => simp [Request.hear]

theorem contentLength_hear {h : Header} (hname : h.name? ≠ some "Content-Length") :
    (r.hear h).contentLength = r.contentLength := by
  cases h with
  | contentLength => exact absurd rfl hname
  | endOfHead | connection | host | other => rfl

theorem host_hear {h : Header} (hname : h.name? ≠ some "Host") : (r.hear h).host = r.host := by
  cases h with
  | host => exact absurd rfl hname
  | endOfHead | connection | contentLength | other => rfl

theorem asksKeepAlive_iff : AsksKeepAlive line ↔ ∃ word, Header.ofLine line = .connection word ∧
    Text.eqIgnoreCase word "keep-alive".toList = true := by
  simp only [ofLine_eq_iff]
  constructor
  · rintro ⟨value, word, named, behind, halike⟩
    exact ⟨word, .connection named behind, halike⟩
  · rintro ⟨word, hreads, halike⟩
    cases hreads with
    | connection named behind => exact ⟨_, word, named, behind, halike⟩

section Latest

variable {α : Type} {name : String} {means : List Char → α → Prop} {old x : α}

theorem Latest.past (h : Latest name means old lines x) (hname : ¬HasName name line) :
    Latest name means old (lines ++ [line]) x := by
  cases h with
  | kept unnamed =>
    refine .kept ?_
    simpa [or_imp, forall_and, hname] using unnamed
  | replaced named meant unnamed =>
    rw [List.append_assoc, List.cons_append]
    refine .replaced named meant ?_
    simpa [or_imp, forall_and, hname] using unnamed

theorem latest_last {value : List Char} (named : Names name line value) (meant : means value x) :
    Latest name means old (lines ++ [line]) x :=
  .replaced named meant fun _ hmem => absurd hmem List.not_mem_nil

end Latest

/-- What one more line says comes to what the lines before it say. -/
theorem Merged.hear (h : Merged r lines r') (hfits : LengthFits room (Header.ofLine line)) :
    Merged r (lines ++ [line]) (r'.hear (Header.ofLine line)) := by
  have hreads := reads_ofLine line
  constructor
  -- A request that is kept alive once stays so; for the other two a line with the name
  -- replaces the value, and a line without it leaves the last one what it was.
  · rw [keepAlive_hear, h.keepAlive, ← asksKeepAlive_iff]
    simp only [List.mem_append, List.mem_singleton, or_and_right, exists_or, exists_eq_left,
      or_assoc]
  · by_cases hname : HasName "Content-Length" line
    · rw [hasName_iff contentLength_mem] at hname
      generalize Header.ofLine line = header at *
      cases hreads with
      | contentLength named trimmed =>
        obtain ⟨n, hdecimal, hword, -⟩ := hfits
        refine latest_last named ⟨_, trimmed, ?_⟩
        rw [Request.hear, Text.number?_eq_some_iff.mpr ⟨hdecimal, hword⟩]
        exact hdecimal
      | endOfHead | connection | host | other => simp [Header.name?] at hname
    · rw [contentLength_hear]
      · exact h.contentLength.past hname
      · rwa [hasName_iff contentLength_mem] at hname
  · by_cases hname : HasName "Host" line
    · rw [hasName_iff host_mem] at hname
      generalize Header.ofLine line = header at *
      cases hreads with
      | host named behind => exact latest_last named ⟨_, behind, rfl⟩
      | endOfHead | connection | contentLength | other => simp [Header.name?] at hname
    · rw [host_hear]
      · exact h.host.past hname
      · rwa [hasName_iff host_mem] at hname
  · obtain ⟨hmethod, hurl, hversion, hbody⟩ := h.others
    cases Header.ofLine line <;> exact ⟨hmethod, hurl, hversion, hbody⟩

/-- The request behind lines that could be read is the one before with what they say. -/
theorem merged_hearAll (hfits : ∀ line ∈ lines, ∃ room, LengthFits room (Header.ofLine line)) :
    Merged r lines (r.hearAll lines) := by
  -- From the last line: whether a line is the last with its name depends on those behind
  -- it.
  induction lines using List.reverseRecOn with
  | nil => exact ⟨by simp [Request.hearAll], .kept (by simp), .kept (by simp), rfl, rfl, rfl, rfl⟩
  | append_singleton lines line ih =>
    obtain ⟨room, hline⟩ := hfits line (by simp)
    have hbefore := ih fun line' hline' => hfits line' (List.mem_append_left _ hline')
    rw [Request.hearAll, List.foldl_append]
    exact hbefore.hear hline

/-! ## Lines that say the same -/

theorem name?_mem_knownNames {h : Header} {name : String} (hname : h.name? = some name) :
    name ∈ knownNames := by
  cases h <;> cases hname <;> simp [knownNames]

theorem hear_of_unknown {h : Header} (hname : h.name? = none) : r.hear h = r := by
  cases h with
  | endOfHead | other => rfl
  | connection | contentLength | host => cases hname

/-- Headers without a common name may pass each other. -/
theorem hear_comm {h h' : Header} (hne : ∀ name, ¬(h.name? = some name ∧ h'.name? = some name)) :
    (r.hear h).hear h' = (r.hear h').hear h := by
  cases h with
  | endOfHead | other => rfl
  | connection value =>
    cases h' with
    | connection => exact absurd ⟨rfl, rfl⟩ (hne "Connection")
    | endOfHead | contentLength | host | other => rfl
  | contentLength value =>
    cases h' with
    | contentLength => exact absurd ⟨rfl, rfl⟩ (hne "Content-Length")
    | endOfHead | connection | host | other => rfl
  | host value =>
    cases h' with
    | host => exact absurd ⟨rfl, rfl⟩ (hne "Host")
    | endOfHead | connection | contentLength | other => rfl

theorem hearAll_append (r : Request) (lines lines' : List (List Char)) :
    r.hearAll (lines ++ lines') = (r.hearAll lines).hearAll lines' :=
  List.foldl_append

theorem Alike.hearAll_eq (h : Alike lines lines') (r : Request) :
    r.hearAll lines = r.hearAll lines' := by
  induction h generalizing r with
  | refl => rfl
  | @without before line after unknown =>
    have hnone : (Header.ofLine line).name? = none := by
      rw [Option.eq_none_iff_forall_ne_some]
      intro name hname
      have hknown := name?_mem_knownNames hname
      exact unknown name hknown ((hasName_iff hknown).mpr hname)
    rw [hearAll_append, hearAll_append]
    exact congrArg (Request.hearAll · after) (hear_of_unknown hnone)
  | @past before line line' after different =>
    have hne (name : String) : ¬((Header.ofLine line).name? = some name ∧
        (Header.ofLine line').name? = some name) := by
      rintro ⟨hname, hname'⟩
      have hknown := name?_mem_knownNames hname
      exact different name hknown ⟨(hasName_iff hknown).mpr hname, (hasName_iff hknown).mpr hname'⟩
    rw [hearAll_append, hearAll_append]
    exact congrArg (Request.hearAll · after) (hear_comm hne)
  | symm h ih => exact (ih r).symm
  | trans h h' ih ih' => exact (ih r).trans (ih' r)

/-! ## Blocks -/

theorem merged_addHeaders (h : .bad ∉ r.statuses block) :
    Merged r (block.map Prod.fst) (r.addHeaders block) := by
  have hfits := bad_notMem_statuses.mp h
  rw [addHeaders_eq_hearAll hfits]
  refine merged_hearAll fun line hline => ?_
  obtain ⟨l, hl, rfl⟩ := List.mem_map.mp hline
  exact ⟨l.2, hfits l hl⟩

theorem Alike.addHeaders_eq {block' : List (List Char × Nat)}
    (halike : Alike (block.map Prod.fst) (block'.map Prod.fst)) (h : .bad ∉ r.statuses block)
    (h' : .bad ∉ r.statuses block') : r.addHeaders block' = r.addHeaders block := by
  rw [addHeaders_eq_hearAll (bad_notMem_statuses.mp h),
    addHeaders_eq_hearAll (bad_notMem_statuses.mp h'), halike.hearAll_eq]

theorem addHeader_nil (room : Nat) (r : Request) : (r.addHeader room []).2 = r ∧
    ((r.addHeader room []).1 = .expectBody ↔ 0 < r.contentLength) := by
  refine ⟨rfl, ?_⟩
  change (if 0 < r.contentLength then HeaderStatus.expectBody else .complete) = .expectBody ↔ _
  simp

/-- A block without a refused line adds what its lines say, and so does every block that
says the same; a refused line and the empty line change nothing; and no line is cut within
a character. -/
theorem addHeaders_merges (r : Request) (block : List (List Char × Nat)) :
    (.bad ∉ r.statuses block → Merged r (block.map Prod.fst) (r.addHeaders block) ∧
      ∀ block', .bad ∉ r.statuses block' → Alike (block.map Prod.fst) (block'.map Prod.fst) →
        r.addHeaders block' = r.addHeaders block) ∧
    (∀ room line, ((r.addHeader room line).1 = .bad ↔ LengthRefused room line) ∧
      ((r.addHeader room line).1 = .bad → (r.addHeader room line).2 = r)) ∧
    (∀ room, (r.addHeader room []).2 = r ∧
      ((r.addHeader room []).1 = .expectBody ↔ 0 < r.contentLength)) ∧
    ∀ room line, r.addHeaderBytewise room line = .ok (r.addHeader room line) := by
  refine ⟨fun h => ⟨merged_addHeaders h, fun block' h' halike => halike.addHeaders_eq h h'⟩,
    fun room line => ⟨addHeader_bad_iff, withHeader_of_bad⟩, fun room => addHeader_nil room r,
    fun room line => addHeaderBytewise_eq room r line⟩

/-- Headers with repeated names, in both cases of letters, around one without a known
name. -/
def repeatedBlock (unknown : List (List Char × Nat)) : List (List Char × Nat) :=
  [("connection:\t Keep-Alive".toList, 9), ("Content-Length: 5".toList, 9)] ++
    (unknown ++ [("Host:  é".toList, 9), ("CONTENT-LENGTH: +7 ".toList, 7),
      ("Connection: close".toList, 9)])

theorem addHeaders_merges_repeated :
    let block := repeatedBlock [("Accept: ñ".toList, 0)]
    (.bad ∉ Request.statuses {} block ∧ .bad ∉ Request.statuses {} (repeatedBlock []) ∧
      Alike (block.map Prod.fst) ((repeatedBlock []).map Prod.fst)) ∧
    Merged {} (block.map Prod.fst) { host := some "é", keepAlive := true, contentLength := 7 } ∧
    Request.addHeaders {} (repeatedBlock []) = Request.addHeaders {} block ∧
    (Request.addHeader 7 {} "Content-Length: 8".toList).1 = .bad ∧
    (Request.addHeader 7 {} "Content-Length: 8".toList).2 = {} := by
  intro block
  have hstatuses : .bad ∉ Request.statuses {} block := by decide +kernel
  have hstatuses' : .bad ∉ Request.statuses {} (repeatedBlock []) := by decide +kernel
  have hrequest : Request.addHeaders {} block =
      { host := some "é", keepAlive := true, contentLength := 7 } := by decide +kernel
  have hother : Header.ofLine "Accept: ñ".toList = .other := by decide +kernel
  have halike : Alike (block.map Prod.fst) ((repeatedBlock []).map Prod.fst) := by
    refine .without ["connection:\t Keep-Alive".toList, "Content-Length: 5".toList] _ ?_
    intro name hname
    rw [hasName_iff hname, hother]
    exact Option.some_ne_none name ∘ Eq.symm
  have hbad : (Request.addHeader 7 {} "Content-Length: 8".toList).1 = .bad := by decide +kernel
  obtain ⟨hmerges, hrefused, -⟩ := addHeaders_merges {} block
  obtain ⟨hmerged, hsame⟩ := hmerges hstatuses
  refine ⟨⟨hstatuses, hstatuses', halike⟩, ?_, hsame _ hstatuses' halike, hbad,
    (hrefused 7 "Content-Length: 8".toList).2 hbad⟩
  rw [← hrequest]
  exact hmerged

end Http
end PageServer
