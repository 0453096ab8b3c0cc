import PageServer.Proofs.Http.BodyLength
import PageServer.Proofs.Http.RequestLine

/-!
# What a header line says

A header line is a name, a colon and a value.  Three names are known, up to the case of
their letters, and a line has at most one name, so what a line says does not depend on the
order in which the names are tried.  Reading a line by bytes never cuts within a
character.
-/

namespace PageServer
namespace Text

/-- What a text is behind its leading spaces and tabs. -/
def BehindBlanks (s rest : List Char) : Prop :=
  ∃ blanks, s = blanks ++ rest ∧ (∀ c ∈ blanks, c = ' ' ∨ c = '\t') ∧ Flush rest

/-- What a text is without the white space at its ends. -/
structure Trimmed (s core : List Char) : Prop where
  parts : ∃ front back, s = front ++ (core ++ back) ∧ (∀ c ∈ front, isSpace c = true) ∧
    ∀ c ∈ back, isSpace c = true
  first : ∀ c ∈ core.head?, isSpace c = false
  last : ∀ c ∈ core.getLast?, isSpace c = false

theorem trimLeft_eq_iff {s rest : List Char} : trimLeft s = rest ↔ BehindBlanks s rest := by
  constructor
  · rintro rfl
    refine ⟨s.takeWhile isBlank, List.takeWhile_append_dropWhile.symm, ?_, flush_dropWhile s⟩
    intro c hc
    exact isBlank_iff.mp (List.mem_takeWhile_imp hc)
  · rintro ⟨blanks, rfl, hblanks, hflush⟩
    have hblank : ∀ c ∈ blanks, isBlank c = true := fun c hc => isBlank_iff.mpr (hblanks c hc)
    exact (takeWhile_dropWhile_append hblank hflush).2

theorem trim_of_trimmed {s core : List Char} (h : Trimmed s core) : trim s = core := by
  obtain ⟨⟨front, back, rfl, hfront, hback⟩, hfirst, hlast⟩ := h
  by_cases hcore : core = []
  · subst hcore
    have hall : (front ++ ([] ++ back)).dropWhile isSpace = [] := by
      rw [List.dropWhile_eq_nil_iff]
      intro c hc
      rcases List.mem_append.mp hc with hc | hc
      · exact hfront c hc
      · exact hback c hc
    rw [trim, hall]
    rfl
  · have hhead : ∀ c ∈ (core ++ back).head?, isSpace c = false := by
      obtain ⟨c, core', rfl⟩ := List.exists_cons_of_ne_nil hcore
      exact hfirst
    have hreverse : ∀ c ∈ core.reverse.head?, isSpace c = false := by
      rw [List.head?_reverse]
      exact hlast
    have hspaces : ∀ c ∈ back.reverse, isSpace c = true := fun c hc =>
      hback c (List.mem_reverse.mp hc)
    rw [trim, (takeWhile_dropWhile_append hfront hhead).2, List.reverse_append,
      (takeWhile_dropWhile_append hspaces hreverse).2, List.reverse_reverse]

theorem eq_false_of_mem_head?_dropWhile {p : Char → Bool} {s : List Char} {c : Char}
    (hc : c ∈ (s.dropWhile p).head?) : p c = false := by
  have hnot := List.head?_dropWhile_not p s
  rwa [Option.mem_def.mp hc] at hnot

theorem trimmed_trim (s : List Char) : Trimmed s (trim s) := by
  have hback : s.dropWhile isSpace =
      trim s ++ ((s.dropWhile isSpace).reverse.takeWhile isSpace).reverse := by
    rw [trim, ← List.reverse_append, List.takeWhile_append_dropWhile, List.reverse_reverse]
  constructor
  · refine ⟨s.takeWhile isSpace, ((s.dropWhile isSpace).reverse.takeWhile isSpace).reverse, ?_,
      fun c hc => List.mem_takeWhile_imp hc, ?_⟩
    · rw [← hback, List.takeWhile_append_dropWhile]
    · intro c hc
      exact List.mem_takeWhile_imp (List.mem_reverse.mp hc)
  · intro c hc
    apply eq_false_of_mem_head?_dropWhile (p := isSpace) (s := s)
    rw [hback, List.head?_append, Option.mem_def.mp hc]
    rfl
  · intro c hc
    rw [trim, List.getLast?_reverse] at hc
    exact eq_false_of_mem_head?_dropWhile hc

theorem trim_eq_iff {s core : List Char} : trim s = core ↔ Trimmed s core :=
  ⟨fun h => h ▸ trimmed_trim s, trim_of_trimmed⟩

/-- No other character is made a colon by its case. -/
theorem toLower_eq_colon {c : Char} (h : c.toLower = ':') : c = ':' := by
  unfold Char.toLower at h
  split at h
  · next hupper =>
    have hlow : 65 ≤ c.val.toNat := UInt32.le_iff_toNat_le.mp hupper.1
    have hhigh : c.val.toNat ≤ 90 := UInt32.le_iff_toNat_le.mp hupper.2
    have hshift : ('a'.val - 'A'.val).toNat = 32 := by decide
    have hcolon := congrArg (fun d : Char => d.val.toNat) h
    simp only [UInt32.toNat_add, hshift, show ':'.val.toNat = 58 from rfl] at hcolon
    omega
  · exact h

end Text

namespace Http

/-- The names of the headers that matter. -/
def knownNames : List String :=
  ["Connection", "Content-Length", "Host"]

/-- A line with a name, up to ASCII case, and a value behind the colon. -/
def Names (name : String) (line value : List Char) : Prop :=
  ∃ lead, line = lead ++ ':' :: value ∧ Text.eqIgnoreCase lead name.toList = true

def HasName (name : String) (line : List Char) : Prop :=
  ∃ value, Names name line value

/-- The header that a line is. -/
inductive Reads : List Char → Header → Prop
  | endOfHead : Reads [] .endOfHead
  | connection {line value word : List Char} (named : Names "Connection" line value)
    (behind : Text.BehindBlanks value word) : Reads line (.connection word)
  | contentLength {line value core : List Char} (named : Names "Content-Length" line value)
    (trimmed : Text.Trimmed value core) : Reads line (.contentLength core)
  | host {line value word : List Char} (named : Names "Host" line value)
    (behind : Text.BehindBlanks value word) : Reads line (.host word)
  | other {line : List Char} (nonempty : line ≠ [])
    (unknown : ∀ name ∈ knownNames, ¬HasName name line) : Reads line .other

variable {name name' : String} {line value value' : List Char}

/-! ## Names -/

theorem mem_knownNames :
    name ∈ knownNames ↔ name = "Connection" ∨ name = "Content-Length" ∨ name = "Host" := by
  simp [knownNames]

theorem connection_mem : "Connection" ∈ knownNames := by
  simp [knownNames]

theorem contentLength_mem : "Content-Length" ∈ knownNames := by
  simp [knownNames]

theorem host_mem : "Host" ∈ knownNames := by
  simp [knownNames]

theorem eqIgnoreCase_colon {front : List Char} :
    Text.eqIgnoreCase front (name.toList ++ [':']) = true ↔
      ∃ lead, front = lead ++ [':'] ∧ Text.eqIgnoreCase lead name.toList = true := by
  simp only [Text.eqIgnoreCase_iff]
  constructor
  · intro h
    rw [List.map_append] at h
    obtain ⟨lead, back, rfl, hlead, hback⟩ := List.map_eq_append_iff.mp h
    obtain ⟨c, rest, rfl, hc, hrest⟩ := List.map_eq_cons_iff.mp hback
    obtain rfl := List.map_eq_nil_iff.mp hrest
    obtain rfl := Text.toLower_eq_colon hc
    exact ⟨lead, rfl, hlead⟩
  · rintro ⟨lead, rfl, hlead⟩
    rw [List.map_append, List.map_append, hlead]

theorem dropLead?_eq_some_iff_names :
    Text.dropLead? (name.toList ++ [':']) line = some value ↔ Names name line value := by
  rw [Text.dropLead?_eq_some_iff]
  constructor
  · rintro ⟨front, rfl, hfront⟩
    obtain ⟨lead, rfl, hlead⟩ := eqIgnoreCase_colon.mp hfront
    exact ⟨lead, List.append_assoc lead [':'] value, hlead⟩
  · rintro ⟨lead, rfl, hlead⟩
    exact ⟨lead ++ [':'], (List.append_assoc lead [':'] value).symm,
      eqIgnoreCase_colon.mpr ⟨lead, rfl, hlead⟩⟩

theorem dropLead?_eq_none_iff_names :
    Text.dropLead? (name.toList ++ [':']) line = none ↔ ¬HasName name line := by
  simp only [Option.eq_none_iff_forall_ne_some, HasName, not_exists, ← dropLead?_eq_some_iff_names]

theorem colon_notMem {lead : List Char} (h : Text.eqIgnoreCase lead name.toList = true)
    (hname : name ∈ knownNames) : ':' ∉ lead := by
  intro hmem
  have hlower : ':'.toLower ∈ name.toList.map Char.toLower := by
    rw [← Text.eqIgnoreCase_iff.mp h]
    exact List.mem_map_of_mem hmem
  revert hlower
  rcases mem_knownNames.mp hname with rfl | rfl | rfl <;> decide

theorem eq_of_eqIgnoreCase {lead : List Char} (hname : name ∈ knownNames)
    (hname' : name' ∈ knownNames) (h : Text.eqIgnoreCase lead name.toList = true)
    (h' : Text.eqIgnoreCase lead name'.toList = true) : name = name' := by
  have hlower : name.toList.map Char.toLower = name'.toList.map Char.toLower :=
    (Text.eqIgnoreCase_iff.mp h).symm.trans (Text.eqIgnoreCase_iff.mp h')
  revert hlower
  rcases mem_knownNames.mp hname with rfl | rfl | rfl <;>
    rcases mem_knownNames.mp hname' with rfl | rfl | rfl <;> decide

/-- A line is cut at its first colon. -/
theorem cut_at_colon {lead : List Char} (h : ':' ∉ lead) (value : List Char) :
    (lead ++ ':' :: value).takeWhile (· != ':') = lead ∧
      (lead ++ ':' :: value).dropWhile (· != ':') = ':' :: value := by
  apply Text.takeWhile_dropWhile_append
  · intro c hc
    rw [bne_iff_ne]
    rintro rfl
    exact h hc
  · rintro c hc
    obtain rfl := Option.some.inj hc
    rfl

/-- A line has at most one known name, and one value. -/
theorem Names.unique (hname : name ∈ knownNames) (hname' : name' ∈ knownNames)
    (h : Names name line value) (h' : Names name' line value') : name = name' ∧ value = value' := by
  obtain ⟨lead, rfl, hlead⟩ := h
  obtain ⟨lead', heq, hlead'⟩ := h'
  obtain ⟨htake, hdrop⟩ := cut_at_colon (colon_notMem hlead hname) value
  obtain ⟨htake', hdrop'⟩ := cut_at_colon (colon_notMem hlead' hname') value'
  rw [heq] at htake hdrop
  obtain rfl := htake.symm.trans htake'
  exact ⟨eq_of_eqIgnoreCase hname hname' hlead hlead',
    (List.cons.inj (hdrop.symm.trans hdrop')).2⟩

theorem Names.ne_nil (h : Names name line value) : line ≠ [] := by
  obtain ⟨lead, rfl, -⟩ := h
  simp

/-! ## The header that a line is -/

theorem lead_connection : "Connection:".toList = "Connection".toList ++ [':'] := by decide

theorem lead_contentLength : "Content-Length:".toList = "Content-Length".toList ++ [':'] := by
  decide

theorem lead_host : "Host:".toList = "Host".toList ++ [':'] := by decide

theorem reads_ofLine (line : List Char) : Reads line (Header.ofLine line) := by
  cases line with
  | nil => exact .endOfHead
  | cons c line =>
    rw [Header.ofLine, if_neg (by simp), lead_connection, lead_contentLength, lead_host]
    split
    · next value hvalue =>
      exact .connection (dropLead?_eq_some_iff_names.mp hvalue) (Text.trimLeft_eq_iff.mp rfl)
    · next hconnection =>
      split
      · next value hvalue =>
        exact .contentLength (dropLead?_eq_some_iff_names.mp hvalue) (Text.trimmed_trim value)
      · next hlength =>
        split
        · next value hvalue =>
          exact .host (dropLead?_eq_some_iff_names.mp hvalue) (Text.trimLeft_eq_iff.mp rfl)
        · next hhost =>
          refine .other (List.cons_ne_nil c line) ?_
          intro name hname
          rcases mem_knownNames.mp hname with rfl | rfl | rfl
          · exact dropLead?_eq_none_iff_names.mp hconnection
          · exact dropLead?_eq_none_iff_names.mp hlength
          · exact dropLead?_eq_none_iff_names.mp hhost

/-- The known name of a header. -/
def Header.name? : Header → Option String
  | .connection _ => some "Connection"
  | .contentLength _ => some "Content-Length"
  | .host _ => some "Host"
  | .endOfHead | .other => none

theorem Names.hasName_iff (h : Names name' line value) (hname' : name' ∈ knownNames)
    (hname : name ∈ knownNames) : HasName name line ↔ some name' = some name := by
  constructor
  · rintro ⟨value', h'⟩
    exact congrArg some (h.unique hname' hname h').1
  · intro heq
    obtain rfl := Option.some.inj heq
    exact ⟨value, h⟩

theorem Reads.hasName_iff {h : Header} (hreads : Reads line h) (hname : name ∈ knownNames) :
    HasName name line ↔ h.name? = some name := by
  cases hreads with
  | endOfHead => exact iff_of_false (fun ⟨_, named⟩ => named.ne_nil rfl) (by simp [Header.name?])
  | connection named behind => exact named.hasName_iff connection_mem hname
  | contentLength named trimmed => exact named.hasName_iff contentLength_mem hname
  | host named behind => exact named.hasName_iff host_mem hname
  | other nonempty unknown => exact iff_of_false (unknown name hname) (by simp [Header.name?])

theorem hasName_iff (hname : name ∈ knownNames) :
    HasName name line ↔ (Header.ofLine line).name? = some name :=
  (reads_ofLine line).hasName_iff hname

theorem Names.dropLead?_eq_none (h : Names name' line value) (hname' : name' ∈ knownNames)
    (hname : name ∈ knownNames) (hne : name' ≠ name) :
    Text.dropLead? (name.toList ++ [':']) line = none := by
  rw [dropLead?_eq_none_iff_names, h.hasName_iff hname' hname]
  exact fun heq => hne (Option.some.inj heq)

/-- A line is one header. -/
theorem ofLine_eq_iff {h : Header} : Header.ofLine line = h ↔ Reads line h := by
  constructor
  · rintro rfl
    exact reads_ofLine line
  · intro hreads
    cases hreads with
    | endOfHead => rfl
    | connection named behind =>
      rw [Header.ofLine, if_neg (by simpa using named.ne_nil), lead_connection,
        dropLead?_eq_some_iff_names.mpr named]
      exact congrArg Header.connection (Text.trimLeft_eq_iff.mpr behind)
    | contentLength named trimmed =>
      rw [Header.ofLine, if_neg (by simpa using named.ne_nil), lead_connection, lead_contentLength,
        named.dropLead?_eq_none contentLength_mem connection_mem (by decide),
        dropLead?_eq_some_iff_names.mpr named]
      exact congrArg Header.contentLength (Text.trim_eq_iff.mpr trimmed)
    | host named behind =>
      rw [Header.ofLine, if_neg (by simpa using named.ne_nil), lead_connection, lead_contentLength,
        lead_host, named.dropLead?_eq_none host_mem connection_mem (by decide),
        named.dropLead?_eq_none host_mem contentLength_mem (by decide),
        dropLead?_eq_some_iff_names.mpr named]
      exact congrArg Header.host (Text.trimLeft_eq_iff.mpr behind)
    | other nonempty unknown =>
      rw [Header.ofLine, if_neg (by simpa using nonempty), lead_connection, lead_contentLength,
        lead_host, dropLead?_eq_none_iff_names.mpr (unknown _ connection_mem),
        dropLead?_eq_none_iff_names.mpr (unknown _ contentLength_mem),
        dropLead?_eq_none_iff_names.mpr (unknown _ host_mem)]

/-! ## Cutting at bytes -/

/-- `Header.ofLine`, cutting the line at bytes. -/
def Header.ofLineBytewise (line : List Char) : Except Nat Header :=
  if line.isEmpty then .ok .endOfHead
  else (Text.dropLeadBytewise "Connection:".toList line).bind fun
    | some value => .ok (.connection (Text.trimLeft value))
    | none => (Text.dropLeadBytewise "Content-Length:".toList line).bind fun
      | some value => .ok (.contentLength (Text.trim value))
      | none => (Text.dropLeadBytewise "Host:".toList line).bind fun
        | some value => .ok (.host (Text.trimLeft value))
        | none => .ok .other

theorem ofLineBytewise_eq (line : List Char) :
    Header.ofLineBytewise line = .ok (Header.ofLine line) := by
  unfold Header.ofLineBytewise Header.ofLine
  simp only [Text.dropLeadBytewise_eq, Except.bind]
  split
  · rfl
  · cases Text.dropLead? "Connection:".toList line with
    | some value => rfl
    | none => cases Text.dropLead? "Content-Length:".toList line with
      | some value => rfl
      | none => cases Text.dropLead? "Host:".toList line with
        | some value => rfl
        | none => rfl

end Http
end PageServer
