import Mathlib.Data.List.TakeWhile
import Mathlib.Data.Option.Basic
import PageServer.Http.RequestLine
import PageServer.Proofs.Text.Bytewise

/-!
# The grammar of request lines

A request line spells a method, a target and a version with blanks between them, and the
target has a path that begins with a slash.  Exactly the lines that spell all of this are
accepted, whatever characters they are made of, and reading them by bytes never cuts
within a character.
-/

namespace PageServer
namespace Text

/-- Spaces and tabs, at least one. -/
structure Blanks (s : List Char) : Prop where
  ne_nil : s ≠ []
  blank : ∀ c ∈ s, c = ' ' ∨ c = '\t'

/-- Characters other than spaces and tabs, at least one. -/
structure Word (s : List Char) : Prop where
  ne_nil : s ≠ []
  dark : ∀ c ∈ s, c ≠ ' ' ∧ c ≠ '\t'

theorem isBlank_iff {c : Char} : isBlank c = true ↔ c = ' ' ∨ c = '\t' := by
  simp [isBlank]

theorem isBlank_eq_false_iff {c : Char} : isBlank c = false ↔ c ≠ ' ' ∧ c ≠ '\t' := by
  simp [isBlank]

/-- A text that begins with no blank. -/
def Flush (s : List Char) : Prop :=
  ∀ c ∈ s.head?, isBlank c = false

theorem Word.flush_append {s : List Char} (h : Word s) (t : List Char) : Flush (s ++ t) := by
  obtain ⟨c, s', rfl⟩ := List.exists_cons_of_ne_nil h.ne_nil
  intro d hd
  obtain rfl := Option.some.inj hd
  exact isBlank_eq_false_iff.mpr (h.dark c List.mem_cons_self)

theorem flush_of_forall {s : List Char} (h : ∀ c ∈ s, isBlank c = false) : Flush s :=
  fun c hc => h c (List.mem_of_mem_head? hc)

theorem flush_dropWhile (s : List Char) : Flush (s.dropWhile isBlank) := by
  intro c hc
  have hnot := List.head?_dropWhile_not isBlank s
  rw [Option.mem_def.mp hc] at hnot
  exact hnot

/-- What has a property throughout is cut off in front of what begins without it. -/
theorem takeWhile_dropWhile_append {p : Char → Bool} {front back : List Char}
    (hfront : ∀ c ∈ front, p c = true) (hback : ∀ c ∈ back.head?, p c = false) :
    (front ++ back).takeWhile p = front ∧ (front ++ back).dropWhile p = back := by
  rw [List.takeWhile_append_of_pos hfront, List.dropWhile_append_of_pos hfront]
  cases back with
  | nil => simp
  | cons c back => simp [hback c rfl]

/-- The first run of blanks divides a text into what has no blank and what begins with
none. -/
theorem splitBlank?_eq_some_iff {s word rest : List Char} :
    splitBlank? s = some (word, rest) ↔
      ∃ blanks, s = word ++ (blanks ++ rest) ∧ Blanks blanks ∧ (∀ c ∈ word, isBlank c = false) ∧
        Flush rest := by
  unfold splitBlank?
  simp only
  constructor
  · intro h
    have hs := List.takeWhile_append_dropWhile (p := fun c => !isBlank c) (l := s)
    have hfirst := List.head?_dropWhile_not (fun c => !isBlank c) s
    rcases hbehind : s.dropWhile (fun c => !isBlank c) with _ | ⟨c, behind⟩
    · rw [hbehind] at h
      cases h
    · rw [hbehind] at h hs hfirst
      simp only [Option.some.injEq, Prod.mk.injEq] at h
      obtain ⟨rfl, rfl⟩ := h
      have hblank : isBlank c = true := by simpa using hfirst
      refine ⟨(c :: behind).takeWhile isBlank, ?_, ⟨?_, ?_⟩, ?_, flush_dropWhile _⟩
      · rw [trimLeft, List.takeWhile_append_dropWhile, hs]
      · simp [hblank]
      · intro d hd
        exact isBlank_iff.mp (List.mem_takeWhile_imp hd)
      · intro d hd
        simpa using List.mem_takeWhile_imp hd
  · rintro ⟨blanks, rfl, hblanks, hword, hrest⟩
    obtain ⟨c, blanks', rfl⟩ := List.exists_cons_of_ne_nil hblanks.ne_nil
    have hblank := fun d hd => isBlank_iff.mpr (hblanks.blank d hd)
    have hdark : ∀ d ∈ word, (!isBlank d) = true := fun d hd => by simp [hword d hd]
    have hlight : ∀ d ∈ (c :: blanks' ++ rest).head?, (!isBlank d) = false := by
      intro d hd
      obtain rfl := Option.some.inj hd
      simp [hblank c List.mem_cons_self]
    obtain ⟨htake, hdrop⟩ := takeWhile_dropWhile_append (p := fun c => !isBlank c) hdark hlight
    rw [htake, hdrop, List.cons_append]
    simp only [trimLeft, ← List.cons_append, (takeWhile_dropWhile_append hblank hrest).2]

/-- What differs in case only from a text without blanks has none. -/
theorem notBlank_of_eqIgnoreCase {s t : List Char} (h : eqIgnoreCase s t = true)
    (ht : (t.map Char.toLower).all (!isBlank ·) = true) : ∀ c ∈ s, isBlank c = false := by
  intro c hc
  have hlower : c.toLower ∈ t.map Char.toLower := by
    rw [← eqIgnoreCase_iff.mp h]
    exact List.mem_map_of_mem hc
  have hdark : isBlank c.toLower = false := by
    simpa using List.all_eq_true.mp ht _ hlower
  cases hblank : isBlank c with
  | false => rfl
  | true =>
    have hsame : c.toLower = c := by
      rcases isBlank_iff.mp hblank with rfl | rfl <;> decide
    rw [← hblank, ← hdark, hsame]

end Text

namespace Http

/-- The schemes that a target may begin with. -/
def schemes : List String :=
  ["http://", "https://"]

theorem mem_schemes {scheme : String} :
    scheme ∈ schemes ↔ scheme = "http://" ∨ scheme = "https://" :=
  by simp [schemes]

/-- The part of a target that names a page: all of it where it begins with no scheme, and
otherwise what begins at the first slash behind the scheme. -/
inductive PathOf : List Char → List Char → Prop
  | bare {target : List Char} (h : ∀ scheme ∈ schemes, ∀ lead rest, target = lead ++ rest →
      Text.eqIgnoreCase lead scheme.toList = false) : PathOf target target
  | behindHost {scheme : String} {lead host path : List Char} (known : scheme ∈ schemes)
    (alike : Text.eqIgnoreCase lead scheme.toList = true) (plain : '/' ∉ host) :
    PathOf (lead ++ (host ++ '/' :: path)) ('/' :: path)

/-- A line that spells a method, a target with a path, and the version. -/
inductive Spells : List Char → RequestLine → Prop
  | intro {name before target behind version path : List Char} {method : Method}
    (name_eq : Text.eqIgnoreCase name method.name.toList = true) (before_blank : Text.Blanks before)
    (target_word : Text.Word target) (behind_blank : Text.Blanks behind)
    (version_eq : Text.eqIgnoreCase version "HTTP/1.1".toList = true)
    (path_of : PathOf target ('/' :: path)) :
    Spells (name ++ (before ++ (target ++ (behind ++ version)))) ⟨method, '/' :: path, version⟩

/-- `targetPath`, cutting the target at bytes. -/
def targetPathBytewise (target : List Char) : Except Nat (List Char) :=
  (Text.dropLeadBytewise "http://".toList target).bind fun
    | some rest => Text.fromSlashBytewise rest
    | none => (Text.dropLeadBytewise "https://".toList target).bind fun
      | some rest => Text.fromSlashBytewise rest
      | none => .ok target

/-- `RequestLine.parse?`, cutting the line at bytes. -/
def RequestLine.parseBytewise (line : List Char) : Except Nat (Option RequestLine) :=
  (Text.splitBlankBytewise line).bind fun
    | none => .ok none
    | some (name, rest) => match Method.ofName? name with
      | none => .ok none
      | some method => (Text.splitBlankBytewise rest).bind fun
        | none => .ok none
        | some (target, version) =>
          if Text.eqIgnoreCase version "HTTP/1.1".toList then
            (targetPathBytewise target).map fun path =>
              if path.head? = some '/' then some { method, path, version } else none
          else .ok none

theorem targetPathBytewise_eq (target : List Char) :
    targetPathBytewise target = .ok (targetPath target) := by
  unfold targetPathBytewise targetPath
  simp only [Text.dropLeadBytewise_eq, Except.bind]
  cases Text.dropLead? "http://".toList target with
  | some rest => exact Text.fromSlashBytewise_eq rest
  | none => cases Text.dropLead? "https://".toList target with
    | some rest => exact Text.fromSlashBytewise_eq rest
    | none => rfl

theorem parseBytewise_eq (line : List Char) :
    RequestLine.parseBytewise line = .ok (RequestLine.parse? line) := by
  unfold RequestLine.parseBytewise RequestLine.parse?
  simp only [Text.splitBlankBytewise_eq, targetPathBytewise_eq, Except.bind, Except.map,
    Option.bind_eq_bind]
  rcases Text.splitBlank? line with _ | ⟨name, rest⟩
  · rfl
  simp only [Option.bind_some]
  cases Method.ofName? name with
  | none => rfl
  | some method =>
    simp only [Option.bind_some]
    rcases Text.splitBlank? rest with _ | ⟨target, version⟩
    · rfl
    simp only [Option.bind_some]
    cases Text.eqIgnoreCase version "HTTP/1.1".toList with
    | false => rfl
    | true =>
      by_cases hpath : (targetPath target).head? = some '/'
      · simp only [hpath, if_true]
        rfl
      · simp only [hpath, if_false]
        rfl

theorem ofName?_eq_some_iff {name : List Char} {m : Method} :
    Method.ofName? name = some m ↔ Text.eqIgnoreCase name m.name.toList = true := by
  have hdistinct (hget : Text.eqIgnoreCase name "GET".toList = true) :
      Text.eqIgnoreCase name "POST".toList = false := by
    rw [Text.eqIgnoreCase_iff] at hget
    rw [Text.eqIgnoreCase, hget]
    decide
  rw [Method.ofName?]
  split
  · next hget => cases m with
    | get => exact iff_of_true rfl hget
    | post =>
      have hpost : ¬Text.eqIgnoreCase name "POST".toList = true := by
        rw [hdistinct hget]
        decide
      exact iff_of_false (by simp) hpost
  · next hget =>
    split
    · next hpost => cases m with
      | get => exact iff_of_false (by simp) hget
      | post => exact iff_of_true rfl hpost
    · next hpost => cases m with
      | get => exact iff_of_false (by simp) hget
      | post => exact iff_of_false (by simp) hpost

/-- Nothing begins with both schemes. -/
theorem dropLead?_http_eq_none {target rest : List Char}
    (h : Text.dropLead? "https://".toList target = some rest) :
    Text.dropLead? "http://".toList target = none := by
  obtain ⟨front, rfl, hlead⟩ := Text.dropLead?_eq_some_iff.mp h
  rw [Text.dropLead?, if_neg]
  intro halike
  have hlength : front.length = 8 := Text.length_eq_of_eqIgnoreCase hlead
  have hseven : ("http://".toList).length ≤ front.length := by
    rw [hlength]
    decide
  rw [Text.eqIgnoreCase_iff] at hlead halike
  rw [List.take_append_of_le_length hseven, List.map_take, hlead] at halike
  revert halike
  decide

theorem eq_append_of_dropWhile {s path : List Char}
    (h : s.dropWhile (· != '/') = '/' :: path) :
    ∃ host, s = host ++ '/' :: path ∧ '/' ∉ host := by
  refine ⟨s.takeWhile (· != '/'), ?_, ?_⟩
  · rw [← h, List.takeWhile_append_dropWhile]
  · intro hslash
    simpa using List.mem_takeWhile_imp hslash

theorem dropWhile_slash {host path : List Char} (h : '/' ∉ host) :
    (host ++ '/' :: path).dropWhile (· != '/') = '/' :: path := by
  refine (Text.takeWhile_dropWhile_append ?_ ?_).2
  · intro c hc
    rw [bne_iff_ne]
    rintro rfl
    exact h hc
  · rintro c hc
    obtain rfl := Option.some.inj hc
    rfl

theorem pathOf_of_dropLead? {scheme : String} {target rest path : List Char}
    (known : scheme ∈ schemes) (h : Text.dropLead? scheme.toList target = some rest)
    (hpath : rest.dropWhile (· != '/') = '/' :: path) : PathOf target ('/' :: path) := by
  obtain ⟨lead, rfl, halike⟩ := Text.dropLead?_eq_some_iff.mp h
  obtain ⟨host, rfl, hplain⟩ := eq_append_of_dropWhile hpath
  exact .behindHost known halike hplain

/-- What is taken for the path of a target is its path. -/
theorem targetPath_eq_iff {target path : List Char} :
    targetPath target = '/' :: path ↔ PathOf target ('/' :: path) := by
  unfold targetPath
  constructor
  · intro h
    split at h
    · next rest hhttp => exact pathOf_of_dropLead? (by simp [schemes]) hhttp h
    · next hhttp =>
      split at h
      · next rest hhttps => exact pathOf_of_dropLead? (by simp [schemes]) hhttps h
      · next hhttps =>
        rw [← h]
        refine .bare ?_
        intro scheme hscheme lead rest heq
        rw [Bool.eq_false_iff]
        intro halike
        have hlead : Text.dropLead? scheme.toList target = some rest :=
          Text.dropLead?_eq_some_iff.mpr ⟨lead, heq, halike⟩
        rcases mem_schemes.mp hscheme with rfl | rfl
        · rw [hhttp] at hlead
          cases hlead
        · rw [hhttps] at hlead
          cases hlead
  · intro h
    generalize hp : '/' :: path = p at h
    cases h with
    | bare hbare =>
      have hnone (scheme : String) (hscheme : scheme ∈ schemes) :
          Text.dropLead? scheme.toList target = none := by
        rw [Option.eq_none_iff_forall_ne_some]
        intro rest hlead
        obtain ⟨lead, heq, halike⟩ := Text.dropLead?_eq_some_iff.mp hlead
        rw [hbare scheme hscheme lead rest heq] at halike
        cases halike
      rw [hnone "http://" (by simp [schemes]), hnone "https://" (by simp [schemes])]
    | @behindHost scheme lead host path known alike plain =>
      have hlead : Text.dropLead? scheme.toList (lead ++ (host ++ '/' :: path)) =
          some (host ++ '/' :: path) := Text.dropLead?_eq_some_iff.mpr ⟨lead, rfl, alike⟩
      rcases mem_schemes.mp known with rfl | rfl
      · rw [hlead]
        exact dropWhile_slash plain
      · rw [dropLead?_http_eq_none hlead, hlead]
        exact dropWhile_slash plain

/-- What has to succeed for a line to be accepted. -/
theorem parse?_eq_some {line : List Char} {l : RequestLine} :
    RequestLine.parse? line = some l ↔ ∃ name rest target,
      Text.splitBlank? line = some (name, rest) ∧ Method.ofName? name = some l.method ∧
      Text.splitBlank? rest = some (target, l.version) ∧
      Text.eqIgnoreCase l.version "HTTP/1.1".toList = true ∧
      targetPath target = l.path ∧ l.path.head? = some '/' := by
  obtain ⟨method, path, version⟩ := l
  unfold RequestLine.parse?
  simp only [Option.bind_eq_bind, Option.bind_eq_some_iff, Prod.exists, Option.guard_eq_some',
    Option.pure_def, Option.some.injEq, RequestLine.mk.injEq]
  constructor
  · rintro ⟨name, rest, hline, _, hname, target, _, hrest, -, hversion, -, hpath, rfl, rfl, rfl⟩
    exact ⟨name, rest, target, hline, hname, hrest, hversion, rfl, hpath⟩
  · rintro ⟨name, rest, target, hline, hname, hrest, hversion, rfl, hpath⟩
    exact ⟨name, rest, hline, method, hname, target, version, hrest, (), hversion, (), hpath,
      rfl, rfl, rfl⟩

theorem parse?_eq_some_iff {line : List Char} {l : RequestLine} :
    RequestLine.parse? line = some l ↔ Spells line l := by
  rw [parse?_eq_some]
  constructor
  · rintro ⟨name, rest, target, hline, hname, hrest, hversion, hpath, hslash⟩
    obtain ⟨method, path, version⟩ := l
    obtain ⟨before, rfl, hbefore, -, hflush⟩ := Text.splitBlank?_eq_some_iff.mp hline
    obtain ⟨behind, rfl, hbehind, hword, -⟩ := Text.splitBlank?_eq_some_iff.mp hrest
    obtain ⟨path, rfl⟩ := List.head?_eq_some_iff.mp hslash
    refine .intro (ofName?_eq_some_iff.mp hname) hbefore ⟨?_, ?_⟩ hbehind hversion
      (targetPath_eq_iff.mp hpath)
    · rintro rfl
      obtain ⟨c, behind, rfl⟩ := List.exists_cons_of_ne_nil hbehind.ne_nil
      have hblank := Text.isBlank_iff.mpr (hbehind.blank c List.mem_cons_self)
      rw [hflush c rfl] at hblank
      cases hblank
    · exact fun c hc => Text.isBlank_eq_false_iff.mp (hword c hc)
  · rintro @⟨name, before, target, behind, version, path, method, hname, hbefore, htarget, hbehind,
      hversion, hpath⟩
    have hnoblank := Text.notBlank_of_eqIgnoreCase hname (by cases method <;> decide)
    have hflush := Text.flush_of_forall (Text.notBlank_of_eqIgnoreCase hversion (by decide))
    refine ⟨name, target ++ (behind ++ version), target, ?_, ofName?_eq_some_iff.mpr hname, ?_,
      hversion, targetPath_eq_iff.mpr hpath, rfl⟩
    · exact Text.splitBlank?_eq_some_iff.mpr
        ⟨before, rfl, hbefore, hnoblank, htarget.flush_append _⟩
    · exact Text.splitBlank?_eq_some_iff.mpr ⟨behind, rfl, hbehind,
        fun c hc => Text.isBlank_eq_false_iff.mpr (htarget.dark c hc), hflush⟩

/-- `Request.addLine`, cutting the line at bytes. -/
def Request.addLineBytewise (r : Request) (line : List Char) : Except Nat (Bool × Request) :=
  (RequestLine.parseBytewise line).map fun
    | some l => (true, r.withLine l)
    | none => (false, r)

/-- A request line is accepted exactly where it spells a method, a target with a path, and
the version.  It then sets these three fields, with the welcome page in place of the bare
root, and no other; a line that is refused changes nothing.  No cut at a byte divides a
character. -/
theorem Request.addLine_exact (r : Request) (line : List Char) :
    ((r.addLine line).1 = true ↔ ∃ l, Spells line l) ∧
      (∀ l, Spells line l → (r.addLine line).2 = { r with
        method := l.method
        version := String.ofList l.version
        url := if l.path = ['/'] then "/judge.html" else String.ofList l.path }) ∧
      ((r.addLine line).1 = false → (r.addLine line).2 = r) ∧
      r.addLineBytewise line = .ok (r.addLine line) := by
  simp only [← parse?_eq_some_iff, addLine, addLineBytewise, parseBytewise_eq]
  cases hparse : RequestLine.parse? line with
  | none => exact ⟨by simp, by simp, fun _ => rfl, rfl⟩
  | some l =>
    refine ⟨⟨fun _ => ⟨l, rfl⟩, fun _ => rfl⟩, ?_, by simp, rfl⟩
    intro l' hl'
    obtain rfl := Option.some.inj hl'
    rfl

end Http
end PageServer
