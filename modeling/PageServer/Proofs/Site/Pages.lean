import PageServer.Site.Page

/-!
# Which page answers a request

The first character behind the last slash of the url selects the page: registering and
logging in have a page each, a posted form is answered by what comes of it, and any other
url stands for itself.
-/

namespace PageServer
namespace Site

open Accounts (Backend)

/-- The first character behind the last slash of the url is `mark`. -/
def Marked (url : String) (mark : Char) : Prop :=
  ∃ before rest, url.toList = before ++ '/' :: mark :: rest ∧ '/' ∉ mark :: rest

theorem takeWhile_reverse_of_notMem {before after : List Char} (h : '/' ∉ after) :
    ((before ++ '/' :: after).reverse.takeWhile (· != '/')).reverse = after := by
  have hall : ∀ c ∈ after.reverse, (c != '/') = true := by
    intro c hc
    rw [bne_iff_ne]
    rintro rfl
    exact h (List.mem_reverse.mp hc)
  rw [List.reverse_append, List.reverse_cons, List.append_assoc, List.takeWhile_append_of_pos hall]
  simp

/-- What has a slash ends behind its last one. -/
theorem exists_eq_append_of_mem {l : List Char} (h : '/' ∈ l) :
    ∃ before after, l = before ++ '/' :: after ∧ '/' ∉ after := by
  induction l with
  | nil => cases h
  | cons c l ih =>
    by_cases hl : '/' ∈ l
    · obtain ⟨before, after, rfl, hafter⟩ := ih hl
      exact ⟨c :: before, after, rfl, hafter⟩
    · have hc : c = '/' := ((List.mem_cons.mp h).resolve_right hl).symm
      exact ⟨[], l, by rw [hc, List.nil_append], hl⟩

theorem selector?_eq_some_iff {url : String} {mark : Char} :
    selector? url = some mark ↔ Marked url mark := by
  unfold selector? Marked
  constructor
  · intro h
    split at h
    · next hslash =>
      obtain ⟨before, after, heq, hafter⟩ := exists_eq_append_of_mem hslash
      rw [heq, takeWhile_reverse_of_notMem hafter] at h
      obtain ⟨rest, rfl⟩ := List.head?_eq_some_iff.mp h
      exact ⟨before, rest, heq, hafter⟩
    · cases h
  · rintro ⟨before, rest, heq, hrest⟩
    rw [heq, if_pos (by simp), takeWhile_reverse_of_notMem hrest]
    rfl

/-- The page that is chosen for a request. -/
structure Chosen (b : Backend) (r : Http.Request) (page : Option String) : Prop where
  register : Marked r.url '0' → page = some "/register.html"
  login : Marked r.url '1' → page = some "/log.html"
  /-- A posted login is answered by whether the name and the password are right. -/
  checked : r.method = .post → Marked r.url '2' →
    page = (Credentials.ofForm? r.body).map fun form =>
      if b.verify form.user form.password then "/welcome.html" else "/logError.html"
  /-- A posted registration is answered by whether it succeeds. -/
  registered : r.method = .post → Marked r.url '3' →
    page = (Credentials.ofForm? r.body).map fun form =>
      match (b.register form.user form.password).1 with
      | .ok true => "/log.html"
      | _ => "/registerError.html"
  itself : ¬Marked r.url '0' → ¬Marked r.url '1' →
    (r.method = .post → ¬Marked r.url '2' ∧ ¬Marked r.url '3') → page = some r.url

theorem chosen_selectPage (b : Backend) (r : Http.Request) : Chosen b r (selectPage r b).1 := by
  constructor
  all_goals simp only [← selector?_eq_some_iff]
  · intro hmark
    rw [selectPage, hmark]
    cases r.method <;> rfl
  · intro hmark
    rw [selectPage, hmark]
    cases r.method <;> rfl
  · intro hpost hmark
    rw [selectPage, hpost, hmark]
    rfl
  · intro hpost hmark
    rw [selectPage, hpost, hmark]
    cases Credentials.ofForm? r.body with
    | none => rfl
    | some form =>
      simp only [registerAnswer, Option.map_some]
      rcases b.register form.user form.password with ⟨f | _ | _, b'⟩ <;> rfl
  · intro hregister hlogin hposted
    rw [selectPage]
    split
    · next hmethod hselector => exact absurd hselector (hposted hmethod).1
    · next hmethod hselector => exact absurd hselector (hposted hmethod).2
    · exact absurd ‹selector? r.url = some '0'› hregister
    · exact absurd ‹selector? r.url = some '1'› hlogin
    · rfl

/-- Only a posted registration leaves anything behind. -/
theorem selectPage_unchanged {r : Http.Request} (b : Backend)
    (h : r.method = .post → ¬Marked r.url '3') : (selectPage r b).2 = b := by
  simp only [← selector?_eq_some_iff] at h
  rw [selectPage]
  split
  · rfl
  · next hmethod hselector => exact absurd hselector (h hmethod)
  · rfl
  · rfl
  · rfl

end Site
end PageServer
