import PageServer.Text.Ascii

/-!
# Texts cut at bytes

Positions in a text can be counted in bytes, and then a position may lie within a
character, where the text cannot be cut.  Looking for a character and looking for a lead
in ASCII come to positions where a character begins, and to the same parts as when
characters are counted.
-/

namespace PageServer
namespace Text

/-- Bytes that a text takes in UTF-8. -/
def byteLength : List Char → Nat
  | [] => 0
  | c :: s => c.utf8Size + byteLength s

/-- The parts of a text before its byte `n` and from there on; none where byte `n` is not
the first one of a character and not the end. -/
def partsAt? (n : Nat) : List Char → Option (List Char × List Char)
  | [] => if n = 0 then some ([], []) else none
  | c :: s =>
    if n = 0 then some ([], c :: s)
    else if n < c.utf8Size then none
    else (partsAt? (n - c.utf8Size) s).map fun parts => (c :: parts.1, parts.2)

/-- Cuts a text at its byte `n`; fails with `n` where the text cannot be cut there. -/
def cutAt (n : Nat) (s : List Char) : Except Nat (List Char × List Char) :=
  match partsAt? n s with
  | some parts => .ok parts
  | none => .error n

/-- The byte where the first character with a property begins. -/
def byteIndex? (p : Char → Bool) : List Char → Option Nat
  | [] => none
  | c :: s => if p c then some 0 else (byteIndex? p s).map (c.utf8Size + ·)

/-- `splitBlank?`, cutting at a byte. -/
def splitBlankBytewise (s : List Char) : Except Nat (Option (List Char × List Char)) :=
  match byteIndex? isBlank s with
  | none => .ok none
  | some n => (cutAt n s).map fun parts => some (parts.1, trimLeft parts.2)

/-- `dropLead?`, cutting at a byte where the text is long enough and a character begins. -/
def dropLeadBytewise (lead s : List Char) : Except Nat (Option (List Char)) :=
  if byteLength lead ≤ byteLength s ∧ (partsAt? (byteLength lead) s).isSome then
    (cutAt (byteLength lead) s).map fun parts =>
      if eqIgnoreCase parts.1 lead then some parts.2 else none
  else .ok none

/-- What begins at the first slash of a text, cutting at a byte. -/
def fromSlashBytewise (s : List Char) : Except Nat (List Char) :=
  match byteIndex? (· == '/') s with
  | none => .ok []
  | some n => (cutAt n s).map (·.2)

/-! ## Where a text can be cut -/

@[simp] theorem byteLength_nil : byteLength [] = 0 :=
  rfl

@[simp] theorem byteLength_cons (c : Char) (s : List Char) :
    byteLength (c :: s) = c.utf8Size + byteLength s :=
  rfl

@[simp] theorem byteLength_append (s t : List Char) :
    byteLength (s ++ t) = byteLength s + byteLength t := by
  induction s with
  | nil => rw [List.nil_append, byteLength_nil, Nat.zero_add]
  | cons c s ih => rw [List.cons_append, byteLength_cons, byteLength_cons, ih, Nat.add_assoc]

theorem partsAt?_zero (s : List Char) : partsAt? 0 s = some ([], s) := by
  cases s <;> rfl

theorem partsAt?_append (front rest : List Char) :
    partsAt? (byteLength front) (front ++ rest) = some (front, rest) := by
  induction front with
  | nil => exact partsAt?_zero rest
  | cons c front ih =>
    have hpos := c.utf8Size_pos
    rw [byteLength_cons, List.cons_append, partsAt?, if_neg (by omega), if_neg (by omega),
      Nat.add_sub_cancel_left, ih]
    rfl

/-- A text can be cut at a byte only where it has a part of so many bytes. -/
theorem partsAt?_eq_some_iff {n : Nat} {s front rest : List Char} :
    partsAt? n s = some (front, rest) ↔ s = front ++ rest ∧ byteLength front = n := by
  constructor
  · intro h
    induction s generalizing n front with
    | nil =>
      rw [partsAt?] at h
      split at h
      · next hn =>
        cases h
        exact ⟨rfl, hn.symm⟩
      · cases h
    | cons c s ih =>
      rw [partsAt?] at h
      split at h
      · next hn =>
        cases h
        exact ⟨rfl, hn.symm⟩
      · split at h
        · cases h
        · next hn hle =>
          obtain ⟨⟨front', rest'⟩, hparts, heq⟩ := Option.map_eq_some_iff.mp h
          cases heq
          obtain ⟨rfl, hlength⟩ := ih hparts
          refine ⟨rfl, ?_⟩
          rw [byteLength_cons, hlength]
          omega
  · rintro ⟨rfl, rfl⟩
    exact partsAt?_append front rest

theorem cutAt_append (front rest : List Char) :
    cutAt (byteLength front) (front ++ rest) = .ok (front, rest) := by
  rw [cutAt, partsAt?_append]

/-! ## Looking for a character -/

theorem byteIndex?_eq_none {p : Char → Bool} {s : List Char} (h : byteIndex? p s = none) :
    s.dropWhile (fun c => !p c) = [] := by
  induction s with
  | nil => rfl
  | cons c s ih =>
    rw [byteIndex?] at h
    split at h
    · cases h
    · next hc =>
      rw [List.dropWhile_cons_of_pos (by simpa using hc)]
      exact ih (Option.map_eq_none_iff.mp h)

theorem byteIndex?_eq_some {p : Char → Bool} {s : List Char} {n : Nat}
    (h : byteIndex? p s = some n) :
    n = byteLength (s.takeWhile fun c => !p c) ∧ s.dropWhile (fun c => !p c) ≠ [] := by
  induction s generalizing n with
  | nil => cases h
  | cons c s ih =>
    rw [byteIndex?] at h
    split at h
    · next hc =>
      cases h
      simp [hc]
    · next hc =>
      have hc' : (!p c) = true := by simpa using hc
      obtain ⟨m, hm, rfl⟩ := Option.map_eq_some_iff.mp h
      obtain ⟨rfl, hne⟩ := ih hm
      simp only [List.takeWhile_cons, List.dropWhile_cons, hc', if_true, byteLength_cons]
      exact ⟨trivial, hne⟩

/-- The byte at which a character is found is one where the text can be cut. -/
theorem cutAt_byteIndex? {p : Char → Bool} {s : List Char} {n : Nat}
    (h : byteIndex? p s = some n) :
    cutAt n s = .ok (s.takeWhile fun c => !p c, s.dropWhile fun c => !p c) := by
  have hcut := cutAt_append (s.takeWhile fun c => !p c) (s.dropWhile fun c => !p c)
  rwa [List.takeWhile_append_dropWhile, ← (byteIndex?_eq_some h).1] at hcut

theorem splitBlankBytewise_eq (s : List Char) : splitBlankBytewise s = .ok (splitBlank? s) := by
  unfold splitBlankBytewise splitBlank?
  cases hindex : byteIndex? isBlank s with
  | none => simp only [byteIndex?_eq_none hindex]
  | some n =>
    obtain ⟨c, rest, hrest⟩ := List.exists_cons_of_ne_nil (byteIndex?_eq_some hindex).2
    simp only [cutAt_byteIndex? hindex, Except.map, hrest]

theorem fromSlashBytewise_eq (s : List Char) :
    fromSlashBytewise s = .ok (s.dropWhile (· != '/')) := by
  unfold fromSlashBytewise
  cases hindex : byteIndex? (· == '/') s with
  | none => exact congrArg Except.ok (byteIndex?_eq_none hindex).symm
  | some n =>
    simp only
    rw [cutAt_byteIndex? hindex]
    rfl

/-! ## Looking for a lead -/

/-- Only letters that take one byte change with case. -/
theorem utf8Size_toLower (c : Char) : c.toLower.utf8Size = c.utf8Size := by
  unfold Char.toLower
  split
  · next h =>
    have hupper : c.val.toNat ≤ 90 := UInt32.le_iff_toNat_le.mp h.2
    have hone {d : Char} (hd : d.val.toNat ≤ 127) : d.utf8Size = 1 := by
      rw [Char.utf8Size, if_pos (UInt32.le_iff_toNat_le.mpr hd)]
    have hshift : ('a'.val - 'A'.val).toNat = 32 := by decide
    rw [hone (d := c) (by omega), hone]
    simp only [UInt32.toNat_add, hshift]
    omega
  · rfl

theorem eqIgnoreCase_iff {s t : List Char} :
    eqIgnoreCase s t = true ↔ s.map Char.toLower = t.map Char.toLower := by
  rw [eqIgnoreCase, beq_iff_eq]

theorem length_eq_of_eqIgnoreCase {s t : List Char} (h : eqIgnoreCase s t = true) :
    s.length = t.length := by
  simpa using congrArg List.length (eqIgnoreCase_iff.mp h)

theorem byteLength_map_toLower (s : List Char) :
    byteLength (s.map Char.toLower) = byteLength s := by
  induction s with
  | nil => rfl
  | cons c s ih => rw [List.map_cons, byteLength_cons, byteLength_cons, utf8Size_toLower, ih]

/-- Texts that differ in case only take as many bytes. -/
theorem byteLength_eq_of_eqIgnoreCase {s t : List Char} (h : eqIgnoreCase s t = true) :
    byteLength s = byteLength t := by
  rw [← byteLength_map_toLower s, ← byteLength_map_toLower t, eqIgnoreCase_iff.mp h]

theorem dropLead?_eq_some_iff {lead s rest : List Char} :
    dropLead? lead s = some rest ↔ ∃ front, s = front ++ rest ∧ eqIgnoreCase front lead = true := by
  rw [dropLead?]
  constructor
  · intro h
    split at h
    · next hlead =>
      cases h
      exact ⟨_, (List.take_append_drop _ _).symm, hlead⟩
    · cases h
  · rintro ⟨front, rfl, hlead⟩
    have hlength := length_eq_of_eqIgnoreCase hlead
    rw [← hlength, List.take_left, List.drop_left, if_pos hlead]

theorem dropLeadBytewise_eq (lead s : List Char) :
    dropLeadBytewise lead s = .ok (dropLead? lead s) := by
  unfold dropLeadBytewise
  split
  · next h =>
    obtain ⟨⟨front, rest⟩, hparts⟩ := Option.isSome_iff_exists.mp h.2
    obtain ⟨rfl, hlength⟩ := partsAt?_eq_some_iff.mp hparts
    rw [cutAt, hparts]
    simp only [Except.map]
    congr 1
    split
    · next hlead => exact (dropLead?_eq_some_iff.mpr ⟨front, rfl, hlead⟩).symm
    · next hlead =>
      symm
      rw [Option.eq_none_iff_forall_ne_some]
      intro rest' hdrop
      obtain ⟨front', heq, hlead'⟩ := dropLead?_eq_some_iff.mp hdrop
      have hparts' := partsAt?_append front' rest'
      rw [byteLength_eq_of_eqIgnoreCase hlead', ← heq, hparts] at hparts'
      cases hparts'
      exact hlead hlead'
  · next h =>
    cases hdrop : dropLead? lead s with
    | none => rfl
    | some rest =>
      obtain ⟨front, rfl, hlead⟩ := dropLead?_eq_some_iff.mp hdrop
      have hlength := byteLength_eq_of_eqIgnoreCase hlead
      refine absurd ⟨?_, ?_⟩ h
      · rw [← hlength, byteLength_append]
        exact Nat.le_add_right _ _
      · rw [← hlength, partsAt?_append]
        rfl

end Text
end PageServer
