import PageServer.Proofs.Disk.Growth

/-!
# Renaming

A file in a directory takes the name of another one there.  Whatever goes by neither of
the two names leads where it led.
-/

namespace PageServer
namespace Disk

/-- The disk where the entry `n` in the directory `dir` has the name `target` in place of
`source`. -/
def moved (d : Disk) (dir : Nat) (source target : String) (n : Nat) : Disk :=
  (d.removeName dir source).setName dir target n

variable {d : Disk} {dir n mode parent : Nat} {source target : String} {l : List (String × Nat)}

theorem moved_here : (d.moved dir source target n).here = d.here := by
  simp [moved, setName, removeName]

theorem moved_canOpen : (d.moved dir source target n).canOpen = d.canOpen := by
  simp [moved, setName, removeName]

theorem size_moved : (d.moved dir source target n).entries.size = d.entries.size := by
  simp [moved, setName, removeName]

section

variable (h : d.entry? dir = some (.directory mode parent l))
include h

theorem entry?_moved (m : Nat) : entry? (d.moved dir source target n) m =
    if dir = m then some (.directory mode parent
      ((l.filter (·.1 != source)).filter (·.1 != target) ++ [(target, n)]))
    else d.entry? m := by
  have hremoved := entry?_setNames h (l.filter (·.1 != source))
  have hdir : entry? (d.removeName dir source) dir =
      some (.directory mode parent (l.filter (·.1 != source))) := by
    rw [removeName, names_of_entry h, hremoved, if_pos rfl]
  rw [moved, setName, names_of_entry hdir, entry?_setNames hdir]
  by_cases hm : dir = m
  · rw [if_pos hm, if_pos hm]
  · rw [if_neg hm, if_neg hm, removeName, names_of_entry h, hremoved, if_neg hm]

/-- The names after the change. -/
theorem lookup_moved (at' : Nat) (name : String) :
    ((d.moved dir source target n).names at').lookup name =
      if at' = dir ∧ name = target then some n
      else if at' = dir ∧ name = source then none
      else (d.names at').lookup name := by
  have hentry := @entry?_moved d dir n mode parent source target l h at'
  by_cases hdir : dir = at'
  · subst hdir
    rw [if_pos rfl] at hentry
    rw [names_of_entry hentry, names_of_entry h, lookup_give, lookup_without]
    simp only [true_and]
  · rw [if_neg hdir] at hentry
    rw [if_neg fun heq => hdir heq.1.symm, if_neg fun heq => hdir heq.1.symm, names, names, hentry]

theorem permits_moved (m : Nat) (a : Access) :
    (d.moved dir source target n).permits m a = d.permits m a := by
  rw [permits, permits, entry?_moved h]
  by_cases hdir : dir = m
  · rw [if_pos hdir, ← hdir, h]
    rfl
  · rw [if_neg hdir]

theorem isDirectory_moved (m : Nat) :
    (d.moved dir source target n).isDirectory m = d.isDirectory m := by
  rw [isDirectory, isDirectory, entry?_moved h]
  by_cases hdir : dir = m
  · rw [if_pos hdir, ← hdir, h]
    rfl
  · rw [if_neg hdir]

theorem parent_moved (m : Nat) :
    (d.moved dir source target n).parent m = d.parent m := by
  rw [Disk.parent, Disk.parent, entry?_moved h]
  by_cases hdir : dir = m
  · rw [if_pos hdir, ← hdir, h]
  · rw [if_neg hdir]

theorem entry?_moved_of_ne {m : Nat} {x : Entry} (hx : x.isDirectory = false)
    (hentry : d.entry? m = some x) : entry? (d.moved dir source target n) m = some x := by
  rw [entry?_moved h, if_neg, hentry]
  rintro rfl
  cases h.symm.trans hentry
  cases hx

/-- Other names lead on as they did. -/
theorem hop_moved {at' : Nat} {name : String} {next : Hop}
    (hne : ¬(at' = dir ∧ (name = source ∨ name = target))) (hhop : d.hop at' name = .ok next) :
    (d.moved dir source target n).hop at' name = .ok next := by
  have hchild' {m : Nat} (hchild : d.child? at' name = .ok (some m)) :
      (d.moved dir source target n).child? at' name = .ok (some m) := by
    obtain ⟨hshort, hlookup⟩ := child?_eq_ok.mp hchild
    refine child?_eq_ok.mpr ⟨hshort, ?_⟩
    rw [lookup_moved h, if_neg fun heq => hne ⟨heq.1, .inr heq.2⟩,
      if_neg fun heq => hne ⟨heq.1, .inl heq.2⟩, hlookup]
  obtain ⟨hopen, hgoes⟩ := hop_eq_ok_iff.mp hhop
  refine hop_eq_ok_iff.mpr ⟨by rw [permits_moved h, hopen], ?_⟩
  cases hgoes with
  | here => exact .here
  | up =>
    rw [← @parent_moved d dir n mode parent source target l h at']
    exact .up
  | down hdot hup hchild hdirectory =>
    exact .down hdot hup (hchild' hchild) (by rw [isDirectory_moved h, hdirectory])
  | link hdot hup hchild hentry =>
    exact .link hdot hup (hchild' hchild) (entry?_moved_of_ne h rfl hentry)

theorem WellFormed.moved (hd : WellFormed d) {name : String}
    (hn : (d.names dir).lookup name = some n) : WellFormed (d.moved dir source target n) := by
  refine ⟨?_, ?_, ?_, ?_⟩
  · rw [isDirectory_moved h]
    exact hd.root
  · rw [isDirectory_moved h, moved_here]
    exact hd.here
  · intro m hm
    rw [isDirectory_moved h] at hm ⊢
    rw [parent_moved h]
    exact hd.parent m hm
  · intro at' other m hother
    rw [lookup_moved h] at hother
    rw [size_moved]
    split at hother
    · cases hother
      exact hd.named dir name n hn
    · split at hother
      · cases hother
      · exact hd.named at' other m hother

end

/-! ## What a renaming takes -/

theorem rename_eq_ok {e : Disk} {path path' : String} (h : d.rename path path' = .ok e)
    (hpath : d.place .never path = .ok (.name dir source false))
    (hpath' : d.place .never path' = .ok (.name dir target false)) :
    ∃ k, d.child? dir source = .ok (some k) ∧
      ((d.child? dir target = .ok (some k) ∧ e = d) ∨
        target.utf8ByteSize ≤ maxName ∧ e = d.moved dir source target k) := by
  rw [rename, hpath, hpath', Except.bind, Except.bind] at h
  obtain ⟨_ | k, hchild, h⟩ := bind_eq_ok.mp h
  · cases h
  · obtain ⟨other, hother, h⟩ := bind_eq_ok.mp h
    refine ⟨k, hchild, ?_⟩
    rw [if_neg (by decide)] at h
    split at h
    · next heq =>
      cases h
      exact .inl ⟨by rw [hother, heq], rfl⟩
    · obtain ⟨-, -, h⟩ := bind_eq_ok.mp h
      obtain ⟨-, -, h⟩ := bind_eq_ok.mp h
      split at h
      · cases h
      · cases h
        exact .inr ⟨(child?_eq_ok.mp hother).1, rfl⟩

end Disk
end PageServer
