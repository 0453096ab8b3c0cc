import Mathlib.Logic.Relation
import PageServer.Proofs.Workers.Tally

/-!
# How work goes on and ends

While there is a handle somewhere, some worker has something to do unless all wait and
there is no permit.  Once the workers have been told and have their permits, each of their
steps brings the end nearer, but for what a task does to its handle.
-/

namespace PageServer
namespace Crew

variable {τ ρ ι : Type} {name : ρ → ι} {handles : List ρ} {threads maxQueued : Nat} {s t : Crew τ ρ}
  {σ σ' : Shared τ ρ} {before after : List (Worker τ ρ)} {w w' : Worker τ ρ}

/-- Some worker does something, be it the end of its task. -/
def GoesOn (name : ρ → ι) (s : Crew τ ρ) : Prop :=
  ∃ before w after w' σ, s.workers = before ++ w :: after ∧ Move name w s.toShared w' σ ∧
    w'.rank ≠ w.rank

/-- A worker has something to do unless it waits for a permit. -/
theorem Move.exists (name : ρ → ι) (w : Worker τ ρ) (σ : Shared τ ρ) :
    (∃ w' σ', Move name w σ w' σ' ∧ w'.rank ≠ w.rank) ∨ w = .ended ∨
      (w = .waiting ∧ σ.permits = 0) ∨ ∃ t, w = .acquiring t ∧ σ.handles.permits = 0 := by
  cases w with
  | waiting =>
    by_cases hpermits : σ.permits = 0
    · exact .inr (.inr (.inl ⟨rfl, hpermits⟩))
    · exact .inl ⟨_, _, .wake (Nat.pos_of_ne_zero hpermits), nofun⟩
  | woken =>
    by_cases hphase : σ.phase = .serving
    · exact .inl ⟨_, _, .goOn hphase, nofun⟩
    · exact .inl ⟨_, _, .leave hphase, nofun⟩
  | taking =>
    cases hqueue : σ.queue with
    | nil => exact .inl ⟨_, _, .miss hqueue, nofun⟩
    | cons t rest => exact .inl ⟨_, _, .take hqueue, nofun⟩
  | acquiring t =>
    by_cases hpermits : σ.handles.permits = 0
    · exact .inr (.inr (.inr ⟨t, rfl, hpermits⟩))
    · exact .inl ⟨_, _, .wait (if_neg hpermits), nofun⟩
  | popping t =>
    cases hpop : σ.handles.popFree? with
    | none => exact .inl ⟨_, _, .retry hpop, nofun⟩
    | some found => exact .inl ⟨_, _, .start hpop, nofun⟩
  | running t r => exact .inl ⟨_, _, .finish .returns, nofun⟩
  | releasing r =>
    cases hpush : σ.handles.pushFree r with
    | error f => exact .inl ⟨_, _, .overflow hpush, nofun⟩
    | ok handles => exact .inl ⟨_, _, .push hpush, nofun⟩
  | posting => exact .inl ⟨_, _, .post, nofun⟩
  | ended => exact .inr (.inl rfl)

theorem goesOn_of_mem (hw : w ∈ s.workers)
    (h : ∃ w' σ', Move name w s.toShared w' σ' ∧ w'.rank ≠ w.rank) : s.GoesOn name := by
  obtain ⟨before, after, who⟩ := List.append_of_mem hw
  obtain ⟨w', σ', hmove, hrank⟩ := h
  exact ⟨before, w, after, w', σ', who, hmove, hrank⟩

/-- A worker that waits for a handle waits for one that is at a handle or has one. -/
theorem goesOn_or (hlent : Lending.Sound name handles s.lending) (hsome : handles ≠ []) :
    s.GoesOn name ∨ ∀ w ∈ s.workers, w = .ended ∨ w = .waiting ∧ s.permits = 0 := by
  rw [or_iff_not_imp_left]
  intro hstuck w hw
  obtain hmove | hended | hwaiting | ⟨t, rfl, hnone⟩ := Move.exists name w s.toShared
  · exact absurd (goesOn_of_mem hw hmove) hstuck
  · exact .inl hended
  · exact .inr hwaiting
  · -- Whoever is at a handle or has one waits for nothing.
    obtain ⟨b, hb, hactive⟩ := hlent.blocked hsome hnone
    obtain ⟨v, hv, rfl⟩ := List.mem_map.mp hb
    obtain hmove | rfl | ⟨rfl, -⟩ | ⟨t, rfl, -⟩ := Move.exists name v s.toShared
    · exact absurd (goesOn_of_mem hv hmove) hstuck
    all_goals simp [Worker.borrower, Lending.Stage.isPopping, Lending.Stage.isPosting,
      Borrower.handles, Lending.Stage.carried] at hactive

theorem Move.rank (h : Move name w σ w' σ') (ending : σ.phase ≠ .serving)
    (free : ∀ t, w = .popping t → ∃ r rest, σ.handles.free = r :: rest) :
    w'.rank < w.rank ∨ ∃ t r r', w = .running t r ∧ w' = .running t r' ∧ σ' = σ := by
  cases h with
  | goOn hphase => exact absurd hphase ending
  | retry hnone =>
    obtain ⟨r, rest, hfree⟩ := free _ rfl
    rw [Pool.popFree?, hfree] at hnone
    cases hnone
  | use => exact .inr ⟨_, _, _, rfl, rfl, rfl⟩
  | miss => exact .inl (by decide : 2 < 8)
  | overflow => exact .inl (by decide : 0 < 4)
  | _ => exact .inl (Nat.lt_succ_self _)

theorem rank_update (σ : Shared τ ρ) (w' : Worker τ ρ) (who : s.workers = before ++ w :: after) :
    rank { σ with workers := before ++ w' :: after } + w.rank = s.rank + w'.rank := by
  simp only [Crew.rank, who, List.map_append, List.map_cons, List.sum_append, List.sum_cons]
  omega

/-- Once there is a permit for each worker, a step brings the end nearer or is one of a
task. -/
theorem Step.closing (hstep : Step name s t) (h : Sound threads maxQueued s)
    (hlent : Lending.Sound name handles s.lending) (posted : s.phase = .posted) :
    t.phase = .posted ∧ (t.rank < s.rank ∨ ∃ before after task r r',
      s.workers = before ++ .running task r :: after ∧
        t = { s with workers := before ++ .running task r' :: after }) := by
  have hending : s.phase ≠ .serving := by
    rw [posted]
    nofun
  cases hstep with
  | @move σ before after w w' who hmove =>
    refine ⟨hmove.kept.2.1.trans posted, ?_⟩
    obtain hrank | ⟨task, r, r', rfl, rfl, rfl⟩ := hmove.rank hending (free_of_popping hlent who)
    · have hupdate := rank_update σ w' who
      exact .inl (by omega)
    · exact .inr ⟨before, after, task, r, r', who, rfl⟩
  | accept serving => exact absurd serving hending
  | refuse serving => exact absurd serving hending
  | post hpos => exact absurd (h.idle hending) (Nat.ne_of_gt hpos)
  | tell serving => exact absurd serving hending
  | postAll told =>
    rw [posted] at told
    cases told

/-- Some step brings the end nearer until all workers have ended. -/
theorem ended_or_closer (h : Sound threads maxQueued s)
    (hlent : Lending.Sound name handles s.lending)
    (hsome : handles ≠ []) (posted : s.phase = .posted) :
    (∀ w ∈ s.workers, w = .ended) ∨ ∃ t, Step name s t ∧ t.rank < s.rank := by
  obtain ⟨before, w, after, w', σ, who, hmove, hne⟩ | hstuck := goesOn_or hlent hsome
  · refine .inr ⟨_, .move who hmove, ?_⟩
    have hending : s.phase ≠ .serving := by
      rw [posted]
      nofun
    obtain hrank | ⟨task, r, r', rfl, rfl, -⟩ := hmove.rank hending (free_of_popping hlent who)
    · have hupdate := rank_update σ w' who
      omega
    · exact absurd rfl hne
  · refine .inl fun w hw => ?_
    obtain hended | ⟨rfl, hnone⟩ := hstuck w hw
    · exact hended
    · have howed : 0 < s.owed := List.countP_pos_iff.mpr ⟨_, hw, rfl⟩
      have henough := h.enough posted
      omega

/-- The workers get to their end once they have been told. -/
theorem Reached.ends (h : Reached name handles threads maxQueued s) (hsome : handles ≠ [])
    (hending : s.phase ≠ .serving) :
    ∃ t, Relation.ReflTransGen (Step name) s t ∧ ∀ w ∈ t.workers, w = .ended := by
  have hposted {s : Crew τ ρ} (h : Reached name handles threads maxQueued s)
      (posted : s.phase = .posted) :
      ∃ t, Relation.ReflTransGen (Step name) s t ∧ ∀ w ∈ t.workers, w = .ended := by
    -- Each step that is not one of a task lowers the rank.
    induction hrank : s.rank using Nat.strongRecOn generalizing s with
    | _ n ih =>
      subst hrank
      obtain hended | ⟨t, hstep, hlt⟩ := ended_or_closer h.sound h.lending.sound hsome posted
      · exact ⟨s, .refl, hended⟩
      · have hphase := (hstep.closing h.sound h.lending.sound posted).1
        obtain ⟨u, hrun, hended⟩ := ih t.rank hlt (h.step hstep) hphase rfl
        exact ⟨u, hrun.head hstep, hended⟩
  cases hphase : s.phase with
  | serving => exact absurd hphase hending
  | told =>
    have hstep : Step name s { s with
        phase := .posted
        permits := s.permits + s.workers.length } := .postAll hphase
    obtain ⟨t, hrun, hended⟩ := hposted (h.step hstep) rfl
    exact ⟨t, hrun.head hstep, hended⟩
  | posted => exact hposted h hphase

end Crew
end PageServer
