import PageServer.Workers.Basic

/-!
# What the operations of workers and pools do

A task goes from the queue to the worker that waits for a handle, and with the handle to
those that run.  A handle that a pool has lent out can be returned to it.
-/

namespace PageServer

namespace Pool

variable {α : Type} {p q : Pool α} {a : α}

/-- There are no more free handles than there are handles. -/
def Fits (p : Pool α) : Prop :=
  p.freeCount ≤ p.capacity

theorem takePermit?_eq_some (h : p.takePermit? = some q) :
    q = { p with permits := p.permits - 1 } := by
  unfold takePermit? at h
  split at h
  · cases h
  · exact (Option.some.inj h).symm

theorem takePermit?_of_acquire? (h : p.acquire? = some (a, q)) : ∃ p', p.takePermit? = some p' := by
  unfold acquire? at h
  split at h
  · cases h
  · next hpermit => exact ⟨_, hpermit⟩

theorem Fits.acquire? (fits : p.Fits) (h : p.acquire? = some (a, q)) :
    q.freeCount < q.capacity := by
  fun_induction Pool.acquire? p with
  | case1 => cases h
  | case2 p p' hpermit found hfound =>
    obtain rfl := Option.some.inj h
    obtain rfl := takePermit?_eq_some hpermit
    cases hfree : p.free with
    | nil => simp [popFree?, hfree] at hfound
    | cons first rest =>
      rw [Fits, freeCount, hfree, List.length_cons] at fits
      simp only [popFree?, hfree, Option.some.injEq, Prod.mk.injEq] at hfound
      obtain ⟨-, rfl⟩ := hfound
      exact fits
  | case3 p p' hpermit hfree ih =>
    obtain rfl := takePermit?_eq_some hpermit
    exact ih fits h

theorem release_ok (room : p.freeCount < p.capacity) (a : α) :
    ∃ q, p.release a = .ok q ∧ q.Fits := by
  refine ⟨{ p with free := p.free ++ [a], permits := p.permits + 1 }, ?_, ?_⟩
  · rw [release, pushFree, if_pos room]
    rfl
  · rw [Fits, freeCount, List.length_append]
    exact room

theorem release_eq_ok (h : p.release a = .ok q) :
    ∃ p', p.pushFree a = .ok p' ∧ q = p'.postPermit := by
  unfold release at h
  cases hpush : p.pushFree a with
  | error f =>
    rw [hpush] at h
    cases h
  | ok p' =>
    rw [hpush] at h
    exact ⟨p', rfl, (Except.ok.inj h).symm⟩

end Pool

namespace Workers

variable {τ ρ : Type} {w w' : Workers τ ρ} {t : τ} {r : ρ}

theorem append_eq_true (h : w.append t = (true, w')) :
    w.queue.length < w.maxQueued ∧ w' = { w with queue := w.queue ++ [t] } := by
  unfold append at h
  split at h
  · cases h
  · next hroom =>
    cases h
    exact ⟨Nat.lt_of_not_le hroom, rfl⟩

theorem append_eq_false (h : w.append t = (false, w')) :
    w.maxQueued ≤ w.queue.length ∧ w' = w := by
  unfold append at h
  split at h
  · next hfull =>
    cases h
    exact ⟨hfull, rfl⟩
  · cases h

theorem take?_eq_some (h : w.take? = some w') :
    ∃ t rest, w.queue = t :: rest ∧ w' = { w with queue := rest, waiting := w.waiting ++ [t] } := by
  unfold take? at h
  split at h
  · cases h
  · next t rest hqueue =>
    split at h
    · exact ⟨t, rest, hqueue, (Option.some.inj h).symm⟩
    · cases h

theorem busy_lt_of_take? (h : w.take? = some w') : w.busy < w.threads := by
  unfold take? at h
  split at h
  · cases h
  · split at h
    · next hbusy => exact hbusy
    · cases h

theorem lease?_eq_some (h : w.lease? = some (t, r, w')) :
    ∃ rest handles, w.waiting = t :: rest ∧ w.handles.acquire? = some (r, handles) ∧
      w' = { w with waiting := rest, running := w.running ++ [(t, r)], handles } := by
  unfold lease? at h
  split at h
  · cases h
  · next hwaiting =>
    obtain ⟨⟨r', handles⟩, hacquire, heq⟩ := Option.map_eq_some_iff.mp h
    cases heq
    exact ⟨_, handles, hwaiting, hacquire, rfl⟩

theorem finish_eq_ok {place : Nat} (h : w.finish place r = .ok w') :
    ∃ handles, w.handles.release r = .ok handles ∧
      w' = { w with running := w.running.eraseIdx place, handles } := by
  unfold finish at h
  cases hrelease : w.handles.release r with
  | error f =>
    rw [hrelease] at h
    cases h
  | ok handles =>
    rw [hrelease] at h
    exact ⟨handles, rfl, (Except.ok.inj h).symm⟩

end Workers
end PageServer
