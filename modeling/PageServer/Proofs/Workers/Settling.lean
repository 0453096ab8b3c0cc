import PageServer.Proofs.Workers.Tally
import PageServer.Workers.Run

/-!
# Operations as runs of the workers

A task that is taken, that gets its handle or that ends is one operation on the pool as a
whole, and some steps of one worker.  Where no worker is in between, the workers can do
what the operation does.
-/

namespace PageServer

/-- It waits, for a permit or for a handle, or runs a task. -/
def Worker.rests {τ ρ : Type} : Worker τ ρ → Bool
  | waiting | acquiring _ | running _ _ => true
  | _ => false

namespace Crew

variable {τ ρ ι : Type} {name : ρ → ι} {handles : List ρ} {threads maxQueued : Nat} {s t : Crew τ ρ}
  {σ : Shared τ ρ} {before after : List (Worker τ ρ)} {v v' : Worker τ ρ} {w w' : Workers τ ρ}

/-- No worker is in between, and this is how the pool looks as a whole. -/
structure Realises (s : Crew τ ρ) (w : Workers τ ρ) : Prop where
  serving : s.phase = .serving
  idle : s.appending = 0
  rests : ∀ v ∈ s.workers, v.rests = true
  threads : w.threads = s.workers.length
  maxQueued : w.maxQueued = s.maxQueued
  queue : w.queue = s.queue
  waiting : w.waiting.Perm s.pending
  running : w.running.Perm s.running
  handles : w.handles = s.handles

/-- What one worker has changes as what all have does. -/
theorem perm_replace {β : Type} {f : Worker τ ρ → List β} {all all' : List β}
    (h : all.Perm ((before ++ v :: after).flatMap f))
    (hchange : (f v ++ all').Perm (f v' ++ all)) :
    all'.Perm ((before ++ v' :: after).flatMap f) := by
  have hbefore := (h.trans (Lending.flatMap_split f before after v)).append_left (f v')
  have hnow := (Lending.flatMap_split f before after v').append_left (f v)
  refine (List.perm_append_left_iff (f v)).mp ((hchange.trans hbefore).trans (.trans ?_ hnow.symm))
  exact List.perm_append_comm_assoc _ _ _

/-- Workers that are not waiting for a permit have a task each. -/
theorem length_of_busy {ws : List (Worker τ ρ)} (h : ∀ v ∈ ws, v.rests = true ∧ v ≠ .waiting) :
    ws.length = (ws.flatMap Worker.pending).length + (ws.flatMap Worker.runs).length := by
  induction ws with
  | nil => rfl
  | cons v ws ih =>
    have hws := ih fun u hu => h u (List.mem_cons_of_mem v hu)
    obtain ⟨hrests, hbusy⟩ := h v List.mem_cons_self
    have hone : v.pending.length + v.runs.length = 1 := by
      cases v with
      | waiting => exact absurd rfl hbusy
      | acquiring | running => rfl
      | _ => cases hrests
    rw [List.flatMap_cons, List.flatMap_cons, List.length_append, List.length_append,
      List.length_cons]
    omega

namespace Realises

theorem update (h : Realises s w) (who : s.workers = before ++ v :: after)
    (phase : σ.phase = s.phase) (appending : σ.appending = s.appending) (rests : v'.rests = true)
    (threads : w'.threads = w.threads) (maxQueued : w'.maxQueued = σ.maxQueued)
    (queue : w'.queue = σ.queue)
    (waiting : (v.pending ++ w'.waiting).Perm (v'.pending ++ w.waiting))
    (running : (v.runs ++ w'.running).Perm (v'.runs ++ w.running))
    (handles : w'.handles = σ.handles) :
    Realises { σ with workers := before ++ v' :: after } w' := by
  refine ⟨phase.trans h.serving, appending.trans h.idle, ?_, ?_, maxQueued, queue, ?_, ?_, handles⟩
  · exact forall_update (who ▸ h.rests) rests
  · rw [threads, h.threads, who, List.length_append, List.length_append, List.length_cons,
      List.length_cons]
  · exact perm_replace (who ▸ h.waiting) waiting
  · exact perm_replace (who ▸ h.running) running

/-- A pool is started with workers that wait. -/
theorem start (h : Workers.start threads maxQueued (Pool.ofList handles) = .ok w) :
    0 < threads ∧ 0 < maxQueued ∧ Realises
      { maxQueued, handles := Pool.ofList handles,
        workers := List.replicate threads .waiting } w := by
  unfold Workers.start at h
  split at h
  · cases h
  · next hsizes =>
    split at h
    · cases h
    · cases h
      simp only [Bool.or_eq_true, decide_eq_true_eq, not_or] at hsizes
      refine ⟨Nat.pos_of_ne_zero hsizes.1, Nat.pos_of_ne_zero hsizes.2, ?_⟩
      exact {
        serving := rfl
        idle := rfl
        rests := fun v hv => by rw [List.eq_of_mem_replicate hv]; rfl
        threads := List.length_replicate.symm
        maxQueued := rfl
        queue := rfl
        waiting := by rw [Crew.pending, flatMap_waiting rfl]
        running := by rw [Crew.running, flatMap_waiting rfl]
        handles := rfl }

/-- For each task that is accepted there is a permit. -/
theorem permits (h : Realises s w) (hsound : Sound threads maxQueued s) :
    s.permits = s.queue.length := by
  have hnone {p : Worker τ ρ → Bool} (hp : ∀ v : Worker τ ρ, v.rests = true → p v = false) :
      s.workers.countP p = 0 :=
    List.countP_eq_zero.mpr fun v hv => by rw [hp v (h.rests v hv)]; nofun
  have hwoken : s.woken = 0 := hnone fun v hv => by cases v <;> first | rfl | cases hv
  have htaking : s.taking = 0 := hnone fun v hv => by cases v <;> first | rfl | cases hv
  have hstock := hsound.stock h.serving
  have hidle := h.idle
  omega

theorem append {task : τ} (h : Realises s w) (happend : w.append task = (true, w')) :
    ∃ t, Relation.ReflTransGen (Step name) s t ∧ Realises t w' := by
  obtain ⟨hroom, rfl⟩ := Workers.append_eq_true happend
  rw [h.queue, h.maxQueued] at hroom
  have haccept : s.summary.append task = (true, { s.summary with queue := s.queue ++ [task] }) :=
    if_neg (Nat.not_le.mpr hroom)
  refine ⟨_, .head (.accept h.serving haccept) (.single (.post (Nat.succ_pos _))), ?_⟩
  exact { h with queue := congrArg (· ++ [task]) h.queue }

/-- Where fewer workers are busy than there are, one waits. -/
theorem exists_waiting (h : Realises s w) (hbusy : w.busy < w.threads) : .waiting ∈ s.workers := by
  by_contra hnone
  have hlength := length_of_busy fun v hv =>
    And.intro (h.rests v hv) fun (heq : v = .waiting) => hnone (heq ▸ hv)
  rw [Workers.busy, h.waiting.length_eq, h.running.length_eq, h.threads, hlength] at hbusy
  exact Nat.lt_irrefl _ hbusy

theorem take? (h : Realises s w) (hsound : Sound threads maxQueued s) (htake : w.take? = some w') :
    ∃ t, Relation.ReflTransGen (Step name) s t ∧ Realises t w' := by
  have hbusy := Workers.busy_lt_of_take? htake
  obtain ⟨task, rest, hqueue, rfl⟩ := Workers.take?_eq_some htake
  have hfirst : s.queue = task :: rest := h.queue.symm.trans hqueue
  have hpermits : 0 < s.permits := by
    rw [h.permits hsound, hfirst]
    exact Nat.succ_pos _
  obtain ⟨before, after, who⟩ := List.append_of_mem (h.exists_waiting hbusy)
  have hwoken : Step name s _ := .move who (.wake hpermits)
  have htaking := (Relation.ReflTransGen.single hwoken).tail (.move rfl (.goOn h.serving))
  refine ⟨_, htaking.tail (.move rfl (.take hfirst)), ?_⟩
  refine h.update who rfl rfl rfl rfl h.maxQueued rfl ?_ (.refl _) h.handles
  exact List.perm_append_singleton task w.waiting

theorem lease? {task : τ} {r : ρ} (h : Realises s w) (hlent : Lending.Sound name handles s.lending)
    (hlease : w.lease? = some (task, r, w')) :
    ∃ t, Relation.ReflTransGen (Step name) s t ∧ Realises t w' := by
  obtain ⟨rest, pool, hwaiting, hacquire, rfl⟩ := Workers.lease?_eq_some hlease
  have hmem : task ∈ s.pending := h.waiting.subset (hwaiting ▸ List.mem_cons_self)
  obtain ⟨v, hv, htask⟩ := List.mem_flatMap.mp hmem
  obtain rfl : v = .acquiring task := by
    have hrests := h.rests v hv
    cases v with
    | acquiring t => rw [List.mem_singleton.mp htask]
    | popping => cases hrests
    | _ => cases htask
  obtain ⟨before, after, who⟩ := List.append_of_mem hv
  rw [h.handles] at hacquire
  obtain ⟨p, hpermit⟩ := Pool.takePermit?_of_acquire? hacquire
  obtain ⟨r', pool', hacquire', hpop⟩ := hlent.acquire? hpermit
  cases hacquire.symm.trans hacquire'
  have hpopping : Step name s _ := .move who (.wait hpermit)
  refine ⟨_, .tail (.single hpopping) (.move rfl (.start hpop)), ?_⟩
  refine h.update who rfl rfl rfl rfl h.maxQueued h.queue ?_ ?_ rfl
  · rw [hwaiting]
    exact .refl _
  · exact List.perm_append_singleton (task, r) w.running

/-- A task has done something to its handle, and ends. -/
theorem finish {task : τ} {r r' : ρ} {place : Nat} (h : Realises s w)
    (hplace : w.running[place]? = some (task, r)) (same : name r' = name r)
    (hfinish : w.finish place r' = .ok w') :
    ∃ t, Relation.ReflTransGen (Step name) s t ∧ Realises t w' := by
  obtain ⟨pool, hrelease, rfl⟩ := Workers.finish_eq_ok hfinish
  obtain ⟨pushed, hpush, rfl⟩ := Pool.release_eq_ok hrelease
  rw [h.handles] at hpush
  have hmem : (task, r) ∈ s.running := h.running.subset (List.mem_of_getElem? hplace)
  obtain ⟨v, hv, htask⟩ := List.mem_flatMap.mp hmem
  obtain rfl : v = .running task r := by
    cases v with
    | running t r => cases List.mem_singleton.mp htask; rfl
    | _ => cases htask
  obtain ⟨before, after, who⟩ := List.append_of_mem hv
  have hused := Relation.ReflTransGen.single (Step.move who (.use same))
  have hreleasing := hused.tail (.move rfl (.finish .returns))
  have hpushed := hreleasing.tail (.move rfl (.push hpush))
  refine ⟨_, hpushed.tail (.move rfl .post), ?_⟩
  refine h.update who rfl rfl rfl rfl h.maxQueued h.queue (.refl _) ?_ rfl
  obtain ⟨hlt, heq⟩ := List.getElem?_eq_some_iff.mp hplace
  have hperm := List.getElem_cons_eraseIdx_perm hlt
  rw [heq] at hperm
  exact hperm

theorem settleTask {task : τ} {r : ρ} {place : Nat} {p : Workers.Progress ρ} (h : Realises s w)
    (hplace : w.running[place]? = some (task, r)) (same : ∀ r', p = .done r' → name r' = name r) :
    ∃ t, Relation.ReflTransGen (Step name) s t ∧ Realises t (w.settleTask place p) := by
  cases p with
  | heldUp => exact ⟨s, .refl, h⟩
  | done r' =>
    cases hfinish : w.finish place r' with
    | error f =>
      rw [Workers.settleTask, hfinish]
      exact ⟨s, .refl, h⟩
    | ok w' =>
      rw [Workers.settleTask, hfinish]
      exact h.finish hplace (same r' rfl) hfinish

end Realises

theorem Reached.steps (h : Reached name handles threads maxQueued s)
    (hrun : Relation.ReflTransGen (Step name) s t) : Reached name handles threads maxQueued t := by
  induction hrun with
  | refl => exact h
  | tail _ hstep ih => exact ih.step hstep

/-- The workers go on until they are idle, wait for a handle or are held up in a task, as
they do one after the other. -/
theorem Reached.settle {κ : Type} {exec : κ → τ → ρ → Workers.Progress ρ × κ}
    (hexec : ∀ k task r r', (exec k task r).1 = .done r' → name r' = name r)
    (h : Reached name handles threads maxQueued s) (hw : Realises s w) (k : κ) :
    ∃ t, Relation.ReflTransGen (Step name) s t ∧ Realises t (Workers.settle exec k w).2 := by
  fun_induction Workers.settle exec k w generalizing s
  case case1 k w task r w' hlease e ih =>
    obtain ⟨t, hleased, ht⟩ := hw.lease? h.lending.sound hlease
    have hplace : w'.running[w.running.length]? = some (task, r) := by
      obtain ⟨rest, pool, -, -, rfl⟩ := Workers.lease?_eq_some hlease
      exact List.getElem?_concat_length
    obtain ⟨u, hsettled, hu⟩ := ht.settleTask hplace (hexec k task r)
    obtain ⟨v, hrun, hv⟩ := ih ((h.steps hleased).steps hsettled) hu
    exact ⟨v, (hleased.trans hsettled).trans hrun, hv⟩
  case case2 k w hlease w' htake ih =>
    obtain ⟨t, htaken, ht⟩ := hw.take? h.sound htake
    obtain ⟨u, hrun, hu⟩ := ih (h.steps htaken) ht
    exact ⟨u, htaken.trans hrun, hu⟩
  case case3 => exact ⟨s, .refl, hw⟩

end Crew
end PageServer
