import PageServer.Proofs.Workers.Closing

/-!
# Tasks are run once

What those who give tasks to the workers can rely on: an accepted task is run once, with a
handle that no other task has at that time, and nothing is left over when the workers have
ended.
-/

namespace PageServer
namespace Crew

variable {τ ρ ι : Type} {name : ρ → ι} {handles : List ρ} {threads maxQueued : Nat} {s t : Crew τ ρ}

/-- What holds of the tasks and of the handles at any time. -/
structure Reliable (name : ρ → ι) (handles : List ρ) (maxQueued : Nat) (s : Crew τ ρ) : Prop where
  room : s.queue.length ≤ maxQueued
  refused : ∀ t, (s.summary.append t).1 = false ↔ s.queue.length = maxQueued
  unchanged : ∀ t, (s.summary.append t).1 = false → (s.summary.append t).2 = s.summary
  order : s.accepted = s.taken ++ s.queue
  started : s.taken.Perm (s.started ++ s.pending)
  finished : s.started.Perm (s.finished ++ s.running.map Prod.fst)
  /-- A handle is free, or a task has it, or has had it last. -/
  kept : ((s.handles.free ++ (s.running.map Prod.snd ++ s.carried)).map name).Perm
    (handles.map name)
  apart : (handles.map name).Nodup → (s.running.map fun x => name x.2).Nodup
  stocked : .taking ∈ s.workers → s.queue ≠ []
  free : ∀ t, .popping t ∈ s.workers → s.handles.free ≠ []
  /-- There is room for each handle that comes back, and it comes back as its task has
  left it. -/
  back : ∀ r, .releasing r ∈ s.workers → ∃ pool, s.handles.pushFree r = .ok pool
  returned : s.left.Perm (s.returned ++ s.carried)
  cycle : handles ++ s.returned = s.lent ++ s.handles.free
  /-- Where all wait in vain, every accepted task has been run. -/
  quiet : s.phase = .serving → s.appending = 0 → (∀ w ∈ s.workers, w = .waiting) →
    s.permits = 0 → s.queue = [] ∧ s.accepted.Perm s.finished
  lively : s.phase = .serving → s.appending = 0 → s.GoesOn name ∨ s.accepted.Perm s.finished
  /-- One worker alone runs the tasks in the order in which they were accepted. -/
  alone : s.workers.length = 1 →
    s.accepted = s.finished ++ s.running.map Prod.fst ++ s.pending ++ s.queue

/-- What holds from when there is a permit for each worker to end. -/
structure Closing (name : ρ → ι) (handles : List ρ) (s : Crew τ ρ) : Prop where
  /-- Only a task that goes on does not bring the end nearer. -/
  closer : ∀ t, Step name s t → t.phase = .posted ∧ (t.rank < s.rank ∨
    ∃ before after task r r', s.workers = before ++ .running task r :: after ∧
      t = { s with workers := before ++ .running task r' :: after })
  goesOn : (∀ w ∈ s.workers, w = .ended) ∨ ∃ t, Step name s t ∧ t.rank < s.rank
  ended : (∀ w ∈ s.workers, w = .ended) → (s.handles.free.map name).Perm (handles.map name) ∧
    s.handles.permits = handles.length ∧ s.handles.inUse = 0 ∧ s.left.Perm s.returned ∧
    s.taken.Perm s.finished

/-- The users of the handles have those of the running tasks and those that are on their
way back. -/
theorem held_lending (s : Crew τ ρ) :
    s.lending.held.Perm (s.running.map Prod.snd ++ s.carried) := by
  have hworker (w : Worker τ ρ) : w.borrower.handles = w.runs.map Prod.snd ++ w.carries := by
    cases w <;> rfl
  rw [Lending.held, Crew.lending, List.flatMap_map, Crew.running, List.map_flatMap, Crew.carried]
  simp only [hworker]
  exact (List.flatMap_append_perm _ _ _).symm

namespace Sound

/-- Workers that are not at a task have none. -/
theorem finished_of_forall (h : Sound threads maxQueued s)
    (hpending : ∀ w ∈ s.workers, w.pending = []) (hruns : ∀ w ∈ s.workers, w.runs = []) :
    s.taken.Perm s.finished := by
  have htaken := h.pending
  have hstarted := h.running
  rw [Crew.pending, List.flatMap_eq_nil_iff.mpr hpending, List.append_nil] at htaken
  rw [Crew.running, List.flatMap_eq_nil_iff.mpr hruns, List.map_nil, List.append_nil] at hstarted
  exact htaken.trans hstarted

theorem quiet (h : Sound threads maxQueued s) (serving : s.phase = .serving)
    (idle : s.appending = 0) (waiting : ∀ w ∈ s.workers, w = .waiting) (none : s.permits = 0) :
    s.queue = [] ∧ s.accepted.Perm s.finished := by
  have hwoken : s.woken = 0 := List.countP_eq_zero.mpr fun w hw => by rw [waiting w hw]; nofun
  have htaking : s.taking = 0 := List.countP_eq_zero.mpr fun w hw => by rw [waiting w hw]; nofun
  have hstock := h.stock serving
  have hqueue : s.queue = [] := List.length_eq_zero_iff.mp (by omega)
  refine ⟨hqueue, ?_⟩
  rw [h.order, hqueue, List.append_nil]
  exact h.finished_of_forall (fun w hw => by rw [waiting w hw]; rfl)
    (fun w hw => by rw [waiting w hw]; rfl)

theorem lively (h : Sound threads maxQueued s) (hlent : Lending.Sound name handles s.lending)
    (hthreads : 0 < threads) (hsome : handles ≠ []) (serving : s.phase = .serving)
    (idle : s.appending = 0) : s.GoesOn name ∨ s.accepted.Perm s.finished := by
  obtain hgoesOn | hstuck := goesOn_or hlent hsome
  · exact .inl hgoesOn
  · -- Nobody has ended yet, so all wait, and there is one to wait in vain.
    have hwaiting (w : Worker τ ρ) (hw : w ∈ s.workers) : w = .waiting ∧ s.permits = 0 :=
      (hstuck w hw).resolve_left (h.staff serving w hw)
    obtain ⟨w, hw⟩ := List.exists_mem_of_length_pos (h.size ▸ hthreads)
    exact .inr (h.quiet serving idle (fun v hv => (hwaiting v hv).1) (hwaiting w hw).2).2

theorem ended (h : Sound threads maxQueued s) (hlent : Lending.Sound name handles s.lending)
    (hended : ∀ w ∈ s.workers, w = .ended) :
    (s.handles.free.map name).Perm (handles.map name) ∧ s.handles.permits = handles.length ∧
      s.handles.inUse = 0 ∧ s.left.Perm s.returned ∧ s.taken.Perm s.finished := by
  have hborrower (b : Borrower ρ) (hb : b ∈ s.lending.borrowers) : b = {} := by
    obtain ⟨w, hw, rfl⟩ := List.mem_map.mp hb
    rw [hended w hw]
    rfl
  have hheld : s.lending.held = [] :=
    List.flatMap_eq_nil_iff.mpr fun b hb => by rw [hborrower b hb]; rfl
  have hpopping : s.lending.popping = 0 :=
    List.countP_eq_zero.mpr fun b hb => by rw [hborrower b hb]; nofun
  have hposting : s.lending.posting = 0 :=
    List.countP_eq_zero.mpr fun b hb => by rw [hborrower b hb]; nofun
  have hkept := hlent.kept
  have hlength := hlent.length_held
  have hpermits := hlent.permits
  have hcapacity := hlent.capacity
  rw [hheld, List.append_nil] at hkept
  rw [hheld, List.length_nil] at hlength
  have hcarried : s.carried = [] :=
    List.flatMap_eq_nil_iff.mpr fun w hw => by rw [hended w hw]; rfl
  have hleft := h.carried
  rw [hcarried, List.append_nil] at hleft
  refine ⟨hkept, ?_, ?_, hleft, ?_⟩
  · show s.lending.pool.permits = handles.length
    omega
  · show s.lending.pool.inUse = 0
    rw [Pool.inUse, Pool.freeCount]
    omega
  · exact h.finished_of_forall (fun w hw => by rw [hended w hw]; rfl)
      (fun w hw => by rw [hended w hw]; rfl)

end Sound

theorem Reached.order_alone (h : Reached name handles threads maxQueued s)
    (hone : s.workers.length = 1) :
    s.accepted = s.finished ++ s.running.map Prod.fst ++ s.pending ++ s.queue := by
  obtain rfl : threads = 1 := h.sound.size.symm.trans hone
  obtain ⟨htaken, hstarted⟩ := h.alone
  rw [h.sound.order, htaken, hstarted]

/-- Whatever the workers and their clients do in whatever order, an accepted task is taken
in its turn and run once, with a handle that is its own for so long and that is back
afterwards however the task has ended; and once they have been told, the workers end and
all handles are back. -/
theorem Reached.runs_each_once (h : Reached name handles threads maxQueued s)
    (hthreads : 0 < threads) (hsome : handles ≠ []) :
    s.Reliable name handles maxQueued ∧ (s.phase = .posted → s.Closing name handles) ∧
      (s.phase ≠ .serving →
        ∃ t, Relation.ReflTransGen (Step name) s t ∧ ∀ w ∈ t.workers, w = .ended) := by
  have hsound := h.sound
  have hlent := h.lending.sound
  have hkept := ((((held_lending s).append_left s.handles.free).map name).symm).trans hlent.kept
  refine ⟨?_, fun posted => ?_, h.ends hsome⟩
  · exact {
      room := hsound.room
      refused := fun t => by
        have hroom := hsound.room
        have hceiling := hsound.ceiling
        constructor
        · intro hrefused
          have hfull : s.maxQueued ≤ s.queue.length :=
            (Workers.append_eq_false (Prod.ext hrefused rfl)).1
          omega
        · intro hfull
          have hle : s.summary.maxQueued ≤ s.summary.queue.length :=
            Nat.le_of_eq (hceiling.trans hfull.symm)
          rw [Workers.append, if_pos hle]
      unchanged := fun t hrefused => (Workers.append_eq_false (Prod.ext hrefused rfl)).2
      order := hsound.order
      started := hsound.pending
      finished := hsound.running
      kept := hkept
      apart := fun hnodup => by
        have hall := hkept.nodup_iff.mpr hnodup
        rw [List.map_append, List.map_append, List.map_map] at hall
        exact (List.nodup_append.mp (List.nodup_append.mp hall).2.1).1
      stocked := fun hmem => by
        obtain ⟨before, after, who⟩ := List.append_of_mem hmem
        exact hsound.stocked who rfl
      free := fun t hmem => by
        obtain ⟨before, after, who⟩ := List.append_of_mem hmem
        obtain ⟨r, rest, hfree⟩ := free_of_popping hlent who t rfl
        rw [hfree]
        nofun
      back := fun r hmem => by
        obtain ⟨before, after, who⟩ := List.append_of_mem hmem
        exact pushFree_of_releasing hlent who r rfl
      returned := hsound.carried
      cycle := hlent.order
      quiet := hsound.quiet
      lively := hsound.lively hlent hthreads hsome
      alone := h.order_alone }
  · exact {
      closer := fun t hstep => hstep.closing hsound hlent posted
      goesOn := ended_or_closer hsound hlent hsome posted
      ended := hsound.ended hlent }

/-- A step of the only worker. -/
theorem Step.only {σ : Shared τ ρ} {w w' : Worker τ ρ} (who : s.workers = [w])
    (h : Move name w s.toShared w' σ) : Step name s { σ with workers := [w'] } :=
  @Step.move _ _ _ name s σ [] [] w w' who h

/-- The only worker has run one of two tasks, which has changed the handle, and has
ended. -/
def dismissed : Crew Nat (Nat × Nat) where
  maxQueued := 1
  queue := [8]
  permits := 1
  phase := .posted
  handles := { free := [(1, 5)], permits := 1, capacity := 1 }
  accepted := [7, 8]
  taken := [7]
  started := [7]
  finished := [7]
  lent := [(1, 0)]
  left := [(1, 5)]
  returned := [(1, 5)]
  workers := [.ended]

/-- A task panics, and its handle is back as it has left it. -/
theorem Reached.runs_each_once_dismissed : Reached Prod.fst [(1, 0)] 1 1 dismissed ∧
    dismissed.Reliable Prod.fst [(1, 0)] 1 ∧ dismissed.Closing Prod.fst [(1, 0)] ∧
      dismissed.handles.free = [(1, 5)] := by
  have hstart : Reached Prod.fst [(1, 0)] 1 1
    ({ maxQueued := 1
       handles := Pool.ofList [(1, 0)]
       workers := [.waiting] } : Crew Nat (Nat × Nat)) := .start
  have hgiven := (hstart.step (.accept (t := 7) rfl rfl)).step (.post Nat.one_pos)
  have htaking := (hgiven.step (.only rfl (.wake Nat.one_pos))).step (.only rfl (.goOn rfl))
  have htaken := htaking.step (.only rfl (.take (t := 7) rfl))
  have hstarted := (htaken.step (.only rfl (.wait rfl))).step (.only rfl (.start (r := (1, 0)) rfl))
  have hfull := (hstarted.step (.accept (t := 8) rfl rfl)).step (.post Nat.one_pos)
  have hrefused := hfull.step (.refuse (t := 9) rfl rfl)
  have hsame : Prod.fst ((1, 5) : Nat × Nat) = Prod.fst ((1, 0) : Nat × Nat) := rfl
  have hpanicked := (hrefused.step (.only rfl (.use hsame))).step (.only rfl (.finish .panics))
  have hback := (hpanicked.step (.only rfl (.push rfl))).step (.only rfl .post)
  have htold := (hback.step (.tell rfl rfl)).step (.postAll rfl)
  have hended :=
    (htold.step (.only rfl (.wake (Nat.zero_lt_succ 1)))).step (.only rfl (.leave nofun))
  have hreached : Reached Prod.fst [(1, 0)] 1 1 dismissed := hended
  obtain ⟨hreliable, hclosing, -⟩ := hreached.runs_each_once Nat.one_pos (List.cons_ne_nil _ _)
  exact ⟨hreached, hreliable, hclosing rfl, rfl⟩

end Crew
end PageServer
