import PageServer.Proofs.Workers.Crew

/-!
# What adds up among the workers

No task is lost or run twice: each that has been accepted is in the queue, with a worker,
or done.  For each task in the queue there is a permit, a worker that has had one, or
someone who posts one next.
-/

namespace PageServer
namespace Crew

variable {τ ρ ι : Type} {name : ρ → ι} {handles : List ρ} {threads maxQueued : Nat} {s t : Crew τ ρ}
  {σ : Shared τ ρ} {before after : List (Worker τ ρ)} {w w' : Worker τ ρ}

/-- Where each task and each handle is that tasks have had, and what there are permits
for. -/
structure Sound (threads maxQueued : Nat) (s : Crew τ ρ) : Prop where
  ceiling : s.maxQueued = maxQueued
  size : s.workers.length = threads
  room : s.queue.length ≤ maxQueued
  order : s.accepted = s.taken ++ s.queue
  pending : s.taken.Perm (s.started ++ s.pending)
  running : s.started.Perm (s.finished ++ s.running.map Prod.fst)
  carried : s.left.Perm (s.returned ++ s.carried)
  stock : s.phase = .serving → s.queue.length = s.permits + s.woken + s.taking + s.appending
  idle : s.phase ≠ .serving → s.appending = 0
  found : s.phase ≠ .serving → s.taking ≤ s.queue.length
  staff : s.phase = .serving → ∀ w ∈ s.workers, w ≠ .ended
  enough : s.phase = .posted → s.owed ≤ s.permits

theorem running_fst (s : Crew τ ρ) :
    s.running.map Prod.fst = s.workers.flatMap fun w => w.runs.map Prod.fst := by
  rw [Crew.running, List.map_flatMap]

/-- Workers that wait have nothing. -/
theorem flatMap_waiting {β : Type} {f : Worker τ ρ → List β} (h : f .waiting = []) :
    (List.replicate threads Worker.waiting).flatMap f = [] :=
  List.flatMap_eq_nil_iff.mpr fun _ hw => (List.eq_of_mem_replicate hw).symm ▸ h

/-- What one worker does to a record of what is done and what it has keeps the record of
all. -/
theorem perm_update {β : Type} {f : Worker τ ρ → List β} {all all' done done' : List β}
    (h : all.Perm (done ++ (before ++ w :: after).flatMap f))
    (hmove : ∀ {rest}, all.Perm (done ++ (f w ++ rest)) → all'.Perm (done' ++ (f w' ++ rest))) :
    all'.Perm (done' ++ (before ++ w' :: after).flatMap f) := by
  have hsplit := (Lending.flatMap_split f before after w).append_left done
  have hsplit' := (Lending.flatMap_split f before after w').append_left done'
  exact (hmove (h.trans hsplit)).trans hsplit'.symm

theorem forall_update {p : Worker τ ρ → Prop} (h : ∀ v ∈ before ++ w :: after, p v) (hw : p w') :
    ∀ v ∈ before ++ w' :: after, p v := by
  rw [List.forall_mem_append, List.forall_mem_cons] at h ⊢
  exact ⟨h.1, hw, h.2.2⟩

namespace Sound

theorem start (handles : List ρ) (threads maxQueued : Nat) : Sound threads maxQueued
    ({ maxQueued
       handles := Pool.ofList handles
       workers := List.replicate threads .waiting } : Crew τ ρ) := by
  have hzero {p : Worker τ ρ → Bool} (h : p .waiting = false) :
      (List.replicate threads Worker.waiting).countP p = 0 :=
    List.countP_eq_zero.mpr fun w hw => by rw [List.eq_of_mem_replicate hw, h]; decide
  exact {
    ceiling := rfl
    size := List.length_replicate
    room := Nat.zero_le _
    order := rfl
    pending := by rw [Crew.pending, flatMap_waiting rfl]; exact .nil
    running := by rw [Crew.running, flatMap_waiting rfl]; exact .nil
    carried := by rw [Crew.carried, flatMap_waiting rfl]; exact .nil
    stock := fun _ => by rw [Crew.woken, Crew.taking, hzero rfl, hzero rfl]; rfl
    idle := fun h => absurd rfl h
    found := fun h => absurd rfl h
    staff := fun _ w hw => by rw [List.eq_of_mem_replicate hw]; nofun
    enough := nofun }

/-- A worker that is to take a task finds one. -/
theorem stocked (h : Sound threads maxQueued s) (who : s.workers = before ++ w :: after)
    (htaking : w = .taking) : s.queue ≠ [] := by
  have hpos : 0 < s.taking :=
    List.countP_pos_iff.mpr ⟨w, who ▸ List.mem_append_cons_self, by rw [htaking]; rfl⟩
  -- Permits of the end do not lead here: a worker that has one sees that it is told.
  have hlength : s.taking ≤ s.queue.length := by
    by_cases hphase : s.phase = .serving
    · have hstock := h.stock hphase
      omega
    · exact h.found hphase
  exact List.ne_nil_of_length_pos (Nat.lt_of_lt_of_le hpos hlength)

theorem move (h : Sound threads maxQueued s) (hlent : Lending.Sound name handles s.lending)
    (who : s.workers = before ++ w :: after) (hmove : Move name w s.toShared w' σ) :
    Sound threads maxQueued { σ with workers := before ++ w' :: after } := by
  obtain ⟨hceiling, hphase, happending, haccepted⟩ := hmove.kept
  have hstocked := h.stocked who
  have hcount (p : Worker τ ρ → Bool) := And.intro (who ▸ Lending.countP_split p before after w)
    (Lending.countP_split p before after w')
  have hroom := pushFree_of_releasing hlent who
  exact {
    ceiling := hceiling.trans h.ceiling
    size := by
      rw [← h.size, who, List.length_append, List.length_append, List.length_cons, List.length_cons]
    room := Nat.le_trans hmove.queue.2 h.room
    order := by rw [haccepted, hmove.queue.1]; exact h.order
    pending := perm_update (who ▸ h.pending) hmove.pending
    running := by
      have hrunning := h.running
      rw [running_fst, who] at hrunning
      rw [running_fst]
      exact perm_update hrunning hmove.running
    carried := perm_update (who ▸ h.carried) (hmove.carried hroom)
    stock := fun hserving => by
      have hbefore := h.stock (hphase ▸ hserving)
      have hnow := hmove.stock hstocked (hphase ▸ hserving)
      have hwoken := hcount Worker.isWoken
      have htaking := hcount Worker.isTaking
      simp only [Crew.woken, Crew.taking] at hbefore ⊢
      omega
    idle := fun hending => happending.trans (h.idle (hphase ▸ hending))
    found := fun hending => by
      have hbefore := h.found (hphase ▸ hending)
      have hnow := hmove.stock_ending hstocked (hphase ▸ hending)
      have htaking := hcount Worker.isTaking
      simp only [Crew.taking] at hbefore ⊢
      omega
    staff := fun hserving => forall_update (who ▸ h.staff (hphase ▸ hserving))
      (hmove.stays hroom (hphase ▸ hserving))
    enough := fun hposted => by
      have hbefore := h.enough (hphase ▸ hposted)
      have hnow := hmove.owed (by rw [← hphase, hposted]; nofun)
      have howed := hcount Worker.isOwed
      simp only [Crew.owed] at hbefore ⊢
      omega }

theorem step (h : Sound threads maxQueued s) (hlent : Lending.Sound name handles s.lending)
    (hstep : Step name s t) : Sound threads maxQueued t := by
  cases hstep with
  | move who hmove => exact h.move hlent who hmove
  | accept serving happend =>
    obtain ⟨hroom, rfl⟩ := Workers.append_eq_true happend
    have hstock := h.stock serving
    exact { h with
      room := by
        show (s.queue ++ [_]).length ≤ maxQueued
        rw [List.length_append, ← h.ceiling]
        exact hroom
      order := by
        show _ ++ _ = s.taken ++ (s.queue ++ _)
        rw [h.order, List.append_assoc]
      stock := fun _ => by
        show (s.queue ++ [_]).length = s.permits + s.woken + s.taking + (s.appending + 1)
        rw [List.length_append, hstock]
        rfl
      idle := fun hending => absurd serving hending
      found := fun hending => absurd serving hending }
  | refuse serving happend =>
    obtain ⟨-, rfl⟩ := Workers.append_eq_false happend
    exact h
  | post hpos =>
    exact { h with
      stock := fun hserving => by
        have hstock := h.stock hserving
        show s.queue.length = s.permits + 1 + s.woken + s.taking + (s.appending - 1)
        omega
      idle := fun hending => absurd (h.idle hending) (by omega)
      enough := fun hposted => Nat.le_succ_of_le (h.enough hposted) }
  | tell serving idle =>
    have hstock := h.stock serving
    exact { h with
      stock := nofun
      idle := fun _ => idle
      found := fun _ => by
        show s.taking ≤ s.queue.length
        omega
      staff := nofun
      enough := nofun }
  | postAll told =>
    have hending : s.phase ≠ .serving := by
      rw [told]
      nofun
    exact { h with
      stock := nofun
      idle := fun _ => h.idle hending
      found := fun _ => h.found hending
      staff := nofun
      enough := fun _ => Nat.le_add_left_of_le List.countP_le_length }

end Sound

theorem Reached.sound (h : Reached name handles threads maxQueued s) :
    Sound threads maxQueued s := by
  induction h with
  | start => exact .start handles threads maxQueued
  | step hreached hstep ih => exact ih.step hreached.lending.sound hstep

/-! ## One worker alone -/

theorem Move.alone {σ' : Shared τ ρ} (h : Move name w σ w' σ')
    (htaken : σ.taken = σ.started ++ w.pending)
    (hstarted : σ.started = σ.finished ++ w.runs.map Prod.fst) :
    σ'.taken = σ'.started ++ w'.pending ∧ σ'.started = σ'.finished ++ w'.runs.map Prod.fst := by
  cases h with
  | take => exact ⟨congrArg (· ++ _) (htaken.trans (List.append_nil _)), hstarted⟩
  | start =>
    refine ⟨htaken.trans (List.append_nil _).symm, congrArg (· ++ _) ?_⟩
    exact hstarted.trans (List.append_nil _)
  | finish => exact ⟨htaken, hstarted.trans (List.append_nil _).symm⟩
  | _ => exact ⟨htaken, hstarted⟩

/-- A worker that is alone starts no task before it has finished the one that it has. -/
theorem Reached.alone (h : Reached name handles 1 maxQueued s) :
    s.taken = s.started ++ s.pending ∧ s.started = s.finished ++ s.running.map Prod.fst := by
  induction h with
  | start => exact ⟨rfl, rfl⟩
  | step hreached hstep ih =>
    cases hstep with
    | @move _ before after w w' who hmove =>
      -- There is no other worker whose task could be in between.
      have hsize := hreached.sound.size
      rw [who, List.length_append, List.length_cons] at hsize
      obtain rfl : before = [] := List.length_eq_zero_iff.mp (by omega)
      obtain rfl : after = [] := List.length_eq_zero_iff.mp (by omega)
      rw [running_fst, Crew.pending, who] at ih
      rw [running_fst, Crew.pending]
      simp only [List.nil_append, List.flatMap_singleton] at ih ⊢
      exact hmove.alone ih.1 ih.2
    | _ => exact ih

end Crew
end PageServer
