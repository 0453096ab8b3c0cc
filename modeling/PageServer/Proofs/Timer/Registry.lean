import PageServer.Proofs.Timer.Operations

/-!
# The register of timers

What a caller may know of a heap: which handles have been given out and, for each timer
whose node has not left, when it expires, its data, and whether it is armed.  The register
says which answers an operation may have and what it is like afterwards.  Of timers that
expire together any may come first, and that is the only choice that it leaves.

Operations that have only such answers give each handle once, and each timer has its
effect at most once: while it is armed, and when the expiry that was set for it last has
passed.
-/

namespace PageServer
namespace Timer

variable {α : Type}

structure Entry (α : Type) where
  expiry : Nat
  data : α
  armed : Bool

structure Registry (α : Type) where
  /-- The handles below this one have been given out. -/
  issued : Nat := 0
  /-- The timers whose nodes have not left. -/
  timer : Nat → Option (Entry α) := fun _ => none

namespace Registry

/-- Sets what is known of one timer. -/
def put (id : Nat) (e : Option (Entry α)) (r : Registry α) : Registry α :=
  { r with timer := fun i => if i = id then e else r.timer i }

def add (expiry : Nat) (data : α) (r : Registry α) : Registry α :=
  { r.put r.issued (some ⟨expiry, data, true⟩) with issued := r.issued + 1 }

def isArmed (r : Registry α) (id : Nat) : Bool :=
  (r.timer id).any (·.armed)

def disarm (id : Nat) (r : Registry α) : Registry α :=
  r.put id ((r.timer id).map fun e => { e with armed := false })

def adjust (id expiry : Nat) (r : Registry α) : Registry α :=
  r.put id ((r.timer id).map fun e => { e with expiry })

def remove (id : Nat) (r : Registry α) : Registry α :=
  r.put id none

/-- Every timer that has expired leaves. -/
def expire (now : Nat) (r : Registry α) : Registry α :=
  { r with timer := fun i => (r.timer i).filter fun e => decide (now < e.expiry) }

/-- How many nodes have not left, armed or not. -/
def length (r : Registry α) : Nat :=
  (List.range r.issued).countP fun id => (r.timer id).isSome

/-- The node is that of a timer, with the expiry set last and the data given first. -/
def Holds (r : Registry α) (n : Node α) (armed : Bool) : Prop :=
  r.timer n.id = some ⟨n.expiry, n.data, armed⟩

/-- A timer that none expires before, if there is any timer. -/
def First (r : Registry α) : Option (Node α) → Prop
  | none => ∀ id, r.timer id = none
  | some n => (∃ armed, r.Holds n armed) ∧ ∀ id e, r.timer id = some e → n.expiry ≤ e.expiry

/-- The timers that a tick gives their effect: all that are armed and have expired, each
once, and none before one that expires earlier. -/
structure Due (r : Registry α) (now : Nat) (nodes : List (Node α)) : Prop where
  mem_iff : ∀ n, n ∈ nodes ↔ r.Holds n true ∧ n.expiry ≤ now
  once : (nodes.map Node.id).Nodup
  sorted : nodes.Pairwise (·.expiry ≤ ·.expiry)

/-- The answers that an operation may have. -/
inductive Allows (r : Registry α) : Operation α → Answer α → Prop
  | add (expiry : Nat) (data : α) : Allows r (.add expiry data) (.handle r.issued)
  | disarm (id : Nat) : Allows r (.disarm id) (.flag (r.isArmed id))
  | adjust (id expiry : Nat) : Allows r (.adjust id expiry) (.flag (r.timer id).isSome)
  | isArmed (id : Nat) : Allows r (.isArmed id) (.flag (r.isArmed id))
  | pop {first : Option (Node α)} (h : r.First first) : Allows r .pop (.node first)
  | top {first : Option (Node α)} (h : r.First first) : Allows r .top (.node first)
  | untilNext {first : Option (Node α)} (now : Nat) (h : r.First first) :
    Allows r (.untilNext now) (.wait (first.map (·.expiry - now)))
  | length : Allows r .length (.count r.length)
  | tick {now : Nat} {nodes : List (Node α)} (h : r.Due now nodes) :
    Allows r (.tick now) (.fired nodes)

/-- What is known after an operation. -/
def next (r : Registry α) : Operation α → Answer α → Registry α
  | .add expiry data, _ => r.add expiry data
  | .disarm id, _ => r.disarm id
  | .adjust id expiry, _ => r.adjust id expiry
  | .pop, .node (some n) => r.remove n.id
  | .tick now, _ => r.expire now
  | _, _ => r

/-- Each operation has an answer that it may have. -/
def Explains (r : Registry α) : List (Operation α × Answer α) → Prop
  | [] => True
  | (op, answer) :: rest => r.Allows op answer ∧ (r.next op answer).Explains rest

/-- What is known after operations in a row. -/
def behind (r : Registry α) (history : List (Operation α × Answer α)) : Registry α :=
  history.foldl (fun r x => r.next x.1 x.2) r

end Registry

namespace Registry

theorem timer_disarm (r : Registry α) (id i : Nat) : (r.disarm id).timer i =
    (r.timer i).map fun e => if i = id then { e with armed := false } else e := by
  by_cases hi : i = id
  · subst hi
    refine (if_pos rfl).trans ?_
    simp
  · refine (if_neg hi).trans ?_
    simp [hi]

theorem timer_adjust (r : Registry α) (id expiry i : Nat) : (r.adjust id expiry).timer i =
    (r.timer i).map fun e => if i = id then { e with expiry } else e := by
  by_cases hi : i = id
  · subst hi
    refine (if_pos rfl).trans ?_
    simp
  · refine (if_neg hi).trans ?_
    simp [hi]

end Registry

/-! ## What a history tells -/

def Answer.handle? : Answer α → Option Nat
  | .handle id => some id
  | _ => none

def Answer.effects : Answer α → List Nat
  | .fired nodes => nodes.map Node.id
  | _ => []

/-- The handles that were given out. -/
def handles (history : List (Operation α × Answer α)) : List Nat :=
  history.filterMap (·.2.handle?)

/-- The timers that had their effect, each as often as it had it. -/
def effects (history : List (Operation α × Answer α)) : List Nat :=
  history.flatMap (·.2.effects)

/-- The expiry of a timer after one more operation, if it was `last` before. -/
def setExpiry (id : Nat) (last : Option Nat) : Operation α × Answer α → Option Nat
  | (.add expiry _, .handle i) => if i = id then some expiry else last
  | (.adjust i expiry, .flag true) => if i = id then some expiry else last
  | _ => last

/-- The expiry that was set last for a timer. -/
def lastExpiry (id : Nat) (history : List (Operation α × Answer α)) : Option Nat :=
  history.foldl (setExpiry id) none

namespace Registry

variable {r : Registry α} {op : Operation α} {answer : Answer α}
  {before history : List (Operation α × Answer α)}

theorem explains_append {after : List (Operation α × Answer α)} :
    r.Explains (before ++ after) ↔ r.Explains before ∧ (r.behind before).Explains after := by
  induction before generalizing r with
  | nil => simp [Explains, behind]
  | cons x before ih =>
    simp only [List.cons_append, Explains, ih, and_assoc, behind, List.foldl_cons]

/-! ### Handles -/

theorem issued_next (h : r.Allows op answer) :
    (r.next op answer).issued = r.issued + answer.handle?.toList.length := by
  cases h with
  | @pop first => cases first <;> rfl
  | add | disarm | adjust | isArmed | top | untilNext | length | tick => rfl

/-- Handles are given out in turn. -/
theorem Explains.handles_eq (h : r.Explains history) :
    handles history = List.range' r.issued (handles history).length := by
  induction history generalizing r with
  | nil => rfl
  | cons x history ih =>
    obtain ⟨op, answer⟩ := x
    obtain ⟨hallows, hrest⟩ := h
    have hlater := ih hrest
    rw [issued_next hallows] at hlater
    cases hallows with
    | add expiry data => exact congrArg (r.issued :: ·) hlater
    | _ => exact hlater

theorem Explains.issued_behind (h : r.Explains before) :
    (r.behind before).issued = r.issued + (handles before).length := by
  induction before generalizing r with
  | nil => rfl
  | cons x before ih =>
    obtain ⟨op, answer⟩ := x
    obtain ⟨hallows, hrest⟩ := h
    have hlater := ih hrest
    rw [issued_next hallows] at hlater
    cases hallows with
    | add expiry data =>
      rw [show handles ((.add expiry data, .handle r.issued) :: before) =
        r.issued :: handles before from rfl, List.length_cons, Nat.add_comm _ 1, ← Nat.add_assoc]
      exact hlater
    | _ => exact hlater

/-! ### Timers -/

/-- What is known of a timer was known before, and it was armed if it is.  Only an
adjustment sets its expiry. -/
theorem timer_of_next (hallows : r.Allows op answer) {i : Nat} (hold : answer.handle? ≠ some i)
    {e' : Entry α} (h : (r.next op answer).timer i = some e') :
    ∃ e, r.timer i = some e ∧ (e'.armed = true → e.armed = true) ∧
      setExpiry i (some e.expiry) (op, answer) = some e'.expiry := by
  cases hallows with
  | add expiry data =>
    have hi : i ≠ r.issued := fun hi => hold (congrArg some hi.symm)
    exact ⟨e', (if_neg hi).symm.trans h, fun harmed => harmed, if_neg (Ne.symm hi)⟩
  | disarm id =>
    by_cases hid : i = id
    · subst hid
      obtain ⟨e, he, rfl⟩ := Option.map_eq_some_iff.mp ((if_pos rfl).symm.trans h)
      exact ⟨e, he, by simp, rfl⟩
    · exact ⟨e', (if_neg hid).symm.trans h, fun harmed => harmed, rfl⟩
  | adjust id expiry =>
    by_cases hid : i = id
    · subst hid
      obtain ⟨e, he, rfl⟩ := Option.map_eq_some_iff.mp ((if_pos rfl).symm.trans h)
      refine ⟨e, he, fun harmed => harmed, ?_⟩
      rw [he]
      exact if_pos rfl
    · refine ⟨e', (if_neg hid).symm.trans h, fun harmed => harmed, ?_⟩
      cases r.timer id with
      | none => rfl
      | some e => exact if_neg (Ne.symm hid)
  | @pop first =>
    cases first with
    | none => exact ⟨e', h, fun harmed => harmed, rfl⟩
    | some n =>
      by_cases hid : i = n.id
      · exact absurd ((if_pos hid).symm.trans h) (by simp)
      · exact ⟨e', (if_neg hid).symm.trans h, fun harmed => harmed, rfl⟩
  | tick hdue => exact ⟨e', (Option.filter_eq_some_iff.mp h).1, fun harmed => harmed, rfl⟩
  | isArmed | top | untilNext | length => exact ⟨e', h, fun harmed => harmed, rfl⟩

/-- There is nothing to know of handles that have not been given out. -/
def Bounded (r : Registry α) : Prop :=
  ∀ id, r.issued ≤ id → r.timer id = none

theorem Bounded.lt (h : r.Bounded) {id : Nat} {e : Entry α} (he : r.timer id = some e) :
    id < r.issued := by
  apply Nat.not_le.mp
  intro hle
  rw [h id hle] at he
  cases he

theorem handle_eq_issued (hallows : r.Allows op answer) {id : Nat}
    (h : answer.handle? = some id) : id = r.issued := by
  cases hallows with
  | add expiry data => exact (Option.some.inj h).symm
  | _ => cases h

theorem Bounded.next (h : r.Bounded) (hallows : r.Allows op answer) :
    (r.next op answer).Bounded := by
  intro i hi
  rw [issued_next hallows] at hi
  by_cases hnew : answer.handle? = some i
  · have heq := handle_eq_issued hallows hnew
    rw [hnew, heq] at hi
    exact absurd hi (Nat.not_succ_le_self _)
  · cases hnext : (r.next op answer).timer i with
    | none => rfl
    | some e' =>
      obtain ⟨e, he, -⟩ := timer_of_next hallows hnew hnext
      have hlt := h.lt he
      omega

theorem Bounded.behind (h : r.Bounded) (hbefore : r.Explains before) :
    (r.behind before).Bounded := by
  induction before generalizing r with
  | nil => exact h
  | cons x before ih => exact ih (h.next hbefore.1) hbefore.2

/-- The expiries that are known are those that were set last. -/
def UpToDate (r : Registry α) (last : Nat → Option Nat) : Prop :=
  ∀ id e, r.timer id = some e → last id = some e.expiry

theorem UpToDate.next {last : Nat → Option Nat} (h : r.UpToDate last)
    (hallows : r.Allows op answer) :
    (r.next op answer).UpToDate fun id => setExpiry id (last id) (op, answer) := by
  intro i e' he'
  by_cases hnew : answer.handle? = some i
  · have heq := handle_eq_issued hallows hnew
    cases hallows with
    | add expiry data =>
      subst heq
      obtain rfl := Option.some.inj ((if_pos rfl).symm.trans he')
      exact if_pos rfl
    | _ => cases hnew
  · obtain ⟨e, he, -, hset⟩ := timer_of_next hallows hnew he'
    simp only [h i e he]
    exact hset

theorem UpToDate.behind {last : Nat → Option Nat} (h : r.UpToDate last)
    (hbefore : r.Explains before) :
    (r.behind before).UpToDate fun id => before.foldl (setExpiry id) (last id) := by
  induction before generalizing r last with
  | nil => exact h
  | cons x before ih => exact ih (h.next hbefore.1) hbefore.2

/-! ### Effects -/

/-- A handle that has been given out, and whose timer is not armed or has left. -/
def Spent (r : Registry α) (id : Nat) : Prop :=
  id < r.issued ∧ r.isArmed id = false

theorem isArmed_eq_true_iff {id : Nat} :
    r.isArmed id = true ↔ ∃ e, r.timer id = some e ∧ e.armed = true := by
  rw [isArmed]
  cases r.timer id <;> simp

theorem Spent.next {id : Nat} (h : r.Spent id) (hallows : r.Allows op answer) :
    (r.next op answer).Spent id := by
  have hold : answer.handle? ≠ some id := by
    intro hnew
    exact Nat.lt_irrefl _ (handle_eq_issued hallows hnew ▸ h.1)
  constructor
  · rw [issued_next hallows]
    exact Nat.lt_of_lt_of_le h.1 (Nat.le_add_right _ _)
  · apply Bool.eq_false_iff.mpr
    intro harmed
    obtain ⟨e', he', harmed'⟩ := isArmed_eq_true_iff.mp harmed
    obtain ⟨e, he, hwas, -⟩ := timer_of_next hallows hold he'
    have htrue := isArmed_eq_true_iff.mpr ⟨e, he, hwas harmed'⟩
    rw [h.2] at htrue
    cases htrue

theorem mem_effects_iff {nodes : List (Node α)} {now : Nat} (hdue : r.Due now nodes) {id : Nat} :
    id ∈ (Answer.fired nodes).effects ↔
      ∃ e, r.timer id = some e ∧ e.armed = true ∧ e.expiry ≤ now := by
  rw [Answer.effects, List.mem_map]
  constructor
  · rintro ⟨n, hn, rfl⟩
    obtain ⟨hholds, hle⟩ := (hdue.mem_iff n).mp hn
    exact ⟨_, hholds, rfl, hle⟩
  · rintro ⟨⟨expiry, data, armed⟩, he, harmed, hle⟩
    simp only at harmed hle
    subst harmed
    exact ⟨⟨id, expiry, data⟩, (hdue.mem_iff _).mpr ⟨he, hle⟩, rfl⟩

/-- What has its effect was armed, and is spent afterwards. -/
theorem isArmed_of_mem_effects (hallows : r.Allows op answer) {id : Nat}
    (h : id ∈ answer.effects) : r.isArmed id = true ∧ (r.next op answer).isArmed id = false := by
  cases hallows with
  | tick hdue =>
    obtain ⟨e, he, harmed, hle⟩ := (mem_effects_iff hdue).mp h
    refine ⟨isArmed_eq_true_iff.mpr ⟨e, he, harmed⟩, ?_⟩
    apply Bool.eq_false_iff.mpr
    intro hnext
    obtain ⟨e', he', -⟩ := isArmed_eq_true_iff.mp hnext
    obtain ⟨he'', hlater⟩ := Option.filter_eq_some_iff.mp he'
    obtain rfl := Option.some.inj (he.symm.trans he'')
    exact absurd (of_decide_eq_true hlater) (Nat.not_lt.mpr hle)
  | _ => cases h

theorem Spent.not_mem_effects {id : Nat} (h : r.Spent id) (hexplains : r.Explains history) :
    id ∉ effects history := by
  induction history generalizing r with
  | nil => exact List.not_mem_nil
  | cons x history ih =>
    obtain ⟨hallows, hrest⟩ := hexplains
    rw [effects, List.flatMap_cons, List.mem_append]
    rintro (hnow | hlater)
    · have harmed := (isArmed_of_mem_effects hallows hnow).1
      rw [h.2] at harmed
      cases harmed
    · exact ih (h.next hallows) hrest hlater

/-- What has its effect is spent afterwards. -/
theorem Bounded.spent_next (h : r.Bounded) (hallows : r.Allows op answer) {id : Nat}
    (heffect : id ∈ answer.effects) : (r.next op answer).Spent id := by
  obtain ⟨harmed, hspent⟩ := isArmed_of_mem_effects hallows heffect
  obtain ⟨e, he, -⟩ := isArmed_eq_true_iff.mp harmed
  refine ⟨?_, hspent⟩
  rw [issued_next hallows]
  exact Nat.lt_of_lt_of_le (h.lt he) (Nat.le_add_right _ _)

/-- Each timer has its effect at most once. -/
theorem Explains.nodup_effects (h : r.Explains history) (hbounded : r.Bounded) :
    (effects history).Nodup := by
  induction history generalizing r with
  | nil => exact List.nodup_nil
  | cons x history ih =>
    obtain ⟨op, answer⟩ := x
    obtain ⟨hallows, hrest⟩ := h
    have hlater := ih hrest (hbounded.next hallows)
    rw [effects, List.flatMap_cons]
    refine List.nodup_append.mpr ⟨?_, hlater, ?_⟩
    · cases hallows with
      | tick hdue => exact hdue.once
      | _ => exact List.nodup_nil
    · rintro id hnow _ hagain rfl
      exact (hbounded.spent_next hallows hnow).not_mem_effects hrest hagain

/-- A timer that has been disarmed has no effect any more. -/
theorem Explains.not_mem_effects_of_disarm {after : List (Operation α × Answer α)} {id : Nat}
    (h : Explains {} (before ++ (.disarm id, answer) :: after)) (hid : id ∈ handles before) :
    id ∉ effects after := by
  obtain ⟨hbefore, hallows, hafter⟩ := explains_append.mp h
  have hspent : ((Registry.behind {} before).next (.disarm id) answer).Spent id := by
    constructor
    · rw [issued_next hallows, hbefore.issued_behind]
      rw [hbefore.handles_eq, List.mem_range'_1] at hid
      omega
    · apply Bool.eq_false_iff.mpr
      intro harmed
      obtain ⟨e', he', htrue⟩ := isArmed_eq_true_iff.mp harmed
      obtain ⟨e, -, rfl⟩ := Option.map_eq_some_iff.mp ((if_pos rfl).symm.trans he')
      cases htrue
  exact hspent.not_mem_effects hafter

theorem bounded_empty : Bounded ({} : Registry α) :=
  fun _ _ => rfl

/-- A timer that has been taken out has no effect any more. -/
theorem Explains.not_mem_effects_of_pop {after : List (Operation α × Answer α)} {n : Node α}
    (h : Explains {} (before ++ (.pop, .node (some n)) :: after)) : n.id ∉ effects after := by
  obtain ⟨hbefore, hallows, hafter⟩ := explains_append.mp h
  have hbounded := bounded_empty.behind hbefore
  have hspent : ((Registry.behind {} before).next .pop (.node (some n))).Spent n.id := by
    constructor
    · cases hallows with
      | pop hfirst =>
        obtain ⟨⟨armed, hholds⟩, -⟩ := hfirst
        exact hbounded.lt hholds
    · apply Bool.eq_false_iff.mpr
      intro harmed
      obtain ⟨e', he', -⟩ := isArmed_eq_true_iff.mp harmed
      cases (if_pos rfl).symm.trans he'
  exact hspent.not_mem_effects hafter

/-- A timer has its effect only where the expiry set last for it has passed. -/
theorem Explains.lastExpiry_of_effect {after : List (Operation α × Answer α)} {now : Nat}
    {nodes : List (Node α)} (h : Explains {} (before ++ (.tick now, .fired nodes) :: after))
    {n : Node α} (hn : n ∈ nodes) : lastExpiry n.id before = some n.expiry ∧ n.expiry ≤ now := by
  obtain ⟨hbefore, hallows, -⟩ := explains_append.mp h
  have hdate : UpToDate ({} : Registry α) fun _ => none := nofun
  cases hallows with
  | tick hdue =>
    obtain ⟨hholds, hle⟩ := (hdue.mem_iff n).mp hn
    exact ⟨hdate.behind hbefore n.id _ hholds, hle⟩

end Registry
end Timer
end PageServer
