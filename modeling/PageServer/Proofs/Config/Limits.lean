import PageServer.Server.Start

/-!
# The limits of a configuration

What a configuration that has been found valid may still ask too much of: seconds that no
duration holds, times that the clock cannot tell, and sizes for which there can be no
memory.
-/

namespace PageServer
namespace Config

variable {c : Config} {idle now : Nat} {f : Fault}

theorem validate_eq_ok_iff : c.validate = .ok () ↔
    0 < c.threads ∧ 0 < c.maxRequests ∧ 0 < c.maxFds ∧ 0 < c.timeslot ∧ 0 < c.dbPoolSize := by
  unfold validate
  repeat' split
  all_goals simp only [reduceCtorEq, true_iff, false_iff]
  all_goals omega

/-- Three timeslots are a duration. -/
def HasBudget (c : Config) : Prop :=
  3 * c.timeslot < wordRange

instance (c : Config) : Decidable c.HasBudget :=
  inferInstanceAs (Decidable (3 * c.timeslot < wordRange))

theorem idleTimeout_eq_ok_iff : c.idleTimeout = .ok idle ↔ idle = 3 * c.timeslot ∧ c.HasBudget := by
  unfold idleTimeout HasBudget
  split
  · next h => simp only [Except.ok.injEq, h, and_true, eq_comm]
  · next h => simp only [reduceCtorEq, h, and_false]

theorem idleTimeout_eq_error_iff :
    c.idleTimeout = .error f ↔ f = .durationProduct ∧ ¬c.HasBudget := by
  unfold idleTimeout HasBudget
  split
  · next h => simp only [reduceCtorEq, h, not_true_eq_false, and_false]
  · next h => simp only [Except.error.injEq, h, not_false_eq_true, and_true, eq_comm]

/-- Three timeslots after the time `now` is a time that the clock can tell. -/
def InClock (now : Nat) (c : Config) : Prop :=
  now / Server.nanosPerSecond + 3 * c.timeslot < Server.clockRange

theorem InClock.hasBudget (h : c.InClock now) : c.HasBudget := by
  calc 3 * c.timeslot
    _ ≤ now / Server.nanosPerSecond + 3 * c.timeslot := Nat.le_add_left _ _
    _ < Server.clockRange := h
    _ ≤ wordRange := by decide

/-- There can be memory for all that a configuration asks for. -/
structure Fits (c : Config) : Prop where
  handles : c.dbPoolSize * Accounts.handleSize ≤ memoryLimit
  slots : c.maxFds * Server.slotSize ≤ memoryLimit
  threads : c.threads * Workers.threadSize ≤ memoryLimit

end Config

namespace Server
namespace Reactor

variable {r : Reactor} {now expiry : Nat} {f : Fault}

/-- The time that a connection gets is three timeslots, where there is such a time. -/
theorem expiry_eq_ok_iff : r.expiry now = .ok expiry ↔
    expiry = now + 3 * r.config.timeslot * nanosPerSecond ∧ r.config.InClock now := by
  cases hidle : r.config.idleTimeout with
  | ok idle =>
    obtain ⟨rfl, hbudget⟩ := Config.idleTimeout_eq_ok_iff.mp hidle
    rw [Reactor.expiry, hidle]
    simp only [Except.bind, Config.InClock]
    split
    · next h => simp only [Except.ok.injEq, h, and_true, eq_comm]
    · next h => simp only [reduceCtorEq, h, and_false]
  | error f =>
    have hbudget := (Config.idleTimeout_eq_error_iff.mp hidle).2
    rw [Reactor.expiry, hidle]
    simp only [Except.bind, reduceCtorEq, false_iff]
    exact fun h => hbudget h.2.hasBudget

theorem expiry_eq_error_iff : r.expiry now = .error f ↔
    f = .durationProduct ∧ ¬r.config.HasBudget ∨
      f = .clockSum ∧ r.config.HasBudget ∧ ¬r.config.InClock now := by
  cases hidle : r.config.idleTimeout with
  | ok idle =>
    obtain ⟨rfl, hbudget⟩ := Config.idleTimeout_eq_ok_iff.mp hidle
    rw [Reactor.expiry, hidle]
    simp only [Except.bind, Config.InClock, hbudget, not_true_eq_false,
      and_false, true_and, false_or]
    split
    · next h => simp only [reduceCtorEq, h, not_true_eq_false, and_false]
    · next h => simp only [Except.error.injEq, h, not_false_eq_true, and_true, eq_comm]
  | error g =>
    obtain ⟨rfl, hbudget⟩ := Config.idleTimeout_eq_error_iff.mp hidle
    rw [Reactor.expiry, hidle]
    simp only [Except.bind, Except.error.injEq, hbudget, not_false_eq_true, and_true, false_and,
      and_false, or_false, eq_comm]

theorem lt_expiry_of_valid (valid : r.config.validate = .ok ()) (h : r.expiry now = .ok expiry) :
    now < expiry := by
  obtain ⟨-, -, -, htimeslot, -⟩ := Config.validate_eq_ok_iff.mp valid
  have hpos : 0 < 3 * r.config.timeslot * nanosPerSecond :=
    Nat.mul_pos (Nat.mul_pos (by decide) htimeslot) (by decide)
  rw [(expiry_eq_ok_iff.mp h).1]
  omega

/-- A client is taken in without a fault as long as the clock can tell when its time is
over. -/
theorem welcome_ne_error (h : r.config.InClock now) {fd : Nat} {peer : Net.SocketAddress} :
    (r.welcome now fd peer).1 ≠ .error f := by
  have hexpiry (slots : Slots) : expiry now { r with slots } =
      .ok (now + 3 * r.config.timeslot * nanosPerSecond) := expiry_eq_ok_iff.mpr ⟨rfl, h⟩
  unfold welcome
  split
  · simp
  · split
    · simp
    · simp only [hexpiry]
      simp

theorem touch_ne_error (h : r.config.InClock now) {fd : Nat} : (r.touch now fd).1 ≠ .error f := by
  have hexpiry : r.expiry now = .ok (now + 3 * r.config.timeslot * nanosPerSecond) :=
    expiry_eq_ok_iff.mpr ⟨rfl, h⟩
  unfold touch
  split
  · simp
  · simp only [hexpiry]
    simp

end Reactor
end Server
end PageServer
