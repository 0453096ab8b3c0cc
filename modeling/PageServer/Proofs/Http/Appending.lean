import PageServer.Http.ResponseBuffer

/-!
# Appending to a response

An append that is reported to have fitted has put its whole text behind what the buffer
held.  No append changes the capacity, and none goes beyond it.
-/

namespace PageServer
namespace Http
namespace ResponseBuffer

variable {b b' : ResponseBuffer}

theorem append_eq_true {text : Bytes} (h : b.append text = (.ok true, b')) :
    b' = { b with bytes := b.bytes ++ text } := by
  unfold append at h
  split at h
  · simp at h
  · split at h
    · simp at h
    · simp only [Prod.mk.injEq, true_and] at h
      exact h.symm

@[simp] theorem capacity_append (b : ResponseBuffer) (text : Bytes) :
    (b.append text).2.capacity = b.capacity := by
  unfold append
  split
  · rfl
  · split <;> rfl

theorem capacity_andThen {r : Except Fault Bool × ResponseBuffer}
    {next : ResponseBuffer → Except Fault Bool × ResponseBuffer}
    (h : ∀ b, (next b).2.capacity = b.capacity) : (andThen r next).2.capacity = r.2.capacity := by
  unfold andThen
  split
  · exact h r.2
  · rfl

@[simp] theorem capacity_addHeaders (n : Nat) (keepAlive : Bool) (b : ResponseBuffer) :
    (b.addHeaders n keepAlive).2.capacity = b.capacity := by
  have hconnection (b : ResponseBuffer) : (b.addConnection keepAlive).2.capacity = b.capacity :=
    capacity_append b _
  have hblank (b : ResponseBuffer) : b.addBlankLine.2.capacity = b.capacity := capacity_append b _
  rw [addHeaders, capacity_andThen hblank, capacity_andThen hconnection]
  exact capacity_append b _

theorem andThen_true {r : Except Fault Bool × ResponseBuffer}
    {next : ResponseBuffer → Except Fault Bool × ResponseBuffer}
    (h : andThen r next = (.ok true, b')) :
    ∃ b, r = (.ok true, b) ∧ next b = (.ok true, b') := by
  rcases r with ⟨done, b⟩
  match done with
  | .ok true => exact ⟨b, rfl, h⟩
  | .ok false => simp [andThen] at h
  | .error f => simp [andThen] at h

theorem andThen_fits {next : ResponseBuffer → Except Fault Bool × ResponseBuffer}
    {r : Except Fault Bool × ResponseBuffer} (h : r = (.ok true, b)) :
    andThen r next = next b := by
  rw [h]
  rfl

theorem addHeaders_true {n : Nat} {keepAlive : Bool}
    (h : b.addHeaders n keepAlive = (.ok true, b')) :
    b' = { b with
      bytes := b.bytes ++ contentLengthLine n ++ connectionLine keepAlive ++ blankLine } := by
  obtain ⟨b₂, hsecond, hblank⟩ := andThen_true h
  obtain ⟨b₁, hfirst, hconnection⟩ := andThen_true hsecond
  have h₁ := append_eq_true hfirst
  have h₂ := append_eq_true hconnection
  have h₃ := append_eq_true hblank
  subst h₁ h₂ h₃
  rfl

theorem append_fits (b : ResponseBuffer) (text : Bytes) (hmemory : b.capacity ≤ memoryLimit)
    (h : b.bytes.length + text.length ≤ b.capacity) :
    b.append text = (.ok true, { b with bytes := b.bytes ++ text }) := by
  rw [append, length, if_neg (Nat.not_lt.mpr h), reserve, Nat.mul_one, if_pos hmemory]

/-- An append asks for no more memory than there is. -/
theorem append_ne_error (h : b.capacity ≤ memoryLimit) (text : Bytes) (f : Fault) :
    (b.append text).1 ≠ .error f := by
  unfold append
  split
  · simp
  · rw [reserve, Nat.mul_one, if_pos h]
    simp

theorem andThen_ne_error {r : Except Fault Bool × ResponseBuffer}
    {next : ResponseBuffer → Except Fault Bool × ResponseBuffer} {f : Fault}
    (hr : r.1 ≠ .error f) (hnext : (next r.2).1 ≠ .error f) : (andThen r next).1 ≠ .error f := by
  unfold andThen
  split
  · exact hnext
  · exact hr

theorem addHeaders_ne_error (h : b.capacity ≤ memoryLimit) (n : Nat) (keepAlive : Bool)
    (f : Fault) : (b.addHeaders n keepAlive).1 ≠ .error f := by
  have hconnection (b : ResponseBuffer) : (b.addConnection keepAlive).2.capacity = b.capacity :=
    capacity_append b _
  refine andThen_ne_error (andThen_ne_error (append_ne_error h _ f) ?_) ?_
  · exact append_ne_error (by rw [addContentLength, capacity_append]; exact h) _ f
  · refine append_ne_error ?_ _ f
    rw [capacity_andThen hconnection, addContentLength, capacity_append]
    exact h

/-- The buffer holds no more than it may. -/
def Bounded (b : ResponseBuffer) : Prop :=
  b.bytes.length ≤ b.capacity

theorem Bounded.append (h : Bounded b) (text : Bytes) : Bounded (b.append text).2 := by
  unfold ResponseBuffer.append
  split
  · exact h
  · next hfits =>
    split
    · exact h
    · rw [Bounded, List.length_append]
      exact Nat.not_lt.mp hfits

theorem bounded_andThen {r : Except Fault Bool × ResponseBuffer}
    {next : ResponseBuffer → Except Fault Bool × ResponseBuffer} (h : Bounded r.2)
    (hnext : ∀ b, Bounded b → Bounded (next b).2) : Bounded (andThen r next).2 := by
  unfold andThen
  split
  · exact hnext _ h
  · exact h

theorem Bounded.addHeaders (h : Bounded b) (n : Nat) (keepAlive : Bool) :
    Bounded (b.addHeaders n keepAlive).2 :=
  bounded_andThen
    (bounded_andThen (h.append _) fun _ h => h.append _)
    fun _ h => h.append _

theorem bounded_clear (b : ResponseBuffer) : Bounded b.clear :=
  Nat.zero_le _

end ResponseBuffer
end Http
end PageServer
