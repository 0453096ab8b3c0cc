import PageServer.Connection.Reading
import PageServer.Proofs.Connection.Progress

/-!
# Taking in bytes

A call that reads from the stream puts the bytes behind those it holds and leaves the rest
of the connection alone, however many reads they take.  It is false only where the stream
has ended or failed, unless the buffer was full before.
-/

namespace PageServer
namespace Connection

open Http
open Net (ReadReply)

theorem size_store (buf : Array UInt8) (pos : Nat) (data : Bytes) :
    (store buf pos data).size = buf.size := by
  induction data generalizing buf pos with
  | nil => rfl
  | cons b data ih => rw [store, ih, Array.size_setIfInBounds]

theorem getElem?_store_of_lt (buf : Array UInt8) {pos i : Nat} (data : Bytes) (hi : i < pos) :
    (store buf pos data)[i]? = buf[i]? := by
  induction data generalizing buf pos with
  | nil => rfl
  | cons b data ih =>
    rw [store, ih _ (by omega), Array.getElem?_setIfInBounds_ne (by omega)]

theorem store_append (buf : Array UInt8) (pos : Nat) (a b : Bytes) :
    store buf pos (a ++ b) = store (store buf pos a) (pos + a.length) b := by
  induction a generalizing buf pos with
  | nil => rfl
  | cons x a ih =>
    rw [List.cons_append, store, store, ih, List.length_cons]
    congr 1
    omega

/-- The first bytes of a filled buffer are the ones stored there. -/
theorem take_toList_store {buf : Array UInt8} {data : Bytes} {pos : Nat}
    (h : pos + data.length ≤ buf.size) :
    (store buf pos data).toList.take (pos + data.length) = buf.toList.take pos ++ data := by
  induction data generalizing buf pos with
  | nil => rw [store, List.length_nil, Nat.add_zero, List.append_nil]
  | cons b data ih =>
    rw [List.length_cons] at h
    rw [store, List.length_cons, show pos + (data.length + 1) = pos + 1 + data.length by omega,
      ih (by rw [Array.size_setIfInBounds]; omega), Array.toList_setIfInBounds]
    have hpos : pos < buf.toList.length := by
      rw [Array.length_toList]
      omega
    rw [List.take_add_one, List.getElem?_set_self hpos, List.take_set_of_le (Nat.le_refl pos),
      Option.toList_some, List.append_assoc, List.singleton_append]

/-! ## Bytes behind those received -/

@[simp] theorem takeIn_nil (c : Connection) : c.takeIn [] = c := by
  simp only [takeIn, List.take_nil, List.length_nil, Nat.add_zero, store]

@[simp] theorem size_takeIn (c : Connection) (data : Bytes) :
    (c.takeIn data).input.size = c.input.size :=
  size_store _ _ _

theorem filled_takeIn (c : Connection) (data : Bytes) :
    (c.takeIn data).filled = c.filled + min c.room data.length := by
  rw [takeIn, List.length_take]

theorem filled_takeIn_le {c : Connection} (h : c.filled ≤ c.input.size) (data : Bytes) :
    (c.takeIn data).filled ≤ c.input.size := by
  rw [filled_takeIn, room]
  omega

theorem takeIn_full {c : Connection} (h : c.input.size ≤ c.filled) (data : Bytes) :
    c.takeIn data = c := by
  have hroom : c.room = 0 := by
    rw [room]
    omega
  simp only [takeIn, hroom, List.take_zero, List.length_nil, Nat.add_zero, store]

theorem takeIn_append (c : Connection) (a b : Bytes) :
    (c.takeIn a).takeIn b = c.takeIn (a ++ b) := by
  have hroom : (c.takeIn a).room = c.room - a.length := by
    rw [room, size_takeIn, filled_takeIn, room]
    omega
  have htake : (a ++ b).take c.room = a.take c.room ++ b.take (c.room - a.length) :=
    List.take_append
  simp only [takeIn] at hroom ⊢
  rw [hroom, htake, List.length_append, store_append, Nat.add_assoc]

/-- A connection that takes in bytes still holds those it had. -/
theorem holdsMore_takeIn {c : Connection} (h : c.filled ≤ c.input.size) (data : Bytes) :
    HoldsMore c (c.takeIn data) where
  bytes := ⟨size_takeIn c data, fun _ hi => getElem?_store_of_lt _ _ hi⟩
  filled_le := by
    rw [filled_takeIn]
    omega
  within := by
    rw [size_takeIn]
    exact filled_takeIn_le h data

/-! ## One call -/

theorem stamp_eq (now : Nat) (got : Bool) (c : Connection) :
    ∃ since, c.stamp now got = { c with since } := by
  refine ⟨(c.stamp now got).since, ?_⟩
  rw [stamp]
  split <;> rfl

/-- Whatever the stream replies, a call takes in some bytes and at most notes their
arrival. -/
theorem readOn_eq (now : Nat) (got : Bool) (replies : List ReadReply) (c : Connection) :
    ∃ data since, (readOn now got replies c).2 = { c.takeIn data with since } := by
  induction replies generalizing got c with
  | nil =>
    obtain ⟨since, hstamp⟩ := stamp_eq now got c
    refine ⟨[], since, ?_⟩
    unfold readOn
    rw [takeIn_nil, ← hstamp]
    split <;> rfl
  | cons reply replies ih =>
    obtain ⟨since, hstamp⟩ := stamp_eq now got c
    unfold readOn
    split
    · exact ⟨[], since, by rw [takeIn_nil, hstamp]⟩
    · cases reply with
      | wouldBlock => exact ⟨[], since, by rw [takeIn_nil, hstamp]⟩
      | interrupted => exact ih got c
      | failed => exact ⟨[], c.since, by rw [takeIn_nil]⟩
      | bytes data =>
        cases data with
        | nil => exact ⟨[], c.since, by rw [takeIn_nil]⟩
        | cons b data =>
          obtain ⟨more, since, hmore⟩ := ih true (c.takeIn (b :: data))
          refine ⟨b :: data ++ more, since, ?_⟩
          rw [← takeIn_append]
          exact hmore

/-- A call that starts with room in the buffer is false only where the stream ends or
fails. -/
theorem readOn_false {now : Nat} {got : Bool} {replies : List ReadReply} {c : Connection}
    (hroom : got = true ∨ c.filled < c.input.size) (h : (readOn now got replies c).1 = false) :
    .failed ∈ replies ∨ .bytes [] ∈ replies := by
  induction replies generalizing got c with
  | nil =>
    unfold readOn at h
    split at h
    · next hfull =>
      rcases hroom with rfl | hroom
      · simp at h
      · omega
    · simp at h
  | cons reply replies ih =>
    unfold readOn at h
    split at h
    · next hfull =>
      rcases hroom with rfl | hroom
      · simp at h
      · omega
    · cases reply with
      | wouldBlock => simp at h
      | interrupted =>
        rcases ih hroom h with hmem | hmem
        · exact .inl (List.mem_cons_of_mem _ hmem)
        · exact .inr (List.mem_cons_of_mem _ hmem)
      | failed => exact .inl List.mem_cons_self
      | bytes data =>
        cases data with
        | nil => exact .inr List.mem_cons_self
        | cons b data =>
          rcases ih (.inl rfl) h with hmem | hmem
          · exact .inl (List.mem_cons_of_mem _ hmem)
          · exact .inr (List.mem_cons_of_mem _ hmem)

theorem read_eq (c : Connection) (now : Nat) (replies : List ReadReply) :
    ∃ data since, (c.read now replies).2 = { c.takeIn data with since } := by
  rw [read]
  split
  · exact readOn_eq now false replies c
  · exact ⟨[], c.since, by rw [takeIn_nil]⟩

end Connection
end PageServer
