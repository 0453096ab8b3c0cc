import PageServer.Proofs.Http.Appending

/-!
# What a response buffer holds

The operations on a response buffer, in whatever order they come.  Each but clearing
appends some texts, one after the other, and stops at the first that does not fit.  An
operation with a single text therefore appends it or leaves the buffer as it was; the
lines that end a head are three texts, and when they are refused those in front of the one
that did not fit stay behind.
-/

namespace PageServer
namespace Http
namespace ResponseBuffer

inductive Operation
  | statusLine (s : Status)
  | headers (n : Nat) (keepAlive : Bool)
  | contentLength (n : Nat)
  | connection (keepAlive : Bool)
  | blankLine
  | content (text : String)
  | clear
  deriving DecidableEq

namespace Operation

/-- The texts that an operation appends, one after the other. -/
def texts : Operation → List Bytes
  | statusLine s => [ResponseBuffer.statusLine s]
  | headers n keepAlive => [contentLengthLine n, connectionLine keepAlive, ResponseBuffer.blankLine]
  | contentLength n => [contentLengthLine n]
  | connection keepAlive => [connectionLine keepAlive]
  | blankLine => [ResponseBuffer.blankLine]
  | content text => [Text.encode text]
  | clear => []

/-- The full text of an operation. -/
def text (op : Operation) : Bytes :=
  op.texts.flatten

end Operation

/-- What an operation reports and the buffer behind it.  Clearing cannot fail. -/
def perform (b : ResponseBuffer) : Operation → Except Fault Bool × ResponseBuffer
  | .statusLine s => b.addStatusLine s
  | .headers n keepAlive => b.addHeaders n keepAlive
  | .contentLength n => b.addContentLength n
  | .connection keepAlive => b.addConnection keepAlive
  | .blankLine => b.addBlankLine
  | .content text => b.addContent text
  | .clear => (.ok true, b.clear)

/-- The buffer behind operations in a row. -/
def after (b : ResponseBuffer) (ops : List Operation) : ResponseBuffer :=
  ops.foldl (fun b op => (b.perform op).2) b

/-- Operations in a row, each with what it reports. -/
def history (b : ResponseBuffer) : List Operation → List (Operation × Except Fault Bool)
  | [] => []
  | op :: ops => (op, (b.perform op).1) :: (b.perform op).2.history ops

/-- The contents behind one more operation, where it adds its full text if it reports that
it did and nothing otherwise. -/
def allOrNothing (held : Bytes) (x : Operation × Except Fault Bool) : Bytes :=
  if x.1 = .clear then [] else match x.2 with
    | .ok true => held ++ x.1.text
    | .ok false | .error _ => held

/-- The texts that fit into `room` one behind the other, up to the first that does not. -/
def fitting (room : Nat) : List Bytes → List Bytes
  | [] => []
  | text :: texts => if text.length ≤ room then text :: fitting (room - text.length) texts else []

/-- The contents behind one more operation, where a refused one leaves its first texts
behind, as far as they fitted. -/
def uptoRefusal (capacity : Nat) (held : Bytes) (x : Operation × Except Fault Bool) : Bytes :=
  if x.1 = .clear then [] else match x.2 with
    | .ok true => held ++ x.1.text
    | .ok false => held ++ (fitting (capacity - held.length) x.1.texts).flatten
    | .error _ => held

/-- Appends texts one after the other, up to the first that does not fit. -/
def appendAll : List Bytes → ResponseBuffer → Except Fault Bool × ResponseBuffer
  | [], b => (.ok true, b)
  | text :: texts, b => andThen (b.append text) (appendAll texts)

variable {b : ResponseBuffer} {op : Operation} {ops : List Operation}

/-! ## One operation -/

theorem andThen_assoc (r : Except Fault Bool × ResponseBuffer)
    (next last : ResponseBuffer → Except Fault Bool × ResponseBuffer) :
    andThen (andThen r next) last = andThen r fun b => andThen (next b) last := by
  rcases r with ⟨_ | _ | _, b⟩ <;> rfl

theorem andThen_done (r : Except Fault Bool × ResponseBuffer) :
    andThen r (fun b => (.ok true, b)) = r := by
  rcases r with ⟨_ | _ | _, b⟩ <;> rfl

theorem appendAll_singleton (text : Bytes) (b : ResponseBuffer) :
    appendAll [text] b = b.append text :=
  andThen_done (b.append text)

/-- An operation appends its texts. -/
theorem perform_eq (hop : op ≠ .clear) (b : ResponseBuffer) :
    b.perform op = appendAll op.texts b := by
  cases op with
  | clear => exact absurd rfl hop
  | headers n keepAlive =>
    rw [perform, addHeaders, andThen_assoc]
    simp only [Operation.texts, appendAll, andThen_done]
    rfl
  | statusLine | contentLength | connection | blankLine | content =>
    exact (appendAll_singleton _ b).symm

theorem append_refused {text : Bytes} (h : b.capacity < b.length + text.length) :
    b.append text = (.ok false, b) :=
  if_pos h

/-- As far as memory goes, texts are appended up to the first that does not fit. -/
theorem appendAll_eq (hmemory : b.capacity ≤ memoryLimit) (hbounded : b.length ≤ b.capacity)
    (texts : List Bytes) :
    appendAll texts b = (.ok (decide (b.length + texts.flatten.length ≤ b.capacity)),
      { b with bytes := b.bytes ++ (fitting (b.capacity - b.length) texts).flatten }) := by
  induction texts generalizing b with
  | nil => simp [appendAll, fitting, hbounded]
  | cons text texts ih =>
    rw [List.flatten_cons, List.length_append, fitting]
    by_cases hfits : b.length + text.length ≤ b.capacity
    · have hlength : ({ b with bytes := b.bytes ++ text } : ResponseBuffer).length =
          b.length + text.length := List.length_append
      have hroom : ({ b with bytes := b.bytes ++ text } : ResponseBuffer).length ≤ b.capacity :=
        hlength ▸ hfits
      rw [appendAll, andThen_fits (append_fits b text hmemory hfits), if_pos (by omega)]
      refine Eq.trans (ih ?_ hroom) ?_
      · exact hmemory
      · simp only [hlength, List.flatten_cons, List.append_assoc, Nat.add_assoc, Nat.sub_sub]
    · rw [appendAll, append_refused (Nat.not_le.mp hfits), if_neg (by omega),
        decide_eq_false (by omega)]
      simp [andThen]

/-- A buffer that memory has no room for takes nothing. -/
theorem appendAll_without_memory (hmemory : memoryLimit < b.capacity)
    (hbounded : b.length ≤ b.capacity) {texts : List Bytes} (hsome : texts ≠ []) :
    (appendAll texts b).2 = b ∧ (appendAll texts b).1 ≠ .ok true ∧
      ((appendAll texts b).1 = .ok false → fitting (b.capacity - b.length) texts = []) := by
  obtain ⟨text, texts, rfl⟩ := List.exists_cons_of_ne_nil hsome
  by_cases hfits : b.capacity < b.length + text.length
  · rw [appendAll, append_refused hfits, fitting, if_neg (by omega)]
    simp [andThen]
  · have hfault : b.append text = (.error .capacityOverflow, b) := by
      simp [append, hfits, reserve, Nat.not_le.mpr hmemory]
    rw [appendAll, hfault]
    simp [andThen]

theorem texts_ne_nil (hop : op ≠ .clear) : op.texts ≠ [] := by
  cases op with
  | clear => exact absurd rfl hop
  | _ => simp [Operation.texts]

theorem fitting_eq_self {room : Nat} {texts : List Bytes} (h : texts.flatten.length ≤ room) :
    fitting room texts = texts := by
  induction texts generalizing room with
  | nil => rfl
  | cons text texts ih =>
    rw [List.flatten_cons, List.length_append] at h
    rw [fitting, if_pos (by omega), ih (by omega)]

/-- What an operation makes of the contents. -/
theorem bytes_perform (hbounded : b.length ≤ b.capacity) (op : Operation) :
    (b.perform op).2.bytes = uptoRefusal b.capacity b.bytes (op, (b.perform op).1) := by
  by_cases hop : op = .clear
  · subst hop
    rfl
  · rw [perform_eq hop, uptoRefusal, if_neg hop]
    by_cases hmemory : b.capacity ≤ memoryLimit
    · rw [appendAll_eq hmemory hbounded]
      by_cases hfits : b.length + op.texts.flatten.length ≤ b.capacity
      · rw [decide_eq_true hfits, fitting_eq_self (by omega)]
        rfl
      · rw [decide_eq_false hfits]
        rfl
    · obtain ⟨hkept, htrue, hfalse⟩ :=
        appendAll_without_memory (Nat.not_le.mp hmemory) hbounded (texts_ne_nil hop)
      rw [hkept]
      split
      · next h => exact absurd h htrue
      · next h =>
        have hnone : fitting (b.capacity - b.bytes.length) op.texts = [] := hfalse h
        rw [hnone, List.flatten_nil, List.append_nil]
      · rfl

theorem capacity_perform (b : ResponseBuffer) (op : Operation) :
    (b.perform op).2.capacity = b.capacity := by
  cases op with
  | headers n keepAlive => exact capacity_addHeaders n keepAlive b
  | clear => rfl
  | statusLine | contentLength | connection | blankLine | content => exact capacity_append b _

theorem Bounded.perform (h : Bounded b) (op : Operation) : Bounded (b.perform op).2 := by
  cases op with
  | headers n keepAlive => exact h.addHeaders n keepAlive
  | clear => exact bounded_clear b
  | statusLine | contentLength | connection | blankLine | content => exact h.append _

/-- A refused text leaves the buffer as it was. -/
theorem append_false {text : Bytes} (h : (b.append text).1 = .ok false) :
    (b.append text).2 = b := by
  unfold append at h ⊢
  split
  · rfl
  · next hfits =>
    rw [if_neg hfits] at h
    split at h <;> cases h

theorem perform_false (h : (b.perform op).1 = .ok false)
    (hsingle : ∀ n keepAlive, op ≠ .headers n keepAlive) : (b.perform op).2 = b := by
  cases op with
  | headers n keepAlive => exact absurd rfl (hsingle n keepAlive)
  | clear => cases h
  | statusLine | contentLength | connection | blankLine | content => exact append_false h

theorem bytes_perform_of_headers (hbounded : Bounded b)
    (hheaders : ∀ n keepAlive, op = .headers n keepAlive → (b.perform op).1 ≠ .ok false) :
    (b.perform op).2.bytes = allOrNothing b.bytes (op, (b.perform op).1) := by
  by_cases hop : op = .clear
  · subst hop
    rfl
  · cases hanswer : (b.perform op).1 with
    | ok fits =>
      cases fits with
      | true =>
        rw [bytes_perform hbounded, hanswer, uptoRefusal, allOrNothing, if_neg hop]
      | false =>
        have hkept := perform_false hanswer fun n keepAlive heq => hheaders n keepAlive heq hanswer
        rw [hkept, allOrNothing, if_neg hop]
    | error f =>
      rw [bytes_perform hbounded, hanswer, uptoRefusal, allOrNothing, if_neg hop]

/-- An operation reports that it has appended its text exactly where the text fits, and
the buffer into memory. -/
theorem perform_true_iff (hbounded : Bounded b) (hop : op ≠ .clear) :
    (b.perform op).1 = .ok true ↔
      b.length + op.text.length ≤ b.capacity ∧ b.capacity ≤ memoryLimit := by
  rw [perform_eq hop]
  by_cases hmemory : b.capacity ≤ memoryLimit
  · rw [appendAll_eq hmemory hbounded]
    simp [Operation.text, hmemory]
  · have hnever :=
      (appendAll_without_memory (Nat.not_le.mp hmemory) hbounded (texts_ne_nil hop)).2.1
    exact iff_of_false hnever fun h => hmemory h.2

/-! ## Operations in a row -/

theorem capacity_after (b : ResponseBuffer) (ops : List Operation) :
    (b.after ops).capacity = b.capacity := by
  induction ops generalizing b with
  | nil => rfl
  | cons op ops ih => exact (ih _).trans (capacity_perform b op)

theorem Bounded.after (h : Bounded b) (ops : List Operation) : Bounded (b.after ops) := by
  induction ops generalizing b with
  | nil => exact h
  | cons op ops ih => exact ih (h.perform op)

theorem bytes_after (hbounded : Bounded b) (ops : List Operation) :
    (b.after ops).bytes = (b.history ops).foldl (uptoRefusal b.capacity) b.bytes := by
  induction ops generalizing b with
  | nil => rfl
  | cons op ops ih =>
    rw [history, List.foldl_cons, ← bytes_perform hbounded, ← capacity_perform b op]
    exact ih (hbounded.perform op)

/-- As long as no lines that end a head are refused, all is appended or nothing. -/
theorem bytes_after_of_headers (hbounded : Bounded b) (ops : List Operation)
    (hheaders : ∀ n keepAlive, (.headers n keepAlive, .ok false) ∉ b.history ops) :
    (b.after ops).bytes = (b.history ops).foldl allOrNothing b.bytes := by
  induction ops generalizing b with
  | nil => rfl
  | cons op ops ih =>
    have hnow : (b.perform op).2.bytes = allOrNothing b.bytes (op, (b.perform op).1) := by
      apply bytes_perform_of_headers hbounded
      intro n keepAlive heq hfalse
      apply hheaders n keepAlive
      rw [history, ← heq, ← hfalse]
      exact List.mem_cons_self
    rw [history, List.foldl_cons, ← hnow]
    exact ih (hbounded.perform op) fun n keepAlive hmem =>
      hheaders n keepAlive (List.mem_cons_of_mem _ hmem)

/-- Whatever is appended to a new buffer: it holds, in order, the full texts of the
operations since the last clearing that reported to have fitted, and the lines in front of
the one that did not fit where those that end a head were refused.  It never holds more
than its capacity, an operation fits exactly where its full text does, and every other
refused operation leaves the buffer as it was. -/
theorem after_new_holds (capacity : Nat) (ops : List Operation) :
    let start : ResponseBuffer := { capacity }
    let b := start.after ops
    b.bytes = (start.history ops).foldl (uptoRefusal capacity) [] ∧
      ((∀ n keepAlive, (.headers n keepAlive, .ok false) ∉ start.history ops) →
        b.bytes = (start.history ops).foldl allOrNothing []) ∧
      b.length ≤ capacity ∧
      (∀ op, op ≠ .clear → ((b.perform op).1 = .ok true ↔
        b.length + op.text.length ≤ capacity ∧ capacity ≤ memoryLimit)) ∧
      ∀ op, (b.perform op).1 = .ok false → (∀ n keepAlive, op ≠ .headers n keepAlive) →
        (b.perform op).2 = b := by
  intro start b
  have hstart : Bounded start := Nat.zero_le capacity
  have hbounded : Bounded b := hstart.after ops
  have hcapacity : b.capacity = capacity := capacity_after start ops
  refine ⟨bytes_after hstart ops, bytes_after_of_headers hstart ops, ?_, ?_, ?_⟩
  · rw [← hcapacity]
    exact hbounded
  · intro op hop
    rw [perform_true_iff hbounded hop, hcapacity]
  · intro op hfalse hsingle
    exact perform_false hfalse hsingle

/-- Refused lines that end a head are not taken back: the first one fits and stays. -/
theorem headers_left_behind :
    let start : ResponseBuffer := { capacity := 20 }
    let ops : List Operation := [.headers 5 false]
    (start.perform (.headers 5 false)).1 = .ok false ∧
      (start.perform (.headers 5 false)).2 ≠ start ∧
      (start.after ops).bytes = Text.encode "Content-Length:5\r\n" ∧
      (start.after ops).bytes ≠ (start.history ops).foldl allOrNothing [] := by
  refine ⟨rfl, ?_, ?_, ?_⟩
  · decide
  · decide
  · decide

end ResponseBuffer
end Http
end PageServer
