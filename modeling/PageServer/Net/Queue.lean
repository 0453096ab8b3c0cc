import PageServer.Text.Utf8

/-!
# Queues of bytes

What one end of a stream has sent and the other one has not read. The system keeps it in
pieces. A piece takes up memory until its last byte is read, and none is added once the
memory is used up.
-/

namespace PageServer
namespace Net

structure Piece where
  data : Bytes
  /-- Bytes of memory that the piece takes up. -/
  memory : Nat
  deriving DecidableEq, Repr

namespace Piece

/-- Bytes that a piece can hold in front of its pages. -/
def maxHead : Nat :=
  3776

def pageSize : Nat :=
  4096

def maxPages : Nat :=
  8

def maxLength : Nat :=
  maxHead + maxPages * pageSize

/-- Memory for `n` bytes in front of the pages and for the piece itself. -/
def headMemory (n : Nat) : Nat :=
  256 + if n ≤ 192 then 512 else if n ≤ 704 then 1024 else if n ≤ 1728 then 2048 else 4096

/-- Memory for a piece of `n` bytes. Whole pages hold what does not fit in front of them. -/
def memoryFor (n : Nat) : Nat :=
  let pages := (n - maxHead + pageSize - 1) / pageSize
  pages * pageSize + headMemory (n - pages * pageSize)

end Piece

structure Queue where
  /-- The oldest piece comes first. -/
  pieces : List Piece := []
  deriving DecidableEq, Repr

namespace Queue

/-- Memory at which no piece is added any more. -/
def maxMemory : Nat :=
  212992

def memory (q : Queue) : Nat :=
  q.pieces.foldl (fun total p => total + p.memory) 0

def bytes (q : Queue) : Bytes :=
  q.pieces.flatMap (·.data)

def isEmpty (q : Queue) : Bool :=
  q.pieces.isEmpty

/-- How many of `n` bytes are taken where `memory` is in use. -/
def roomFor (memory n : Nat) : Nat :=
  if _h : n = 0 ∨ maxMemory ≤ memory then 0
  else
    let length := min n Piece.maxLength
    length + roomFor (memory + Piece.memoryFor length) (n - length)
termination_by n
decreasing_by
  have hpos : 0 < Piece.maxLength := by decide
  omega

/-- How many of `n` bytes the queue takes. -/
def room (q : Queue) (n : Nat) : Nat :=
  roomFor q.memory n

/-- The pieces of some bytes. -/
def split (data : Bytes) : List Piece :=
  if _h : data = [] then []
  else
    let first := data.take Piece.maxLength
    { data := first, memory := Piece.memoryFor first.length } :: split (data.drop Piece.maxLength)
termination_by data.length
decreasing_by
  have hpos : 0 < Piece.maxLength := by decide
  have hlen : 0 < data.length := List.length_pos_iff.2 _h
  rw [List.length_drop]
  omega

/-- Adds as many of the bytes as the queue takes. -/
def push (q : Queue) (data : Bytes) : Queue :=
  { pieces := q.pieces ++ split (data.take (q.room data.length)) }

/-- The pieces without the first `n` of their bytes. -/
def dropBytes : (n : Nat) → List Piece → List Piece
  | _, [] => []
  | n, p :: rest =>
    if p.data.length ≤ n then dropBytes (n - p.data.length) rest
    else { p with data := p.data.drop n } :: rest

/-- Takes the first `n` bytes out. -/
def drop (q : Queue) (n : Nat) : Queue :=
  { pieces := dropBytes n q.pieces }

/-- Nothing is lost when bytes are split into pieces. -/
theorem flatMap_split (data : Bytes) : (split data).flatMap (·.data) = data := by
  fun_induction split data with
  | case1 => rfl
  | case2 data _ first ih =>
    rw [List.flatMap_cons, ih]
    exact List.take_append_drop _ _

theorem flatMap_dropBytes (n : Nat) (l : List Piece) :
    (dropBytes n l).flatMap (·.data) = (l.flatMap (·.data)).drop n := by
  fun_induction dropBytes n l with
  | case1 => simp
  | case2 n p rest h ih =>
    rw [ih, List.flatMap_cons, List.drop_append, List.drop_eq_nil_of_le h, List.nil_append]
  | case3 n p rest h =>
    rw [List.flatMap_cons, List.flatMap_cons, List.drop_append_of_le_length (by omega)]

theorem bytes_push (q : Queue) (data : Bytes) :
    (q.push data).bytes = q.bytes ++ data.take (q.room data.length) := by
  rw [bytes, push, List.flatMap_append, flatMap_split]
  rfl

theorem bytes_drop (q : Queue) (n : Nat) : (q.drop n).bytes = q.bytes.drop n :=
  flatMap_dropBytes n q.pieces

end Queue
end Net
end PageServer
