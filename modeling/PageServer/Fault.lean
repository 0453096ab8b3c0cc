/-!
# Faults

Checks on indices and fixed-width arithmetic that every operation passes before it goes
on. An operation that meets a fault stops there and leaves its state as it is at that
moment.
-/

namespace PageServer

inductive Fault
  /-- Position `index` of a buffer of `size` elements. -/
  | outOfBounds (size index : Nat)
  /-- A slice from `start` of a buffer of `size` elements. -/
  | sliceStart (start size : Nat)
  /-- A slice up to `stop` of a buffer of `size` elements. -/
  | sliceStop (stop size : Nat)
  /-- A slice whose start lies after its end. -/
  | sliceOrder (start stop : Nat)
  | addOverflow
  | subOverflow
  | mulOverflow
  | durationProduct
  | clockSum
  | poolOverflow
  | capacityOverflow
  deriving DecidableEq, Repr

namespace Fault

def message : Fault → String
  | outOfBounds size index => s!"index out of bounds: the len is {size} but the index is {index}"
  | sliceStart start size => s!"range start index {start} out of range for slice of length {size}"
  | sliceStop stop size => s!"range end index {stop} out of range for slice of length {size}"
  | sliceOrder start stop => s!"slice index starts at {start} but ends at {stop}"
  | addOverflow => "attempt to add with overflow"
  | subOverflow => "attempt to subtract with overflow"
  | mulOverflow => "attempt to multiply with overflow"
  | durationProduct => "overflow when multiplying duration by scalar"
  | clockSum => "overflow when adding duration to instant"
  | poolOverflow => "pool release over capacity"
  | capacityOverflow => "capacity overflow"

end Fault

/-- Values of an unsigned 64-bit word. -/
def wordRange : Nat :=
  0x10000000000000000

/-- The sum of two words, if it is a word. -/
def addWord (a b : Nat) : Except Fault Nat :=
  if a + b < wordRange then .ok (a + b) else .error .addOverflow

/-- Bytes that one piece of memory may have. -/
def memoryLimit : Nat :=
  0x7FFFFFFFFFFFFFFF

/-- Asks for memory for `count` elements of `size` bytes each. -/
def reserve (count size : Nat) : Except Fault Unit :=
  if count * size ≤ memoryLimit then .ok () else .error .capacityOverflow

theorem reserve_ok {count size : Nat} (h : count * size ≤ memoryLimit) :
    reserve count size = .ok () :=
  if_pos h

theorem reserve_error {count size : Nat} (h : ¬count * size ≤ memoryLimit) :
    reserve count size = .error .capacityOverflow :=
  if_neg h

end PageServer
