import PageServer.Fault

/-!
# Resource pools

A fixed set of handles that are lent one at a time, the one returned first being lent
first. A permit is posted for each handle in the free list, and taking a handle begins
with taking a permit.
-/

namespace PageServer

structure Pool (α : Type) where
  /-- The handles that nobody holds, next one first. -/
  free : List α
  /-- Permits that nobody has taken. -/
  permits : Nat
  capacity : Nat
  deriving Repr

namespace Pool

variable {α : Type}

/-- A pool in which all handles are free. -/
def ofList (handles : List α) : Pool α :=
  { free := handles, permits := handles.length, capacity := handles.length }

def freeCount (p : Pool α) : Nat :=
  p.free.length

def inUse (p : Pool α) : Nat :=
  p.capacity - p.freeCount

/-- Takes a permit; none where one would have to wait. -/
def takePermit? (p : Pool α) : Option (Pool α) :=
  if p.permits = 0 then none else some { p with permits := p.permits - 1 }

/-- Takes the next handle out of the free list. -/
def popFree? (p : Pool α) : Option (α × Pool α) :=
  match p.free with
  | [] => none
  | a :: rest => some (a, { p with free := rest })

/-- Puts a handle behind the free list, unless all are there. -/
def pushFree (a : α) (p : Pool α) : Except Fault (Pool α) :=
  if p.freeCount < p.capacity then .ok { p with free := p.free ++ [a] } else .error .poolOverflow

def postPermit (p : Pool α) : Pool α :=
  { p with permits := p.permits + 1 }

theorem permits_lt_of_takePermit? {p p' : Pool α} (h : p.takePermit? = some p') :
    p'.permits < p.permits := by
  unfold takePermit? at h
  split at h
  · cases h
  · next h0 =>
    cases h
    exact Nat.sub_one_lt h0

/-- Takes a handle; none where one would have to wait. A permit without a handle is used
up. -/
def acquire? (p : Pool α) : Option (α × Pool α) :=
  match _h : p.takePermit? with
  | none => none
  | some p' => match p'.popFree? with
    | some r => some r
    | none => p'.acquire?
termination_by p.permits
decreasing_by exact permits_lt_of_takePermit? _h

/-- Returns a handle. -/
def release (a : α) (p : Pool α) : Except Fault (Pool α) :=
  (p.pushFree a).map postPermit

end Pool
end PageServer
