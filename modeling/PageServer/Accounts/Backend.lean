import PageServer.Accounts.Table
import PageServer.Text.Shown

/-!
# Accounts

The user table together with the copy that logins are checked against. The copy is filled
once and then follows each registration.
-/

namespace PageServer
namespace Accounts

/-- A handle on the table, one of those a pool lends out. -/
structure Handle where
  id : Nat
  path : String
  deriving DecidableEq, Repr

namespace Handle

def text (h : Handle) : String :=
  s!"DbConnection \x7b id: {h.id}, path: {Text.shown h.path} \x7d"

end Handle

/-- Bytes that a handle takes. -/
def handleSize : Nat :=
  16

/-- The handles of a pool, numbered from zero. -/
def handles (path : String) (size : Nat) : Except Failure (List Handle) :=
  if size = 0 then .error (.refused (.config "db pool size must be >= 1"))
  else match reserve size handleSize with
    | .error f => .error (.fault f)
    | .ok _ => .ok ((List.range size).map fun id => { id, path })

structure Backend where
  disk : Disk
  table : Table
  /-- The copy for logins. -/
  known : Rows := []
  deriving Repr

namespace Backend

/-- Fills the copy from the table; gives the number of rows. -/
def preload (b : Backend) : Nat × Backend :=
  (b.table.rows.length, { b with known := b.table.rows })

def contains (b : Backend) (name : String) : Bool :=
  b.known.contains name

/-- The password is the one that the name was registered with. -/
def verify (b : Backend) (name password : String) : Bool :=
  match b.known.digest? name with
  | some digest => digest == hashPassword password
  | none => false

/-- Adds a row to the table alone. -/
def insert (b : Backend) (name password : String) : Except ServerError Bool × Backend :=
  let r := b.table.insert b.disk name password
  (r.1, { b with table := r.2.1, disk := r.2.2 })

/-- Takes a registered name into the copy. -/
def learn (b : Backend) (name password : String) : Backend :=
  { b with known := b.known.insert name (hashPassword password) }

/-- Registers a name; false where it is taken. -/
def register (b : Backend) (name password : String) : Except ServerError Bool × Backend :=
  if b.contains name then (.ok false, b)
  else match b.insert name password with
    | (.ok true, b') => (.ok true, b'.learn name password)
    | r => r

end Backend
end Accounts
end PageServer
