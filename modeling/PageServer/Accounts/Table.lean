import PageServer.Accounts.TableFile
import PageServer.Digest.Sha256
import PageServer.Disk.Change

/-!
# User tables

A table in memory and the file that holds it. Every new row puts the whole table into the
file, by way of a temporary one, and a row that does not reach the file is taken back.
-/

namespace PageServer
namespace Accounts

/-- What is kept in place of a password. -/
def hashPassword (password : String) : String :=
  Sha256.hexDigest (Text.encode password)

structure Table where
  path : String
  rows : Rows := []
  deriving Repr

namespace Table

/-- What is said of a file whose content is no table. It stands for the text of whoever
reads the file, who tells what is wrong with it and where; nothing here depends on that
text. -/
def corruptDetail : String :=
  "not a user table"

def corrupt (path : String) : ServerError :=
  .database s!"corrupt user table {path}: {corruptDetail}"

/-- The table kept at `path`; an empty one where there is no file. -/
def load (d : Disk) (path : String) : Except ServerError Table :=
  if d.exists? path then
    match d.openEntry path with
    | .error kind => .error (.io kind.error)
    | .ok n => match d.readAll n with
      | .error _ => .error (corrupt path)
      | .ok data => match TableFile.read? data with
        | none => .error (corrupt path)
        | some rows => .ok { path, rows }
  else .ok { path }

/-- Where the next text of the table is written before it takes the table's name. -/
def draftPath (t : Table) : String :=
  t.path ++ ".tmp"

/-- The changes that put the rows into the file. -/
def savePlan (t : Table) : List Disk.Change :=
  let directory := match Disk.parentPath? t.path with
    | some up => if up = "" then [] else [.makeDirectories up]
    | none => []
  directory ++
    [.create t.draftPath, .append t.draftPath (TableFile.write t.rows), .rename t.draftPath t.path]

/-- Adds a row for a new name; false where the name is taken. -/
def insert (t : Table) (d : Disk) (name password : String) :
    Except ServerError Bool × Table × Disk :=
  if t.rows.contains name then (.ok false, t, d)
  else
    let t' := { t with rows := t.rows.insert name (hashPassword password) }
    match d.applyAll t'.savePlan with
    | (.ok _, d') => (.ok true, t', d')
    | (.error kind, d') => (.error (.io kind.error), { t with rows := t'.rows.erase name }, d')

end Table
end Accounts
end PageServer
