import PageServer.Disk.Tree

/-!
# Files

Asking for an entry's kind and permissions, and opening and reading a file.
-/

namespace PageServer
namespace Disk

/-- The entry that a path leads to. -/
def stat (d : Disk) (path : String) : Except IoErrorKind Entry :=
  (d.find path).bind fun n => match d.entry? n with
    | some e => .ok e
    | none => .error .notFound

def exists? (d : Disk) (path : String) : Bool :=
  match d.stat path with
  | .ok _ => true
  | .error _ => false

/-- Refuses what cannot be opened whatever the path leads to. -/
def checkOpen (d : Disk) (path : String) : Except IoErrorKind Unit :=
  (checkPath path).bind fun _ => if d.canOpen then .ok () else .error .tooManyOpenFiles

/-- Opens the entry at `path` for reading; gives its number. -/
def openEntry (d : Disk) (path : String) : Except IoErrorKind Nat :=
  (d.checkOpen path).bind fun _ =>
    (d.find path).bind fun n => (d.require n .read).map fun _ => n

/-- The bytes of an open entry. -/
def readAll (d : Disk) (n : Nat) : Except IoErrorKind Bytes :=
  match d.entry? n with
  | some (.file _ data) => .ok data
  | _ => .error .isADirectory

def read (d : Disk) (path : String) : Except IoErrorKind Bytes :=
  (d.openEntry path).bind d.readAll

/-- Whether `path` leads to a directory. -/
def isDirectoryAt (d : Disk) (path : String) : Bool :=
  match d.stat path with
  | .ok e => e.isDirectory
  | .error _ => false

end Disk
end PageServer
