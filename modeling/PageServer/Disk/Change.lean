import PageServer.Disk.File

/-!
# Changing a tree

The single changes that writing a file is made of. A change that fails leaves the tree
alone, so the disks between the changes of a plan are those that a crash can leave.
-/

namespace PageServer
namespace Disk

/-- Adds an entry under a free name. -/
def addNew (d : Disk) (dir : Nat) (name : String) (e : Entry) : Except IoErrorKind Disk :=
  (d.child? dir name).bind fun
    | some _ => .error .alreadyExists
    | none => (d.require dir .write).map fun _ => d.add dir name e

/-- Makes one directory under a new name. -/
def makeDirectory (d : Disk) (path : String) : Except IoErrorKind Disk :=
  (d.place .never path).bind fun
    | .directory _ => .error .alreadyExists
    | .name dir name _ => d.addNew dir name (.directory directoryMode dir [])

/-- Makes one directory unless there is one. -/
def ensureDirectory (d : Disk) (path : String) : Except IoErrorKind Disk :=
  match d.makeDirectory path with
  | .error e => if d.isDirectoryAt path then .ok d else .error e
  | r => r

/-- Makes the directory at `path`, whose pieces are `l`, last one first. Where it cannot
be made for want of those above it, these are made before. -/
def makeUpwards (absolute : Bool) (path : String) (l : List String) (d : Disk) :
    Except IoErrorKind Disk :=
  match d.ensureDirectory path with
  | .error .notFound => match _h : dropIdle l with
    | [] => .error .notFound
    | _ :: above =>
      let up := ofPieces absolute (dropIdle above)
      (if up = "" then .ok d else makeUpwards absolute up above d).bind fun d =>
        d.ensureDirectory path
  | r => r
termination_by l.length
decreasing_by
  have h := length_dropIdle_le l
  rw [_h, List.length_cons] at h
  exact h

/-- Makes a directory and those above it; the empty path asks for nothing. -/
def makeDirectories (d : Disk) (path : String) : Except IoErrorKind Disk :=
  if path = "" then .ok d else makeUpwards (isAbsolute path) path (pieces path).reverse d

/-- Opens the file at `path` for writing, and makes it if there is none; gives its
number. -/
def openForWriting (d : Disk) (path : String) : Except IoErrorKind (Nat × Disk) :=
  (d.checkOpen path).bind fun _ => (d.place .bareNames path).bind fun
    | .directory _ | .name _ _ true => .error .isADirectory
    | .name dir name false => (d.child? dir name).bind fun
      | none => (d.require dir .write).map fun _ =>
        (d.entries.size, d.add dir name (.file fileMode []))
      | some n =>
        if d.isDirectory n then .error .isADirectory
        else (d.require n .write).map fun _ => (n, d)

/-- Replaces what a file holds. -/
def setData (d : Disk) (n : Nat) (data : Bytes) : Disk :=
  match d.entry? n with
  | some (.file mode _) => d.put n (.file mode data)
  | _ => d

/-- Empties the file at `path` or makes it. -/
def create (d : Disk) (path : String) : Except IoErrorKind Disk :=
  (d.openForWriting path).map fun r => r.2.setData r.1 []

/-- Writes at the end of the file at `path`, which is open. -/
def append (d : Disk) (path : String) (data : Bytes) : Except IoErrorKind Disk :=
  (d.find path).bind fun n => (d.readAll n).map fun old => d.setData n (old ++ data)

/-- Gives the entry with the name `source`, which is no directory, the name `target`, in
place of one that had it. -/
def rename (d : Disk) (source target : String) : Except IoErrorKind Disk :=
  (d.place .never source).bind fun old => (d.place .never target).bind fun new =>
    match old, new with
    | .name oldDir oldName oldSlash, .name newDir newName newSlash =>
      (d.child? oldDir oldName).bind fun
        | none => .error .notFound
        | some n => (d.child? newDir newName).bind fun other =>
          if oldSlash || newSlash then .error .notADirectory
          else if other = some n then .ok d
          else (d.require oldDir .write).bind fun _ => (d.require newDir .write).bind fun _ =>
            if d.isDirectory n || other.any d.isDirectory then .error .isADirectory
            else .ok ((d.removeName oldDir oldName).setName newDir newName n)
    | _, _ => .error .resourceBusy

/-- One change of a plan. -/
inductive Change
  | makeDirectories (path : String)
  | create (path : String)
  | append (path : String) (data : Bytes)
  | rename (source target : String)
  deriving Repr

def apply (d : Disk) : Change → Except IoErrorKind Disk
  | .makeDirectories path => d.makeDirectories path
  | .create path => d.create path
  | .append path data => d.append path data
  | .rename source target => d.rename source target

/-- Carries out a plan up to its first failure. -/
def applyAll (d : Disk) : List Change → Except IoErrorKind Unit × Disk
  | [] => (.ok (), d)
  | c :: rest => match d.apply c with
    | .ok d' => d'.applyAll rest
    | .error e => (.error e, d)

/-- Puts a whole file at `path`. -/
def writeFile (d : Disk) (path : String) (data : Bytes) : Except IoErrorKind Disk :=
  (d.openForWriting path).map fun r => r.2.setData r.1 data

/-- Sets the permissions of the entry at `path`. -/
def setMode (d : Disk) (path : String) (mode : Nat) : Except IoErrorKind Disk :=
  (d.find path).bind fun n => match d.entry? n with
    | some e => .ok (d.put n (e.withMode mode))
    | none => .error .notFound

/-- Makes a symbolic link under a new name. -/
def makeLink (d : Disk) (path target : String) : Except IoErrorKind Disk :=
  (checkPath target).bind fun _ => (d.place .never path).bind fun
    | .directory _ => .error .alreadyExists
    | .name dir name slash => (d.child? dir name).bind fun found =>
      if slash && found.isNone then .error .notFound else d.addNew dir name (.link target)

/-- Removes an empty directory. -/
def removeDirectory (d : Disk) (path : String) : Except IoErrorKind Disk :=
  (d.place .never path).bind fun
    | .directory _ => .error .resourceBusy
    | .name dir name _ => (d.child? dir name).bind fun
      | none => .error .notFound
      | some n => (d.require dir .write).bind fun _ =>
        if !d.isDirectory n then .error .notADirectory
        else if (d.names n).isEmpty then .ok (d.removeName dir name)
        else .error .directoryNotEmpty

end Disk
end PageServer
