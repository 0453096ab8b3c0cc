import PageServer.Disk.Path
import PageServer.Error
import PageServer.Text.Utf8

/-!
# File trees

A tree of files, directories and symbolic links, and walking it along a path. Entries are
numbered, and a directory gives names to numbers, so an entry can lose its name and still
be in use.
-/

namespace PageServer

inductive Entry
  | file (mode : Nat) (data : Bytes)
  /-- A directory in the directory `parent`. -/
  | directory (mode parent : Nat) (names : List (String × Nat))
  | link (target : String)
  deriving DecidableEq, Repr

/-- What the owner of an entry, who runs the server, may want to do with it. -/
inductive Access
  | read
  | write
  /-- Go on to what a directory names. -/
  | search
  deriving DecidableEq, Repr

/-- The permission bit of the owner. -/
def Access.bit : Access → Nat
  | read => 0o400
  | write => 0o200
  | search => 0o100

namespace Entry

/-- The permission bits. -/
def mode : Entry → Nat
  | file m _ => m
  | directory m _ _ => m
  | link _ => 0o777

def permits (e : Entry) (a : Access) : Bool :=
  e.mode / a.bit % 2 == 1

/-- Others may read it. -/
def isReadable (e : Entry) : Bool :=
  e.mode / 4 % 2 == 1

def isDirectory : Entry → Bool
  | directory .. => true
  | _ => false

def size : Entry → Nat
  | file _ data => data.length
  | _ => 0

def withMode (m : Nat) : Entry → Entry
  | file _ data => file m data
  | directory _ parent names => directory m parent names
  | link target => link target

end Entry

namespace Disk

/-- Permissions of a directory made without further wishes. -/
def directoryMode : Nat :=
  0o755

def fileMode : Nat :=
  0o644

end Disk

structure Disk where
  /-- The entries by number; the root comes first. -/
  entries : Array Entry := #[.directory Disk.directoryMode 0 []]
  /-- The directory where relative paths start. -/
  here : Nat := 0
  /-- Whether one more file can be opened. -/
  canOpen : Bool := true
  deriving Repr

namespace Disk

def entry? (d : Disk) (n : Nat) : Option Entry :=
  d.entries[n]?

def put (d : Disk) (n : Nat) (e : Entry) : Disk :=
  { d with entries := d.entries.setIfInBounds n e }

/-- What a directory names. -/
def names (d : Disk) (dir : Nat) : List (String × Nat) :=
  match d.entry? dir with
  | some (.directory _ _ names) => names
  | _ => []

def setNames (d : Disk) (dir : Nat) (names : List (String × Nat)) : Disk :=
  match d.entry? dir with
  | some (.directory mode parent _) => d.put dir (.directory mode parent names)
  | _ => d

/-- The directory above a directory. -/
def parent (d : Disk) (dir : Nat) : Nat :=
  match d.entry? dir with
  | some (.directory _ parent _) => parent
  | _ => dir

def isDirectory (d : Disk) (n : Nat) : Bool :=
  (d.entry? n).any (·.isDirectory)

def permits (d : Disk) (n : Nat) (a : Access) : Bool :=
  (d.entry? n).any (·.permits a)

/-- Fails where access to an entry is not granted. -/
def require (d : Disk) (n : Nat) (a : Access) : Except IoErrorKind Unit :=
  if d.permits n a then .ok () else .error .permissionDenied

/-- The longest name of an entry, in bytes. -/
def maxName : Nat :=
  255

/-- The number that a directory gives to a name. -/
def child? (d : Disk) (dir : Nat) (name : String) : Except IoErrorKind (Option Nat) :=
  if maxName < name.utf8ByteSize then .error .invalidFilename
  else .ok ((d.names dir).lookup name)

/-- Gives a name in a directory to the entry `n`. -/
def setName (d : Disk) (dir : Nat) (name : String) (n : Nat) : Disk :=
  d.setNames dir ((d.names dir).filter (·.1 != name) ++ [(name, n)])

/-- Takes a name out of a directory. -/
def removeName (d : Disk) (dir : Nat) (name : String) : Disk :=
  d.setNames dir ((d.names dir).filter (·.1 != name))

/-- Adds an entry under a name in a directory. -/
def add (d : Disk) (dir : Nat) (name : String) (e : Entry) : Disk :=
  { d with entries := d.entries.push e }.setName dir name d.entries.size

/-- Links that one walk follows at most. -/
def maxLinks : Nat :=
  40

/-- The longest path, in bytes. -/
def maxPath : Nat :=
  4095

/-- Whether a walk goes on where its last name is that of a link. -/
inductive Following
  | always
  /-- Only where no slash follows that name. -/
  | bareNames
  | never
  deriving DecidableEq, Repr

def Following.goesOn (f : Following) (slash : Bool) : Bool :=
  match f with
  | always => true
  | bareNames => !slash
  | never => false

/-- Where a walk ends. -/
inductive Place
  /-- At a directory that its last name does not name: at the root, or behind dots. -/
  | directory (n : Nat)
  /-- At a name in a directory, be it free or not, with or without a slash behind it. -/
  | name (dir : Nat) (name : String) (slash : Bool)
  deriving DecidableEq, Repr

/-- Walks from the directory `dir`, following at most `links` links. -/
def walk (d : Disk) (f : Following) (links dir : Nat) (slash : Bool) :
    List String → Except IoErrorKind Place
  | [] => .ok (.directory dir)
  | name :: rest =>
    if !d.permits dir .search then .error .permissionDenied
    else if name = "." then d.walk f links dir slash rest
    else if name = ".." then d.walk f links (d.parent dir) slash rest
    else if rest.isEmpty && !f.goesOn slash then .ok (.name dir name slash)
    else match d.child? dir name with
      | .error e => .error e
      | .ok none => if rest.isEmpty then .ok (.name dir name slash) else .error .notFound
      | .ok (some n) => match d.entry? n with
        | some (.link target) => match links with
          | 0 => .error .filesystemLoop
          | links + 1 =>
            let r := Route.ofPath target
            d.walk f links (if r.absolute then 0 else dir) (slash || rest.isEmpty && r.slash)
              (r.names ++ rest)
        | e =>
          if rest.isEmpty then .ok (.name dir name slash)
          else if e.any (·.isDirectory) then d.walk f links n slash rest
          else .error .notADirectory
termination_by l => (links, l.length)

/-- Refuses what no walk can start on. -/
def checkPath (path : String) : Except IoErrorKind Unit :=
  if path.contains '\x00' then .error .invalidInput
  else if path = "" then .error .notFound
  else if maxPath < path.utf8ByteSize then .error .invalidFilename
  else .ok ()

/-- Where `path` leads. -/
def place (d : Disk) (f : Following) (path : String) : Except IoErrorKind Place :=
  (checkPath path).bind fun _ =>
    let r := Route.ofPath path
    d.walk f maxLinks (if r.absolute then 0 else d.here) r.slash r.names

/-- The entry at a place. -/
def occupant (d : Disk) : Place → Except IoErrorKind Nat
  | .directory n => .ok n
  | .name dir name slash => (d.child? dir name).bind fun
    | none => .error .notFound
    | some n => if slash && !d.isDirectory n then .error .notADirectory else .ok n

/-- The entry that `path` leads to. -/
def find (d : Disk) (path : String) : Except IoErrorKind Nat :=
  (d.place .always path).bind d.occupant

end Disk
end PageServer
