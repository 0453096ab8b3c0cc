/-!
# Paths

A path is text; its parts are the names between slashes. A slash at the end asks for a
directory.
-/

namespace PageServer
namespace Disk

/-- Puts a character in front of the first of some pieces; a slash begins a new one. -/
def addToPieces (c : Char) : List (List Char) → List (List Char)
  | [] => [[c]]
  | p :: ps => if c = '/' then [] :: p :: ps else (c :: p) :: ps

/-- The pieces between slashes, empty ones included. -/
def pieces (path : String) : List String :=
  (path.toList.foldr addToPieces [[]]).map String.ofList

def isAbsolute (path : String) : Bool :=
  path.toList.head? == some '/'

/-- What a walk along a path goes by. -/
structure Route where
  /-- It starts at the root. -/
  absolute : Bool
  names : List String
  /-- It ends in a slash. -/
  slash : Bool
  deriving DecidableEq, Repr

namespace Route

def ofPath (path : String) : Route where
  absolute := isAbsolute path
  names := (pieces path).filter (· != "")
  slash := path.toList.getLast? == some '/'

end Route

/-- Drops the pieces, last one first, that lead nowhere: empty ones, and dots but for a
leading one. -/
def dropIdle : List String → List String
  | [] => []
  | [first] => if first = "" then [] else [first]
  | p :: q :: rest => if p = "" || p = "." then dropIdle (q :: rest) else p :: q :: rest

theorem length_dropIdle_le (l : List String) : (dropIdle l).length ≤ l.length := by
  fun_induction dropIdle l with
  | case1 => simp
  | case2 => simp
  | case3 => simp
  | case4 p q rest _ ih => simp at ih ⊢; omega
  | case5 => simp

/-- The path of some pieces, last one first. -/
def ofPieces (absolute : Bool) : List String → String
  | [] => if absolute then "/" else ""
  | l => "/".intercalate l.reverse

/-- The path without its last name; none for the root and the empty path. -/
def parentPath? (path : String) : Option String :=
  match dropIdle (pieces path).reverse with
  | [] => none
  | _ :: above => some (ofPieces (isAbsolute path) (dropIdle above))

end Disk
end PageServer
