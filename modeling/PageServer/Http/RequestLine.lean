import PageServer.Http.Request
import PageServer.Text.Ascii

/-!
# Request lines

Reading `METHOD TARGET VERSION`. The path of the target is the target itself or, after an
`http` or `https` scheme, what starts at the first slash behind the host.
-/

namespace PageServer
namespace Http

def Method.ofName? (name : List Char) : Option Method :=
  if Text.eqIgnoreCase name "GET".toList then some .get
  else if Text.eqIgnoreCase name "POST".toList then some .post
  else none

structure RequestLine where
  method : Method
  path : List Char
  version : List Char
  deriving DecidableEq, Repr

/-- The page behind the bare root. -/
def welcomePath : String :=
  "/judge.html"

/-- The part of a target that names a page. -/
def targetPath (target : List Char) : List Char :=
  match Text.dropLead? "http://".toList target with
  | some rest => rest.dropWhile (· != '/')
  | none => match Text.dropLead? "https://".toList target with
    | some rest => rest.dropWhile (· != '/')
    | none => target

def RequestLine.parse? (line : List Char) : Option RequestLine := do
  let (name, rest) ← Text.splitBlank? line
  let method ← Method.ofName? name
  let (target, version) ← Text.splitBlank? rest
  guard (Text.eqIgnoreCase version "HTTP/1.1".toList)
  let path := targetPath target
  guard (path.head? = some '/')
  return { method, path, version }

namespace Request

def withLine (r : Request) (l : RequestLine) : Request :=
  { r with
    method := l.method
    version := String.ofList l.version
    url := if l.path = ['/'] then welcomePath else String.ofList l.path }

/-- The request after a request line, which leaves it alone when refused. -/
def addLine (r : Request) (line : List Char) : Bool × Request :=
  match RequestLine.parse? line with
  | some l => (true, r.withLine l)
  | none => (false, r)

end Request
end Http
end PageServer
