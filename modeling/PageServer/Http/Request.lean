import PageServer.Text.Utf8

/-!
# Requests

The fields of a request, filled in line by line as its head arrives.
-/

namespace PageServer
namespace Http

inductive Method
  | get
  | post
  deriving DecidableEq, Repr

def Method.name : Method → String
  | .get => "GET"
  | .post => "POST"

structure Request where
  method : Method := .get
  /-- The path asked for, with the welcome page in place of the bare root. -/
  url : String := ""
  version : String := ""
  host : Option String := none
  keepAlive : Bool := false
  contentLength : Nat := 0
  body : Bytes := []
  deriving DecidableEq, Repr

end Http
end PageServer
