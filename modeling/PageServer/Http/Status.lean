/-!
# Response status

The five statuses that a response can carry, with their reason phrases and fixed bodies.
-/

namespace PageServer
namespace Http

inductive Status
  | ok
  | badRequest
  | forbidden
  | notFound
  | internalError
  deriving DecidableEq, Repr

namespace Status

def all : List Status :=
  [ok, badRequest, forbidden, notFound, internalError]

def code : Status → Nat
  | ok => 200
  | badRequest => 400
  | forbidden => 403
  | notFound => 404
  | internalError => 500

def reason : Status → String
  | ok => "OK"
  | badRequest => "Bad Request"
  | forbidden => "Forbidden"
  | notFound => "Not Found"
  | internalError => "Internal Error"

/-- The status with a given code. -/
def ofCode? (code : Nat) : Option Status :=
  all.find? fun s => s.code == code

/-- The fixed body of an error response. -/
def body? : Status → Option String
  | ok => none
  | badRequest => some "Your request has bad syntax or is inherently impossible to staisfy.\n"
  | forbidden => some "You do not have permission to get file form this server.\n"
  | notFound => some "The requested file was not found on this server.\n"
  | internalError => some "There was an unusual problem serving the request file.\n"

def text (s : Status) : String :=
  s!"{s.code} {s.reason}"

theorem ofCode?_code (s : Status) : ofCode? s.code = some s := by
  cases s <;> rfl

end Status
end Http
end PageServer
