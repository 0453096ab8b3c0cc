import PageServer.Error
import PageServer.Net.Address

/-!
# Listeners

Where the server listens: an address of the short family. Port zero leaves the choice of a
port to the system.
-/

namespace PageServer
namespace Net

structure Listener where
  address : SocketAddress
  deriving DecidableEq, Repr

/-- The first port that the system chooses from. -/
def firstFreePort : Nat :=
  32768

/-- The ports below this one are kept for the services of the system. -/
def firstOpenPort : Nat :=
  1024

/-- A system that gives out every address but those with a port of its own. -/
def openPorts (a : SocketAddress) : Except IoError SocketAddress :=
  if a.port = 0 then .ok { a with port := firstFreePort }
  else if a.port < firstOpenPort then .error IoErrorKind.permissionDenied.error
  else .ok a

/-- Reads an address and has the system give it out. -/
def Listener.bind (system : SocketAddress → Except IoError SocketAddress) (text : String) :
    Except IoError Listener :=
  match SocketAddress.parse? text with
  | none => .error ⟨.invalidInput, "invalid socket address syntax"⟩
  | some a => match a.host with
    | .v6 .. => .error ⟨.invalidInput, "only IPv4 listeners are supported"⟩
    | .v4 .. => (system a).map Listener.mk

end Net
end PageServer
