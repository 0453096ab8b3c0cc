import PageServer.Connection.Parsing
import PageServer.Site.Page

/-!
# Answering the request

Looks up what a complete request asks for and prepares the response. A malformed request
ends the connection, since what follows it in the buffer cannot be trusted.
-/

namespace PageServer
namespace Connection

open Accounts (Backend)
open Http

/-- Body of a response for an empty file. -/
def emptyPage : String :=
  "<html><body></body></html>"

/-- Looks up a path: what to answer and the file to send. -/
def lookup (d : Disk) (path : String) : Verdict × Option Mapping :=
  match d.stat path with
  | .error _ => (.missing, none)
  | .ok entry =>
    if !entry.isReadable then (.forbidden, none)
    else if entry.isDirectory then (.malformed, none)
    else if entry.size = 0 then (.found, none)
    else match d.map path with
      | .error _ => (.broken, none)
      | .ok file => (.found, some file)

/-- Chooses the page of a complete request and looks it up. -/
def dispatch (root : String) (b : Backend) (c : Connection) : Verdict × Connection × Backend :=
  match Site.selectPage c.request b with
  | (none, b) => (.malformed, c, b)
  | (some page, b) =>
    let found := lookup b.disk (Site.realPath root page)
    (found.1, { c with file := found.2.or c.file }, b)

/-- The status that answers a verdict; none for one that calls for no answer. -/
def statusOf? : Verdict → Option Status
  | .found => some .ok
  | .malformed => some .badRequest
  | .forbidden => some .forbidden
  | .missing => some .notFound
  | .broken => some .internalError
  | .incomplete | .ready => none

/-- Puts a head for a body of `n` bytes behind what the buffer holds. -/
def addHead (s : Status) (n : Nat) (keepAlive : Bool) (b : ResponseBuffer) :
    Except Fault Bool × ResponseBuffer :=
  ResponseBuffer.andThen (b.addStatusLine s) (ResponseBuffer.addHeaders n keepAlive)

/-- Prepares the response with a status; false where it does not fit. -/
def respond (s : Status) (c : Connection) : Except Fault Bool × Connection :=
  let keepAlive := c.request.keepAlive && s != .badRequest
  let c := { c with request := { c.request with keepAlive }, status := some s }
  let prepared (r : Except Fault Bool × ResponseBuffer) (behind : Nat) :=
    let fits := match r.1 with
      | .ok fits => fits
      | .error _ => false
    (r.1, { c with output := r.2, total := if fits then r.2.length + behind else c.total })
  match s, c.file with
  | .ok, some file => prepared (addHead s file.length keepAlive c.output) file.length
  | _, _ =>
    let content := s.body?.getD emptyPage
    let head := addHead s (Text.encode content).length keepAlive c.output
    prepared (ResponseBuffer.andThen head (ResponseBuffer.addContent content)) 0

inductive ProcessOutcome
  /-- The request is not complete. -/
  | needInput
  | readyToWrite
  /-- There is no response to send. -/
  | abort
  deriving DecidableEq, Repr

/-- Prepares the response that a verdict calls for. -/
def answer (v : Verdict) (c : Connection) : Except Fault ProcessOutcome × Connection :=
  match v with
  | .incomplete => (.ok .needInput, c)
  | v => match statusOf? v with
    | none => (.ok .abort, c)
    | some s =>
      let r := c.respond s
      (r.1.map fun fits => if fits then .readyToWrite else .abort, r.2)

/-- Reads on in the buffer and, once the request is complete, prepares the response. -/
def process (root : String) (b : Backend) (c : Connection) :
    Except Fault ProcessOutcome × Connection × Backend :=
  match c.parse with
  | (.error f, c) => (.error f, c, b)
  | (.ok .ready, c) =>
    let d := dispatch root b c
    let r := d.2.1.answer d.1
    (r.1, r.2, d.2.2)
  | (.ok v, c) =>
    let r := c.answer v
    (r.1, r.2, b)

end Connection
end PageServer
