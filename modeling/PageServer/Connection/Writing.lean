import PageServer.Connection.Basic
import PageServer.Net.Stream

/-!
# Sending the response

The output buffer and the file behind it go out in gathered writes, each of which may take
any part of what it is offered. The next one resumes at the next byte.
-/

namespace PageServer
namespace Connection

open Net (WriteReply)

structure Summary where
  status : Option Http.Status
  bytes : Nat
  /-- The stream stays open for another request. -/
  keepAlive : Bool
  latency : Option Nat
  deriving DecidableEq, Repr

inductive WriteOutcome
  /-- The stream takes no more for now. -/
  | pending
  | complete (summary : Summary)
  | failed
  deriving DecidableEq, Repr

/-- The bytes that the next write offers. -/
def offer (c : Connection) : Except Fault Bytes :=
  let file := c.fileBytes
  if c.sent < c.output.length then .ok (c.output.bytes.drop c.sent ++ file)
  else
    let start := c.sent - c.output.length
    if file.length < start then .error (.sliceStart start file.length) else .ok (file.drop start)

/-- Ends a response that has gone out. -/
def finish (now : Nat) (c : Connection) : WriteOutcome × Connection :=
  let summary : Summary := {
    status := c.status
    bytes := c.sent
    keepAlive := c.request.keepAlive
    latency := c.since.map (now - ·) }
  let c := { c with file := none }
  (.complete summary, if summary.keepAlive then c.reset else c)

/-- Writes on; the last component is what the stream has taken. -/
def writeOn (now : Nat) :
    List WriteReply → Connection → Except Fault WriteOutcome × Connection × Bytes
  | replies, c =>
    if c.sent < c.total then
      match c.offer with
      | .error f => (.error f, c, [])
      | .ok bytes => match replies with
        | [] => (.ok .pending, c, [])
        | .wouldBlock :: _ => (.ok .pending, c, [])
        | .interrupted :: rest => writeOn now rest c
        | .failed :: _ => (.ok .failed, { c with file := none }, [])
        | .accepted 0 :: _ => (.ok .failed, { c with file := none }, [])
        | .accepted (n + 1) :: rest =>
          let r := writeOn now rest { c with sent := c.sent + (n + 1) }
          (r.1, r.2.1, bytes.take (n + 1) ++ r.2.2)
    else
      let r := c.finish now
      (.ok r.1, r.2, [])

/-- Sends what is left of the response. With nothing to send the connection goes back to
waiting for a request. -/
def write (c : Connection) (now : Nat) (replies : List WriteReply) :
    Except Fault WriteOutcome × Connection × Bytes :=
  if !c.isLive then (.ok .failed, c, [])
  else if c.total = 0 then
    (.ok (.complete { status := none, bytes := 0, keepAlive := true, latency := none }),
     c.reset, [])
  else writeOn now replies c

end Connection
end PageServer
