import PageServer.Connection.Basic
import PageServer.Net.Stream

/-!
# Reading from the stream

One call takes all that the stream has until it would block, the buffer is full, or the
stream ends. A buffer that was full before the call holds a request that will never fit.
-/

namespace PageServer
namespace Connection

open Net (ReadReply)

/-- Writes bytes into a buffer from a position on. -/
def store (buf : Array UInt8) (pos : Nat) : Bytes → Array UInt8
  | [] => buf
  | b :: rest => store (buf.setIfInBounds pos b) (pos + 1) rest

/-- Room left in the buffer. -/
def room (c : Connection) : Nat :=
  c.input.size - c.filled

/-- Takes in what one read delivered. -/
def takeIn (c : Connection) (data : Bytes) : Connection :=
  { c with
    input := store c.input c.filled (data.take c.room)
    filled := c.filled + (data.take c.room).length }

/-- Notes the arrival of the first bytes of a request. -/
def stamp (now : Nat) (got : Bool) (c : Connection) : Connection :=
  if got && c.since.isNone then { c with since := some now } else c

/-- Reads on, where `got` tells whether this call has read bytes already. -/
def readOn (now : Nat) (got : Bool) : List ReadReply → Connection → Bool × Connection
  | replies, c =>
    if c.input.size ≤ c.filled then (got, c.stamp now got)
    else match replies with
      | [] => (true, c.stamp now got)
      | .wouldBlock :: _ => (true, c.stamp now got)
      | .interrupted :: rest => readOn now got rest c
      | .failed :: _ => (false, c)
      | .bytes [] :: _ => (false, c)
      | .bytes (b :: data) :: rest => readOn now true rest (c.takeIn (b :: data))

/-- Reads what is there; false where the stream ended or failed, or the buffer was full. -/
def read (c : Connection) (now : Nat) (replies : List ReadReply) : Bool × Connection :=
  if c.isLive then readOn now false replies c else (false, c)

end Connection
end PageServer
