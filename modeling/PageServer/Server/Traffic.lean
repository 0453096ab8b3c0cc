import PageServer.Server.Reactor

/-!
# Traffic

What passes between the network and the streams of the reactor: clients that connect,
bytes that arrive, and bytes that leave.
-/

namespace PageServer
namespace Server
namespace Reactor

/-- The lowest descriptor that no connection has. -/
def freeDescriptor (r : Reactor) : Nat :=
  (r.slots.table.findIdx? (!·.isLive)).getD r.slots.capacity

/-- Changes the stream of a connection, unless the connection is no longer there. -/
def onStream {α : Type} (client : Client) (absent : α) (f : Net.Stream → α × Net.Stream)
    (r : Reactor) : α × Reactor :=
  match r.slots.slot? client.fd with
  | none => (absent, r)
  | some slot =>
    if slot.generation != client.generation then (absent, r)
    else
      let a := f slot.session.stream
      (a.1, { r with slots := r.slots.putSession client.fd { slot.session with stream := a.2 } })

/-- Bytes arrive from a client; none where it has ended its side. -/
def deliver (client : Client) (data : Option Bytes) (r : Reactor) : Reactor :=
  (r.onStream client () fun s => ((), match data with
    | some data => (s.clientSend data).2
    | none => s.clientEnd)).2

/-- Takes out the bytes that leave for a client; tells whether the stream has ended behind
them. -/
def collect (client : Client) (r : Reactor) : (Bytes × Bool) × Reactor :=
  r.onStream client ([], true) fun s =>
    let c := s.clientReceive
    ((c.1, c.2.1), c.2.2)

end Reactor
end Server
end PageServer
