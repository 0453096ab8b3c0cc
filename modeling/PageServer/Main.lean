import PageServer.Program
import PageServer.Server.Traffic
import Std.Async.Signal
import Std.Async.TCP
import Std.Sync.Channel
import Std.Time

/-!
# The command line

Runs the program for real: brings the files that it needs into a disk, moves bytes between
sockets and the reactor, and writes out what the reactor leaves behind.
-/

namespace PageServer
namespace CommandLine

open Server (Client Reactor)
open Std.Async

/-- What the main thread waits for. -/
inductive Happening
  | connected (socket : TCP.Socket.Client) (peer : Net.SocketAddress)
  | received (client : Client) (data : Option Bytes)
  | signal (number : UInt8)

instance : Inhabited Happening :=
  ⟨.signal 0⟩

abbrev Inbox := Std.Channel Happening

/-! ## Files -/

/-- Brings in what is at a path, down to a depth. -/
def bringIn : (depth : Nat) → (path : String) → Disk → IO Disk
  | 0, _, d => return d
  | depth + 1, path, d => do
    try
      let place ← IO.FS.realPath path
      if ← place.isDir then
        let d := (d.makeDirectories path).toOption.getD d
        (← place.readDir).foldlM (fun d e => bringIn depth (path ++ "/" ++ e.fileName) d) d
      else
        let data ← IO.FS.readBinFile path
        return (d.writeFile path data.toList).toOption.getD d
    catch _ => return d

/-- Brings in a file and the directory it is in. -/
def bringFile (path : String) (d : Disk) : IO Disk := do
  match Disk.parentPath? path with
  | none => bringIn 1 path d
  | some up =>
    let known ← try
        let place ← IO.FS.realPath (if up = "" then "." else up)
        place.isDir
      catch _ => pure false
    bringIn 1 path (if known then (d.makeDirectories up).toOption.getD d else d)

/-- The disk as far as a configuration speaks of it. -/
def bringDisk (c : Config) : IO Disk := do
  let d ← bringIn 64 c.docRoot {}
  let d ← bringFile c.dbPath d
  match c.logFile with
  | none => return d
  | some path => bringFile path d

/-- Writes the user table out, by way of a second file. -/
def writeTable (path : String) (data : Bytes) : IO Unit := do
  match Disk.parentPath? path with
  | none | some "" => pure ()
  | some up => IO.FS.createDirAll up
  IO.FS.writeBinFile (path ++ ".tmp") ⟨data.toArray⟩
  IO.FS.rename (path ++ ".tmp") path

/-! ## Console -/

def stamp : IO Program.Stamp := do
  let now := Std.Time.DateTime.ofTimestamp (← Std.Time.Timestamp.now)
    Std.Time.TimeZone.ZoneRules.UTC
  return now.format "uuuu-MM-dd'T'HH:mm:ss.SSSSSS'Z'"

/-- Writes out what a run has written, where `old` is the disk before it. -/
def report (old : Disk) (console : Program.Console) : IO Unit := do
  IO.print console.output
  (← IO.getStdout).flush
  IO.eprint console.errors
  if let some path := console.logFile then
    let before := ((old.read path).toOption.getD []).length
    let added := ((console.disk.read path).toOption.getD []).drop before
    let file ← IO.FS.Handle.mk path .append
    file.write ⟨added.toArray⟩

/-! ## Network -/

def bytePart (n : Nat) : UInt8 :=
  UInt8.ofNat n

/-- Listens at an address, if the system gives it out. -/
def listenAt (server : TCP.Socket.Server) (a : Net.SocketAddress) :
    IO (Except IoError Net.SocketAddress) := do
  match a.host with
  | .v6 .. => return .error IoErrorKind.addrNotAvailable.error
  | .v4 w x y z =>
    try
      server.bind (.v4 ⟨⟨#v[bytePart w, bytePart x, bytePart y, bytePart z]⟩, UInt16.ofNat a.port⟩)
      server.listen 5
      match ← server.getSockName with
      | .v4 found => return .ok { a with port := found.port.toNat }
      | .v6 _ => return .ok a
    catch
      | .resourceBusy .. => return .error IoErrorKind.addrInUse.error
      | .permissionDenied .. => return .error IoErrorKind.permissionDenied.error
      | _ => return .error IoErrorKind.addrNotAvailable.error

/-- The address of a client. -/
def peerOf (socket : TCP.Socket.Client) : IO Net.SocketAddress := do
  match ← socket.getPeerName with
  | .v4 a =>
    let o := a.addr.octets
    return ⟨.v4 o[0].toNat o[1].toNat o[2].toNat o[3].toNat, a.port.toNat⟩
  | .v6 _ => return ⟨.v4 0 0 0 0, 0⟩

/-- Takes in clients for ever. -/
partial def acceptAll (inbox : Inbox) (server : TCP.Socket.Server) : Async Unit := do
  let socket ← server.accept
  let _ ← inbox.send (.connected socket (← peerOf socket))
  acceptAll inbox server

/-- Reads from a client until it ends its side. -/
partial def readAll (inbox : Inbox) (client : Client) (socket : TCP.Socket.Client) :
    Async Unit := do
  let data ← try socket.recv? 4096 catch _ => pure none
  let _ ← inbox.send (.received client (data.map ByteArray.toList))
  if data.isSome then readAll inbox client socket

/-- Passes a signal on each time it comes. -/
partial def passOn (inbox : Inbox) (waiter : Signal.Waiter) (number : UInt8) : Async Unit := do
  let _ ← await (← waiter.wait)
  let _ ← inbox.send (.signal number)
  passOn inbox waiter number

/-- Raises the alarm once after some seconds. -/
def raiseAfter (inbox : Inbox) (seconds : Nat) : IO Unit := do
  let _ ← IO.asTask (do
    IO.sleep (UInt32.ofNat (min (seconds * 1000) 0xFFFFFFFF))
    let _ ← inbox.send (.signal Server.alarmNumber)) .dedicated

def sendLast (socket : TCP.Socket.Client) (data : Bytes) : Async Unit := do
  socket.send ⟨data.toArray⟩
  socket.shutdown

/-! ## The loop -/

structure Loop where
  inbox : Inbox
  reactor : Reactor
  sockets : List (Client × TCP.Socket.Client) := []

namespace Loop

/-- Sends what has been written for the clients, and lets those go whose stream has
ended. -/
def flush (l : Loop) : IO Loop := do
  l.sockets.foldlM (fun l s => do
    let ((data, ended), reactor) := l.reactor.collect s.1
    let l := { l with reactor }
    if ended then
      let _ ← (sendLast s.2 data).toIO
      return l
    else
      unless data.isEmpty do
        let _ ← (s.2.send ⟨data.toArray⟩).toIO
      return { l with sockets := l.sockets ++ [s] }) { l with sockets := [] }

/-- Runs the reactor until there is nothing left to do. -/
partial def settle (l : Loop) : IO Loop := do
  match l.reactor.turn (← IO.monoNanosNow) with
  | (.error f, _) => throw (IO.userError f.message)
  | (.ok busy, reactor) =>
    let l ← { l with reactor }.flush
    if busy then l.settle else return l

/-- Takes in a client. -/
def connect (l : Loop) (socket : TCP.Socket.Client) (peer : Net.SocketAddress) : IO Loop := do
  let fd := l.reactor.freeDescriptor
  match l.reactor.welcome (← IO.monoNanosNow) fd peer with
  | (.error f, _) => throw (IO.userError f.message)
  | (.ok (.accepted generation), reactor) =>
    let client : Client := { fd, generation, peer }
    let _ ← (readAll l.inbox client socket).toIO
    return { l with reactor, sockets := l.sockets ++ [(client, socket)] }
  | (.ok .busy, reactor) =>
    let _ ← (sendLast socket (Text.encode Server.busyMessage)).toIO
    return { l with reactor }
  | (.ok (.refused _), reactor) => return { l with reactor }

/-- Brings in the files as they are now and passes on what a client has sent. -/
def receive (l : Loop) (client : Client) (data : Option Bytes) : IO Loop := do
  let disk ← bringDisk l.reactor.config
  let b := l.reactor.backend
  return { l with reactor := { l.reactor with backend := { b with disk } }.deliver client data }

/-- Handles what happens until the server is told to stop. -/
partial def run (l : Loop) : IO Reactor := do
  let next ← IO.wait (← l.inbox.recv)
  let path := l.reactor.config.dbPath
  let l ← match next with
    | .connected socket peer => l.connect socket peer
    | .received client data => l.receive client data
    | .signal number =>
      pure { l with reactor := { l.reactor with signals := l.reactor.signals.raise number } }
  let before := (l.reactor.backend.disk.read path).toOption
  let l ← l.settle
  let after := (l.reactor.backend.disk.read path).toOption
  if let some data := after then
    if before != after then writeTable path data
  match next with
  | .signal number => if number = Server.alarmNumber then raiseAfter l.inbox l.reactor.alarm
  | _ => pure ()
  if l.reactor.stopped then return l.reactor else l.run

end Loop

/-- Serves until a signal ends the run. -/
def serve (server : TCP.Socket.Server) (reactor : Reactor) : IO Reactor := do
  let inbox : Inbox ← Std.Channel.new
  let _ ← (acceptAll inbox server).toIO
  for (signal, number) in
      [(Signal.sigterm, Server.terminateNumber), (Signal.sigint, Server.interruptNumber)] do
    let waiter ← Signal.Waiter.mk signal true
    let _ ← (passOn inbox waiter number).toIO
  raiseAfter inbox reactor.alarm
  Loop.run { inbox, reactor }

/-- The variables that the program looks at. -/
def readEnvironment : IO (String → Option String) := do
  let names := Program.filterVariable :: Config.Setting.all.map (·.environmentName)
  let found ← names.mapM fun name => return (name, ← IO.getEnv name)
  return fun name => (found.lookup name).join

def runProgram (arguments : List String) : IO UInt32 := do
  let environment ← readEnvironment
  let config := (Config.read arguments environment).toOption.getD {}
  let disk ← bringDisk config
  let server ← TCP.Socket.Server.mk
  let bound ← match Net.SocketAddress.parse? config.address with
    | some a => listenAt server a
    | none => pure (.error IoErrorKind.invalidInput.error)
  let (started, console) := Program.start (← stamp) (fun _ => bound) arguments environment disk
  report disk console
  match started with
  | .error e => return UInt32.ofNat e.exitCode
  | .ok reactor =>
    let reactor ← serve server reactor
    let rest := { console with output := "", errors := "" }
    report console.disk (Program.finish (← stamp) reactor rest)
    return 0

end CommandLine
end PageServer

def main (arguments : List String) : IO UInt32 :=
  PageServer.CommandLine.runProgram arguments
