import PageServer.Config.CommandLine
import PageServer.Log.Filter
import PageServer.Server.Start

/-!
# The program

A run of the program from its arguments to the moment at which the server listens, and the
end of it. All that a run writes is collected: its output, its error output and the disk
with the log file.
-/

namespace PageServer
namespace Program

def versionText : String :=
  "tiny_webserver 0.1.0\n"

def helpText : String :=
  let line (s : Config.Setting) := s!"      --{s.name} <VALUE>  [env: {s.environmentName}]\n"
  "Usage: tiny_webserver [OPTIONS]\n\nOptions:\n" ++ String.join (Config.Setting.all.map line) ++
    "  -h, --help\n  -V, --version\n"

/-- What a run has written, and where its log goes. -/
structure Console where
  disk : Disk
  filter : Log.Filter := []
  /-- The file that the log goes to; the output where there is none. -/
  logFile : Option String := none
  output : String := ""
  errors : String := ""
  deriving Repr

/-- The time that a log line begins with. -/
abbrev Stamp := String

/-- The system as it gives out the address to listen on. -/
abbrev Addresses := Net.SocketAddress → Except IoError Net.SocketAddress

namespace Console

def print (text : String) (c : Console) : Console :=
  { c with output := c.output ++ text }

def complain (text : String) (c : Console) : Console :=
  { c with errors := c.errors ++ text ++ "\n" }

/-- Writes a line to the log. -/
def writeLog (line : String) (c : Console) : Console :=
  match c.logFile with
  | none => c.print line
  | some path => match c.disk.append path (Text.encode line) with
    | .ok disk => { c with disk }
    | .error _ => c

/-- Logs an event that the filter lets through. -/
def log (stamp : Stamp) (c : Console) (e : Log.Event) : Console :=
  if c.filter.passes e then c.writeLog (e.line stamp "main") else c

def logAll (stamp : Stamp) (events : List Log.Event) (c : Console) : Console :=
  events.foldl (log stamp) c

end Console

/-- The variable of the environment that the filter is taken from first. -/
def filterVariable : String :=
  "RUST_LOG"

/-- The filter: the variable of the environment decides if it can be read, else the
configuration. -/
def chooseFilter (c : Config) (environment : String → Option String) :
    Log.Filter × List String :=
  match (environment filterVariable).bind Log.Filter.read? with
  | some f => (f, [])
  | none => Log.Filter.readLossy c.logLevel

def logFileRefused (path : String) (kind : IoErrorKind) : Log.Event :=
  { level := .warn, target := "tiny_webserver::logging"
    message := "cannot open log file, using stdout"
    fields := [("path", path), ("error", kind.description)] }

/-- Directs the log to where the configuration wants it. -/
def startLog (stamp : Stamp) (c : Config) (environment : String → Option String)
    (console : Console) : Console :=
  let (filter, complaints) := chooseFilter c environment
  let console := complaints.foldl (fun console text => console.complain text)
    { console with filter }
  match c.logFile with
  | none => console
  | some path => match console.disk.openForWriting path with
    | .ok (_, disk) => { console with disk, logFile := some path }
    | .error kind => console.log stamp (logFileRefused path kind)

/-- Why a run ends before the server listens. -/
inductive Refusal
  | usage (error : Config.UsageError)
  | failed
  | fault (fault : Fault)
  deriving DecidableEq, Repr

namespace Refusal

def exitCode : Refusal → Nat
  | usage .help | usage .version => 0
  | usage _ => 2
  | failed => 1
  | fault _ => 101

end Refusal

def cannotStart (e : ServerError) : Log.Event :=
  { level := .error, target := "tiny_webserver", message := "cannot start server"
    fields := [("error", e.message)] }

/-- Logs events up to the first of those let through that meets a fault. -/
def logUntilFault (stamp : Stamp) :
    List (Log.Event × Option Fault) → Console → Option Fault × Console
  | [], console => (none, console)
  | (e, none) :: rest, console => logUntilFault stamp rest (console.log stamp e)
  | (e, some f) :: rest, console =>
    if console.filter.passes e then (some f, console) else logUntilFault stamp rest console

/-- Starts the server that a configuration describes. -/
def startServer (stamp : Stamp) (system : Addresses) (c : Config) (console : Console) :
    Except Refusal Server.Reactor × Console :=
  match Server.Reactor.start system c console.disk with
  | (.error (.refused e), events) =>
    (.error .failed, ((console.logAll stamp events).log stamp (cannotStart e)).complain
      s!"Error fatal: {e.message}")
  | (.error (.fault f), events) =>
    (.error (.fault f), (console.logAll stamp events).complain f.message)
  | (.ok r, events) => (.ok r, console.logAll stamp (events ++ [Server.listening r]))

/-- Runs the program up to the moment at which the server listens. -/
def start (stamp : Stamp) (system : Addresses) (arguments : List String)
    (environment : String → Option String) (d : Disk) :
    Except Refusal Server.Reactor × Console :=
  let console : Console := { disk := d }
  match Config.read arguments environment with
  | .error .version => (.error (.usage .version), console.print versionText)
  | .error .help => (.error (.usage .help), console.print helpText)
  | .error e => (.error (.usage e), console.complain s!"error: {e.message}")
  | .ok c => match c.validate with
    | .error e => (.error .failed, console.complain s!"Error de configuración: {e.message}")
    | .ok _ =>
      match logUntilFault stamp c.summary (startLog stamp c environment console) with
      | (some f, console) => (.error (.fault f), console.complain f.message)
      | (none, console) => startServer stamp system c console

/-- Ends a run in which the server has been told to stop. -/
def finish (stamp : Stamp) (r : Server.Reactor) (console : Console) : Console :=
  console.logAll stamp [Server.shutdownRequested, r.shutDown.2]

/-- A run in which a signal arrives once the server listens: its exit code and what it has
written. Without one the run goes on and has no exit code yet. -/
def run (stamp : Stamp) (arguments : List String) (environment : String → Option String)
    (signal : Option UInt8) (d : Disk) : Option Nat × Console :=
  match start stamp Net.openPorts arguments environment d with
  | (.error e, console) => (some e.exitCode, console)
  | (.ok r, console) => match signal with
    | none => (none, console)
    | some s => match { r with signals := r.signals.raise s }.turn 0 with
      | (.ok _, r) => if r.stopped then (some 0, finish stamp r console) else (none, console)
      | (.error f, _) => (some (Refusal.fault f).exitCode, console)

end Program
end PageServer
