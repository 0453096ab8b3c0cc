import PageServer.Metrics.Report
import PageServer.Net.Listener
import PageServer.Server.Reactor

/-!
# Starting and stopping

What the reactor needs before its first wait, in the order in which it is set up, and what
is logged of that.
-/

namespace PageServer
namespace Server

/-- No descriptor is given out beyond this one, so there is no slot beyond it. -/
def descriptorLimit : Nat :=
  0x100000

def tableLoaded (t : Accounts.Table) : Log.Event :=
  { level := .debug, target := "tiny_webserver::db::database", message := "user table loaded"
    fields := [("path", t.path), ("users", s!"{t.rows.length}")] }

def poolReady (size : Nat) (path : String) : Log.Event :=
  { level := .info, target := "tiny_webserver::db::connection", message := "database pool ready"
    fields := [("size", s!"{size}"), ("path", path)] }

def preloaded (users : Nat) : Log.Event :=
  { level := .info, target := "tiny_webserver::db::credentials"
    message := "credential table preloaded", fields := [("users", s!"{users}")] }

def workersStarted (threads maxRequests : Nat) : Log.Event :=
  { level := .debug, target := "tiny_webserver::threadpool", message := "thread pool started"
    fields := [("threads", s!"{threads}"), ("max_requests", s!"{maxRequests}")] }

def reactorTarget : String :=
  "tiny_webserver::server::reactor"

def listening (r : Reactor) : Log.Event :=
  { level := .info, target := reactorTarget, message := "server listening"
    fields := [("addr", r.address.text), ("workers", s!"{r.workers.threads}")] }

def shutdownRequested : Log.Event :=
  { level := .info, target := reactorTarget, message := "shutdown requested" }

def serverStopped (closed : Nat) (metrics : String) : Log.Event :=
  { level := .info, target := reactorTarget, message := "server stopped"
    fields := [("closed", s!"{closed}"), ("metrics", metrics)] }

/-- Lends out a handle and takes it back, which puts it behind the others. -/
def useHandle {ρ : Type} (p : Pool ρ) : Pool ρ :=
  match p.acquire? with
  | none => p
  | some (h, q) => match q.release h with
    | .ok q => q
    | .error _ => p

/-- Bytes that a connection slot takes. -/
def slotSize : Nat :=
  328

/-- The listener, the user table and the handles on it. -/
def openParts (system : Net.SocketAddress → Except IoError Net.SocketAddress) (c : Config)
    (d : Disk) : Except Failure (Net.Listener × Accounts.Table × List Accounts.Handle) := do
  c.validate.mapError .refused
  let listener ← (Net.Listener.bind system c.address).mapError (.refused ∘ .io)
  let table ← (Accounts.Table.load d c.dbPath).mapError .refused
  return (listener, table, ← Accounts.handles c.dbPath c.dbPoolSize)

/-- The slots and, once there is room for them, the workers. -/
def openWorkers (c : Config) (handles : List Accounts.Handle) :
    Except Failure (Workers Task Accounts.Handle) := do
  (reserve c.maxFds slotSize).mapError .fault
  Workers.start c.threads c.maxRequests (useHandle (Pool.ofList handles))

/-- Sets the reactor up on a system that gives out addresses. -/
def Reactor.start (system : Net.SocketAddress → Except IoError Net.SocketAddress) (c : Config)
    (d : Disk) : Except Failure Reactor × List Log.Event :=
  match openParts system c d with
  | .error e => (.error e, [])
  | .ok (listener, table, handles) =>
    let events := [tableLoaded table, poolReady c.dbPoolSize c.dbPath, preloaded table.rows.length]
    match openWorkers c handles with
    | .error e => (.error e, events)
    | .ok workers =>
      let capacity := min c.maxFds descriptorLimit
      (.ok {
        config := c
        address := listener.address
        slots := Slots.ofCapacity capacity
        workers
        backend := (Accounts.Backend.preload { disk := d, table }).2
        timerIds := Array.replicate capacity none
        alarm := alarmDelay c.timeslot }, events ++ [workersStarted c.threads c.maxRequests])

/-- Closes all connections at the end of a run, and says so. -/
def Reactor.shutDown (r : Reactor) : Reactor × Log.Event :=
  let (closed, r) := r.closeAll .shutdown
  let metrics := match r.slots.counters.snapshot with
    | .ok s => s.report
    | .error _ => ""
  (r, serverStopped closed metrics)

end Server
end PageServer
