import PageServer.Error
import PageServer.Fault
import PageServer.Log.Event

/-!
# Configuration

The settings of the server, what they have to fulfil, and what is logged of them.
-/

namespace PageServer

structure Config where
  port : Nat := 9006
  host : String := "0.0.0.0"
  /-- The directory that pages are served from. -/
  docRoot : String := "./root"
  threads : Nat := 8
  /-- Tasks that may wait for a worker. -/
  maxRequests : Nat := 10000
  /-- Connections and descriptors that there may be. -/
  maxFds : Nat := 65536
  /-- Seconds between two looks at the timers. -/
  timeslot : Nat := 5
  /-- The file of the user table. -/
  dbPath : String := "./data/users.json"
  dbPoolSize : Nat := 8
  logFile : Option String := none
  logLevel : String := "info"
  deriving DecidableEq, Repr

namespace Config

def address (c : Config) : String :=
  s!"{c.host}:{c.port}"

/-- Seconds that a connection may be idle: three timeslots. -/
def idleTimeout (c : Config) : Except Fault Nat :=
  if 3 * c.timeslot < wordRange then .ok (3 * c.timeslot) else .error .durationProduct

/-- Every size has to be at least one. -/
def validate (c : Config) : Except ServerError Unit :=
  if c.threads = 0 then .error (.config "worker threads must be >= 1")
  else if c.maxRequests = 0 then .error (.config "max requests must be >= 1")
  else if c.maxFds = 0 then .error (.config "max fds must be >= 1")
  else if c.timeslot = 0 then .error (.config "timeslot must be > 0")
  else if c.dbPoolSize = 0 then .error (.config "db pool size must be >= 1")
  else .ok ()

/-- The part of the server that logs the settings. -/
def logTarget : String :=
  "tiny_webserver::config"

def summaryEvent (message : String) (fields : List (String × String)) : Log.Event :=
  { level := .info, target := logTarget, message, fields }

/-- What is logged of the settings, each with the fault that is met when it is put
together. -/
def summary (c : Config) : List (Log.Event × Option Fault) :=
  let network := summaryEvent "network" [("address", c.address), ("doc_root", c.docRoot)]
  let workers := summaryEvent "worker pool" [("threads", s!"{c.threads}"),
    ("max_requests", s!"{c.maxRequests}"), ("max_fds", s!"{c.maxFds}")]
  let timers := summaryEvent "timers" [("timeslot_secs", s!"{c.timeslot}"),
    ("idle_timeout_secs", s!"{3 * c.timeslot}")]
  let backend := summaryEvent "backend" [("db_path", c.dbPath),
    ("db_pool_size", s!"{c.dbPoolSize}")]
  let idle := match c.idleTimeout with
    | .ok _ => none
    | .error f => some f
  [(network, none), (workers, none), (timers, idle), (backend, none)]

end Config
end PageServer
