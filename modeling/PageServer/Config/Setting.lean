import PageServer.Config.Basic
import PageServer.Text.Decimal

/-!
# Settings

The settings by name: how each is called on the command line and in the environment, and
which values it takes.
-/

namespace PageServer
namespace Config

/-- What is wrong with a command line, or what it asks for in place of a run. -/
inductive UsageError
  /-- Not an option, or a word that belongs to none. -/
  | unknown
  /-- An option without its value, or a path without a character. -/
  | noValue
  | badNumber
  /-- An option that was given before. -/
  | repeated
  /-- A value for a flag. -/
  | unexpectedValue
  | help
  | version
  deriving DecidableEq, Repr

def UsageError.message : UsageError → String
  | unknown => "unexpected argument"
  | noValue => "a value is required"
  | badNumber => "invalid number"
  | repeated => "the argument cannot be used multiple times"
  | unexpectedValue => "unexpected value for a flag"
  | help => "help requested"
  | version => "version requested"

inductive Setting
  | port
  | host
  | docRoot
  | threads
  | maxRequests
  | maxFds
  | timeslot
  | dbPath
  | dbPoolSize
  | logFile
  | logLevel
  deriving DecidableEq, Repr

namespace Setting

/-- All settings, in the order in which the environment is looked at. -/
def all : List Setting :=
  [port, host, docRoot, threads, maxRequests, maxFds, timeslot, dbPath, dbPoolSize, logFile,
    logLevel]

def name : Setting → String
  | port => "port"
  | host => "host"
  | docRoot => "doc-root"
  | threads => "threads"
  | maxRequests => "max-requests"
  | maxFds => "max-fds"
  | timeslot => "timeslot"
  | dbPath => "db-path"
  | dbPoolSize => "db-pool-size"
  | logFile => "log-file"
  | logLevel => "log-level"

/-- The environment variable that stands in for the option. -/
def environmentName : Setting → String
  | port => "SERVER_PORT"
  | host => "SERVER_HOST"
  | docRoot => "DOC_ROOT"
  | threads => "WORKER_THREADS"
  | maxRequests => "MAX_REQUESTS"
  | maxFds => "MAX_FDS"
  | timeslot => "TIMESLOT"
  | dbPath => "DB_PATH"
  | dbPoolSize => "DB_POOL_SIZE"
  | logFile => "LOG_FILE"
  | logLevel => "LOG_LEVEL"

def letter? : Setting → Option Char
  | port => some 'p'
  | _ => none

def ofName? (text : String) : Option Setting :=
  all.find? (·.name == text)

def ofLetter? (c : Char) : Option Setting :=
  all.find? (·.letter? == some c)

/-- A port: a number that may have a sign, even the minus of a zero. -/
def readPort (value : String) : Except UsageError Nat :=
  let digits := match value.toList with
    | '-' :: rest => (Text.natural? rest).filter (· = 0)
    | s => Text.number? 65535 s
  match digits with
  | some n => .ok n
  | none => .error .badNumber

def readWord (value : String) : Except UsageError Nat :=
  match Text.number? Text.wordMax value.toList with
  | some n => .ok n
  | none => .error .badNumber

def readPath (value : String) : Except UsageError String :=
  if value = "" then .error .noValue else .ok value

/-- Gives the setting a value. -/
def assign (s : Setting) (value : String) (c : Config) : Except UsageError Config :=
  match s with
  | port => return { c with port := ← readPort value }
  | host => return { c with host := value }
  | docRoot => return { c with docRoot := ← readPath value }
  | threads => return { c with threads := ← readWord value }
  | maxRequests => return { c with maxRequests := ← readWord value }
  | maxFds => return { c with maxFds := ← readWord value }
  | timeslot => return { c with timeslot := ← readWord value }
  | dbPath => return { c with dbPath := ← readPath value }
  | dbPoolSize => return { c with dbPoolSize := ← readWord value }
  | logFile => return { c with logFile := some (← readPath value) }
  | logLevel => return { c with logLevel := value }

end Setting
end Config
end PageServer
