import PageServer.Config.Setting

/-!
# Command lines

Reading the settings from the arguments and, for those not given there, from the
environment. An option takes effect when the next one begins or the arguments end, so an
unknown word is reported before what is wrong with the option in front of it.
-/

namespace PageServer
namespace Config

/-- What the arguments read so far have set. -/
structure Reading where
  config : Config := {}
  given : List Setting := []
  /-- The last option and its value, once it has one. -/
  pending : Option (Setting × Option String) := none
  deriving Repr

namespace Reading

/-- Takes in an option with its value, if this is the first time. -/
def accept (s : Setting) (value : String) (r : Reading) : Except UsageError Reading :=
  if s ∈ r.given then .error .repeated
  else (s.assign value r.config).map fun config =>
    { config, given := s :: r.given, pending := none }

/-- Takes in the last option. -/
def resolve (r : Reading) : Except UsageError Reading :=
  match r.pending with
  | none => .ok r
  | some (_, none) => .error .noValue
  | some (s, some value) => r.accept s value

/-- Begins an option, which may have its value attached. -/
def begin (s : Setting) (value : Option String) (r : Reading) : Except UsageError Reading :=
  r.resolve.bind fun r => match value with
    | none => .ok { r with pending := some (s, none) }
    | some value => r.accept s value

/-- A flag that asks for something else than a run. -/
def flag (e : UsageError) (r : Reading) : Except UsageError Reading :=
  r.resolve.bind fun _ => .error e

/-- Splits at the first equals sign. -/
def splitValue (s : List Char) : String × Option String :=
  match s.dropWhile (· != '=') with
  | [] => (String.ofList s, none)
  | _ :: value => (String.ofList (s.takeWhile (· != '=')), some (String.ofList value))

/-- An argument behind two dashes. -/
def readLong (s : List Char) (r : Reading) : Except UsageError Reading :=
  let (name, value) := splitValue s
  let asFlag (e : UsageError) := if value.isSome then .error .unexpectedValue else r.flag e
  match Setting.ofName? name with
  | some s => r.begin s value
  | none =>
    if name = "help" then asFlag .help
    else if name = "version" then asFlag .version
    else .error .unknown

/-- An argument behind one dash, whose first letter decides. -/
def readShort (c : Char) (rest : List Char) (r : Reading) : Except UsageError Reading :=
  let value := match rest with
    | [] => none
    | '=' :: value => some (String.ofList value)
    | value => some (String.ofList value)
  match Setting.ofLetter? c with
  | some s => r.begin s value
  | none =>
    if c = 'h' then r.flag .help
    else if c = 'V' then r.flag .version
    else .error .unknown

/-- An argument that is no option: the value of the last one, if that has none. -/
def readValue (value : String) (r : Reading) : Except UsageError Reading :=
  match r.pending with
  | some (s, none) => .ok { r with pending := some (s, some value) }
  | _ => .error .unknown

/-- Reads all arguments. Behind two lone dashes there may be nothing. -/
def readAll : List String → Reading → Except UsageError Reading
  | [], r => r.resolve
  | word :: rest, r => match word.toList with
    | ['-', '-'] => if rest.isEmpty then r.resolve else .error .unknown
    | '-' :: '-' :: s => (r.readLong s).bind (readAll rest)
    | '-' :: c :: s => (r.readShort c s).bind (readAll rest)
    | _ => (r.readValue word).bind (readAll rest)

/-- Takes from the environment what the arguments have not set. -/
def fill (environment : String → Option String) : List Setting → Reading →
    Except UsageError Reading
  | [], r => .ok r
  | s :: rest, r =>
    if s ∈ r.given then fill environment rest r
    else match environment s.environmentName with
      | none => fill environment rest r
      | some value => (s.assign value r.config).bind fun config =>
        fill environment rest { r with config }

end Reading

/-- The configuration for a command line and an environment. -/
def read (arguments : List String) (environment : String → Option String) :
    Except UsageError Config := do
  let r ← Reading.readAll arguments {}
  return (← r.fill environment Setting.all).config

end Config
end PageServer
