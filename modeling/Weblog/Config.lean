import Weblog.Text.Blank
import Weblog.Text.Unsigned

/-!
# Configuration

The service is configured by variables of its environment. A variable that is not set has a
default, except that a database needs its address. The variables are checked in a fixed order, and
the first one that is wrong is reported.
-/

namespace Weblog

/-- Where posts and categories are kept. -/
inductive Storage where
  | database
  | memory
  deriving DecidableEq

/-- How the log is written. -/
inductive LogFormat where
  | json
  | pretty
  deriving DecidableEq

namespace Config

/-- What is wrong with the configuration. -/
inductive Problem where
  | port (problem : Text.NumberProblem)
  | storage (name : String)
  | databaseUrl
  | maxConnections (problem : Text.NumberProblem)
  | logFormat (name : String)
  deriving DecidableEq

def Problem.message : Problem → String
  | .port problem => "invalid PORT: " ++ problem.message
  | .storage name => "unknown STORAGE_BACKEND: " ++ name
  | .databaseUrl => "DATABASE_URL must be set"
  | .maxConnections problem => "invalid DATABASE_MAX_CONNECTIONS: " ++ problem.message
  | .logFormat name => "unknown LOG_FORMAT: " ++ name

/-- A name as it is compared: trimmed and in lower case. -/
def normalized (name : String) : String :=
  String.ofList ((Text.trim name.toList).map Char.toLower)

/-- The storage of a name. -/
def readStorage (name : String) : Except Problem Storage :=
  match normalized name with
  | "postgres" | "postgresql" => .ok .database
  | "memory" | "in-memory" => .ok .memory
  | other => .error (.storage other)

/-- The log format of a name. -/
def readLogFormat (name : String) : Except Problem LogFormat :=
  match normalized name with
  | "json" => .ok .json
  | "pretty" | "text" => .ok .pretty
  | other => .error (.logFormat other)

def maxPort : Nat := 1 <<< 16 - 1

def maxConnections : Nat := 1 <<< 32 - 1

/-- The pieces of a list with commas between them, trimmed, without those that are blank. -/
def readOrigins (list : String) : List String :=
  (((Text.splitAtEach ',' list.toList).map Text.trim).filter (· ≠ [])).map String.ofList

/-- What the log holds if nothing else is asked for. -/
def defaultLogFilter : String := "info,blog_publisher=debug"

end Config

/-- The configuration of the service. -/
structure Config where
  host : String
  port : Nat
  storage : Storage
  databaseUrl : Option String
  databaseMaxConnections : Nat
  corsOrigins : List String
  logFilter : String
  logFormat : LogFormat
  deriving DecidableEq

namespace Config

/-- The value of a variable that may be absent, read by a rule. -/
def readOption {α : Type} (read : String → Except Problem α) (default : α) :
    Option String → Except Problem α
  | some value => read value
  | none => .ok default

/-- A whole number within a limit. -/
def readNumber (limit : Nat) (problem : Text.NumberProblem → Problem) (value : String) :
    Except Problem Nat :=
  (Text.readUnsigned limit value.toList).mapError problem

/-- The configuration that an environment asks for. -/
def ofEnvironment (lookup : String → Option String) : Except Problem Config := do
  let port ← readOption (readNumber maxPort .port) 8080 (lookup "PORT")
  let storage ← readOption readStorage .database (lookup "STORAGE_BACKEND")
  let databaseUrl := lookup "DATABASE_URL"
  if storage = .database ∧ databaseUrl.isNone then throw .databaseUrl
  let databaseMaxConnections ←
    readOption (readNumber maxConnections .maxConnections) 20 (lookup "DATABASE_MAX_CONNECTIONS")
  let logFormat ← readOption readLogFormat .json (lookup "LOG_FORMAT")
  return {
    host := (lookup "HOST").getD "127.0.0.1"
    port
    storage
    databaseUrl
    databaseMaxConnections
    corsOrigins := readOrigins ((lookup "CORS_ORIGINS").getD "")
    logFilter := (lookup "RUST_LOG").getD defaultLogFilter
    logFormat }

end Config

end Weblog
