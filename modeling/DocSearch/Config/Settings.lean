import DocSearch.Config.Connection
import DocSearch.Text.Cut

/-!
# Settings

Settings are looked up in three places, the first of which wins: values given in the program, variables
of the environment, and a file of variables. All names are read without regard to case, and those of
variables have a common beginning. `Settings.connection` makes the connection of a list of hosts.
-/

namespace DocSearch

structure Settings where
  host : String
  port : Int
  username : Option String
  password : Option String
  apiKey : Option String
  timeout : Option Float
  mode : ExecutionMode
  strictOperators : Bool
  debug : Bool
  logLevel : String
  logJson : Bool

/-- Where settings are looked up besides the program, and how they are checked. -/
structure Environment where
  vars : List (String × String)
  /-- What the file of variables binds, in its order; a name alone has no value. -/
  bindings : List (String × Option String)
  checks : FieldChecks

namespace Environment

/-- No variables at all; nothing is converted. -/
def empty : Environment := ⟨[], [], .strict⟩

def leading : String := "esbuilder_"

/-- Variables by their names in lower case; the last one of a name counts. -/
def folded (vs : List (String × String)) : List (String × String) :=
  Entries.ofList (vs.map fun v => (Text.lower v.1, v.2))

def fileVariables (e : Environment) : List (String × String) :=
  let named := Entries.ofList (e.bindings.map fun v => (Text.lower v.1, v.2))
  named.filterMap fun v => v.2.map fun s => (v.1, s)

def get? (e : Environment) (name : String) : Option String :=
  let key := leading ++ Text.lower name
  (Entries.get? (folded e.vars) key).or (Entries.get? e.fileVariables key)

end Environment

namespace Settings

/-- The first value under a name in any case. -/
def valueAt? (values : Arguments) (name : String) : Option Value :=
  (values.find? fun e => Text.lower e.1 == Text.lower name).map (·.2)

def lookup? (values : Arguments) (e : Environment) (name : String) : Option Value :=
  (valueAt? values name).or ((e.get? name).map .str)

def field {α : Type} (values : Arguments) (e : Environment) (read : Value → Field.Checked α)
    (name : String) (standard : α) : Field.Checked α :=
  ((lookup? values e name).map read).getD (.ok standard)

/-- Checks all fields and reports the problems of all that are wrong. -/
def read (values : Arguments) (e : Environment) : Except Error Settings :=
  let optionalText := field values e (Field.optional e.checks.text)
  let host := field values e e.checks.text "HOST" "localhost"
  let port := field values e e.checks.whole "PORT" 9200
  let username := optionalText "USERNAME" none
  let password := optionalText "PASSWORD" none
  let apiKey := optionalText "API_KEY" none
  let timeout := field values e (Field.optional e.checks.float) "REQUEST_TIMEOUT" none
  let mode := field values e e.checks.mode "EXECUTION_MODE" .raw
  let strict := field values e e.checks.truth "STRICT_OPERATORS" false
  let debug := field values e e.checks.truth "DEBUG" false
  let level := field values e e.checks.text "LOG_LEVEL" "INFO"
  let json := field values e e.checks.truth "LOG_JSON" false
  match host, port, username, password, apiKey, timeout, mode, strict, debug, level, json with
  | .ok h, .ok p, .ok u, .ok w, .ok k, .ok t, .ok m, .ok s, .ok d, .ok l, .ok j =>
    .ok ⟨h, p, u, w, k, t, m, s, d, l, j⟩
  | _, _, _, _, _, _, _, _, _, _, _ =>
    .error (.config (.invalidFields (Field.problemsOf "HOST" host ++ Field.problemsOf "PORT" port
      ++ Field.problemsOf "USERNAME" username ++ Field.problemsOf "PASSWORD" password
      ++ Field.problemsOf "API_KEY" apiKey ++ Field.problemsOf "REQUEST_TIMEOUT" timeout
      ++ Field.problemsOf "EXECUTION_MODE" mode ++ Field.problemsOf "STRICT_OPERATORS" strict
      ++ Field.problemsOf "DEBUG" debug ++ Field.problemsOf "LOG_LEVEL" level
      ++ Field.problemsOf "LOG_JSON" json)))

def hostEntries (s : Settings) : List String :=
  ((Text.pieces ',' s.host.toList).map String.ofList).filter fun h => !(Text.strip h).isEmpty

/-- The connection to the hosts of the list; the port is for those that have none. -/
def connection (s : Settings) (checks : FieldChecks) : Except Error Connection := do
  let hosts ← s.hostEntries.mapM fun h => Host.normalize (.str h) (.int s.port)
  Connection.ofArguments checks [("hosts", .list (hosts.map .str)), ("username", .ofText? s.username),
    ("password", .ofText? s.password), ("api_key", .ofText? s.apiKey),
    ("request_timeout", .ofFloat? s.timeout)]

def toValue (s : Settings) : Value :=
  .object [("HOST", .str s.host), ("PORT", .int s.port), ("USERNAME", .ofText? s.username),
    ("PASSWORD", .ofText? s.password), ("API_KEY", .ofText? s.apiKey),
    ("REQUEST_TIMEOUT", .ofFloat? s.timeout), ("EXECUTION_MODE", .str s.mode.word),
    ("STRICT_OPERATORS", .bool s.strictOperators), ("DEBUG", .bool s.debug),
    ("LOG_LEVEL", .str s.logLevel), ("LOG_JSON", .bool s.logJson)]

end Settings

/-- Settings of the environment that are read once and kept until they are dropped. -/
structure SettingsCache where
  kept : Option Settings

namespace SettingsCache

def empty : SettingsCache := ⟨none⟩

/-- The kept settings, or those of the environment, which are kept from then on. -/
def get (c : SettingsCache) (e : Environment) : Except Error (Settings × SettingsCache) :=
  match c.kept with
  | some s => .ok (s, c)
  | none => (Settings.read [] e).map fun s => (s, ⟨some s⟩)

def reset (_ : SettingsCache) : SettingsCache := empty

end SettingsCache

end DocSearch
