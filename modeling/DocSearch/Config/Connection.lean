import DocSearch.Config.Field
import DocSearch.Config.Host
import DocSearch.Value.Arguments

/-!
# Connections

The checked parameters of a connection to the cluster. All fields are checked before anything is
refused, except that a host which is no usable address is refused at once; user name and password are
given together or not at all.
-/

namespace DocSearch

structure Connection where
  hosts : List String
  username : Option String
  password : Option String
  apiKey : Option String
  timeout : Option Float

namespace Connection

def given (s : Option String) : Bool :=
  s.any fun t => !t.isEmpty

def basicAuth (c : Connection) : Option (String × String) :=
  match c.username, c.password with
  | some u, some p => if u.isEmpty || p.isEmpty then none else some (u, p)
  | _, _ => none

/-- All hosts in full. An address that cannot be taken apart is a problem of the field. -/
def fullHosts (checks : FieldChecks) (hs : List String) :
    Except Error (Except (List String) (List String)) :=
  if hs.isEmpty then .error (.config .noHosts)
  else match hs.mapM fun h => Host.normalize (.str h) Host.standardPort with
    | .ok full => .ok (.ok full)
    | .error (.fault (.address a)) => .ok (.error ["hosts: " ++ checks.raised a.message])
    | .error e => .error e

/-- The hosts that a connection without any goes to. -/
def standardHosts : List String := ["http://localhost:9200"]

def checkHosts (checks : FieldChecks) (v : Option Value) :
    Except Error (Except (List String) (List String)) :=
  match v with
  | none => .ok (.ok standardHosts)
  | some v =>
    match checks.texts v with
    | .ok hs => fullHosts checks hs
    | .error ps => .ok (.error ps)

/-- A field that is empty when it is not given. -/
def optionalField {α : Type} (read : Value → Field.Checked α) (args : Arguments) (name : String) :
    Field.Checked (Option α) :=
  Field.optional read ((Entries.get? args name).getD .null)

/-- Checks the parameters of a connection; others are passed over. -/
def ofArguments (checks : FieldChecks) (args : Arguments) : Except Error Connection := do
  let hosts ← checkHosts checks (Entries.get? args "hosts")
  let username := optionalField checks.text args "username"
  let password := optionalField checks.text args "password"
  let apiKey := optionalField checks.text args "api_key"
  let timeout := optionalField checks.float args "request_timeout"
  match hosts, username, password, apiKey, timeout with
  | .ok hs, .ok u, .ok p, .ok k, .ok t =>
    if given u == given p then return ⟨hs, u, p, k, t⟩
    else throw (.config .unpairedCredentials)
  | _, _, _, _, _ =>
    let hostProblems := match hosts with
      | .ok _ => []
      | .error ps => ps
    throw (.config (.invalidFields (hostProblems ++ Field.problemsOf "username" username
      ++ Field.problemsOf "password" password ++ Field.problemsOf "api_key" apiKey
      ++ Field.problemsOf "request_timeout" timeout)))

def standard : Connection := ⟨standardHosts, none, none, none, none⟩

end Connection

def Value.ofText? (s : Option String) : Value :=
  (s.map Value.str).getD .null

def Value.ofFloat? (x : Option Float) : Value :=
  (x.map Value.float).getD .null

namespace Connection

def hostList (c : Connection) : Value :=
  .list (c.hosts.map .str)

def authValue (c : Connection) : Value :=
  match c.basicAuth with
  | some (u, p) => .tuple [.str u, .str p]
  | none => .null

def toValue (c : Connection) : Value :=
  .object [("hosts", c.hostList), ("username", .ofText? c.username),
    ("password", .ofText? c.password), ("api_key", .ofText? c.apiKey),
    ("request_timeout", .ofFloat? c.timeout), ("basic_auth", c.authValue)]

end Connection

end DocSearch
