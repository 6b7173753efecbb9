import DocSearch.Config.Settings
import DocSearch.Gateway.Wire
import DocSearch.Mapping.Basic
import DocSearch.Value.Iterable

/-!
# The cluster gateway

A gateway to a search cluster. It constructs a client with the first operation that finds none open,
passes every operation on to the open client, and closes it on demand. What the client raises is raised
again; failures of the cluster are logged first.
-/

namespace DocSearch

structure Cluster where
  connection : Connection
  /-- The number of the client that is open. -/
  client : Option Nat

/-- A cluster gateway and the wire that it talks over. -/
structure Line where
  cluster : Cluster
  wire : Wire

namespace Cluster

def overWire {α : Type} (a : Action Wire α) : Action Line α :=
  a.within Line.wire fun w l => { l with wire := w }

def setClient (c : Option Nat) : Action Line Unit :=
  modify fun l => { l with cluster := { l.cluster with client := c } }

/-- The key if there is one, else user name and password if both are given. -/
def credentials (c : Connection) : List (String × Value) :=
  if Connection.given c.apiKey then [("api_key", .ofText? c.apiKey)]
  else if c.basicAuth.isSome then [("basic_auth", c.authValue)]
  else []

def clientArguments (c : Connection) : List (String × Value) :=
  [("hosts", c.hostList)] ++ credentials c
    ++ (c.timeout.map fun t => ("request_timeout", .float t)).toList

def connect : Action Line Nat := do
  let l ← get
  let n := l.wire.opened
  let _ ← overWire (Wire.ask n .connect (clientArguments l.cluster.connection))
  overWire (modify fun w => { w with opened := n + 1 })
  setClient (some n)
  Action.log .info .client
    ("Connected to Elasticsearch at " ++ l.cluster.connection.hostList.text)
  return n

/-- The open client; one is constructed if there is none. -/
def openClient : Action Line Nat := do
  match (← get).cluster.client with
  | some n => return n
  | none => connect

/-- Logs a failure of the cluster before it is raised again. -/
def guarded {α : Type} (what : String) (a : Action Line α) : Action Line α :=
  a.recover fun e => do
    if let .client f := e then Action.log .error .client (what ++ ": " ++ f.text)
    throw e

/-- Whether a write waits until searches show it. -/
def refreshValue (refresh : Value) : Value :=
  if refresh.truthy then .str "wait_for" else .bool false

def search (params timeout : Value) : Action Line Value := do
  let c ← openClient
  if !timeout.isNull then
    let _ ← overWire (Wire.ask c .options [("request_timeout", timeout)])
  let index := (params.part "index").toOption.getD .null
  guarded ("Search error on " ++ index.text) do
    let arguments := [("index", ← params.part "index"), ("body", ← params.part "body")]
    overWire (Wire.ask c .search arguments)

def indexDocument (index id document refresh : Value) : Action Line Value := do
  let c ← openClient
  guarded ("Index error for " ++ index.text ++ "/" ++ id.text) <|
    overWire (Wire.ask c .index [("index", index), ("id", id), ("document", document),
      ("refresh", refreshValue refresh)])

def deleteDocument (index id refresh : Value) : Action Line Value := do
  let c ← openClient
  guarded ("Delete error for " ++ index.text ++ "/" ++ id.text) <|
    overWire (Wire.ask c .delete [("index", index), ("id", id), ("refresh", refreshValue refresh)])

def bulkAction (index pair : Value) : Except Error Value := do
  let (id, document) ← pair.toPair
  return .object [("_op_type", .str "index"), ("_index", index), ("_id", id),
    ("_source", document)]

def bulkActions (index : Value) (documents : Iterable) : Except Error (List Value) := do
  let (pairs, stop) ← documents.handOut
  let actions ← pairs.mapM (bulkAction index)
  Iterable.finish stop
  return actions

def bulkIndex (index : Value) (documents : Iterable) (refresh : Value) :
    Action Line Value := do
  let c ← openClient
  let actions ← bulkActions index documents
  let answer ← overWire (Wire.ask c .bulk [("actions", .list actions),
    ("refresh", refreshValue refresh), ("raise_on_error", .bool false)])
  let (success, errors) ← answer.toPair
  if errors.truthy then
    Action.log .warning .client ("Bulk index into " ++ index.text ++ ": "
      ++ toString (← (Iterable.value errors).size) ++ " item error(s)")
  return .tuple [success, match errors with | .seq .list es => .list es | _ => .list []]

def createIndex (index body : Value) : Action Line Value := do
  let c ← openClient
  guarded ("Create index error for " ++ index.text) do
    let answer ← overWire (Wire.ask c .createIndex [("index", index), ("body", body)])
    Action.log .info .client ("Created index: " ++ index.text)
    return answer

def deleteIndex (index : Value) : Action Line Value := do
  let c ← openClient
  guarded ("Delete index error for " ++ index.text) do
    let answer ← overWire (Wire.ask c .deleteIndex [("index", index)])
    Action.log .info .client ("Deleted index: " ++ index.text)
    return answer

def indexExists (index : Value) : Action Line Value := do
  let c ← openClient
  return .bool (← overWire (Wire.ask c .indexExists [("index", index)])).truthy

def putMapping (index properties : Value) : Action Line Value := do
  let c ← openClient
  guarded ("Put mapping error for " ++ index.text) do
    let body ← Mapping.body properties
    let answer ← overWire (Wire.ask c .putMapping [("index", index), ("body", body)])
    Action.log .info .client ("Updated mapping for index: " ++ index.text)
    return answer

def close : Action Line Value := do
  if let some c := (← get).cluster.client then
    let _ ← overWire (Wire.ask c .close [])
    setClient none
  return .null

end Cluster

end DocSearch
