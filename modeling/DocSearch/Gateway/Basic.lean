import DocSearch.Gateway.Cluster
import DocSearch.Gateway.Store
import DocSearch.Value.Arguments

/-!
# Gateways

A gateway takes searches, writes and the administration of indices, and hands them to a store in memory
or to a cluster. Requests are the operations that both offer, with all of their arguments.
-/

namespace DocSearch

inductive Gateway where
  | memory (store : Store)
  | cluster (cluster : Cluster)

inductive Request where
  | search (params timeout : Value)
  | indexDocument (index id document refresh : Value)
  | deleteDocument (index id refresh : Value)
  | bulkIndex (index : Value) (documents : Iterable) (refresh : Value)
  | createIndex (index body : Value)
  | deleteIndex (index : Value)
  | indexExists (index : Value)
  | putMapping (index properties : Value)
  | close

namespace Request

def onStore : Request → Action Store Value
  | search p _ => Store.search p
  | indexDocument i k d _ => Store.indexDocument i k d
  | deleteDocument i k _ => Store.deleteDocument i k
  | bulkIndex i ds _ => Store.bulkIndex i ds
  | createIndex i b => Store.createIndex i b
  | deleteIndex i => Store.deleteIndex i
  | indexExists i => Store.indexExists i
  | putMapping i ps => Store.addFields i ps
  | close => Store.close

def onCluster : Request → Action Line Value
  | search p t => Cluster.search p t
  | indexDocument i k d r => Cluster.indexDocument i k d r
  | deleteDocument i k r => Cluster.deleteDocument i k r
  | bulkIndex i ds r => Cluster.bulkIndex i ds r
  | createIndex i b => Cluster.createIndex i b
  | deleteIndex i => Cluster.deleteIndex i
  | indexExists i => Cluster.indexExists i
  | putMapping i ps => Cluster.putMapping i ps
  | close => Cluster.close

open Parameter

def refreshParameter : Parameter := optional "refresh" (.bool false)

def parameters? : String → Option (List Parameter)
  | "search" => some [required "params", optional "timeout" .null]
  | "index_document" =>
    some [required "index", required "doc_id", required "document", refreshParameter]
  | "delete_document" => some [required "index", required "doc_id", refreshParameter]
  | "bulk_index" => some [required "index", required "documents", refreshParameter]
  | "create_index" => some [required "index", optional "body" .null]
  | "delete_index" => some [required "index"]
  | "index_exists" => some [required "index"]
  | "put_mapping" => some [required "index", required "properties"]
  | "close" => some []
  | _ => none

def ofValues? : String → List Value → Option Request
  | "search", [p, t] => some (.search p t)
  | "index_document", [i, k, d, r] => some (.indexDocument i k d r)
  | "delete_document", [i, k, r] => some (.deleteDocument i k r)
  | "bulk_index", [i, ds, r] => some (.bulkIndex i (.value ds) r)
  | "create_index", [i, b] => some (.createIndex i b)
  | "delete_index", [i] => some (.deleteIndex i)
  | "index_exists", [i] => some (.indexExists i)
  | "put_mapping", [i, ps] => some (.putMapping i ps)
  | "close", [] => some .close
  | _, _ => none

def ofArguments? (name : String) (args : Arguments) : Except Error Request :=
  match parameters? name with
  | none => .error .noAttribute
  | some ps => do
    match ofValues? name (← args.valuesFor ps) with
    | some r => return r
    | none => throw .noAttribute

end Request

/-- A gateway, if there is one, and the wire that cluster gateways talk over. -/
structure Exchange where
  gateway : Option Gateway
  wire : Wire

namespace Exchange

def onStore {α : Type} (s : Store) (a : Action Store α) : Action Exchange α :=
  a.within (fun _ => s) fun t x => { x with gateway := some (.memory t) }

def onCluster {α : Type} (c : Cluster) (a : Action Line α) : Action Exchange α :=
  a.within (fun x => ⟨c, x.wire⟩) fun l x =>
    { x with gateway := some (.cluster l.cluster), wire := l.wire }

def requireGateway : Action Exchange Unit := do
  if (← get).gateway.isNone then throw .noAttribute

def perform (r : Request) : Action Exchange Value := do
  match (← get).gateway with
  | none => throw .noAttribute
  | some (.memory s) => onStore s r.onStore
  | some (.cluster c) => onCluster c r.onCluster

/-- The searches that a gateway in memory has recorded. -/
def recorded : Action Exchange Value := do
  match (← get).gateway with
  | some (.memory s) => return .list s.searches
  | _ => throw .noAttribute

/-- The mapping of an index; only gateways in memory tell it. -/
def mapping (index : Value) : Action Exchange Value := do
  match (← get).gateway with
  | some (.memory s) => onStore s (Store.mapping index)
  | _ => throw .noAttribute

end Exchange

end DocSearch
