import DocSearch.Gateway.Basic
import DocSearch.Query.Clause

/-!
# Index managers

A manager administers indices through a gateway. All of its names share a beginning, which keeps the
indices of several managers apart.
-/

namespace DocSearch

/-- Index mappings are given as such; anything else is a value. -/
inductive MappingArgument where
  | mapping (m : IndexMapping)
  | value (v : Value)

structure IndexManager where
  leading : Value

namespace IndexManager

def fullName (m : IndexManager) (name : Value) : Except Error Value :=
  if m.leading.truthy then do return .str ((← m.leading.written) ++ (← name.written))
  else .ok name

/-- A request about an index. There has to be a gateway before its name is looked at. -/
def onIndex (m : IndexManager) (name : Value) (request : Value → Request) :
    Action Exchange Value := do
  Exchange.requireGateway
  Exchange.perform (request (← m.fullName name))

/-- The body that an index is created with: a mapping or a clause is written out, and what does not
count as given is no body. -/
def bodyOf : MappingArgument → Except Error Value
  | .mapping m => m.render
  | .value v => if v.truthy then (Clause.ofValue v).render else .ok .null

def mappingOf : MappingArgument → Except Error IndexMapping
  | .mapping m => .ok m
  | .value v => IndexMapping.ofTypes v

/-- Creates an index, unless it is there and may be there; tells whether it did. -/
def createIndex (m : IndexManager) (name : Value) (mapping : MappingArgument) (existOk : Value) :
    Action Exchange Value := do
  let index ← m.fullName name
  if existOk.truthy then
    if (← Exchange.perform (.indexExists index)).truthy then
      Action.log .debug .index ("Index " ++ index.text ++ " already exists")
      return .bool false
  Exchange.requireGateway
  let _ ← Exchange.perform (.createIndex index (← bodyOf mapping))
  return .bool true

def deleteIndex (m : IndexManager) (name : Value) : Action Exchange Value :=
  m.onIndex name .deleteIndex

def indexExists (m : IndexManager) (name : Value) : Action Exchange Value :=
  m.onIndex name .indexExists

def putMapping (m : IndexManager) (name : Value) (fields : MappingArgument) :
    Action Exchange Value := do
  let mapping ← mappingOf fields
  Exchange.requireGateway
  let index ← m.fullName name
  Exchange.perform (.putMapping index (← mapping.properties))

def upsert (m : IndexManager) (name id document refresh : Value) : Action Exchange Value :=
  m.onIndex name fun i => .indexDocument i id document refresh

def delete (m : IndexManager) (name id refresh : Value) : Action Exchange Value :=
  m.onIndex name fun i => .deleteDocument i id refresh

def bulkUpsert (m : IndexManager) (name : Value) (documents : Iterable) (refresh : Value) :
    Action Exchange Value :=
  m.onIndex name fun i => .bulkIndex i documents refresh

end IndexManager

inductive ManagerCall where
  | createIndex (name : Value) (mapping : MappingArgument) (existOk : Value)
  | deleteIndex (name : Value)
  | indexExists (name : Value)
  | putMapping (name : Value) (fields : MappingArgument)
  | upsert (name id document refresh : Value)
  | delete (name id refresh : Value)
  | bulkUpsert (name : Value) (documents : Iterable) (refresh : Value)

namespace ManagerCall

def apply (m : IndexManager) : ManagerCall → Action Exchange Value
  | createIndex n b e => m.createIndex n b e
  | deleteIndex n => m.deleteIndex n
  | indexExists n => m.indexExists n
  | putMapping n fs => m.putMapping n fs
  | upsert n i d r => m.upsert n i d r
  | delete n i r => m.delete n i r
  | bulkUpsert n ds r => m.bulkUpsert n ds r

open Parameter

/-- The parameter that may hold a mapping, and the others. -/
def parameters? : String → Option (List Parameter)
  | "create_index" =>
    some [required "name", optional "mapping" .null, optional "exist_ok" (.bool true)]
  | "delete_index" => some [required "name"]
  | "index_exists" => some [required "name"]
  | "put_mapping" => some [required "name", required "fields"]
  | "upsert" => some [required "name", required "doc_id", required "document",
      Request.refreshParameter]
  | "delete" => some [required "name", required "doc_id", Request.refreshParameter]
  | "bulk_upsert" => some [required "name", required "documents", Request.refreshParameter]
  | _ => none

/-- `mapping` stands in the place of the argument that may hold one. -/
def ofValues? (mapping : Option IndexMapping) : String → List Value → Option ManagerCall
  | "create_index", [n, b, e] => some (.createIndex n (argument b) e)
  | "delete_index", [n] => some (.deleteIndex n)
  | "index_exists", [n] => some (.indexExists n)
  | "put_mapping", [n, fs] => some (.putMapping n (argument fs))
  | "upsert", [n, i, d, r] => some (.upsert n i d r)
  | "delete", [n, i, r] => some (.delete n i r)
  | "bulk_upsert", [n, ds, r] => some (.bulkUpsert n (.value ds) r)
  | _, _ => none
where
  argument (v : Value) : MappingArgument :=
    (mapping.map MappingArgument.mapping).getD (.value v)

/-- The operation of that name with the given arguments, one of which may be a mapping. -/
def ofArguments? (name : String) (args : Arguments) (mapping : Option IndexMapping) :
    Except Error ManagerCall :=
  match parameters? name with
  | none => .error .noAttribute
  | some ps => do
    match ofValues? mapping name (← args.valuesFor ps) with
    | some c => return c
    | none => throw .noAttribute

end ManagerCall

end DocSearch
