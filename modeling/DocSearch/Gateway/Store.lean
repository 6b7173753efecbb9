import DocSearch.Action.Basic
import DocSearch.Mapping.Basic
import DocSearch.Search.Basic
import DocSearch.Value.Iterable

/-!
# The store

A store keeps documents in memory: for each index its documents in the order of their first arrival,
its mapping if it has one, and a record of all searches. Writing to an index that is not there makes
it; what an operation has done before it fails stays done.
-/

namespace DocSearch

structure Store where
  indices : List (Value × List (Value × Value))
  mappings : List (Value × Value)
  /-- The searches that were asked for, in order. -/
  searches : List Value

namespace Store

def empty : Store := ⟨[], [], []⟩

def documents (s : Store) (index : Value) : List (Value × Value) :=
  (Entries.get? s.indices index).getD []

/-- The index, made if it is not there. -/
def ensureIndex (index : Value) (s : Store) : Store :=
  if Entries.has s.indices index then s
  else { s with indices := Entries.put s.indices index [] }

def putDocument (index id doc : Value) (s : Store) : Store :=
  { s with indices := Entries.put s.indices index (Entries.put (s.documents index) id doc) }

def putMapping (index mapping : Value) (s : Store) : Store :=
  { s with mappings := Entries.put s.mappings index mapping }

def search (params : Value) : Action Store Value := do
  let recorded ← params.copy
  modify fun s => { s with searches := s.searches ++ [recorded] }
  let index ← params.part "index"
  let body ← params.partD "body" (.dict [])
  let _ ← body.entries
  let answer : Search.Answer Float ← Search.run ((← get).documents (← index.asKey)) body
  return answer.toValue index

def documentReport (index id : Value) (result : String) : Value :=
  .object [("_index", index), ("_id", id), ("result", .str result)]

/-- Writes a document, in place of the one that has the identifier. -/
def indexDocument (index id document : Value) : Action Store Value := do
  let i ← index.asKey
  modify (ensureIndex i)
  let k ← id.asKey
  let created := !Entries.has ((← get).documents i) k
  let doc ← document.copy
  modify (putDocument i k doc)
  return documentReport index id (if created then "created" else "updated")

def deleteDocument (index id : Value) : Action Store Value := do
  let i ← index.asKey
  if Entries.has (← get).indices i then
    let k ← id.asKey
    if Entries.has ((← get).documents i) k then
      modify fun s =>
        { s with indices := Entries.put s.indices i (Entries.erase (s.documents i) k) }
      return documentReport index id "deleted"
  return documentReport index id "not_found"

def indexAll (index : Value) : List Value → Action Store Unit
  | [] => pure ()
  | pair :: pairs => do
    let (id, doc) ← pair.toPair
    let _ ← indexDocument index id doc
    indexAll index pairs

/-- Writes documents one after the other and counts them at the end; there are no failures to report
besides the first one. -/
def bulkIndex (index : Value) (documents : Iterable) : Action Store Value := do
  let (pairs, stop) ← documents.handOut
  indexAll index pairs
  Iterable.finish stop
  return .tuple [.int (← documents.size), .list []]

def acknowledged (more : List (String × Value)) : Value :=
  .object (("acknowledged", .bool true) :: more)

/-- Makes an index; a body that has mappings gives it one. -/
def createIndex (index body : Value) : Action Store Value := do
  let i ← index.asKey
  modify (ensureIndex i)
  if body.truthy then
    if ← body.holds (.str "mappings") then
      let m ← (← body.part "mappings").copy
      modify (putMapping i m)
  return acknowledged [("index", index)]

/-- There is nothing to look for in a store without indices. -/
def isEmpty (s : Store) : Bool :=
  s.indices.isEmpty && s.mappings.isEmpty

def deleteIndex (index : Value) : Action Store Value := do
  if !(← get).isEmpty then
    let i ← index.asKey
    modify fun s =>
      { s with indices := Entries.erase s.indices i, mappings := Entries.erase s.mappings i }
  return acknowledged []

def indexExists (index : Value) : Action Store Value := do
  return .bool (Entries.has (← get).indices (← index.asKey))

/-- The entries of a mapping that fields can be added to. -/
def mappingEntries : Value → Except Error (List (Value × Value))
  | .map .dict es => .ok es
  | _ => .error .wrongKind

def mergeFields (fields : List (Value × Value)) : Value → Except Error Value
  | .map .dict es => .ok (.dict (Entries.putAll es fields))
  | .seq .set xs => .ok (.seq .set (Value.distinct (xs ++ Entries.keys fields)))
  | _ => .error .noAttribute

def addFields (index properties : Value) : Action Store Value := do
  let i ← index.asKey
  modify (ensureIndex i)
  let current := (Entries.get? (← get).mappings i).getD (.object [("properties", .dict [])])
  modify (putMapping i current)
  let fields ← Mapping.bodyFields properties
  let es ← mappingEntries current
  let es := Entries.put es (.str "_source") IndexMapping.sourceEnabled
  let es := if Value.hasField es "properties" then es
    else Entries.put es (.str "properties") (.dict [])
  modify (putMapping i (.dict es))
  let merged ← mergeFields fields (Value.fieldD es "properties" .null)
  modify (putMapping i (.dict (Entries.put es (.str "properties") merged)))
  return acknowledged []

def mapping (index : Value) : Action Store Value := do
  let m := (Entries.get? (← get).mappings (← index.asKey)).getD (.dict [])
  return ← m.copy

/-- Forgets all indices; the record of searches stays. -/
def close : Action Store Value := do
  modify fun s => { s with indices := [], mappings := [] }
  return .null

end Store

end DocSearch
