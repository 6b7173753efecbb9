import DocSearch.Aggregation.Tree
import DocSearch.Action.Basic
import DocSearch.Value.Arguments

/-!
# Aggregations

A declared tree expands into buckets: every node opens the objects of its path and, if it has a type,
aggregates its field there; its children go below the field if it has a type and below the path
otherwise. A node has a key and a path, a node whose type yields a single value has no children, and
siblings have different keys.
-/

namespace DocSearch

inductive Aggregation where
  | nested (name path : Value) (children : List Aggregation)
  | field (name kind : Value) (fieldName : String) (children : List Aggregation)

namespace Aggregation

def name : Aggregation → Value
  | nested n _ _ => n
  | field n _ _ _ => n

def metrics : List String :=
  ["avg", "sum", "min", "max", "stats", "extended_stats", "cardinality", "value_count",
    "percentiles"]

/-- Whether a value names a type that yields a single value; it has to be one that a set can hold. -/
def isMetric (t : Value) : Except Error Bool :=
  (t.memberOf fun s => if metrics.contains s then some s else none).map Option.isSome

def fieldNameOf (key path : Value) : Except Error String := do
  return (← path.written) ++ "." ++ (← key.written)

theorem fieldNameOf_str (key path : String) :
    fieldNameOf (.str key) (.str path) = .ok (path ++ "." ++ key) := rfl

/-- The aggregation of a node whose children are expanded. -/
def assemble (key path kind : Value) (children : List Aggregation) : Except Error Aggregation :=
  if kind.truthy then do
    let field ← fieldNameOf key path
    if !children.isEmpty then
      if ← isMetric kind then throw (.refusing (.metricWithChildren kind key))
    return .nested key path [.field key kind field children]
  else
    return .nested key path children

def requireNames (key path : Value) : Except Error Unit :=
  if key.truthy && path.truthy then .ok () else .error (.argument (.blankNode key path))

mutual

def expand : Declared → Except Error Aggregation
  | .node k p t cs => do
    requireNames k p
    assemble k p t (← expandChildren cs)
  | .mapping es cs => do
    if let some e := (Declared.mapping es cs).problem? then throw e
    let k := Value.fieldD es "key" .null
    let p := Value.fieldD es "path" .null
    requireNames k p
    assemble k p (Declared.typeIn es) (← expandChildren cs)
  | .other kind => .error (.argument (.notANode kind))

def expandChildren : Option (List Declared) → Except Error (List Aggregation)
  | none => .error .wrongKind
  | some ds => expandAll ds

def expandAll : List Declared → Except Error (List Aggregation)
  | [] => .ok []
  | d :: ds => do
    let a ← expand d
    return a :: (← expandAll ds)

end

mutual

def render : Aggregation → Except Error (List (Value × Value))
  | .nested _ p cs => do
    let head := [(.str "nested", Value.object [("path", p)])]
    if cs.isEmpty then return head
    return Entries.put head (.str "aggs") (.dict (← mergeInto [] cs))
  | .field _ t f cs => do
    let head := [(← t.asKey, Value.object [("field", .str f)])]
    if cs.isEmpty then return head
    return Entries.put head (.str "aggs") (.dict (← mergeInto [] cs))

/-- Adds the bodies of siblings to what is there, each under its name. -/
def mergeInto (merged : List (Value × Value)) :
    List Aggregation → Except Error (List (Value × Value))
  | [] => .ok merged
  | a :: as => do
    let n ← a.name.asKey
    if Entries.has merged n then throw (.refusing (.duplicateKey n))
    mergeInto (Entries.put merged n (.dict (← render a))) as

end

def toValue (a : Aggregation) : Except Error Value := do
  a.name.entry (.dict (← a.render))

def document (ds : List Declared) : Except Error (List (Value × Value)) := do
  mergeInto [] (← expandAll ds)

def documentOf (nodes : Value) : Except Error (List (Value × Value)) :=
  match Declared.childrenOf nodes with
  | some ds => document ds
  | none => .error .wrongKind

end Aggregation

/-- A collection of nodes that becomes one document. -/
abbrev Forest := List Value

namespace Forest

def collect (v : Value) : Action Forest Unit := do
  let n ← v.asNode
  modify (· ++ [n])

def add : List Value → Action Forest Unit
  | [] => pure ()
  | v :: vs => do
    collect v
    add vs

/-- Collects a node given by its parts; its children are checked first. -/
def node (key path fieldType children : Value) : Action Forest Unit := do
  let cs := if children.truthy then Declared.childrenOf children else some []
  match Declared.problemIn? cs with
  | some e => throw e
  | none => add [.record .node [key, path, fieldType, .list children.nodesOf]]

open Parameter in
def parameters : List Parameter :=
  [required "key", required "path", optional "field_type" .null, optional "children" .null]

def nodeWith (args : Arguments) : Action Forest Unit := do
  match ← args.valuesFor parameters with
  | [k, p, t, c] => node k p t c
  | _ => throw .wrongKind

def build (f : Forest) : Except Error Value :=
  (Aggregation.documentOf (.list f)).map .dict

end Forest

end DocSearch
