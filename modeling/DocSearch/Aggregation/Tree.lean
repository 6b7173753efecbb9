import DocSearch.Value.Access

/-!
# Declared aggregation trees

A node of an aggregation tree is declared by a node record or by a mapping. A mapping needs a key and a
path, names its type under `field_type` or `type`, and has its children checked with it; the children
of a record are looked at when the record is expanded. `Declared.ofValue` reads a tree and
`Declared.problem?` tells why a declaration is not a node.
-/

namespace DocSearch

/-- A declaration of a node. The children are missing where they cannot be listed. -/
inductive Declared where
  | node (key path fieldType : Value) (children : Option (List Declared))
  | mapping (source : List (Value × Value)) (children : Option (List Declared))
  | other (kindName : String)

namespace Declared

mutual

def ofValue : Value → Declared
  | .record .node [k, p, t, c] => .node k p t (childrenOf c)
  | .map _ es => .mapping es (childrenIn es)
  | v => .other v.kindName

def ofValues : List Value → List Declared
  | [] => []
  | v :: vs => ofValue v :: ofValues vs

/-- The declarations that a value lists. A text lists its characters and a mapping its keys. -/
def childrenOf : Value → Option (List Declared)
  | .seq _ xs => some (ofValues xs)
  | .map _ es => some (es.map fun e => .other e.1.kindName)
  | .str s => some (s.toList.map fun _ => .other "str")
  | .symbol s => some (s.sign.toList.map fun _ => .other "str")
  | _ => none

/-- The children among the entries of a mapping; what does not count as given is no children. -/
def childrenIn : List (Value × Value) → Option (List Declared)
  | [] => some []
  | (k, v) :: es =>
    if k == .str "children" then if v.truthy then childrenOf v else some [] else childrenIn es

end

/-- The type that the entries of a mapping name. -/
def typeIn (es : List (Value × Value)) : Value :=
  Value.fieldD es "field_type" (Value.fieldD es "type" .null)

mutual

def problem? : Declared → Option Error
  | .node _ _ _ _ => none
  | .mapping es cs =>
    if !Value.hasField es "key" then some (.argument (.incompleteNode "key" es))
    else if !Value.hasField es "path" then some (.argument (.incompleteNode "path" es))
    else problemIn? cs
  | .other kind => some (.argument (.notANode kind))

def problemIn? : Option (List Declared) → Option Error
  | none => some .wrongKind
  | some ds => firstProblem? ds

def firstProblem? : List Declared → Option Error
  | [] => none
  | d :: ds =>
    match problem? d with
    | some e => some e
    | none => firstProblem? ds

end

def parts : Declared → Value × Value × Value
  | .node k p t _ => (k, p, t)
  | .mapping es _ => (Value.fieldD es "key" .null, Value.fieldD es "path" .null, typeIn es)
  | .other _ => (.null, .null, .null)

end Declared

namespace Value

mutual

/-- The node record that a declaration stands for; records are kept as they are. -/
def toNode : Value → Value
  | .map _ es =>
    .record .node [fieldD es "key" .null, fieldD es "path" .null, Declared.typeIn es,
      .list (nodesIn es)]
  | v => v

def toNodes : List Value → List Value
  | [] => []
  | v :: vs => toNode v :: toNodes vs

def nodesIn : List (Value × Value) → List Value
  | [] => []
  | (k, v) :: es => if k == .str "children" then nodesOf v else nodesIn es

def nodesOf : Value → List Value
  | .seq _ xs => toNodes xs
  | _ => []

end

def asNode (v : Value) : Except Error Value :=
  match (Declared.ofValue v).problem? with
  | some e => .error e
  | none => .ok v.toNode

end Value

end DocSearch
