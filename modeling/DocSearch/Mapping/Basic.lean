import DocSearch.Value.Arguments

/-!
# Mappings

The mapping of an index gives each field a type from a closed vocabulary and, if need be, an analyzer
and fields of its own. A mapping is written in full when the index is created, and as a mapping body
when fields are added later; a body gives each field by the name of its type or in full.
-/

namespace DocSearch

inductive FieldType where
  | text
  | keyword
  | long
  | integer
  | float
  | double
  | boolean
  | date
  | object
  | nested
  | geoPoint
  deriving DecidableEq, Repr

namespace FieldType

def word : FieldType → String
  | text => "text"
  | keyword => "keyword"
  | long => "long"
  | integer => "integer"
  | float => "float"
  | double => "double"
  | boolean => "boolean"
  | date => "date"
  | object => "object"
  | nested => "nested"
  | geoPoint => "geo_point"

def all : List FieldType :=
  [text, keyword, long, integer, float, double, boolean, date, object, nested, geoPoint]

def ofWord? (s : String) : Option FieldType :=
  all.find? (·.word = s)

@[simp] theorem ofWord?_word (t : FieldType) : ofWord? t.word = some t := by
  cases t <;> decide

def ofValue : Value → Except Error FieldType :=
  Value.toWord .fieldType ofWord?

end FieldType

/-- A field as a caller describes it; its type is looked up when it is written. -/
inductive FieldMapping where
  | mk (fieldType analyzer : Value) (properties : List (Value × FieldMapping))
  deriving Inhabited

namespace FieldMapping

mutual

def render : FieldMapping → Except Error Value
  | .mk t a ps => do
    let word := Value.str (← FieldType.ofValue t).word
    let inner ← renderAll ps
    return .object ([("type", word)] ++ (if a.truthy then [("analyzer", a)] else [])
      ++ if inner.isEmpty then [] else [("properties", .dict inner)])

def renderAll : List (Value × FieldMapping) → Except Error (List (Value × Value))
  | [] => .ok []
  | (name, f) :: fs => do
    let v ← render f
    return (name, v) :: (← renderAll fs)

end

end FieldMapping

/-- The fields of an index and how it is spread. -/
structure IndexMapping where
  fields : List (Value × FieldMapping)
  shards : Value
  replicas : Value

namespace IndexMapping

def empty : IndexMapping := ⟨[], .null, .null⟩

/-- Describes one more field; its type has to be in the vocabulary. -/
def addField (m : IndexMapping) (name fieldType analyzer : Value)
    (properties : List (Value × FieldMapping)) : Except Error IndexMapping := do
  let t ← FieldType.ofValue fieldType
  let n ← name.asKey
  return { m with fields := Entries.put m.fields n (.mk (.str t.word) analyzer properties) }

/-- The mapping of a table of field names and types. -/
def ofTypes (types : Value) : Except Error IndexMapping := do
  (← types.entries).foldlM (fun m e => m.addField e.1 e.2 .null []) empty

def properties (m : IndexMapping) : Except Error Value :=
  (FieldMapping.renderAll m.fields).map .dict

def settings (m : IndexMapping) : List (String × Value) :=
  (if m.shards.isNull then [] else [("number_of_shards", m.shards)])
    ++ if m.replicas.isNull then [] else [("number_of_replicas", m.replicas)]

/-- Documents are kept along with their fields. -/
def sourceEnabled : Value := .object [("enabled", .bool true)]

/-- The body that an index is created with. -/
def render (m : IndexMapping) : Except Error Value := do
  let mappings := Value.object [("_source", sourceEnabled), ("properties", ← m.properties)]
  return .object ([("mappings", mappings)]
    ++ if m.settings.isEmpty then [] else [("settings", .object [("index", .object m.settings)])])

end IndexMapping

namespace Mapping

/-- A field given by the name of its type, or in full. -/
def fieldBody (v : Value) : Except Error Value :=
  if v.word?.isSome then .ok (.object [("type", v)]) else v.toEntries.map .dict

def bodyFields (properties : Value) : Except Error (List (Value × Value)) := do
  (← properties.entries).mapM fun e => do return (e.1, ← fieldBody e.2)

/-- The body that adds fields to an index. -/
def body (properties : Value) : Except Error Value := do
  return .object [("_source", IndexMapping.sourceEnabled),
    ("properties", .dict (← bodyFields properties))]

end Mapping

end DocSearch
