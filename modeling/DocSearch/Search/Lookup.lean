import DocSearch.Value.Access

/-!
# Field names

A field name is a path of parts separated by points and is followed through dictionaries only. Inside
a nested path names may be written in full or relative to the path.
-/

namespace DocSearch

def nameParts (name : String) : List String :=
  (Text.pieces '.' name.toList).map String.ofList

/-- A name without the leading path that it is written under, if it is written in full. -/
def relativeName (pre name : String) : String :=
  ((Text.dropPrefix? pre.toList name.toList).map String.ofList).getD name

@[simp] theorem relativeName_empty (name : String) : relativeName "" name = name := by
  simp [relativeName, Text.dropPrefix?]

namespace Value

/-- What a value has at the end of a path of parts; null if the path leads nowhere. -/
def follow : Value → List String → Value
  | v, [] => v
  | .map .dict es, p :: ps => (fieldD es p .null).follow ps
  | _, _ :: _ => .null

def lookup (doc : Value) (name : String) : Value :=
  doc.follow (nameParts name)

@[simp] theorem follow_nil (v : Value) : v.follow [] = v := by
  cases v <;> rfl

@[simp] theorem follow_dict (es : List (Value × Value)) (p : String) (ps : List String) :
    (dict es).follow (p :: ps) = (fieldD es p .null).follow ps := rfl

/-- The values of a field; the name has to be a text. -/
def fieldValues (doc : Value) (pre : String) (name : Value) : Except Error (List Value) :=
  match name.word? with
  | some s => .ok (doc.lookup (relativeName pre s)).asList
  | none => .error .noAttribute

end Value

end DocSearch
