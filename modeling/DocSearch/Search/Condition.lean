import DocSearch.Search.Lookup

/-!
# Conditions

A condition is what a query body asks of a document. `Condition.ofValue` reads a body: the first kind of
query that it has an entry for decides, and a body without any is met by every document. A part that
cannot be read is a fault that shows when a document is held against it.
-/

namespace DocSearch

inductive Test where
  | equals (expected : Value)
  /-- The text of one of them has the expected text in it, in any case. -/
  | resembles (expected : Value)
  | among (pool : Value)

inductive Condition where
  | all
  | fault (e : Error)
  | fields (tests : List (Value × Test))
  /-- The text of a value of one of the fields has the needle in it, in any case. -/
  | anyField (needle : Value) (fields : List Value)
  | present (field : Value)
  | nested (path : String) (inner : Condition)
  /-- Of the optional conditions at least the required number has to hold, if there are any. -/
  | bool (must filter mustNot should : List Condition) (required : Except Error Int)

namespace Condition

/-- What a field has to equal or resemble; a dictionary has it under `value` or `query`. -/
def expected : Value → Value
  | .map .dict es => Value.fieldD es "value" (Value.fieldD es "query" .null)
  | v => v

def tests (make : Value → Test) (v : Value) : Condition :=
  match v with
  | .map _ es => .fields (es.map fun e => (e.1, make e.2))
  | _ => .fault .noAttribute

def multiMatch (v : Value) : Condition :=
  match v with
  | .map _ es =>
    let needle := Value.fieldD es "query" (.str "")
    match needle.written, (Value.fieldD es "fields" (.list [])).items with
    | .ok _, .ok fs => .anyField needle fs
    | .error e, _ | _, .error e => .fault e
  | _ => .fault .noAttribute

def existence (v : Value) : Condition :=
  match v.part "field" with
  | .ok f => .present f
  | .error e => .fault e

/-- The conditions without parts of their own. -/
def leaf? (es : List (Value × Value)) : Option Condition :=
  ((Value.field? es "term").map (tests fun v => .equals (expected v))).or <|
  ((Value.field? es "match").map (tests fun v => .resembles (expected v))).or <|
  ((Value.field? es "terms").map (tests .among)).or <|
  ((Value.field? es "multi_match").map multiMatch).or <|
  (Value.field? es "exists").map existence

/-- How many optional conditions have to hold: what is given, or one unless there are others. -/
def required (es : List (Value × Value)) : Except Error Int :=
  match Value.fieldD es "minimum_should_match" .null with
  | .null =>
    let others := (Value.fieldD es "must" .null).truthy || (Value.fieldD es "filter" .null).truthy
    .ok (if others then 0 else 1)
  | v => v.toInt

/-- The kinds of query, most decisive first. -/
def kinds : List String :=
  ["function_score", "term", "match", "terms", "multi_match", "exists", "nested", "bool"]

/-- A body that is no mapping: it may name kinds of query, but has nothing under their names. -/
def nameless (named : String → Bool) : Condition :=
  if named "match_all" then .all else if kinds.any named then .fault .wrongKind else .all

mutual

def ofValue : Value → Condition
  | .map _ es =>
    if Value.hasField es "match_all" then .all
    else ((envelopeIn es).or <| (leaf? es).or <| (nestedIn es).or (boolIn es)).getD .all
  | .seq _ xs => nameless fun w => xs.any (· == .str w)
  | .str s => nameless fun w => Text.occursIn w.toList s.toList
  | .symbol s => nameless fun w => Text.occursIn w.toList s.sign.toList
  | _ => .fault .wrongKind

def ofValues : List Value → List Condition
  | [] => []
  | v :: vs => ofValue v :: ofValues vs

def conditionIn (name : String) : List (Value × Value) → Option Condition
  | [] => none
  | (k, v) :: es => if k == .str name then some (ofValue v) else conditionIn name es

def itemsOf : Value → List Condition
  | .seq _ xs => ofValues xs
  | _ => []

/-- The conditions listed under a name; one alone need not be listed. -/
def conditionsIn (name : String) : List (Value × Value) → List Condition
  | [] => []
  | (k, v) :: es =>
    if k == .str name then
      if v.isListing then itemsOf v else [ofValue v]
    else conditionsIn name es

def envelopeIn : List (Value × Value) → Option Condition
  | [] => none
  | (k, v) :: es =>
    if k == .str "function_score" then
      some (match v with
        | .map _ fs => (conditionIn "query" fs).getD .all
        | _ => .fault .noAttribute)
    else envelopeIn es

def nestedIn : List (Value × Value) → Option Condition
  | [] => none
  | (k, v) :: es =>
    if k == .str "nested" then
      some (match v with
        | .map _ fs =>
          match (Value.field? fs "path").map Value.word? with
          | some (some path) => .nested path ((conditionIn "query" fs).getD .all)
          | some none => .fault .noAttribute
          | none => .fault .noKey
        | _ => .fault .wrongKind)
    else nestedIn es

def boolIn : List (Value × Value) → Option Condition
  | [] => none
  | (k, v) :: es =>
    if k == .str "bool" then
      some (match v with
        | .map _ fs =>
          .bool (conditionsIn "must" fs) (conditionsIn "filter" fs) (conditionsIn "must_not" fs)
            (conditionsIn "should" fs) (required fs)
        | _ => .fault .noAttribute)
    else boolIn es

end

theorem ofValues_eq_map (vs : List Value) : ofValues vs = vs.map ofValue := by
  induction vs with
  | nil => rfl
  | cons v vs ih => simp [ofValues, ih]

theorem conditionIn_eq (name : String) (es : List (Value × Value)) :
    conditionIn name es = (Value.field? es name).map ofValue := by
  induction es with
  | nil => rfl
  | cons e es ih =>
    obtain ⟨k, v⟩ := e
    simp only [conditionIn, Value.field?, Entries.get?_cons] at ih ⊢
    split <;> simp [ih]

theorem listed_eq (v : Value) :
    (if v.isListing then itemsOf v else [ofValue v]) = v.asList.map ofValue := by
  cases v with
  | seq k xs => cases k <;> simp [Value.isListing, itemsOf, ofValues_eq_map, Value.asList]
  | _ => simp [Value.isListing, itemsOf, Value.asList]

theorem conditionsIn_eq (name : String) (es : List (Value × Value)) :
    conditionsIn name es = (Value.fieldD es name .null).asList.map ofValue := by
  induction es with
  | nil => rfl
  | cons e es ih =>
    obtain ⟨k, v⟩ := e
    simp only [conditionsIn, Value.fieldD, Value.field?, Entries.get?_cons] at ih ⊢
    split
    · exact listed_eq v
    · exact ih

end Condition

end DocSearch
