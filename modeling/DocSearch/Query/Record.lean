import DocSearch.Query.Clause
import DocSearch.Value.Arguments

/-!
# Records by name

Clauses, scoring functions, score settings and aggregation nodes are made from named arguments. The
result is the record that a value holds; what is not given takes its standard value.
-/

namespace DocSearch.RecordKind

open Parameter

/-- The parameters that a record is made from, in the order of its fields. -/
def parameters : RecordKind → List Parameter
  | node => [required "key", required "path", optional "field_type" .null,
      optional "children" (.list [])]
  | term => [required "field", required "value", optional "query_type" (.str "term")]
  | multiMatch => [required "query", required "fields", optional "type" .null]
  | existence => [required "field"]
  | raw => [required "body"]
  | nested => [required "path", required "query", optional "score_mode" .null]
  | bool => [optional "filter" (.list []), optional "must" (.list []),
      optional "must_not" (.list []), optional "should" (.list []),
      optional "minimum_should_match" .null]
  | functionScore => [required "query", optional "functions" (.list []),
      optional "settings" (.record .scoreSettings [.str "sum", .str "replace"])]
  | scoreFunction => [required "filter", optional "weight" standardWeight]
  | scoreSettings => [optional "score_mode" (.str "sum"), optional "boost_mode" (.str "replace")]
  | abstractClause => []
  | response => [required "body"]

/-- Whether the fields of a record may have the given values. -/
def check (k : RecordKind) (fields : List Value) : Except Error Unit :=
  match k, fields with
  | scoreSettings, [s, b] => (ScoreSettings.ofValues s b).map fun _ => ()
  | _, _ => .ok ()

def make (k : RecordKind) (args : Arguments) : Except Error Value := do
  let fields ← args.valuesFor k.parameters
  k.check fields
  return .record k fields

def ofWord? : String → Option RecordKind
  | "term" => some term
  | "multi_match" => some multiMatch
  | "exists" => some existence
  | "raw" => some raw
  | "nested" => some nested
  | "bool" => some bool
  | "function_score" => some functionScore
  | "base" => some abstractClause
  | _ => none

end DocSearch.RecordKind
