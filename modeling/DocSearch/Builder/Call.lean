import DocSearch.Builder.Basic
import DocSearch.Query.Composition
import DocSearch.Value.Arguments

/-!
# Calls on builders

A call is one of the operations that change a document, with all of its arguments. `Call.apply` is what
it does to a builder and `Call.ofArguments?` reads a call that is given by name.
-/

namespace DocSearch

inductive Call where
  | setIndex (index : Value)
  | limit (size : Value)
  | paginate (size page : Value)
  | orderBy (orders direction : Value)
  | addWhere (field value operator queryType : Value)
  | whereNull (field isNull : Value)
  | keywords (keywords : Iterable) (fields : Value)
  | minShouldMatch (count : Value)
  | minScore (score : Value)
  | highlight (fields cssClass : Value)
  | whereNested (path field value logic queryType : Value) (registration : Registration)
  | whereNestedRaw (path query logic : Value) (registration : Registration)
  | aggregate (nodes : Value)
  | functions (scoreMode boostMode : Value)

namespace Call

def apply : Call → Action Builder Unit
  | setIndex i => Builder.setIndex i
  | limit s => Builder.limit s
  | paginate s p => Builder.paginate s p
  | orderBy o d => Builder.orderBy o d
  | addWhere f v o t => Builder.addWhere f v o t
  | whereNull f n => Builder.whereNull f n
  | keywords ks fs => Builder.keywords ks fs
  | minShouldMatch n => Builder.minShouldMatch n
  | minScore s => Builder.minScore s
  | highlight fs c => Builder.highlight fs c
  | whereNested p f v l t r => Builder.whereNested p f v l t r
  | whereNestedRaw p q l r => Builder.whereNestedRaw p q l r
  | aggregate ns => Builder.aggregate ns
  | functions s b => Builder.functions s b

/-- Calls that add or change clauses; they are refused once the query is wrapped. -/
def isClause : Call → Bool
  | addWhere _ _ _ _ | whereNull _ _ | keywords _ _ | minShouldMatch _ => true
  | whereNested _ _ _ _ _ _ | whereNestedRaw _ _ _ _ => true
  | setIndex _ | limit _ | paginate _ _ | orderBy _ _ | minScore _ | highlight _ _ => false
  | aggregate _ | functions _ _ => false

open Parameter

def pageParameters : List Parameter :=
  Page.parameters

def logicParameter : Parameter :=
  optional "logic" (.symbol (.logic .or))

def registrationParameters : List Parameter :=
  Composition.registrationParameters

def queryTypeParameter : Parameter :=
  optional "query_type" (.str "term")

def parameters? : String → Option (List Parameter)
  | "set_index" => some [required "index"]
  | "limit" => some [required "size"]
  | "paginate" => some pageParameters
  | "order_by" => some [optional "orders" .null, optional "direction" (.str "desc")]
  | "where" => some [required "field", required "value",
      optional "operator" (.symbol (.operator .equalTo)), queryTypeParameter]
  | "where_null" => some [required "field", optional "is_null" (.bool true)]
  | "keywords" => some [required "keywords", required "fields"]
  | "min_should_match" => some [optional "count" (.int 1)]
  | "min_score" => some [optional "score" (.float 0)]
  | "highlight" => some [required "fields", required "css_class"]
  | "where_nested" => some ([required "path", required "field", required "value", logicParameter,
      queryTypeParameter] ++ registrationParameters)
  | "where_nested_raw" =>
    some ([required "path", required "query", logicParameter] ++ registrationParameters)
  | "aggregate" => some [required "nodes"]
  | "functions" => some [optional "score_mode" (.str "sum"), optional "boost_mode" (.str "replace")]
  | _ => none

def ofValues? : String → List Value → Option Call
  | "set_index", [i] => some (.setIndex i)
  | "limit", [s] => some (.limit s)
  | "paginate", [s, p] => some (.paginate s p)
  | "order_by", [o, d] => some (.orderBy o d)
  | "where", [f, v, o, t] => some (.addWhere f v o t)
  | "where_null", [f, n] => some (.whereNull f n)
  | "keywords", [ks, fs] => some (.keywords (.value ks) fs)
  | "min_should_match", [n] => some (.minShouldMatch n)
  | "min_score", [s] => some (.minScore s)
  | "highlight", [fs, c] => some (.highlight fs c)
  | "where_nested", [p, f, v, l, t, a, w] => some (.whereNested p f v l t ⟨a, w⟩)
  | "where_nested_raw", [p, q, l, a, w] => some (.whereNestedRaw p q l ⟨a, w⟩)
  | "aggregate", [ns] => some (.aggregate ns)
  | "functions", [s, b] => some (.functions s b)
  | _, _ => none

def ofArguments? (name : String) (args : Arguments) : Except Error Call :=
  match parameters? name with
  | none => .error .noAttribute
  | some ps => do
    match ofValues? name (← args.valuesFor ps) with
    | some c => return c
    | none => throw .noAttribute

end Call

/-- Applies calls one after the other, going on after those that fail. -/
def Builder.runCalls (b : Builder) (cs : List Call) : Builder :=
  cs.foldl (fun b c => (c.apply.run b).state) b

end DocSearch
