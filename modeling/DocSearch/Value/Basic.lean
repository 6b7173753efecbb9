import DocSearch.Dispatch
import DocSearch.Number.Basic

/-!
# Values

Documents, query bodies and the arguments of callers are trees of values: scalars, sequences,
mappings with ordered entries, members of the dispatch tables, and records such as a declared
aggregation node or a clause that was built before. A sequence is a list, a tuple or one of two kinds of
set; a mapping is a dictionary or a read-only view of one.
-/

namespace DocSearch

inductive SeqKind where
  | list
  | tuple
  | set
  | frozenset
  deriving DecidableEq, Repr

inductive MapKind where
  | dict
  | view
  deriving DecidableEq, Repr

inductive RecordKind where
  | node
  | term
  | multiMatch
  | existence
  | raw
  | nested
  | bool
  | functionScore
  | scoreFunction
  | scoreSettings
  | abstractClause
  | response
  deriving DecidableEq, Repr

inductive Value where
  | null
  | bool (b : Bool)
  | int (n : Int)
  | float (x : Float)
  | str (s : String)
  | symbol (s : Symbol)
  | seq (kind : SeqKind) (items : List Value)
  | map (kind : MapKind) (entries : List (Value × Value))
  | record (kind : RecordKind) (fields : List Value)
  deriving Inhabited

namespace SeqKind

def isSet : SeqKind → Bool
  | set | frozenset => true
  | list | tuple => false

def name : SeqKind → String
  | list => "list"
  | tuple => "tuple"
  | set => "set"
  | frozenset => "frozenset"

/-- The immutable kind that holds the same items. -/
def frozen : SeqKind → SeqKind
  | list | tuple => tuple
  | set | frozenset => frozenset

@[simp] theorem frozen_frozen (k : SeqKind) : k.frozen.frozen = k.frozen := by
  cases k <;> rfl

end SeqKind

def MapKind.name : MapKind → String
  | .dict => "dict"
  | .view => "mappingproxy"

namespace RecordKind

def name : RecordKind → String
  | node => "AggregationNode"
  | term => "TermQuery"
  | multiMatch => "MultiMatchQuery"
  | existence => "ExistsQuery"
  | raw => "RawQuery"
  | nested => "NestedQuery"
  | bool => "BoolQuery"
  | functionScore => "FunctionScoreQuery"
  | scoreFunction => "ScoreFunction"
  | scoreSettings => "FunctionScoreSettings"
  | abstractClause => "Query"
  | response => "Response"

def fieldNames : RecordKind → List String
  | node => ["key", "path", "field_type", "children"]
  | term => ["field", "value", "query_type"]
  | multiMatch => ["query", "fields", "type"]
  | existence => ["field"]
  | raw => ["body"]
  | nested => ["path", "query", "score_mode"]
  | bool => ["filter", "must", "must_not", "should", "minimum_should_match"]
  | functionScore => ["query", "functions", "settings"]
  | scoreFunction => ["filter", "weight"]
  | scoreSettings => ["score_mode", "boost_mode"]
  | abstractClause => []
  | response => ["body"]

def isClause : RecordKind → Bool
  | term | multiMatch | existence | raw | nested | bool | functionScore | abstractClause => true
  | node | scoreFunction | scoreSettings | response => false

/-- Records of these kinds show their fields in their texts. -/
def showsFields : RecordKind → Bool
  | abstractClause | response => false
  | _ => true

/-- Records of these kinds never change, so they can be keys if their fields can. -/
def isConstant : RecordKind → Bool
  | term | multiMatch | existence | raw | nested | scoreFunction | scoreSettings => true
  | node | bool | functionScore | abstractClause | response => false

end RecordKind

namespace Value

abbrev list (xs : List Value) : Value := .seq .list xs

abbrev tuple (xs : List Value) : Value := .seq .tuple xs

abbrev dict (es : List (Value × Value)) : Value := .map .dict es

/-- A dictionary whose keys are words. -/
def object (es : List (String × Value)) : Value :=
  .map .dict (es.map fun e => (.str e.1, e.2))

/-- The kind of a value as it is spelled in texts. -/
def kindName : Value → String
  | .null => "NoneType"
  | .bool _ => "bool"
  | .int _ => "int"
  | .float _ => "float"
  | .str _ => "str"
  | .symbol s => s.className
  | .seq k _ => k.name
  | .map k _ => k.name
  | .record k _ => k.name

/-- Truth values are the numbers zero and one. -/
def number? : Value → Option Number
  | .bool b => some (.int (if b then 1 else 0))
  | .int n => some (.int n)
  | .float x => some (.float x)
  | _ => none

/-- A text, or the sign of a table member. -/
def word? : Value → Option String
  | .str s => some s
  | .symbol s => some s.sign
  | _ => none

def isNull : Value → Bool
  | .null => true
  | _ => false

/-- Zero, the empty text, empty collections and null do not count as given. -/
def truthy : Value → Bool
  | .null => false
  | .bool b => b
  | .int n => n != 0
  | .float x => !(Number.float x).isZero
  | .str s => !s.isEmpty
  | .symbol _ => true
  | .seq _ xs => !xs.isEmpty
  | .map _ es => !es.isEmpty
  | .record _ _ => true

@[simp] theorem truthy_null : truthy .null = false := rfl

@[simp] theorem truthy_bool (b : Bool) : truthy (.bool b) = b := rfl

mutual

/-- The values that can be keys: scalars, and what is immutable all the way down. -/
def isKey : Value → Bool
  | .seq k xs => (k = .tuple || k = .frozenset) && areKeys xs
  | .map _ _ => false
  | .record .abstractClause _ => true
  | .record .response _ => true
  | .record k xs => k.isConstant && areKeys xs
  | _ => true

def areKeys : List Value → Bool
  | [] => true
  | x :: xs => isKey x && areKeys xs

end

mutual

/-- A read-only view cannot be copied, nor can anything that holds one. -/
def copyable : Value → Bool
  | .seq _ xs => copyableItems xs
  | .map k es => k = .dict && copyableEntries es
  | .record _ xs => copyableItems xs
  | _ => true

def copyableItems : List Value → Bool
  | [] => true
  | x :: xs => copyable x && copyableItems xs

def copyableEntries : List (Value × Value) → Bool
  | [] => true
  | (k, v) :: es => copyable k && copyable v && copyableEntries es

end

end Value

end DocSearch
