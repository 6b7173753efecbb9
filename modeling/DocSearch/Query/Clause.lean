import DocSearch.Query.Groups
import DocSearch.Query.Scoring

/-!
# Clauses

A clause is a predicate on documents in the query language. `Clause.render` writes it as a body: each
body is a dictionary with one entry that names the kind of clause, except that a raw clause is written
as it was given. `Clause.ofValue` reads the record of a clause that was built before; any other value
in the place of a clause is kept and cannot be rendered.
-/

namespace DocSearch

inductive Clause where
  /-- One field and one value, under the name of a query type such as `term`. -/
  | term (field value queryType : Value)
  | multiMatch (query fields matchType : Value)
  | existence (field : Value)
  | raw (body : Value)
  | nested (path : Value) (query : Clause) (scoreMode : Value)
  | bool (groups : Groups Clause)
  | functionScore (query : Clause) (functions : List (Weighted Clause)) (settings : ScoreSettings)
  /-- The clause that has no form of its own. -/
  | abstract
  | foreign (v : Value)

namespace Clause

def kind? : Clause → Option RecordKind
  | term _ _ _ => some .term
  | multiMatch _ _ _ => some .multiMatch
  | existence _ => some .existence
  | raw _ => some .raw
  | nested _ _ _ => some .nested
  | bool _ => some .bool
  | functionScore _ _ _ => some .functionScore
  | abstract => some .abstractClause
  | foreign _ => none

/-- A predicate on one field that has to match exactly. -/
def ofField (field value : Value) : Clause :=
  term field value (.str "term")

/-- An entry that is written only if its value counts as given. -/
def givenEntry (name : String) (v : Value) : List (String × Value) :=
  if v.truthy then [(name, v)] else []

mutual

def render : Clause → Except Error Value
  | .term f v t => do Value.entry t (← Value.entry f (← v.copy))
  | .multiMatch q fs t => do
    return .object [("multi_match", .object
      ([("query", q), ("fields", .list (← fs.items))] ++ givenEntry "type" t))]
  | .existence f => .ok (.object [("exists", .object [("field", f)])])
  | .raw b => do (Value.dict (← b.toEntries)).copy
  | .nested p q m => do
    return .object [("nested", .object
      ([("path", p), ("query", ← render q)] ++ givenEntry "score_mode" m))]
  | .bool ⟨f, m, n, s, k⟩ => do
    return .object [("bool", .object
      ([("filter", .list (← renderAll f)), ("must", .list (← renderAll m)),
        ("must_not", .list (← renderAll n)), ("should", .list (← renderAll s))]
        ++ if k.isNull then [] else [("minimum_should_match", k)]))]
  | .functionScore q fs t => do
    return .object [("function_score", .object
      [("query", ← render q), ("functions", .list (← renderWeighted fs)),
        ("score_mode", .str t.scoreMode.word), ("boost_mode", .str t.boostMode.word)])]
  | .abstract => .error .notImplemented
  | .foreign _ => .error .noAttribute

def renderAll : List Clause → Except Error (List Value)
  | [] => .ok []
  | c :: cs => do
    let v ← render c
    return v :: (← renderAll cs)

def renderWeighted : List (Weighted Clause) → Except Error (List Value)
  | [] => .ok []
  | ⟨c, w⟩ :: fs => do
    let v ← render c
    return .object [("filter", v), ("weight", w)] :: (← renderWeighted fs)

end

theorem renderAll_append (cs ds : List Clause) :
    renderAll (cs ++ ds) = do
      let vs ← renderAll cs
      return vs ++ (← renderAll ds) := by
  induction cs with
  | nil => cases h : renderAll ds <;> simp [renderAll, h, bind, Except.bind, pure, Except.pure]
  | cons c cs ih =>
    simp only [List.cons_append, renderAll, ih]
    cases render c <;> cases renderAll cs <;> cases renderAll ds <;> rfl

/-- The settings that a record holds; a record is only made from settings. -/
def settingsOf (v : Value) : ScoreSettings :=
  match v with
  | .record .scoreSettings [.str s, .str b] =>
    ((ScoreMode.ofWord? s).bind fun s =>
      (BoostMode.ofWord? b).map fun b => ScoreSettings.mk s b).getD .standard
  | _ => .standard

mutual

def ofValue : Value → Clause
  | .record .term [f, v, t] => .term f v t
  | .record .multiMatch [q, fs, t] => .multiMatch q fs t
  | .record .existence [f] => .existence f
  | .record .raw [b] => .raw b
  | .record .nested [p, q, m] => .nested p (ofValue q) m
  | .record .bool [.seq _ f, .seq _ m, .seq _ n, .seq _ s, k] =>
    .bool ⟨ofValues f, ofValues m, ofValues n, ofValues s, k⟩
  | .record .functionScore [q, .seq _ fs, t] =>
    .functionScore (ofValue q) (ofWeighted fs) (settingsOf t)
  | .record .abstractClause _ => .abstract
  | v => .foreign v

def ofValues : List Value → List Clause
  | [] => []
  | v :: vs => ofValue v :: ofValues vs

def ofWeighted : List Value → List (Weighted Clause)
  | [] => []
  | .record .scoreFunction [c, w] :: vs => ⟨ofValue c, w⟩ :: ofWeighted vs
  | v :: vs => ⟨.foreign v, .null⟩ :: ofWeighted vs

end

end Clause

/-- The clause that a caller gives: one that was built before, or the body of one. -/
def Value.asClause (v : Value) : Except Error Clause :=
  let c := Clause.ofValue v
  match c.kind?, v with
  | some _, _ => .ok c
  | none, .map _ es => (Value.dict es).copy.map .raw
  | none, v => .error (.fault (.notAClause v.kindName))

end DocSearch
