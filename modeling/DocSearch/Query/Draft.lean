import DocSearch.Action.Basic
import DocSearch.Query.Clause

/-!
# Drafts

A draft is a boolean query in the making together with the scoring functions registered on the way. A
nested predicate is scoped to the objects of a path. Several values are unrolled: every value becomes a
nested clause of its own and, on demand, a scoring function, so that documents matching more values
score higher.
-/

namespace DocSearch

/-- The items of a sequence; any other value is one item. -/
def Value.unroll : Value → List Value
  | .seq _ xs => xs
  | v => [v]

structure Draft where
  groups : Groups Clause
  functions : List (Weighted Clause)

/-- How nested clauses are registered as scoring functions. -/
structure Registration where
  asFunction : Value
  weight : Value

namespace Registration

def standard : Registration := ⟨.bool true, standardWeight⟩

def functions (r : Registration) (cs : List Clause) : List (Weighted Clause) :=
  if r.asFunction.truthy then cs.map fun c => ⟨c, r.weight⟩ else []

theorem functions_append (r : Registration) (cs ds : List Clause) :
    r.functions (cs ++ ds) = r.functions cs ++ r.functions ds := by
  unfold functions
  split <;> simp

end Registration

namespace Draft

def empty : Draft := ⟨.empty, []⟩

/-- The nested clauses that scope each inner query to a path. -/
def underPath (path : Value) (inner : List Clause) : List Clause :=
  inner.map fun c => .nested path c .null

def place (d : Draft) (g : ClauseGroup) (r : Registration) (cs : List Clause) : Draft where
  groups := d.groups.addAll g cs
  functions := d.functions ++ r.functions cs

theorem place_append (d : Draft) (g : ClauseGroup) (r : Registration) (cs ds : List Clause) :
    d.place g r (cs ++ ds) = (d.place g r cs).place g r ds := by
  simp [place, Groups.addAll_append, Registration.functions_append]

/-- One predicate on a field for every value; a query type that takes a list gets a list of one. -/
def predicates (field value queryType : Value) : List Clause :=
  value.unroll.map fun v =>
    .term field (if queryType == .str "terms" then .list [v] else v) queryType

def given (query : Value) : Except Error (List Clause) :=
  query.unroll.mapM Value.asClause

def report (path : Value) (g : ClauseGroup) (r : Registration) (count : Nat) : String :=
  "Added " ++ toString count ++ " nested clause(s) on " ++ path.text ++ " to " ++ g.word
    ++ " (scoring=" ++ r.asFunction.text ++ ")"

/-- Scopes each inner query to the path and places it in the group. -/
def nest (path : Value) (inner : List Clause) (g : ClauseGroup) (r : Registration) :
    Action Draft (List Clause) := do
  let cs := underPath path inner
  modify fun d => d.place g r cs
  Action.log .debug .nested (report path g r cs.length)
  return cs

end Draft

end DocSearch
