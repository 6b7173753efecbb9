import DocSearch.Query.Draft
import DocSearch.Value.Arguments

/-!
# Compositions

The three ways to add nested clauses to a draft: around clauses, around predicates on a field, and
around bodies that the caller gives. The group is looked up after the inner clauses are made and before
any of them is placed.
-/

namespace DocSearch

inductive Composition where
  | clauses (path inner group : Value) (registration : Registration)
  | predicates (path field value group queryType : Value) (registration : Registration)
  | bodies (path query group : Value) (registration : Registration)

namespace Composition

def apply : Composition → Action Draft (List Clause)
  | clauses p inner g r => do
    let cs := (← inner.items).map Clause.ofValue
    Draft.nest p cs (← ClauseGroup.ofValue g) r
  | predicates p f v g t r => do
    Draft.nest p (Draft.predicates f v t) (← ClauseGroup.ofValue g) r
  | bodies p q g r => do
    let cs ← Draft.given q
    Draft.nest p cs (← ClauseGroup.ofValue g) r

open Parameter

def registrationParameters : List Parameter :=
  [optional "as_function" (.bool true), optional "weight" standardWeight]

def ofArguments? (name : String) (args : Arguments) : Except Error Composition :=
  match name with
  | "add" => do
    match ← args.valuesFor ([required "path", required "inner_queries", required "group"]
        ++ registrationParameters) with
    | [p, inner, g, a, w] => return .clauses p inner g ⟨a, w⟩
    | _ => throw .wrongKind
  | "add_where" => do
    match ← args.valuesFor ([required "path", required "field", required "value",
        required "group", optional "query_type" (.str "term")] ++ registrationParameters) with
    | [p, f, v, g, t, a, w] => return .predicates p f v g t ⟨a, w⟩
    | _ => throw .wrongKind
  | "add_raw" => do
    match ← args.valuesFor ([required "path", required "query", required "group"]
        ++ registrationParameters) with
    | [p, q, g, a, w] => return .bodies p q g ⟨a, w⟩
    | _ => throw .wrongKind
  | _ => .error .noAttribute

end Composition

/-- The rendered parts of a draft: its query, and its functions. -/
def Draft.render (d : Draft) : Except Error (Value × List Value) := do
  let q ← (Clause.bool d.groups).render
  return (q, ← Clause.renderWeighted d.functions)

end DocSearch
