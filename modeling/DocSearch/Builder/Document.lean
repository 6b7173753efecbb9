import DocSearch.Builder.Page
import DocSearch.Query.Draft
import DocSearch.Value.Frozen

/-!
# Documents under construction

Everything that a builder has accumulated for one search: the target, the window, the order, the
boolean query with its scoring functions, and what is asked for besides the hits. `Document.body`
compiles it; a snapshot is a frozen copy of what it compiles to.
-/

namespace DocSearch

/-- Matches in some fields are to be wrapped in a tag with a class. -/
structure Highlight where
  fields : List Value
  cssClass : Value

namespace Highlight

def opening (h : Highlight) : Except Error String :=
  h.cssClass.written.map fun c => "<span class=\"" ++ c ++ "\">"

def toValue (h : Highlight) : Except Error Value := do
  return .object [("pre_tags", .str (← h.opening)), ("post_tags", .str "</span>"),
    ("require_field_match", .bool true),
    ("fields", .dict (Entries.ofList (h.fields.map fun f => (f, .dict []))))]

end Highlight

structure Document where
  index : Value
  page : Page
  /-- Field names with their directions, the most significant first. -/
  sort : List (Value × Value)
  draft : Draft
  /-- The modes of the envelope, once the query is wrapped. -/
  envelope : Option ScoreSettings
  highlight : Option Highlight
  minScore : Option Float
  aggregations : List (Value × Value)

/-- A compiled search that nothing can change any more. -/
structure Snapshot where
  index : Value
  body : Value

namespace Document

def empty : Document where
  index := .str ""
  page := .whole
  sort := []
  draft := .empty
  envelope := none
  highlight := none
  minScore := none
  aggregations := []

def isWrapped (d : Document) : Bool :=
  d.envelope.isSome

/-- The boolean query, in its envelope if there is one. -/
def clause (d : Document) : Clause :=
  match d.envelope with
  | none => .bool d.draft.groups
  | some s => .functionScore (.bool d.draft.groups) d.draft.functions s

def sortEntries (d : Document) : List (String × Value) :=
  if d.sort.isEmpty then [] else [("sort", .list (d.sort.map fun o => .dict [o]))]

def highlightEntries (d : Document) : Except Error (List (String × Value)) :=
  match d.highlight with
  | none => .ok []
  | some h => h.toValue.map fun v => [("highlight", v)]

def aggregationEntries (d : Document) : Except Error (List (String × Value)) :=
  if d.aggregations.isEmpty then .ok []
  else (Value.dict d.aggregations).copy.map fun v => [("aggs", v)]

/-- The parts of the compiled body under their names. -/
def parts (d : Document) : Except Error (List (String × Value)) := do
  let query ← d.clause.render
  let highlight ← d.highlightEntries
  let aggregations ← d.aggregationEntries
  return [("query", query)] ++ d.sortEntries ++ d.page.entries
    ++ (d.minScore.map fun x => ("min_score", .float x)).toList
    ++ highlight ++ aggregations

def body (d : Document) : Except Error Value :=
  d.parts.map .object

def params (d : Document) : Except Error Value :=
  d.body.map fun b => .object [("index", d.index), ("body", b)]

def snapshot (d : Document) : Except Error Snapshot := do
  return ⟨d.index, ← (← d.body).freeze⟩

end Document

/-- Index and body as a search takes them, in containers of their own. -/
def Snapshot.params (s : Snapshot) : Value :=
  .object [("index", s.index), ("body", s.body.thaw)]

end DocSearch
