import DocSearch.Aggregation.Expansion
import DocSearch.Builder.Document
import DocSearch.Value.Iterable

/-!
# Builders

A builder accumulates one document by calls. It is open until it is executed, and takes clauses until
its query is wrapped. A call first looks at the state of the builder, then at its arguments, and a
clause whose operator or logic is in no table is refused by a strict builder and left out by a lenient
one.
-/

namespace DocSearch

structure Builder where
  mode : ExecutionMode
  strict : Bool
  document : Document
  consumed : Bool

namespace Builder

def new (mode : ExecutionMode) (strict : Bool) : Builder :=
  ⟨mode, strict, .empty, false⟩

def params (b : Builder) : Except Error Value :=
  b.document.params

def requireOpen : Action Builder Unit := do
  if (← get).consumed then throw (.state .executed)

/-- The builder is open and its query is not wrapped. -/
def requireClausesOpen : Action Builder Unit := do
  requireOpen
  if (← get).document.isWrapped then throw (.state .wrapped)

def modifyDocument (f : Document → Document) : Action Builder Unit :=
  modify fun b => { b with document := f b.document }

def onDraft {α : Type} (a : Action Draft α) : Action Builder α :=
  a.within (fun b => b.document.draft)
    fun d b => { b with document := { b.document with draft := d } }

def ignored (t : Table) (given : Value) : String :=
  "Ignoring clause with unsupported " ++ t.word ++ " " ++ given.quoted

def groupFor (t : Table) (given : Value) : Action Builder (Option ClauseGroup) := do
  match ← t.resolve given with
  | some s => return some s.group
  | none =>
    if (← get).strict then throw (.unsupported t given)
    Action.log .warning .builder (ignored t given)
    return none

def setIndex (index : Value) : Action Builder Unit := do
  requireOpen
  modifyDocument fun d => { d with index := index }

def limit (size : Value) : Action Builder Unit := do
  requireOpen
  Page.requireLeast 0 .size size
  modifyDocument fun d => { d with page := { d.page with size := some size } }

def paginate (size page : Value) : Action Builder Unit := do
  requireOpen
  let p ← Page.number size page
  modifyDocument fun d => { d with page := p }

def directions : List String := ["asc", "desc"]

/-- A mapping as it is, or one of the two words in any case. -/
def direction (given : Value) : Except Error Value := do
  match given with
  | .map _ es => return .dict es
  | v =>
    let w := Text.lower (← v.written)
    if directions.contains w then return .str w
    throw (.refusing (.direction v directions))

def appendOrders : List (Value × Value) → Action Builder Unit
  | [] => pure ()
  | (name, given) :: os => do
    let w ← direction given
    modifyDocument fun d => { d with sort := d.sort ++ [(name, w)] }
    appendOrders os

/-- The fields and directions that are given by a mapping or by one name; identifiers descend if
nothing is given. -/
def ordersOf (orders given : Value) : Except Error (List (Value × Value)) :=
  if orders.isNull then .ok [(.str "id", .str "desc")]
  else if orders.word?.isSome then .ok [(orders, given)]
  else orders.entries

def orderBy (orders given : Value) : Action Builder Unit := do
  requireOpen
  appendOrders (← ordersOf orders given)

def addClause (g : ClauseGroup) (c : Clause) (d : Document) : Document :=
  { d with draft := { d.draft with groups := d.draft.groups.add g c } }

def addWhere (field value operator queryType : Value) : Action Builder Unit := do
  requireClausesOpen
  if let some g ← groupFor .operator operator then
    modifyDocument (addClause g (.term field value queryType))
    Action.log .debug .builder
      ("where " ++ field.text ++ " " ++ operator.text ++ " -> " ++ g.word)

/-- Requires a field to be missing, or to be present; the clause replaces those of its group. -/
def whereNull (field isNull : Value) : Action Builder Unit := do
  requireClausesOpen
  let g : ClauseGroup := if isNull.truthy then .mustNot else .must
  modifyDocument fun d =>
    { d with draft := { d.draft with groups := d.draft.groups.replace g (.existence field) } }

/-- Adds one clause over several fields for every keyword, as they come. -/
def addKeywords (fields : List Value) : List Value → Action Builder Unit
  | [] => pure ()
  | k :: ks => do
    modifyDocument (addClause .must (.multiMatch k (.tuple fields) .null))
    addKeywords fields ks

/-- Adds the clauses of all keywords; those in front stay where the keywords break off. -/
def keywords (keywords : Iterable) (fields : Value) : Action Builder Unit := do
  requireClausesOpen
  let fs ← fields.oneOrMany
  let (ks, stop) ← keywords.oneOrMany
  addKeywords fs ks
  Iterable.finish stop

def minShouldMatch (count : Value) : Action Builder Unit := do
  requireClausesOpen
  modifyDocument fun d =>
    { d with draft := { d.draft with groups := { d.draft.groups with minimum := count } } }

def scoreOf (score : Value) : Except Error Float :=
  match score.toFloat with
  | .error (.fault .wrongKind) | .error (.fault .badContent) =>
    .error (.refusing (.minScore score))
  | r => r

def minScore (score : Value) : Action Builder Unit := do
  requireOpen
  let x ← scoreOf score
  modifyDocument fun d => { d with minScore := some x }

/-- Field names, each once; they have to be fit for keys. -/
def fieldNames (fields : Value) : Except Error (List Value) := do
  if fields.word?.isSome then return [fields]
  let names ← (← fields.items).mapM Value.asKey
  return Value.distinct names

def highlight (fields cssClass : Value) : Action Builder Unit := do
  requireOpen
  let fs ← fieldNames fields
  modifyDocument fun d => { d with highlight := some ⟨fs, cssClass⟩ }

def whereNested (path field value logic queryType : Value) (r : Registration) :
    Action Builder Unit := do
  requireClausesOpen
  if let some g ← groupFor .logic logic then
    let _ ← onDraft (Draft.nest path (Draft.predicates field value queryType) g r)

def whereNestedRaw (path query logic : Value) (r : Registration) : Action Builder Unit := do
  requireClausesOpen
  if let some g ← groupFor .logic logic then
    let inner ← Draft.given query
    let _ ← onDraft (Draft.nest path inner g r)

/-- Different keys in increasing order, if they all compare with each other. -/
def sortedKeys (ks : List Value) : Except Error (List Value) :=
  if ks.all fun a => ks.all fun b => a == b || (a.below? b).isSome then
    .ok (ks.mergeSort fun a b => !(b.below? a).getD false)
  else .error .wrongKind

def aggregate (nodes : Value) : Action Builder Unit := do
  requireOpen
  let built ← Aggregation.documentOf nodes
  let repeated := Entries.sharedKeys built (← get).document.aggregations
  if !repeated.isEmpty then throw (.refusing (.duplicateKeys (← sortedKeys repeated)))
  modifyDocument fun d => { d with aggregations := Entries.putAll d.aggregations built }

def functions (scoreMode boostMode : Value) : Action Builder Unit := do
  requireOpen
  if (← get).document.isWrapped then throw (.state .alreadyWrapped)
  let s ← ScoreSettings.ofValues scoreMode boostMode
  modifyDocument fun d => { d with envelope := some s }
  Action.log .debug .builder
    ("Wrapped query in function_score with "
      ++ toString (← get).document.draft.functions.length ++ " function(s)")

end Builder

end DocSearch
