import DocSearch.Search.Score
import DocSearch.Sorting.Seam

/-!
# Order of hits

Hits are sorted by sort keys: missing values come first, then numbers, then everything else by its
text. A sort clause sorts by one field after the other and keeps the order of equals; of several clauses
the first one is the most significant.
-/

namespace DocSearch

inductive SortKey where
  | missing
  | number (place : Option Place)
  | text (s : String)

namespace SortKey

def ofValue (v : Value) : Except Error SortKey :=
  match v.number? with
  | some n => .ok (number n.place?)
  | none => if v.isNull then .ok missing else v.written.map text

def rank : SortKey → Nat
  | missing => 0
  | number _ => 1
  | text _ => 2

def lt : SortKey → SortKey → Bool
  | number (some p), number (some q) => p.lt q
  | text s, text t => s < t
  | a, b => a.rank < b.rank

/-- Whether the key has a place among all others; a number that is none has not. -/
def isPlaced : SortKey → Bool
  | number p => p.isSome
  | missing | text _ => true

end SortKey

structure Hit (σ : Type) where
  id : Value
  document : Value
  score : σ

namespace Hit

variable {σ : Type} [Arithmetic σ]

/-- The key of a hit under a field name; one name stands for the score. -/
def key (name : Value) (h : Hit σ) : Except Error SortKey :=
  if name == .str "_score" then .ok (.number (Arithmetic.place? h.score))
  else match name.word? with
    | some s => SortKey.ofValue (h.document.lookup s)
    | none => .error .noAttribute

def descends (direction : Value) : Except Error Bool :=
  direction.written.map fun s => Text.lower s == "desc"

/-- Sorts items by their keys and keeps the order of those with equal keys. Where a key has no place, the
outcome depends on the steps of sorting. -/
def arrange {α : Type} (falling : Bool) (keyed : List (SortKey × α)) : List (SortKey × α) :=
  let below (a b : SortKey × α) : Bool := a.1.lt b.1
  if keyed.all (·.1.isPlaced) then
    keyed.mergeSort fun a b => if falling then !below a b else !below b a
  else if falling then Sorting.sortFalling below keyed
  else Sorting.sort below keyed

def sortByField (name direction : Value) (hs : List (Hit σ)) : Except Error (List (Hit σ)) := do
  let falling ← descends direction
  let keyed ← hs.mapM fun h => do return (← h.key name, h)
  return (arrange falling keyed).map (·.2)

def sortByClause (clause : Value) (hs : List (Hit σ)) : Except Error (List (Hit σ)) := do
  (← clause.entries).foldlM (fun hs o => sortByField o.1 o.2 hs) hs

/-- Sorts by all clauses, the least significant one first. -/
def sortBy (clauses : Value) (hs : List (Hit σ)) : Except Error (List (Hit σ)) := do
  (← clauses.itemsReversed).foldlM (fun hs c => sortByClause c hs) hs

end Hit

end DocSearch
