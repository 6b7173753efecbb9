import DocSearch.Query.Scoring
import DocSearch.Search.Matching

/-!
# Scores

A query without an envelope scores one. An envelope weighs the documents that meet the conditions of its
functions: the weights of those that hold combine by the score mode. Scores are numbers of any kind that
can be added, multiplied and divided by a count; doubles are the kind that searches run with.
-/

namespace DocSearch

class Arithmetic (σ : Type) where
  zero : σ
  one : σ
  add : σ → σ → σ
  mul : σ → σ → σ
  share : σ → Nat → σ
  place? : σ → Option Place
  ofValue : Value → Except Error σ

instance : Arithmetic Float where
  zero := 0
  one := 1
  add := (· + ·)
  mul := (· * ·)
  share x n := x / Float.ofNat n
  place? := Number.floatPlace?
  ofValue := Value.toFloat

def Value.toRat (v : Value) : Except Error Rat :=
  match v.number?.map Number.place? with
  | some (some (.point q)) => .ok q
  | some _ => .error .badContent
  | none => .error .wrongKind

instance : Arithmetic Rat where
  zero := 0
  one := 1
  add := (· + ·)
  mul := (· * ·)
  share x n := x / n
  place? q := some (.point q)
  ofValue := Value.toRat

namespace Arithmetic

variable {σ : Type} [Arithmetic σ]

def less (a b : σ) : Bool :=
  match place? a, place? b with
  | some p, some q => p.lt q
  | _, _ => false

def atLeast (a b : σ) : Bool :=
  match place? a, place? b with
  | some p, some q => !p.lt q
  | _, _ => false

def total (ws : List σ) : σ :=
  ws.foldl add zero

def product (ws : List σ) : σ :=
  ws.foldl mul one

/-- The greatest of some numbers, the first one of equals. -/
def greatest (w : σ) (ws : List σ) : σ :=
  ws.foldl (fun m x => if less m x then x else m) w

/-- The least of some numbers, the first one of equals. -/
def least (w : σ) (ws : List σ) : σ :=
  ws.foldl (fun m x => if less x m then x else m) w

end Arithmetic

open Arithmetic

/-- What some weights, the first of which is `w`, amount to. -/
def ScoreMode.combine {σ : Type} [Arithmetic σ] (m : ScoreMode) (w : σ) (ws : List σ) : σ :=
  match m with
  | .sum => total (w :: ws)
  | .avg => share (total (w :: ws)) (ws.length + 1)
  | .max => greatest w ws
  | .min => least w ws
  | .first => w
  | .multiply => product (w :: ws)

/-- A condition and the weight of the documents that meet it. -/
structure ScoreFunction where
  condition : Condition
  weight : Value

inductive ScoreRule where
  /-- Every document scores the same. -/
  | flat
  | fault (e : Error)
  /-- Weights combine by a mode; documents without any score zero if weights replace scores. -/
  | weighted (functions : List (Except Error ScoreFunction)) (mode : ScoreMode) (replaces : Bool)

namespace ScoreFunction

def matchAll : Value := .object [("match_all", .dict [])]

def ofValue : Value → Except Error ScoreFunction
  | .map _ es =>
    .ok ⟨.ofValue (Value.fieldD es "filter" matchAll), Value.fieldD es "weight" (.int 1)⟩
  | _ => .error .noAttribute

/-- The weight of the function for a document, if the document meets its condition. -/
def weigh {σ : Type} [Arithmetic σ] (doc : Value) (f : ScoreFunction) :
    Except Error (Option σ) := do
  if ← f.condition.holds doc "" then
    return some (← Arithmetic.ofValue f.weight)
  else
    return none

end ScoreFunction

namespace ScoreRule

/-- The mode that a value names; weights are multiplied if it names none. -/
def modeOf (v : Value) : ScoreMode :=
  (v.word?.bind ScoreMode.ofWord?).getD .multiply

def ofEnvelope : Value → ScoreRule
  | .map _ es =>
    match (Value.fieldD es "functions" (.list [])).items with
    | .error e => .fault e
    | .ok fs =>
      .weighted (fs.map ScoreFunction.ofValue) (modeOf (Value.fieldD es "score_mode" .null))
        (Value.fieldD es "boost_mode" .null == .str "replace")
  | _ => .fault .noAttribute

def ofQuery : Value → ScoreRule
  | .map _ es => ((Value.field? es "function_score").map ofEnvelope).getD .flat
  | v =>
    match v.holds (.str "function_score") with
    | .ok true => .fault .wrongKind
    | _ => .flat

/-- The weights of the functions whose conditions a document meets, in order. -/
def weights {σ : Type} [Arithmetic σ] (doc : Value) :
    List (Except Error ScoreFunction) → Except Error (List σ)
  | [] => .ok []
  | f :: fs => do
    let w ← (← f).weigh doc
    return w.toList ++ (← weights doc fs)

def score {σ : Type} [Arithmetic σ] (doc : Value) : ScoreRule → Except Error σ
  | flat => .ok one
  | fault e => .error e
  | weighted fs mode replaces => do
    match ← weights doc fs with
    | [] => return if replaces then zero else one
    | w :: ws => return mode.combine w ws

end ScoreRule

end DocSearch
