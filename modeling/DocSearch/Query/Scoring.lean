import DocSearch.Value.Access

/-!
# Combination modes

How the weights of the matching functions combine into one number, and how that number combines with
the score of the query itself. Both vocabularies are closed; the settings of an envelope are read from
caller values, the score mode first.
-/

namespace DocSearch

inductive ScoreMode where
  | avg
  | first
  | max
  | min
  | multiply
  | sum
  deriving DecidableEq, Repr

namespace ScoreMode

def word : ScoreMode → String
  | avg => "avg"
  | first => "first"
  | max => "max"
  | min => "min"
  | multiply => "multiply"
  | sum => "sum"

/-- The modes in the order of their words. -/
def all : List ScoreMode := [avg, first, max, min, multiply, sum]

def words : List String := all.map word

def ofWord? (s : String) : Option ScoreMode :=
  all.find? (·.word = s)

@[simp] theorem ofWord?_word (m : ScoreMode) : ofWord? m.word = some m := by
  cases m <;> decide

end ScoreMode

inductive BoostMode where
  | avg
  | max
  | min
  | multiply
  | replace
  | sum
  deriving DecidableEq, Repr

namespace BoostMode

def word : BoostMode → String
  | avg => "avg"
  | max => "max"
  | min => "min"
  | multiply => "multiply"
  | replace => "replace"
  | sum => "sum"

/-- The modes in the order of their words. -/
def all : List BoostMode := [avg, max, min, multiply, replace, sum]

def words : List String := all.map word

def ofWord? (s : String) : Option BoostMode :=
  all.find? (·.word = s)

@[simp] theorem ofWord?_word (m : BoostMode) : ofWord? m.word = some m := by
  cases m <;> decide

end BoostMode

structure ScoreSettings where
  scoreMode : ScoreMode
  boostMode : BoostMode
  deriving DecidableEq, Repr

namespace ScoreSettings

/-- The weights add up and replace the score of the query. -/
def standard : ScoreSettings := ⟨.sum, .replace⟩

def ofValues (score boost : Value) : Except Error ScoreSettings := do
  match ← score.memberOf ScoreMode.ofWord? with
  | none => throw (.refusing (.scoreMode score ScoreMode.words))
  | some s =>
    match ← boost.memberOf BoostMode.ofWord? with
    | none => throw (.refusing (.boostMode boost BoostMode.words))
    | some b => return ⟨s, b⟩

theorem ofValues_words (s : ScoreSettings) :
    ofValues (.str s.scoreMode.word) (.str s.boostMode.word) = .ok s := by
  simp [ofValues, Value.memberOf, Value.isKey, Value.word?, bind, Except.bind, pure, Except.pure]

end ScoreSettings

/-- The weight of a scoring function that is given none. -/
def standardWeight : Value := .int 2

end DocSearch
