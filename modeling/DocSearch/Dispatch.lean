import DocSearch.Entries
import DocSearch.Text.Blank
import DocSearch.Text.Case

/-!
# Dispatch tables

A clause lands in one of four boolean groups. Comparison operators and combination logic are closed
tables; each member names one group. A word outside its table, aliases included, resolves to nothing.
-/

namespace DocSearch

inductive ClauseGroup where
  | filter
  | must
  | mustNot
  | should
  deriving DecidableEq, Repr

namespace ClauseGroup

def word : ClauseGroup → String
  | filter => "filter"
  | must => "must"
  | mustNot => "must_not"
  | should => "should"

def all : List ClauseGroup := [filter, must, mustNot, should]

def ofWord? (s : String) : Option ClauseGroup :=
  all.find? (·.word = s)

@[simp] theorem ofWord?_word (g : ClauseGroup) : ofWord? g.word = some g := by
  cases g <;> decide

end ClauseGroup

inductive Operator where
  | equalTo
  | notEqualTo
  deriving DecidableEq, Repr

namespace Operator

def sign : Operator → String
  | equalTo => "="
  | notEqualTo => "!="

def name : Operator → String
  | equalTo => "EQUAL_TO"
  | notEqualTo => "NOT_EQUAL_TO"

def group : Operator → ClauseGroup
  | equalTo => .filter
  | notEqualTo => .mustNot

def all : List Operator := [equalTo, notEqualTo]

def aliases : List (String × Operator) :=
  [("equals", equalTo), ("eq", equalTo), ("==", equalTo), ("not-equals", notEqualTo),
    ("not_equals", notEqualTo), ("ne", notEqualTo), ("<>", notEqualTo)]

/-- The member that a word in lower case stands for. -/
def ofWord? (s : String) : Option Operator :=
  (Entries.get? aliases s).or (all.find? (·.sign = s))

@[simp] theorem ofWord?_sign (o : Operator) : ofWord? o.sign = some o := by
  cases o <;> decide

end Operator

/-- How a nested clause combines with the others. -/
inductive Logic where
  | and
  | or
  | notEqualTo
  deriving DecidableEq, Repr

namespace Logic

def sign : Logic → String
  | and => "&&"
  | or => "||"
  | notEqualTo => "!="

def name : Logic → String
  | and => "AND"
  | or => "OR"
  | notEqualTo => "NOT_EQUAL_TO"

def group : Logic → ClauseGroup
  | and => .must
  | or => .should
  | notEqualTo => .mustNot

def all : List Logic := [and, or, notEqualTo]

def aliases : List (String × Logic) :=
  [("and", and), ("or", or), ("not-equals", notEqualTo), ("not_equals", notEqualTo),
    ("not", notEqualTo), ("<>", notEqualTo)]

/-- The member that a word in lower case stands for. -/
def ofWord? (s : String) : Option Logic :=
  (Entries.get? aliases s).or (all.find? (·.sign = s))

@[simp] theorem ofWord?_sign (l : Logic) : ofWord? l.sign = some l := by
  cases l <;> decide

end Logic

/-- The two tables that callers choose a group from. -/
inductive Table where
  | operator
  | logic
  deriving DecidableEq, Repr

inductive Symbol where
  | operator (o : Operator)
  | logic (l : Logic)
  deriving DecidableEq, Repr

namespace Table

def word : Table → String
  | operator => "operator"
  | logic => "logic"

def signs : Table → List String
  | operator => Operator.all.map Operator.sign
  | logic => Logic.all.map Logic.sign

end Table

namespace Symbol

def table : Symbol → Table
  | operator _ => .operator
  | logic _ => .logic

def sign : Symbol → String
  | operator o => o.sign
  | logic l => l.sign

def name : Symbol → String
  | operator o => o.name
  | logic l => l.name

def group : Symbol → ClauseGroup
  | operator o => o.group
  | logic l => l.group

/-- The class that the member belongs to, as it is spelled in texts. -/
def className : Symbol → String
  | operator _ => "Operator"
  | logic _ => "Logic"

end Symbol

/-- What a builder hands back from a search. -/
inductive ExecutionMode where
  | raw
  | decoded
  deriving DecidableEq, Repr

namespace ExecutionMode

def word : ExecutionMode → String
  | raw => "raw"
  | decoded => "decoded"

def all : List ExecutionMode := [raw, decoded]

def ofWord? (s : String) : Option ExecutionMode :=
  all.find? (·.word = s)

@[simp] theorem ofWord?_word (m : ExecutionMode) : ofWord? m.word = some m := by
  cases m <;> decide

end ExecutionMode

end DocSearch
