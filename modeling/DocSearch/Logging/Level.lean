import DocSearch.Action.Event
import DocSearch.Text.Case
import DocSearch.Value.Access

/-!
# Levels by name

Some levels have names; a few have two. A level without a name is written by its value.
-/

namespace DocSearch.Logging

def levelNames : List (String × Int) :=
  [("CRITICAL", 50), ("ERROR", 40), ("WARNING", 30), ("INFO", 20), ("DEBUG", 10), ("NOTSET", 0)]

def levelAliases : List (String × Int) := [("FATAL", 50), ("WARN", 30)]

def levelOf? (name : String) : Option Int :=
  Entries.get? (levelNames ++ levelAliases) name

/-- What is written after the word for a level without a name; a tuple stands for its only item. -/
def levelText : Value → Except Error String
  | .seq .tuple [v] => v.written
  | .seq .tuple _ => .error .wrongKind
  | v => v.written

/-- What a level of any kind is called: numbers by their names, and names by their numbers. -/
def levelCalled (v : Value) : Except Error Value :=
  if !v.isKey then .error .wrongKind
  else match levelNames.find? (Value.int ·.2 == v), v.word?.bind levelOf? with
    | some n, _ => .ok (.str n.1)
    | none, some n => .ok (.int n)
    | none, none => (levelText v).map fun t => .str ("Level " ++ t)

/-- The level that a word in any case asks for; the middle one if it is no name. -/
def requestedLevel (word : String) : Int :=
  (levelOf? (Text.latinCapitals word)).getD 20

def levelOfValue (v : Value) : Except Error Severity :=
  match v with
  | .int n => .ok (.number n)
  | .bool b => .ok (.truth b)
  | .str s => ((levelOf? s).map fun n => Except.ok (.number n)).getD (.error .badContent)
  | v => v.written.bind fun _ => .error .wrongKind

def severityOf : Value → Except Error Severity
  | .int n => .ok (.number n)
  | .bool b => .ok (.truth b)
  | _ => .error .wrongKind

end DocSearch.Logging
