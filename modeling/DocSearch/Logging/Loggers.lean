import DocSearch.Action.Event
import DocSearch.Config.Settings
import DocSearch.Logging.Entry

/-!
# Loggers

Loggers form a tree by their names, with points between the levels: a logger hangs below the nearest
known one whose name its own begins with. A logger has a level, which it takes from above if it has
none of its own, and handlers, each with a level of its own. A record that its logger lets pass goes to
the handlers of that logger and of all loggers above it, up to one that is closed.
-/

namespace DocSearch.Logging

inductive LineFormat where
  | structured (service : Value)
  | plain

structure Handler where
  level : Severity
  format : LineFormat

structure Logger where
  /-- Zero stands for the level of the logger above. -/
  level : Severity
  handlers : List Handler

def Logger.silent : Logger := ⟨.number 0, []⟩

/-- The known loggers by name; the one above all has the empty name. -/
abbrev Loggers := List (String × Logger)

namespace Loggers

def get (ls : Loggers) (name : String) : Logger :=
  (Entries.get? ls name).getD .silent

def set (ls : Loggers) (name : String) (l : Logger) : Loggers :=
  Entries.put ls name l

def know (ls : Loggers) (name : String) : Loggers :=
  if Entries.has ls name then ls else ls.set name .silent

/-- A logger of the client. Its records and those of the loggers below it go no further up. -/
def closed : String := "elastic_transport.node"

def initial (debug : Bool) : Loggers :=
  [("", ⟨.number (if debug then 10 else 30), []⟩), (closed, .silent)]

/-- The beginnings of a name that end before a point, the longest first, for a name that is read
from its end. The character before such a point does not end another one. -/
def beginnings : List Char → List (List Char)
  | '.' :: c :: cs => (c :: cs).reverse :: beginnings cs
  | _ :: cs => beginnings cs
  | [] => []

theorem length_lt_of_mem_beginnings {p cs : List Char} (h : p ∈ beginnings cs) :
    p.length < cs.length := by
  fun_induction beginnings cs with
  | case1 c cs ih =>
    rcases List.mem_cons.mp h with rfl | h
    · simp
    · have := ih h
      simp only [List.length_cons]
      omega
  | case2 d cs _ ih =>
    have := ih h
    simp only [List.length_cons]
    omega
  | case3 => simp at h

def parent? (ls : Loggers) (name : List Char) : Option (List Char) :=
  (beginnings name.reverse).find? fun p => Entries.has ls (String.ofList p)

theorem length_lt_of_parent? {ls : Loggers} {name p : List Char}
    (h : parent? ls name = some p) : p.length < name.length := by
  simpa using length_lt_of_mem_beginnings (List.mem_of_find?_eq_some h)

/-- The loggers above a logger, nearest first, without the one above all. -/
def above (ls : Loggers) (name : List Char) : List (List Char) :=
  match _h : parent? ls name with
  | some p => p :: above ls p
  | none => []
termination_by name.length
decreasing_by exact length_lt_of_parent? _h

def path (ls : Loggers) (name : String) : List String :=
  if name.isEmpty || name = "root" then [""]
  else name :: (above ls name.toList).map String.ofList ++ [""]

def reached (ls : Loggers) (name : String) : List String :=
  let p := path ls name
  if p.contains closed then p.takeWhile (· ≠ closed) ++ [closed] else p

def effectiveLevel (ls : Loggers) (name : String) : Int :=
  (((path ls name).map fun n => (ls.get n).level.value).find? (· ≠ 0)).getD 0

def passes (ls : Loggers) (name : String) (level : Int) : Bool :=
  0 < level && ls.effectiveLevel name ≤ level

def handlersFor (ls : Loggers) (name : String) (level : Int) : List Handler :=
  if ls.passes name level then
    ((reached ls name).flatMap fun n => (ls.get n).handlers).filter (·.level.value ≤ level)
  else []

def setLevel (ls : Loggers) (name : String) (level : Severity) : Loggers :=
  ls.set name { ls.get name with level := level }

/-- Gives a logger a level and makes a handler of that level its only one. -/
def setUp (ls : Loggers) (name : String) (level : Severity) (format : LineFormat) : Loggers :=
  ls.set name ⟨level, [⟨level, format⟩]⟩

def own : String := "esbuilder"

def verbose : List String := [own, "elastic_transport"]

def levelFor (s : Settings) : Severity :=
  .number (if s.debug then 10 else requestedLevel s.logLevel)

def configure (s : Settings) (ls : Loggers) : Loggers :=
  let ls := if s.debug then verbose.foldl (fun ls n => ls.setLevel n (.number 10)) ls else ls
  if s.logJson then ls.setUp own (levelFor s) (.structured Formatter.standard.service)
  else ls.setLevel own (levelFor s)

/-- The name of a logger; an empty one stands for the logger above all. -/
def nameOf (v : Value) : Except Error String :=
  match v.word? with
  | some "root" => .ok ""
  | some s => .ok s
  | none => if v.truthy then .error .wrongKind else .ok ""

open Parameter in
def setUpParameters : List Parameter :=
  [optional "service_name" Formatter.standard.service, optional "level" (.int 20),
    optional "json_output" (.bool true), optional "logger_name" (.str own)]

def setUpWith (args : Arguments) (ls : Loggers) : Except Error Loggers := do
  match ← args.valuesFor setUpParameters with
  | [service, level, json, name] =>
    let n ← nameOf name
    let l ← levelOfValue level
    return ls.setUp n l (if json.truthy then .structured service else .plain)
  | _ => throw .wrongKind

/-- A line that a handler writes. The time of the record is left out. -/
inductive Line where
  | structured (entry : Value)
  | plain (text : String)
  /-- A further line of a text. -/
  | continued (text : String)

def Line.ofText (s : String) : List Line :=
  match (Text.pieces '\n' s.toList).map String.ofList with
  | [] => []
  | t :: ts => .plain t :: ts.map .continued

def shownName (name : String) : String :=
  if name.isEmpty then "root" else name

def linesFor (r : FullRecord) : LineFormat → Except Error (List Line)
  | .structured service =>
    ({ Formatter.standard with service := service }.entry r).map fun e => [.structured e]
  | .plain => r.text.map Line.ofText

/-- The lines that the handlers write for a record of a logger. What goes wrong while a handler writes
is not reported to the caller. -/
def write (ls : Loggers) (name : String) (level : Int) (r : FullRecord) : List Line :=
  (ls.handlersFor name level).flatMap fun h => (linesFor r h.format).toOption.getD []

/-- Hands a record to a logger, which is known from then on. If it passes, its level has to have a
name. -/
def emit (r : FullRecord) (ls : Loggers) : Except Error (Loggers × List Line) := do
  let name ← nameOf r.logger
  let level := (← severityOf r.level).value
  let ls := ls.know name
  if ls.passes name level then
    let _ ← levelCalled r.level
  return (ls, ls.write name level { r with logger := .str (shownName name) })

end Loggers

end DocSearch.Logging
