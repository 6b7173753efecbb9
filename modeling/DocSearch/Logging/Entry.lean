import DocSearch.Error
import DocSearch.Logging.Level
import DocSearch.Logging.Message
import DocSearch.Value.Arguments

/-!
# Structured entries

A record is written as one entry in a data format that knows texts, numbers, truth values, null, lists
and dictionaries with texts as keys. Whatever else a record holds is written as its text. A record whose
arguments do not fit its message, or that holds something without a text, has no entry.
-/

namespace DocSearch.Logging

def keyLayout : Number.Layout :=
  { Number.layout with notANumber := "NaN", infinite := "Infinity" }

def keyText : Value → Except Error String
  | .null => .ok "null"
  | .bool b => .ok (if b then "true" else "false")
  | .int n => (Value.int n).written
  | .float x => .ok (keyLayout.text x)
  | v => (v.word?.map Except.ok).getD (.error .wrongKind)

mutual

def plain : Value → Except Error Value
  | .seq k xs =>
    if k.isSet then (Value.seq k xs).written.map .str else (plainItems xs).map .list
  | .map .dict es => (plainEntries es).map fun fs => .dict (Entries.ofList fs)
  | .map .view es => (Value.map .view es).written.map .str
  | .record k xs => (Value.record k xs).written.map .str
  | .symbol s => .ok (.str s.sign)
  | .int n => if Value.isShort n then .ok (.int n) else .error .badContent
  | v => .ok v

def plainItems : List Value → Except Error (List Value)
  | [] => .ok []
  | x :: xs => do
    let y ← plain x
    return y :: (← plainItems xs)

def plainEntries : List (Value × Value) → Except Error (List (Value × Value))
  | [] => .ok []
  | (k, v) :: es => do
    let t ← keyText k
    let w ← plain v
    return (.str t, w) :: (← plainEntries es)

end

/-- An exception that was caught: its kind and what it was raised with. -/
structure Caught where
  kind : String
  arguments : List Value

namespace Caught

def isOwn (c : Caught) : Bool :=
  (ErrorClass.ofName? c.kind).isSome

/-- The library's own exceptions take a message, a code and details. -/
def make (kind : String) (arguments : List Value) : Except Error Caught :=
  let c : Caught := ⟨kind, arguments⟩
  if c.isOwn && (arguments.isEmpty || 3 < arguments.length) then .error .wrongKind else .ok c

/-- The text of an exception; the library's own ones have a message first. -/
def text (c : Caught) : Except Error String :=
  match c.arguments with
  | [] => .ok ""
  | [v] => if c.kind = "KeyError" then Place.quotedForm v else v.written
  | v :: _ => if c.isOwn then v.written else (Value.tuple c.arguments).written

/-- The kind with the place where the library's own ones are defined. -/
def fullKind (c : Caught) : String :=
  if c.isOwn then "esbuilder.errors." ++ c.kind else c.kind

/-- How an exception is traced; one without a text is traced nevertheless. -/
def trace (c : Caught) : String :=
  let t := c.text.toOption.getD "<exception str() failed>"
  c.fullKind ++ (if t.isEmpty then "" else ": " ++ t)

def toValue (c : Caught) : Except Error Value := do
  return .object [("type", .str c.kind), ("message", .str (← c.text)),
    ("stacktrace", .list [.str (c.trace ++ "\n")])]

def noTrace : String := "NoneType: None"

def noneValue : Value :=
  .object [("type", .null), ("message", .null), ("stacktrace", .list [.str (noTrace ++ "\n")])]

end Caught

/-- A record with everything that its texts show of it. -/
structure FullRecord where
  logger : Value
  level : Value
  path : Value
  line : Value
  function : Value
  template : Value
  arguments : List Value
  extra : Option Value
  /-- What was being handled, if the record has that at all. -/
  caught : Option (Option Caught)
  /-- The calls that led to the record, if it has them. -/
  stack : Option String

structure Formatter where
  service : Value
  withTrace : Bool

namespace Formatter

open Parameter in
def parameters : List Parameter :=
  [optional "service_name" (.str "esbuilder"), optional "include_stack_trace" (.bool true)]

def ofArguments (args : Arguments) : Except Error Formatter := do
  match ← args.valuesFor parameters with
  | [s, t] => return ⟨s, t.truthy⟩
  | _ => throw .wrongKind

def standard : Formatter := ⟨.str "esbuilder", true⟩

def caughtValue (c : Option Caught) : Except Error Value :=
  (c.map Caught.toValue).getD (.ok Caught.noneValue)

def caughtEntries (f : Formatter) (r : FullRecord) : Except Error (List (String × Value)) :=
  match r.caught with
  | some c => if f.withTrace then (caughtValue c).map fun v => [("exception", v)] else .ok []
  | none => .ok []

def entry (f : Formatter) (r : FullRecord) : Except Error Value := do
  let level ← levelCalled r.level
  let text ← message r.template r.arguments
  let exception ← f.caughtEntries r
  let location := Value.object [("file", r.path), ("line", r.line), ("function", r.function)]
  plain (.object ([("level", level), ("logger", r.logger),
    ("message", .str text), ("service", f.service), ("location", location)]
    ++ (r.extra.map fun x => ("extra", x)).toList ++ exception))

end Formatter

namespace FullRecord

/-- A text, and what follows it on a line of its own. -/
def withPart (s part : String) : String :=
  if s.toList.getLast? = some '\n' then s ++ part else s ++ "\n" ++ part

def parts (r : FullRecord) : List String :=
  (r.caught.map fun c => (c.map Caught.trace).getD Caught.noTrace).toList ++ r.stack.toList

/-- The record in plain form, without its time. -/
def text (r : FullRecord) : Except Error String := do
  let level ← levelCalled r.level
  let s ← message r.template r.arguments
  let front := (← r.logger.written) ++ " - " ++ (← level.written) ++ " - " ++ s
  return r.parts.foldl withPart front

end FullRecord

end DocSearch.Logging
