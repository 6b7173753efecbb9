import DocSearch.Error
import DocSearch.Dispatch

/-!
# Configuration fields

A field takes values of one type and whatever its check converts to that type; a value that does not
convert is answered by a problem, which is a sentence for the reader. How values convert and how the
problems are worded is left to the checks.
-/

namespace DocSearch.Field

/-- A field's value, or what is wrong with the one that was given. -/
abbrev Checked (α : Type) := Except String α

def optional {α : Type} (read : Value → Checked α) (v : Value) : Checked (Option α) :=
  if v.isNull then .ok none else (read v).map some

def problemsOf {α : Type} (name : String) : Checked α → List String
  | .ok _ => []
  | .error p => [name ++ ": " ++ p]

end DocSearch.Field

namespace DocSearch

open DocSearch.Field (Checked)

structure FieldChecks where
  text : Value → Checked String
  float : Value → Checked Float
  whole : Value → Checked Int
  truth : Value → Checked Bool
  mode : Value → Checked ExecutionMode
  /-- A list of texts, or the problems of the list and its items, each under its place. -/
  texts : Value → Except (List String) (List String)
  /-- The problem of a check that went wrong with a message of its own. -/
  raised : String → String
  /-- Texts are taken as they are. -/
  texts_list : ∀ ss : List String, texts (.list (ss.map .str)) = .ok ss

namespace FieldChecks

/-- What a check found, or the name of the type that it looked for. -/
def found {α : Type} (type : String) (x : Option α) : Checked α :=
  (x.map .ok).getD (.error ("Expected " ++ type))

def strict : FieldChecks where
  text v := found "a text" v.word?
  float v := found "a double" (match v with | .float x => some x | _ => none)
  whole v := found "a whole number" (match v with | .int n => some n | _ => none)
  truth v := found "a truth value" (match v with | .bool b => some b | _ => none)
  mode v := found "a mode" (v.word?.bind ExecutionMode.ofWord?)
  texts v := match v with
    | .seq .list xs => ((xs.mapM Value.word?).map .ok).getD (.error ["Expected texts"])
    | _ => .error ["Expected a list"]
  raised m := m
  texts_list ss := by
    have h : (ss.map Value.str).mapM Value.word? = some ss := by
      induction ss with
      | nil => rfl
      | cons s ss ih => simp [List.mapM_cons, ih, Value.word?]
    simp only [h, Option.map_some, Option.getD_some]

end FieldChecks

end DocSearch
