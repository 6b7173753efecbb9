import DocSearch.Logging.Loggers
import DocSearch.Proofs.Action.Outcomes
import DocSearch.Proofs.Builder.History
import Mathlib.Data.List.Induction

/-!
# What setups leave at the loggers

Loggers are tuned by two kinds of calls: settings are put into effect, or one logger is set up by
itself. A logger keeps the handler of the last call that gave it one, and no other.
-/

namespace DocSearch

def Settings.ofLogs (debug : Bool) (level : String) (json : Bool) : Settings :=
  ⟨"localhost", 9200, none, none, none, none, .raw, false, debug, level, json⟩

namespace Logging

/-- The arguments of a setup, as far as they are given. -/
structure Setup where
  service : Option String
  level : Option Severity
  json : Option Bool
  name : Option String

namespace Setup

def arguments (u : Setup) : Arguments :=
  (u.service.map fun s => ("service_name", Value.str s)).toList
    ++ (u.level.map fun l => ("level", l.toValue)).toList
    ++ (u.json.map fun j => ("json_output", Value.bool j)).toList
    ++ (u.name.map fun n => ("logger_name", Value.str n)).toList

/-- The logger that is set up; the one above all has two names. -/
def target (u : Setup) : String :=
  let n := u.name.getD Loggers.own
  if n = "root" then "" else n

def format (u : Setup) : LineFormat :=
  if u.json.getD true then .structured (.str (u.service.getD "esbuilder")) else .plain

def handler (u : Setup) : Handler :=
  ⟨u.level.getD (.number 20), u.format⟩

end Setup

@[simp] theorem levelOfValue_toValue (l : Severity) : levelOfValue l.toValue = .ok l := by
  cases l <;> rfl

theorem Loggers.nameOf_str (n : String) :
    nameOf (.str n) = .ok (if n = "root" then "" else n) := by
  simp only [nameOf, Value.word?]
  split
  · next h => cases h; rfl
  · next h =>
      cases h
      rw [if_neg]
      rintro rfl
      contradiction
  · next h => cases h

/-- Setting up by arguments returns, whatever they are. -/
theorem Loggers.setUpWith_arguments (u : Setup) (ls : Loggers) :
    ls.setUpWith u.arguments = .ok (ls.setUp u.target u.handler.level u.handler.format) := by
  obtain ⟨service, level, json, name⟩ := u
  have hvalues : (Setup.arguments ⟨service, level, json, name⟩).valuesFor setUpParameters =
      .ok [.str (service.getD "esbuilder"), (level.getD (.number 20)).toValue,
        .bool (json.getD true), .str (name.getD own)] := by
    cases service <;> cases level <;> cases json <;> cases name <;> rfl
  simp only [setUpWith, hvalues, Except.ok_bind, nameOf_str, levelOfValue_toValue]
  rfl

namespace Loggers

theorem get_set (ls : Loggers) (m n : String) (l : Logger) :
    (ls.set m l).get n = if m = n then l else ls.get n := by
  simp only [get, set, Entries.get?_put, beq_iff_eq]
  split <;> rfl

theorem handlers_initial (debug : Bool) (n : String) :
    ((initial debug).get n).handlers = [] := by
  simp only [get, initial, Entries.get?_cons, Entries.get?_nil]
  split
  case isTrue => rfl
  case isFalse => split <;> rfl

/-- A logger that was not known has neither a level nor handlers. -/
@[simp] theorem get_know (ls : Loggers) (m n : String) : (ls.know m).get n = ls.get n := by
  unfold know
  split
  case isTrue => rfl
  case isFalse h =>
      rw [get_set]
      split
      case isTrue hmn =>
          subst hmn
          have hm : Entries.get? ls m = none := by simpa [Entries.has] using h
          rw [get, hm, Option.getD_none]
      case isFalse => rfl

theorem handlers_setLevel (ls : Loggers) (m n : String) (l : Severity) :
    ((ls.setLevel m l).get n).handlers = (ls.get n).handlers := by
  rw [setLevel, get_set]
  split
  case isTrue h => rw [h]
  case isFalse => rfl

theorem handlers_setUp (ls : Loggers) (m n : String) (l : Severity) (f : LineFormat) :
    ((ls.setUp m l f).get n).handlers = if m = n then [⟨l, f⟩] else (ls.get n).handlers := by
  rw [setUp, get_set]
  split <;> rfl

theorem handlers_setLevels (ls : Loggers) (ms : List String) (n : String) (l : Severity) :
    ((ms.foldl (fun ls m => ls.setLevel m l) ls).get n).handlers = (ls.get n).handlers := by
  induction ms generalizing ls with
  | nil => rfl
  | cons m ms ih => rw [List.foldl_cons, ih, handlers_setLevel]

/-- The handler of the library's logger that settings ask for. -/
def structuredHandler (s : Settings) : Handler :=
  ⟨levelFor s, .structured (.str "esbuilder")⟩

theorem handlers_configure (s : Settings) (ls : Loggers) (n : String) :
    ((configure s ls).get n).handlers =
      if s.logJson ∧ own = n then [structuredHandler s] else (ls.get n).handlers := by
  unfold configure
  cases s.logJson <;> cases s.debug <;>
    simp [handlers_setUp, handlers_setLevel, handlers_setLevels, structuredHandler,
      Formatter.standard]

/-- Whatever else settings ask for, the library's logger has their level in the end. -/
theorem level_configure (s : Settings) (ls : Loggers) :
    ((configure s ls).get own).level = levelFor s := by
  unfold configure
  cases s.logJson <;> simp [setUp, setLevel, get_set]

end Loggers

inductive Tuning where
  | configured (s : Settings)
  | setUp (u : Setup)

namespace Tuning

def apply : Tuning → Loggers → Except Error Loggers
  | configured s, ls => .ok (ls.configure s)
  | setUp u, ls => ls.setUpWith u.arguments

def run (ts : List Tuning) (ls : Loggers) : Except Error Loggers :=
  ts.foldlM (fun ls t => t.apply ls) ls

def handler? (n : String) : Tuning → Option Handler
  | configured s => if s.logJson ∧ Loggers.own = n then some (Loggers.structuredHandler s) else none
  | setUp u => if u.target = n then some u.handler else none

/-- A call takes the handlers of the logger that it gives one to, and leaves those of all others. -/
theorem apply_handlers (t : Tuning) (ls : Loggers) :
    ∃ ls', t.apply ls = .ok ls' ∧
      ∀ n, (ls'.get n).handlers = ((t.handler? n).map fun h => [h]).getD (ls.get n).handlers := by
  cases t with
  | configured s =>
      refine ⟨ls.configure s, rfl, fun n => ?_⟩
      rw [Loggers.handlers_configure, handler?]
      split <;> rfl
  | setUp u =>
      refine ⟨_, Loggers.setUpWith_arguments u ls, fun n => ?_⟩
      rw [Loggers.handlers_setUp, handler?]
      split <;> rfl

theorem run_append_singleton (ts : List Tuning) (t : Tuning) (ls : Loggers) :
    run (ts ++ [t]) ls = run ts ls >>= t.apply := by
  rw [run, List.foldlM_append]
  simp only [List.foldlM_cons, List.foldlM_nil, bind_pure]
  rfl

/-- After any sequence of calls a logger has the handler of the last call that gave it one, and no
handler if none did. -/
theorem run_handlers (ts : List Tuning) {start : Loggers}
    (hstart : ∀ n, (start.get n).handlers = []) :
    ∃ ls, run ts start = .ok ls ∧
      ∀ n, (ls.get n).handlers = (History.last (handler? n) ts).toList := by
  induction ts using List.reverseRecOn with
  | nil => exact ⟨start, rfl, hstart⟩
  | append_singleton ts t ih =>
      obtain ⟨ls, hls, hhandlers⟩ := ih
      obtain ⟨ls', hls', happly⟩ := t.apply_handlers ls
      refine ⟨ls', by rw [run_append_singleton, hls]; exact hls', fun n => ?_⟩
      rw [happly, hhandlers, History.last_append_singleton]
      cases t.handler? n <;> rfl

end Tuning

end Logging

end DocSearch
