import DocSearch.Logging.Loggers
import DocSearch.Proofs.Action.Outcomes
import DocSearch.Proofs.Value.Named
import Mathlib.Data.List.Forall2

/-!
# Records that can be written

A record has an entry if its arguments fit its message and all that it holds has a place in one. The
records of a program that come with a finished message can be written in both forms.
-/

namespace DocSearch.Logging

/-! ## Values in entries -/

theorem plain_str (s : String) : plain (.str s) = .ok (.str s) := by rfl

theorem plain_int {n : Int} (h : Value.isShort n = true) : plain (.int n) = .ok (.int n) := by
  rw [plain, if_pos h]

theorem plainEntries_named {es fs : List (String × Value)}
    (h : List.Forall₂ (fun e f => e.1 = f.1 ∧ plain e.2 = .ok f.2) es fs) :
    plainEntries (Value.named es) = .ok (Value.named fs) := by
  induction h with
  | nil => rfl
  | @cons e f es fs hef _ ih =>
      obtain ⟨k, v⟩ := e
      obtain ⟨j, w⟩ := f
      obtain ⟨rfl, hvalue⟩ := hef
      change plainEntries ((Value.str k, v) :: Value.named es) = _
      rw [plainEntries, ih, hvalue]
      rfl

/-- A dictionary with different texts as keys keeps them in their order. -/
theorem plain_object {es fs : List (String × Value)} (hkeys : (Entries.keys fs).Nodup)
    (h : List.Forall₂ (fun e f => e.1 = f.1 ∧ plain e.2 = .ok f.2) es fs) :
    plain (.object es) = .ok (.object fs) := by
  have hfs : Value.IsNamed ([] ++ Value.named fs) := ⟨fs, rfl, hkeys⟩
  change (plainEntries (Value.named es)).map _ = _
  rw [plainEntries_named h]
  change Except.ok (Value.dict (Entries.putAll [] (Value.named fs))) = _
  rw [hfs.putAll_eq_append]
  rfl

/-! ## Entries -/

variable {r : FullRecord}

/-- The entry of a record that is about nothing else than its message. -/
theorem entry_eq {f : Formatter} {called called' logger service path line function : Value}
    {text : String} (hcalled : levelCalled r.level = .ok called)
    (htext : message r.template r.arguments = .ok text) (hextra : r.extra = none)
    (hcaught : r.caught = none) (hlevel : plain called = .ok called')
    (hlogger : plain r.logger = .ok logger) (hservice : plain f.service = .ok service)
    (hpath : plain r.path = .ok path) (hline : plain r.line = .ok line)
    (hfunction : plain r.function = .ok function) :
    f.entry r = .ok (.object [("level", called'), ("logger", logger), ("message", .str text),
      ("service", service),
      ("location", .object [("file", path), ("line", line), ("function", function)])]) := by
  have hplace : ["file", "line", "function"].Nodup := by decide
  have hkeys : ["level", "logger", "message", "service", "location"].Nodup := by decide
  have hlocation : plain (.object [("file", r.path), ("line", r.line), ("function", r.function)]) =
      .ok (.object [("file", path), ("line", line), ("function", function)]) :=
    plain_object hplace (.cons ⟨rfl, hpath⟩ (.cons ⟨rfl, hline⟩ (.cons ⟨rfl, hfunction⟩ .nil)))
  have hnone : f.caughtEntries r = .ok [] := by rw [Formatter.caughtEntries, hcaught]
  rw [Formatter.entry, hcalled, Except.ok_bind, htext, Except.ok_bind, hnone, Except.ok_bind,
    hextra]
  exact plain_object hkeys (.cons ⟨rfl, hlevel⟩ (.cons ⟨rfl, hlogger⟩
    (.cons ⟨rfl, plain_str text⟩ (.cons ⟨rfl, hservice⟩ (.cons ⟨rfl, hlocation⟩ .nil)))))

/-- A number is called by a word. -/
theorem exists_word_of_called {v called : Value} {level : Severity} (hv : severityOf v = .ok level)
    (h : levelCalled v = .ok called) : ∃ s, called = .str s := by
  have hword : v.word?.bind levelOf? = none := by
    cases v with
    | int | bool => rfl
    | _ => cases hv
  unfold levelCalled at h
  split at h
  · cases h
  rw [hword] at h
  split at h
  · exact ⟨_, (Except.ok.inj h).symm⟩
  · rename_i hsome
    cases hsome
  · obtain ⟨t, -, ht⟩ := Except.map_eq_ok_iff.mp h
    exact ⟨_, ht.symm⟩

/-- A record with a finished message about the place that it was made at. -/
structure IsReady (r : FullRecord) : Prop where
  message : r.template.isWritable = true
  arguments : r.arguments = []
  extra : r.extra = none
  caught : r.caught = none
  path : ∃ v, plain r.path = .ok v
  line : ∃ v, plain r.line = .ok v
  function : ∃ v, plain r.function = .ok v

theorem IsReady.message_eq (h : IsReady r) :
    Logging.message r.template r.arguments = .ok r.template.text := by
  rw [Logging.message, Value.written_of_isWritable h.message, h.arguments]
  rfl

namespace Loggers

/-- A handler as it is set up has a text for the service. -/
def HasName : LineFormat → Prop
  | .structured service => ∃ s, service = .str s
  | .plain => True

/-- Such a record can be written in every form. -/
theorem exists_lines_of_isReady (h : IsReady r) {logger : String} (hlogger : r.logger = .str logger)
    {level : Severity} (hlevel : severityOf r.level = .ok level)
    (hcalled : (levelCalled r.level).isOk = true) {f : LineFormat} (hf : HasName f) :
    ∃ line more, linesFor r f = .ok (line :: more) := by
  obtain ⟨called, hcalled⟩ := Except.exists_of_isOk hcalled
  obtain ⟨word, rfl⟩ := exists_word_of_called hlevel hcalled
  cases f with
  | structured service =>
      obtain ⟨service, rfl⟩ := hf
      obtain ⟨path, hpath⟩ := h.path
      obtain ⟨line, hline⟩ := h.line
      obtain ⟨function, hfunction⟩ := h.function
      have hentry := entry_eq (f := { Formatter.standard with service := .str service }) hcalled
        h.message_eq h.extra h.caught (plain_str word)
        ((congrArg plain hlogger).trans (plain_str logger)) (plain_str service) hpath hline hfunction
      rw [linesFor, hentry]
      exact ⟨_, [], rfl⟩
  | plain =>
      obtain ⟨text, htext⟩ : ∃ text, r.text = .ok text := by
        rw [FullRecord.text, hcalled, Except.ok_bind, h.message_eq, Except.ok_bind, hlogger]
        exact ⟨_, rfl⟩
      have hpieces := Text.pieces_ne_nil '\n' text.toList
      rw [linesFor, htext, Except.map, Line.ofText]
      cases hp : Text.pieces '\n' text.toList with
      | nil => exact absurd hp hpieces
      | cons p ps => exact ⟨_, _, rfl⟩

end Loggers

end DocSearch.Logging
