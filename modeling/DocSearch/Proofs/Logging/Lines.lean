import DocSearch.Proofs.Logging.Entries
import DocSearch.Proofs.Logging.Setups
import DocSearch.Proofs.Value.Named
import Mathlib.Data.List.Nodup

/-!
# The lines of a record

A record goes up from its logger to the one above all. No logger is on this way twice, so that the
handler of a logger writes a record once: as one line, or as the lines of its text. A record that cannot
be written in the form of a handler leaves no line.
-/

namespace DocSearch.Logging

theorem levelOf?_nonneg {name : String} {n : Int} (h : levelOf? name = some n) : 0 ≤ n := by
  have hall : ∀ e ∈ levelNames ++ levelAliases, 0 ≤ e.2 := by decide
  exact hall (name, n) (Entries.mem_of_get? h)

namespace Loggers

theorem prefix_of_mem_beginnings {p cs : List Char} (h : p ∈ beginnings cs) :
    p ≠ [] ∧ p <+: cs.reverse := by
  fun_induction beginnings cs with
  | case1 c cs ih =>
      rcases List.mem_cons.mp h with rfl | h
      · exact ⟨by simp, ⟨['.'], by simp⟩⟩
      · obtain ⟨hne, hp⟩ := ih h
        rw [List.reverse_cons, List.reverse_cons, List.append_assoc]
        exact ⟨hne, hp.trans (List.prefix_append _ _)⟩
  | case2 d cs _ ih =>
      obtain ⟨hne, hp⟩ := ih h
      rw [List.reverse_cons]
      exact ⟨hne, hp.trans (List.prefix_append _ _)⟩
  | case3 => cases h

variable {ls : Loggers}

theorem prefix_of_parent? {name p : List Char} (h : parent? ls name = some p) :
    p ≠ [] ∧ p <+: name := by
  simpa using prefix_of_mem_beginnings (List.mem_of_find?_eq_some h)

/-- The name of a logger begins with those of all loggers above it. -/
theorem prefix_of_mem_above {name p : List Char} (h : p ∈ above ls name) :
    p ≠ [] ∧ p <+: name := by
  fun_induction above ls name with
  | case1 name q hq ih =>
      have hparent := prefix_of_parent? hq
      rcases List.mem_cons.mp h with rfl | h
      · exact hparent
      · exact ⟨(ih h).1, (ih h).2.trans hparent.2⟩
  | case2 => cases h

theorem pairwise_above (ls : Loggers) (name : List Char) :
    (name :: above ls name).Pairwise fun p q => q.length < p.length := by
  fun_induction above ls name with
  | case1 name q hq ih =>
      have hlt := length_lt_of_parent? hq
      refine List.pairwise_cons.mpr ⟨fun r hr => ?_, ih⟩
      rcases List.mem_cons.mp hr with rfl | hr
      · exact hlt
      · exact Nat.lt_of_le_of_lt (prefix_of_mem_above hr).2.length_le hlt
  | case2 => exact List.pairwise_singleton _ _

theorem path_eq_map {name : String} (h : ¬ (name.isEmpty ∨ name = "root")) :
    ls.path name = ((name.toList :: above ls name.toList) ++ [[]]).map String.ofList := by
  rw [path, if_neg (by simpa using h)]
  simp [String.ofList_toList]

theorem pairwise_path (ls : Loggers) (name : String) :
    (ls.path name).Pairwise fun m n => n.length < m.length := by
  by_cases h : name.isEmpty ∨ name = "root"
  case pos =>
      rw [path, if_pos (by simpa using h)]
      exact List.pairwise_singleton _ _
  case neg =>
      rw [path_eq_map h, List.pairwise_map, List.pairwise_append]
      simp only [String.length_ofList]
      refine ⟨pairwise_above ls name.toList, List.pairwise_singleton _ _, fun p hp q hq => ?_⟩
      rw [List.mem_singleton.mp hq]
      refine List.length_pos_of_ne_nil ?_
      rcases List.mem_cons.mp hp with rfl | hp
      · simpa using fun hempty => h (Or.inl (by simp [hempty]))
      · exact (prefix_of_mem_above hp).1

theorem nodup_path (ls : Loggers) (name : String) : (ls.path name).Nodup :=
  (pairwise_path ls name).imp fun {m n} hlt hmn => by
    rw [hmn] at hlt
    exact Nat.lt_irrefl _ hlt

/-- The names on the way up are beginnings of the name of the logger. -/
theorem prefix_of_mem_path {name m : String} (h : m ∈ ls.path name) : m.toList <+: name.toList := by
  by_cases hn : name.isEmpty ∨ name = "root"
  case pos =>
      rw [path, if_pos (by simpa using hn), List.mem_singleton] at h
      rw [h]
      exact List.nil_prefix
  case neg =>
      rw [path_eq_map hn, List.map_append] at h
      rcases List.mem_append.mp h with h | h
      · obtain ⟨p, hp, rfl⟩ := List.mem_map.mp h
        rw [String.toList_ofList]
        rcases List.mem_cons.mp hp with rfl | hp
        · exact List.prefix_refl _
        · exact (prefix_of_mem_above hp).2
      · simp at h
        simp [h]

theorem takeWhile_append_sublist {ns : List String} {n : String} (h : n ∈ ns) :
    (ns.takeWhile (· ≠ n) ++ [n]).Sublist ns := by
  induction ns with
  | nil => cases h
  | cons m ns ih =>
      by_cases hm : m = n
      case pos => simp [hm]
      case neg =>
          have hn : n ∈ ns := (List.mem_cons.mp h).resolve_left (Ne.symm hm)
          simpa [hm] using (ih hn).cons_cons m

theorem nodup_reached (ls : Loggers) (name : String) : (ls.reached name).Nodup := by
  unfold reached
  simp only
  split
  case isTrue h => exact (nodup_path ls name).sublist (takeWhile_append_sublist (by simpa using h))
  case isFalse => exact nodup_path ls name

/-- The closed logger is not above any below the library's own. -/
theorem own_mem_reached {name : String} (h : own ∈ ls.path name) : own ∈ ls.reached name := by
  have hopen : closed ∉ ls.path name := fun hc => by
    rcases List.prefix_or_prefix_of_prefix (prefix_of_mem_path h) (prefix_of_mem_path hc) with h | h
    · exact absurd h (by decide)
    · exact absurd h (by decide)
  rwa [reached, if_neg (by simpa using hopen)]

/-- The library's own logger is on the way up from a logger, and none before it has a level. -/
def Inherits (ls : Loggers) (name : String) : Prop :=
  own ∈ ls.path name ∧ ∀ m ∈ (ls.path name).takeWhile (· ≠ own), (ls.get m).level.value = 0

theorem find?_of_takeWhile {ns : List String} {level : String → Int} {n : String} (hn : n ∈ ns)
    (hbefore : ∀ m ∈ ns.takeWhile (· ≠ n), level m = 0) (hlevel : level n ≠ 0) :
    (ns.map level).find? (· ≠ 0) = some (level n) := by
  induction ns with
  | nil => cases hn
  | cons m ns ih =>
      by_cases hm : m = n
      case pos => simp [hm, hlevel]
      case neg =>
          have hmem : n ∈ ns := (List.mem_cons.mp hn).resolve_left (Ne.symm hm)
          rw [List.takeWhile_cons_of_pos (by simpa using hm)] at hbefore
          rw [List.map_cons, List.find?_cons_of_neg (by simp [hbefore m (List.mem_cons_self ..)])]
          exact ih hmem fun k hk => hbefore k (List.mem_cons_of_mem _ hk)

theorem effectiveLevel_of_inherits {name : String} (h : ls.Inherits name)
    (hlevel : (ls.get own).level.value ≠ 0) :
    ls.effectiveLevel name = (ls.get own).level.value := by
  rw [effectiveLevel, find?_of_takeWhile h.1 h.2 hlevel, Option.getD_some]

/-- No logger but the library's own has handlers. -/
def OnlyOwn (ls : Loggers) : Prop :=
  ∀ n, n ≠ own → (ls.get n).handlers = []

theorem OnlyOwn.know (h : ls.OnlyOwn) (m : String) : (ls.know m).OnlyOwn := fun n hn => by
  rw [get_know]
  exact h n hn

theorem flatMap_of_only {α : Type} {f : String → List α} {n : String} {ns : List String}
    (hns : ns.Nodup) (hf : ∀ m, m ≠ n → f m = []) :
    ns.flatMap f = if n ∈ ns then f n else [] := by
  induction ns with
  | nil => rfl
  | cons m ns ih =>
      obtain ⟨hm, hns⟩ := List.nodup_cons.mp hns
      rw [List.flatMap_cons, ih hns]
      by_cases hmn : m = n
      case pos =>
          subst hmn
          simp [hm]
      case neg => simp [hf m hmn, Ne.symm hmn]

theorem handlersFor_of_onlyOwn (h : ls.OnlyOwn) (name : String) (level : Int) :
    ls.handlersFor name level =
      if ls.passes name level ∧ own ∈ ls.reached name
      then (ls.get own).handlers.filter (·.level.value ≤ level) else [] := by
  rw [handlersFor, flatMap_of_only (nodup_reached ls name) h]
  by_cases hpass : ls.passes name level = true <;> by_cases hmem : own ∈ ls.reached name <;>
    simp [hpass, hmem]

/-- Where only the library's own logger has a handler, a record that passes its logger is written if the
level of the handler lets it pass as well, and if it can be written at all. -/
theorem write_of_onlyOwn (honly : ls.OnlyOwn) {h : Handler} (hown : (ls.get own).handlers = [h])
    {name : String} (hname : own ∈ ls.path name) (level : Int) (r : FullRecord) :
    ls.write name level r =
      if ls.passes name level ∧ h.level.value ≤ level then (linesFor r h.format).toOption.getD []
      else [] := by
  rw [write, handlersFor_of_onlyOwn honly, hown]
  by_cases hpass : ls.passes name level = true <;> by_cases hle : h.level.value ≤ level <;>
    simp [hpass, hle, own_mem_reached hname]

/-- Nothing is written, or what the one handler makes of the record. -/
theorem write_eq_nil_or (honly : ls.OnlyOwn) {h? : Option Handler}
    (hown : (ls.get own).handlers = h?.toList) (name : String) (level : Int) (r : FullRecord) :
    ls.write name level r = [] ∨
      ∃ h, h? = some h ∧ linesFor r h.format = .ok (ls.write name level r) := by
  rw [write, handlersFor_of_onlyOwn honly, hown]
  split
  case isFalse => exact Or.inl rfl
  case isTrue =>
      cases h? with
      | none => exact Or.inl rfl
      | some h =>
          rw [Option.toList_some, List.filter_singleton]
          cases hle : decide (h.level.value ≤ level) with
          | false => exact Or.inl rfl
          | true =>
              rw [cond_true, List.flatMap_singleton]
              cases hlines : linesFor r h.format with
              | error e => exact Or.inl rfl
              | ok lines => exact Or.inr ⟨h, rfl, hlines⟩

/-- More than one line is written only for a text that has line breaks. -/
theorem lines_of_linesFor {r : FullRecord} {f : LineFormat} {lines : List Line}
    (h : linesFor r f = .ok lines) :
    lines.length ≤ 1 ∨ f = .plain ∧
      ∃ text, r.text = .ok text ∧ '\n' ∈ text.toList ∧ lines = Line.ofText text := by
  cases f with
  | structured service =>
      obtain ⟨e, -, rfl⟩ := Except.map_eq_ok_iff.mp h
      exact Or.inl (Nat.le_refl 1)
  | plain =>
      obtain ⟨text, htext, rfl⟩ := Except.map_eq_ok_iff.mp h
      by_cases hbreak : '\n' ∈ text.toList
      case pos => exact Or.inr ⟨rfl, text, htext, hbreak, rfl⟩
      case neg =>
          rw [Line.ofText, Text.pieces_of_not_mem hbreak]
          exact Or.inl (Nat.le_refl 1)

theorem inherits_own (ls : Loggers) : ls.Inherits own := by
  obtain ⟨ns, hns⟩ : ∃ ns, ls.path own = own :: ns := ⟨_, if_neg (by decide)⟩
  rw [Inherits, hns]
  exact ⟨List.mem_cons_self .., by simp⟩

/-- The library's own logger goes by its own level. -/
theorem write_own (honly : ls.OnlyOwn) {h : Handler} (hown : (ls.get own).handlers = [h])
    (hlevel : 0 < (ls.get own).level.value) (level : Int) (r : FullRecord) :
    ls.write own level r =
      if (ls.get own).level.value ≤ level ∧ h.level.value ≤ level
      then (linesFor r h.format).toOption.getD [] else [] := by
  have hpass : ls.passes own level = true ↔ (ls.get own).level.value ≤ level := by
    rw [passes, effectiveLevel_of_inherits (inherits_own ls) (by omega), Bool.and_eq_true,
      decide_eq_true_eq, decide_eq_true_eq]
    omega
  rw [write_of_onlyOwn honly hown (inherits_own ls).1]
  simp only [hpass]

theorem beginnings_append {cs : List Char} (h : '.' ∉ cs) (ds : List Char) :
    beginnings (cs ++ ds) = beginnings ds := by
  induction cs with
  | nil => rfl
  | cons c cs ih =>
      rw [List.mem_cons, not_or] at h
      rw [List.cons_append, beginnings, ih h.2]
      rintro d ds rfl
      exact absurd rfl h.1

theorem parent?_of_part {part : String} (hown : Entries.has ls own) (hpart : '.' ∉ part.toList) :
    parent? ls (own ++ "." ++ part).toList = some own.toList := by
  have hname : (own ++ "." ++ part).toList.reverse =
      part.toList.reverse ++ '.' :: own.toList.reverse := by simp
  have hbeginnings : beginnings ('.' :: own.toList.reverse) = [own.toList] := by decide
  rw [parent?, hname, beginnings_append (by simpa using hpart), hbeginnings,
    List.find?_cons_of_pos (by rwa [String.ofList_toList])]

/-- A logger directly below the library's own one takes its level from it if it has none. -/
theorem inherits_of_part (part : String) (hown : Entries.has ls own) (hpart : '.' ∉ part.toList)
    (hlevel : (ls.get (own ++ "." ++ part)).level.value = 0) :
    ls.Inherits (own ++ "." ++ part) := by
  have hparent := parent?_of_part hown hpart
  have hlength : (own ++ "." ++ part).length = 10 + part.length := by
    rw [String.length_append]
    rfl
  have hne : own ++ "." ++ part ≠ own := fun h => by
    rw [h] at hlength
    have : own.length = 9 := rfl
    omega
  have hroot : ¬ ((own ++ "." ++ part).isEmpty ∨ own ++ "." ++ part = "root") := by
    rintro (h | h)
    · rw [String.isEmpty_iff.mp h] at hlength
      have : "".length = 0 := rfl
      omega
    · rw [h] at hlength
      have : "root".length = 4 := rfl
      omega
  have hpath : ls.path (own ++ "." ++ part) =
      (own ++ "." ++ part) :: own :: ((above ls own.toList).map String.ofList ++ [""]) := by
    rw [path_eq_map hroot, above]
    split
    case h_1 p hp =>
        obtain rfl : own.toList = p := Option.some.inj (hparent.symm.trans hp)
        simp only [List.map_append, List.map_cons, String.ofList_toList, List.cons_append]
        rfl
    case h_2 hp => rw [hparent] at hp; cases hp
  rw [Inherits, hpath]
  refine ⟨by simp, fun m hm => ?_⟩
  obtain rfl : m = own ++ "." ++ part := by simpa [hne] using hm
  exact hlevel

/-- A record with the name that its logger is shown by. -/
def entered (r : FullRecord) (name : String) : FullRecord :=
  { r with logger := .str (shownName name) }

/-- A record for a logger of that name and of that level, which can be written down. -/
structure Sent (r : FullRecord) (name : String) (level : Severity) : Prop where
  logger : nameOf r.logger = .ok name
  level : severityOf r.level = .ok level
  called : (levelCalled r.level).isOk = true

theorem emit_of_sent {r : FullRecord} {name : String} {level : Severity} (h : Sent r name level) :
    ls.emit r =
      .ok (ls.know name, (ls.know name).write name level.value (entered r name)) := by
  obtain ⟨called, hcalled⟩ := Except.exists_of_isOk h.called
  rw [emit, h.logger, Except.ok_bind, h.level, Except.ok_bind, hcalled]
  dsimp only
  split <;> rfl

theorem levelFor_nonneg (s : Settings) : 0 ≤ (levelFor s).value := by
  unfold levelFor
  split
  case isTrue => decide
  case isFalse =>
      change 0 ≤ requestedLevel s.logLevel
      unfold requestedLevel
      cases h : levelOf? (Text.latinCapitals s.logLevel) with
      | none => decide
      | some n => exact levelOf?_nonneg h

end Loggers

namespace Tuning

open Loggers

/-- The calls give handlers to the library's own logger only. -/
def OnlyOwn (ts : List Tuning) : Prop :=
  ∀ t ∈ ts, ∀ n, n ≠ own → t.handler? n = none

theorem handler?_configured {s : Settings} {n : String} (h : n ≠ own) :
    (configured s).handler? n = none :=
  if_neg fun hs => h hs.2.symm

theorem onlyOwn_configured (ss : List Settings) : OnlyOwn (ss.map configured) := fun t ht n hn => by
  obtain ⟨s, -, rfl⟩ := List.mem_map.mp ht
  exact handler?_configured hn

theorem last_of_onlyOwn {ts : List Tuning} (h : OnlyOwn ts) {n : String} (hn : n ≠ own) :
    History.last (handler? n) ts = none := by
  have hnone : ts.filterMap (handler? n) = [] :=
    List.filterMap_eq_nil_iff.mpr fun t ht => h t ht n hn
  rw [History.last, hnone]
  rfl

theorem onlyOwn_of_run {ts : List Tuning} {start ls : Loggers} (hown : OnlyOwn ts)
    (hstart : ∀ n, (start.get n).handlers = []) (h : run ts start = .ok ls) : ls.OnlyOwn := by
  obtain ⟨ls', hls, hhandlers⟩ := run_handlers ts hstart
  obtain rfl : ls' = ls := Except.ok.inj (hls.symm.trans h)
  intro n hn
  rw [hhandlers, last_of_onlyOwn hown hn]
  rfl

/-- Settings that are put into effect last are those of the library's own logger. -/
theorem level_of_configured {ts : List Tuning} {s : Settings} {start ls : Loggers}
    (h : run (ts ++ [.configured s]) start = .ok ls) : (ls.get own).level = levelFor s := by
  rw [run_append_singleton] at h
  obtain ⟨before, -, happly⟩ := Except.bind_eq_ok_iff.mp h
  rw [← Except.ok.inj happly]
  exact level_configure s before

/-- After any sequence of calls every logger has at most one handler: that of the last call which gave
it one. Where only the library's own logger was set up, a record is written at most once, as one line or
as the lines of its text. If the last call put settings for structured logs into effect, a record of that
logger or one below it is written as one entry exactly if it has an entry, its logger lets it pass and it
has the level of the settings, which is the one that the logger goes by if it takes its level from the
library's own. -/
theorem lines_of_setups {start : Loggers} (hstart : ∀ n, (start.get n).handlers = [])
    (ts : List Tuning) :
    ∃ ls, run ts start = .ok ls ∧
      (∀ n, (ls.get n).handlers = (History.last (handler? n) ts).toList) ∧
      (∀ n, (ls.get n).handlers ≠ [] ↔ ∃ t ∈ ts, (t.handler? n).isSome) ∧
      (OnlyOwn ts → ∀ r name level, Sent r name level →
        ∃ lines, ls.emit r = .ok (ls.know name, lines) ∧
          (lines.length ≤ 1 ∨ ∃ h text, (ls.get own).handlers = [h] ∧ h.format = .plain ∧
            (entered r name).text = .ok text ∧ '\n' ∈ text.toList ∧
              lines = Loggers.Line.ofText text) ∧
          ∀ s, ts.getLast? = some (.configured s) → s.logJson = true → (levelFor s).value ≠ 0 →
            own ∈ (ls.know name).path name →
              ((ls.know name).Inherits name →
                (ls.know name).effectiveLevel name = (levelFor s).value) ∧
              lines =
                if (ls.know name).effectiveLevel name ≤ level.value ∧
                    (levelFor s).value ≤ level.value
                then (Formatter.standard.entry (entered r name)).toOption.toList.map .structured
                else []) := by
  obtain ⟨ls, hls, hhandlers⟩ := run_handlers ts hstart
  refine ⟨ls, hls, hhandlers, fun n => ?_, fun hown r name level hr => ?_⟩
  · rw [hhandlers n, ← History.last_isSome_iff]
    cases History.last (handler? n) ts <;> simp
  have honly := (onlyOwn_of_run hown hstart hls).know name
  refine ⟨_, emit_of_sent hr, ?_, fun s hlast hjson hlevel hname => ?_⟩
  · have hhandler : ((ls.know name).get own).handlers = (History.last (handler? own) ts).toList := by
      rw [get_know, hhandlers]
    rcases write_eq_nil_or honly hhandler name level.value (entered r name) with
      hnil | ⟨h, hh, hlines⟩
    · rw [hnil]
      exact Or.inl (Nat.zero_le 1)
    · refine (lines_of_linesFor hlines).imp id ?_
      rintro ⟨hplain, text, htext, hbreak, heq⟩
      exact ⟨h, text, by rw [hhandlers, hh]; rfl, hplain, htext, hbreak, heq⟩
  · obtain ⟨before, rfl⟩ := List.getLast?_eq_some_iff.mp hlast
    have hset : ((ls.know name).get own).level = levelFor s := by
      rw [get_know, level_of_configured hls]
    have hhandler : ((ls.know name).get own).handlers = [structuredHandler s] := by
      rw [get_know, hhandlers, History.last_append_singleton]
      simp [handler?, hjson]
    refine ⟨fun hinherits => ?_, ?_⟩
    · rw [effectiveLevel_of_inherits hinherits (by rwa [hset]), hset]
    · have hnonneg := levelFor_nonneg s
      have hiff : (ls.know name).passes name level.value = true ∧
            (structuredHandler s).level.value ≤ level.value ↔
          (ls.know name).effectiveLevel name ≤ level.value ∧
            (levelFor s).value ≤ level.value := by
        simp only [passes, Bool.and_eq_true, decide_eq_true_eq, structuredHandler]
        omega
      rw [write_of_onlyOwn honly hhandler hname]
      simp only [hiff]
      split
      case isFalse => rfl
      case isTrue =>
          change ((Formatter.standard.entry (entered r name)).map _).toOption.getD [] = _
          cases Formatter.standard.entry (entered r name) <;> rfl

theorem levelFor_warning : levelFor (.ofLogs false "WARNING" true) = .number 30 := by
  have hlevel : requestedLevel "WARNING" = 30 := by decide +kernel
  exact congrArg Severity.number hlevel

theorem levelCalled_warning : levelCalled (.int 30) = .ok (.str "WARNING") := by
  simp [levelCalled, levelNames, Value.isKey, Value.int_beq_int]

/-- A warning of the library with a message and its arguments. -/
def warning (logger template : String) (arguments : List Value) : FullRecord where
  logger := .str logger
  level := .int 30
  path := .str "app.py"
  line := .int 1
  function := .str "main"
  template := .str template
  arguments := arguments
  extra := none
  caught := none
  stack := none

theorem sent_warning {logger : String} (h : logger ≠ "root") (template : String)
    (arguments : List Value) :
    Sent (warning logger template arguments) logger (.number 30) where
  logger := (nameOf_str logger).trans (by rw [if_neg h])
  level := rfl
  called := by
    rw [warning, levelCalled_warning]
    rfl

def warningEntry (logger message : String) : Value :=
  .object [("level", .str "WARNING"), ("logger", .str logger), ("message", .str message),
    ("service", .str "esbuilder"),
    ("location", .object [("file", .str "app.py"), ("line", .int 1), ("function", .str "main")])]

/-- The library's own logger is set up for plain logs. -/
def setPlain : Tuning := .setUp ⟨none, none, some false, none⟩

/-- Plain logs, and then structured logs from warnings on. -/
def restructured : List Tuning :=
  [setPlain, .configured (.ofLogs false "WARNING" true)]

theorem onlyOwn_restructured : OnlyOwn restructured := by
  intro t ht n hn
  rcases List.mem_pair.mp ht with rfl | rfl
  · exact if_neg (Ne.symm hn)
  · exact handler?_configured hn

/-- A record of a logger below the library's own one. -/
theorem lines_of_restructured :
    ∃ ls, run restructured (initial false) = .ok ls ∧
      ls.emit (warning "esbuilder.builder" "%d hits" [.int 3]) =
        .ok (ls.know "esbuilder.builder",
          [.structured (warningEntry "esbuilder.builder" "3 hits")]) := by
  obtain ⟨ls, hls, -, -, hlines⟩ := lines_of_setups (handlers_initial false) restructured
  have hsent := sent_warning (show "esbuilder.builder" ≠ "root" by decide) "%d hits" [.int 3]
  obtain ⟨lines, hemit, -, hexact⟩ := hlines onlyOwn_restructured _ _ _ hsent
  have hinherits : (ls.know "esbuilder.builder").Inherits "esbuilder.builder" := by
    rw [← Except.ok.inj hls]
    exact inherits_of_part "builder" rfl (by decide) rfl
  obtain ⟨heffective, hwritten⟩ := hexact (.ofLogs false "WARNING" true) rfl rfl
    (by rw [levelFor_warning]; decide) hinherits.1
  have hentry : Formatter.standard.entry
      (entered (warning "esbuilder.builder" "%d hits" [.int 3]) "esbuilder.builder") =
        .ok (warningEntry "esbuilder.builder" "3 hits") :=
    entry_eq levelCalled_warning (by rfl) rfl rfl (plain_str _) (plain_str _) (plain_str _)
      (plain_str _) (plain_int (by decide)) (plain_str _)
  refine ⟨ls, hls, ?_⟩
  rw [heffective hinherits, levelFor_warning, hentry, if_pos (by decide)] at hwritten
  rw [hemit, hwritten]
  rfl

/-! ### Texts with line breaks, and messages that do not fit -/

theorem onlyOwn_setPlain : OnlyOwn [setPlain] := fun t ht n hn => by
  rw [List.mem_singleton.mp ht]
  exact if_neg (Ne.symm hn)

def plainLoggers : Loggers :=
  [("", ⟨.number 30, []⟩), (closed, .silent), (own, ⟨.number 20, [⟨.number 20, .plain⟩]⟩)]

theorem run_setPlain : run [setPlain] (initial false) = .ok plainLoggers := rfl

theorem emit_broken_text : plainLoggers.emit (warning own "a\nb" []) =
    .ok (plainLoggers.know own, [.plain "esbuilder - WARNING - a", .continued "b"]) := by
  have honly := (onlyOwn_of_run onlyOwn_setPlain (handlers_initial false) run_setPlain).know own
  have htext : (entered (warning own "a\nb" []) own).text = .ok "esbuilder - WARNING - a\nb" := by
    rw [FullRecord.text, entered, warning, levelCalled_warning]
    rfl
  rw [emit_of_sent (sent_warning (by decide) _ _),
    write_own honly (h := ⟨.number 20, .plain⟩) rfl (by decide), if_pos (by decide), linesFor, htext]
  rfl

def strictLoggers : Loggers :=
  (initial false).configure (.ofLogs false "WARNING" true)

theorem run_strict : run ([] ++ [.configured (.ofLogs false "WARNING" true)]) (initial false) =
    .ok strictLoggers := rfl

theorem emit_unfitting : strictLoggers.emit (warning own "%d hits" [.str "x"]) =
    .ok (strictLoggers.know own, []) := by
  have honly := (onlyOwn_of_run (onlyOwn_configured [.ofLogs false "WARNING" true])
    (handlers_initial false) run_strict).know own
  have hlevel : 0 < ((strictLoggers.know own).get own).level.value := by
    rw [get_know, strictLoggers, level_configure, levelFor_warning]
    decide
  have hmessage : message (.str "%d hits") [.str "x"] = .error .wrongKind := by rfl
  rw [emit_of_sent (sent_warning (by decide) _ _),
    write_own honly (h := structuredHandler (.ofLogs false "WARNING" true)) rfl hlevel,
    structuredHandler, linesFor, Formatter.entry, entered, warning, levelCalled_warning,
    Except.ok_bind, hmessage]
  exact congrArg (fun lines => Except.ok (strictLoggers.know own, lines)) (ite_self [])

/-- A text with a line break takes two lines, and a record whose arguments do not fit its message takes
none. -/
theorem lines_of_misfits :
    (¬ ∀ (ts : List Tuning) (ls : Loggers) (r : FullRecord) (name : String) (level : Severity)
        (lines : List Loggers.Line),
      OnlyOwn ts → run ts (initial false) = .ok ls → Sent r name level →
        ls.emit r = .ok (ls.know name, lines) → lines.length ≤ 1) ∧
      ¬ ∀ (ts : List Tuning) (s : Settings) (ls : Loggers) (r : FullRecord) (level : Severity)
          (lines : List Loggers.Line),
        OnlyOwn ts → run (ts ++ [.configured s]) (initial false) = .ok ls →
        s.logJson = true → (levelFor s).value ≠ 0 → Sent r own level →
          (levelFor s).value ≤ level.value → ls.emit r = .ok (ls.know own, lines) →
            lines.length = 1 := by
  constructor
  · intro h
    have hone := h [setPlain] plainLoggers _ own _ _ onlyOwn_setPlain run_setPlain
      (sent_warning (by decide) "a\nb" []) emit_broken_text
    exact absurd hone (by decide)
  · intro h
    have hone := h [] (.ofLogs false "WARNING" true) strictLoggers _ _ _ nofun run_strict rfl
      (by rw [levelFor_warning]; decide) (sent_warning (by decide) "%d hits" [.str "x"])
      (Int.le_of_eq (congrArg Severity.value levelFor_warning)) emit_unfitting
    cases hone

end Tuning

end DocSearch.Logging
