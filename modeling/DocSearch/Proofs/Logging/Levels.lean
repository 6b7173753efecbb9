import DocSearch.Proofs.Logging.Lines

/-!
# Levels that fall apart

A logger and its handler each have a level. Settings for structured logs set both, and so does a setup;
other settings set that of the logger only, and leave a handler that is already there with its own.
-/

namespace DocSearch.Logging.Tuning

open Loggers

theorem hasName_of_handler? {t : Tuning} {n : String} {h : Handler} (ht : t.handler? n = some h) :
    HasName h.format := by
  cases t with
  | configured s =>
      obtain ⟨-, rfl⟩ : _ ∧ structuredHandler s = h := by simpa [handler?] using ht
      exact ⟨_, rfl⟩
  | setUp u =>
      obtain ⟨-, rfl⟩ : _ ∧ u.handler = h := by simpa [handler?] using ht
      obtain ⟨service, level, json, name⟩ := u
      cases json with
      | none => exact ⟨_, rfl⟩
      | some j =>
          cases j with
          | false => trivial
          | true => exact ⟨_, rfl⟩

/-- The handler of the library's logger comes from the settings if they are for structured logs, and from
an earlier call otherwise. -/
theorem last_configured (ts : List Tuning) (s : Settings) :
    History.last (handler? own) (ts ++ [.configured s]) =
      if s.logJson then some (structuredHandler s) else History.last (handler? own) ts := by
  rw [History.last_append_singleton]
  cases hjson : s.logJson <;> simp [handler?, hjson]

theorem onlyOwn_append {ts : List Tuning} (h : OnlyOwn ts) (s : Settings) :
    OnlyOwn (ts ++ [.configured s]) := fun t ht n hn => by
  rcases List.mem_append.mp ht with ht | ht
  · exact h t ht n hn
  · rw [List.mem_singleton.mp ht, handler?_configured hn]

/-- After settings are put into effect, the handler of the library's logger is that of the last call
which gave it one, these settings included. A record that has the level of the settings is written by
this handler, if it can be written at all, unless the settings are not for structured logs and the handler,
which is then an earlier one, has a higher level than the record. A record with a finished message can be
written by every such handler. -/
theorem own_records_of_configured {start : Loggers} (hstart : ∀ n, (start.get n).handlers = [])
    {ts : List Tuning} (hown : OnlyOwn ts) {s : Settings} (hlevel : (levelFor s).value ≠ 0) :
    ∃ ls, run (ts ++ [.configured s]) start = .ok ls ∧
      (ls.get own).handlers = (History.last (handler? own) (ts ++ [.configured s])).toList ∧
      ∀ h ∈ (ls.get own).handlers,
        (s.logJson = true → h = structuredHandler s) ∧
        (s.logJson = false → History.last (handler? own) ts = some h) ∧
        ∀ r level, Sent r own level → (levelFor s).value ≤ level.value →
          ls.emit r = .ok (ls.know own, if s.logJson = false ∧ level.value < h.level.value then []
            else (linesFor (entered r own) h.format).toOption.getD []) ∧
          (IsReady r → ∃ line more, linesFor (entered r own) h.format = .ok (line :: more)) := by
  obtain ⟨ls, hls, hhandlers⟩ := run_handlers (ts ++ [.configured s]) hstart
  have honly := (onlyOwn_of_run (onlyOwn_append hown s) hstart hls).know own
  refine ⟨ls, hls, hhandlers own, fun h hh => ?_⟩
  rw [hhandlers, Option.mem_toList] at hh
  have hlast := hh
  rw [last_configured] at hlast
  have hjson : s.logJson = true → h = structuredHandler s := fun hjson => by
    rw [if_pos hjson] at hlast
    exact (Option.some.inj hlast).symm
  refine ⟨hjson, fun hplain => ?_, fun r level hr hle => ⟨?_, fun hready => ?_⟩⟩
  · rwa [if_neg (by simp [hplain])] at hlast
  · have hset : ((ls.know own).get own).level = levelFor s := by
      rw [get_know, level_of_configured hls]
    have hhandler : ((ls.know own).get own).handlers = [h] := by
      rw [get_know, hhandlers, hh]
      rfl
    have hnonneg := levelFor_nonneg s
    rw [emit_of_sent hr, write_own honly hhandler (by rw [hset]; omega), hset]
    by_cases hlt : level.value < h.level.value
    case pos =>
        -- the level of a structured handler is that of the settings, which the record has
        have hplain : s.logJson = false := Bool.eq_false_iff.mpr fun hj => by
          rw [hjson hj] at hlt
          exact absurd hle (Int.not_le.mpr hlt)
        rw [if_neg (fun hboth => absurd hboth.2 (Int.not_le.mpr hlt)), if_pos ⟨hplain, hlt⟩]
    case neg =>
        rw [if_pos ⟨hle, Int.not_lt.mp hlt⟩, if_neg (fun hboth => hlt hboth.2)]
  · obtain ⟨t, -, ht⟩ := History.exists_of_last hh
    have hentered : IsReady (entered r own) := ⟨hready.message, hready.arguments, hready.extra,
      hready.caught, hready.path, hready.line, hready.function⟩
    exact exists_lines_of_isReady hentered rfl hr.level hr.called (hasName_of_handler? ht)

/-- Structured logs from warnings on, and then plain logs of everything. -/
def quieted : List Settings :=
  [.ofLogs false "WARNING" true, .ofLogs true "INFO" false]

def quietLoggers : Loggers :=
  [("", ⟨.number 30, []⟩), (closed, .silent),
    (own, ⟨.number 10, [structuredHandler (.ofLogs false "WARNING" true)]⟩),
    ("elastic_transport", ⟨.number 10, []⟩)]

theorem run_quieted : run (quieted.map configured) (initial false) = .ok quietLoggers := rfl

def detail : FullRecord := { warning own "hello" [] with level := .int 10 }

theorem sent_detail : Sent detail own (.number 10) where
  logger := rfl
  level := rfl
  called := by simp [detail, levelCalled, levelNames, Value.isKey, Value.int_beq_int, Except.isOk,
    Except.toBool]

theorem isReady_detail : IsReady detail where
  message := rfl
  arguments := rfl
  extra := rfl
  caught := rfl
  path := ⟨_, plain_str _⟩
  line := ⟨_, plain_int (by decide)⟩
  function := ⟨_, plain_str _⟩

theorem emit_detail : quietLoggers.emit detail = .ok (quietLoggers.know own, []) := by
  have honly := onlyOwn_of_run (onlyOwn_configured quieted) (handlers_initial false) run_quieted
  have hhandler : ((quietLoggers.know own).get own).handlers =
      [structuredHandler (.ofLogs false "WARNING" true)] := rfl
  rw [emit_of_sent sent_detail, write_own (honly.know own) hhandler (by decide), structuredHandler,
    levelFor_warning, if_neg (by decide)]

/-- A record that is asked for does not reach the handler that is there. -/
theorem quieted_record_dropped :
    ¬ ∀ (ts : List Tuning) (s : Settings) (start ls ls' : Loggers) (r : FullRecord)
        (level : Severity) (lines : List Loggers.Line),
      (∀ n, (start.get n).handlers = []) → OnlyOwn ts → (levelFor s).value ≠ 0 →
      run (ts ++ [.configured s]) start = .ok ls → (ls.get own).handlers ≠ [] →
      Sent r own level → IsReady r → (levelFor s).value ≤ level.value →
      ls.emit r = .ok (ls', lines) → lines ≠ [] := by
  intro h
  exact h [.configured (.ofLogs false "WARNING" true)] (.ofLogs true "INFO" false) (initial false)
    quietLoggers _ _ _ _ (handlers_initial false) (onlyOwn_configured [_]) (by decide)
    run_quieted (List.cons_ne_nil _ _) sent_detail isReady_detail (by decide) emit_detail rfl

theorem own_records_of_quieted :
    quietLoggers.emit (warning own "hello" []) =
        .ok (quietLoggers.know own, [.structured (warningEntry own "hello")]) ∧
      quietLoggers.emit detail = .ok (quietLoggers.know own, []) := by
  obtain ⟨ls, hls, -, hrecords⟩ := own_records_of_configured (handlers_initial false)
    (onlyOwn_configured [.ofLogs false "WARNING" true]) (s := .ofLogs true "INFO" false) (by decide)
  obtain rfl : quietLoggers = ls := Except.ok.inj (run_quieted.symm.trans hls)
  obtain ⟨-, -, hemit⟩ := hrecords _ (List.mem_singleton_self _)
  obtain ⟨hwarned, -⟩ := hemit _ _ (sent_warning (by decide) "hello" []) (by decide)
  obtain ⟨hdropped, -⟩ := hemit _ _ sent_detail (by decide)
  have hentry : Formatter.standard.entry (entered (warning own "hello" []) own) =
      .ok (warningEntry own "hello") :=
    entry_eq levelCalled_warning (by rfl) rfl rfl (plain_str _) (plain_str _) (plain_str _)
      (plain_str _) (plain_int (by decide)) (plain_str _)
  have hlines : linesFor (entered (warning own "hello" []) own)
      (structuredHandler (.ofLogs false "WARNING" true)).format =
        .ok [.structured (warningEntry own "hello")] := by
    change (Formatter.standard.entry _).map _ = _
    rw [hentry]
    rfl
  have hlevel : (structuredHandler (.ofLogs false "WARNING" true)).level = .number 30 :=
    levelFor_warning
  rw [hwarned, hdropped, hlines, hlevel, if_neg (by decide), if_pos (by decide)]
  exact ⟨rfl, rfl⟩

end DocSearch.Logging.Tuning
