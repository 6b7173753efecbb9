import DocSearch.Proofs.Builder.Consumption
import DocSearch.Proofs.Value.Named

/-!
# Strict and lenient builders

A strict builder and a lenient one run alike: whatever they are used for, they hold the same document
and end in the same way. They part only where clauses are to be added under a word that names no
operator or logic. There the strict builder fails and the lenient one warns, and neither of them
changes, so they go on alike. Under a value without a text both of them fail.
-/

namespace DocSearch

open DocSearch.Action

/-! ## Words that name a member of a table -/

namespace Table

def words : Table → List String
  | operator => signs operator ++ Entries.keys Operator.aliases
  | logic => signs logic ++ Entries.keys Logic.aliases

/-- The value is a member of the table, or its text without blanks around it and in lower case is a
sign or an alias. -/
def Names (t : Table) (v : Value) : Prop :=
  (∃ s : Symbol, v = .symbol s ∧ s.table = t) ∨ ∃ w ∈ t.words, callerWord v = .ok w

theorem ofWord?_operator_eq_none_iff {w : String} :
    Operator.ofWord? w = none ↔ w ∉ words operator := by
  unfold Operator.ofWord? words signs
  rw [Option.or_eq_none_iff, Entries.get?_eq_none_iff, List.find?_eq_none, List.mem_append]
  simp [and_comm, not_or]

theorem ofWord?_logic_eq_none_iff {w : String} : Logic.ofWord? w = none ↔ w ∉ words logic := by
  unfold Logic.ofWord? words signs
  rw [Option.or_eq_none_iff, Entries.get?_eq_none_iff, List.find?_eq_none, List.mem_append]
  simp [and_comm, not_or]

/-- A value that is no member of the table is looked up by its text. -/
theorem not_names_iff {t : Table} {v : Value} (h : ∀ s : Symbol, v = .symbol s → s.table ≠ t) :
    ¬ t.Names v ↔ ∀ w, callerWord v = .ok w → w ∉ t.words := by
  unfold Names
  rw [not_or]
  constructor
  · rintro ⟨-, hwords⟩ w hw hmem
    exact hwords ⟨w, hmem, hw⟩
  · intro hwords
    refine ⟨?_, fun ⟨w, hmem, hw⟩ => hwords w hw hmem⟩
    rintro ⟨s, hv, hs⟩
    exact h s hv hs

/-- Looking up a word ends with nothing exactly if the value has a text that is no word of the table. -/
theorem map_callerWord_eq_none_iff {α : Type} {find : String → Option α} {t : Table} {v : Value}
    (hother : ∀ s : Symbol, v = .symbol s → s.table ≠ t)
    (hfind : ∀ w, find w = none ↔ w ∉ t.words) :
    (callerWord v).map find = .ok none ↔ v.isWritable = true ∧ ¬ t.Names v := by
  simp only [Except.map_eq_ok_iff, hfind, not_names_iff hother, callerWord_eq_ok_iff]
  constructor
  · rintro ⟨w, ⟨hwritable, rfl⟩, hw⟩
    exact ⟨hwritable, fun u hu => hu.2 ▸ hw⟩
  · rintro ⟨hwritable, hwords⟩
    exact ⟨_, ⟨hwritable, rfl⟩, hwords _ ⟨hwritable, rfl⟩⟩

theorem resolve_eq_none_iff {t : Table} {v : Value} :
    t.resolve v = .ok none ↔ v.isWritable = true ∧ ¬ t.Names v := by
  cases t with
  | operator =>
      have hmap : (operator.resolve v = .ok none) ↔ Operator.resolve v = .ok none := by
        rcases h : Operator.resolve v with e | _ | o <;> simp [resolve, h, Except.map]
      rw [hmap]
      unfold Operator.resolve
      split
      case h_1 o =>
          exact iff_of_false (by simp) fun h => h.2 (Or.inl ⟨.operator o, rfl, rfl⟩)
      case h_2 h =>
          refine map_callerWord_eq_none_iff ?_ fun w => ofWord?_operator_eq_none_iff
          rintro (o | l) hv hs
          · exact h o hv
          · cases hs
  | logic =>
      have hmap : (logic.resolve v = .ok none) ↔ Logic.resolve v = .ok none := by
        rcases h : Logic.resolve v with e | _ | l <;> simp [resolve, h, Except.map]
      rw [hmap]
      unfold Logic.resolve
      split
      case h_1 l =>
          exact iff_of_false (by simp) fun h => h.2 (Or.inl ⟨.logic l, rfl, rfl⟩)
      case h_2 h =>
          refine map_callerWord_eq_none_iff ?_ fun w => ofWord?_logic_eq_none_iff
          rintro (o | l) hv hs
          · cases hs
          · exact h l hv

end Table

/-! ## The flag of a builder -/

namespace Builder

variable {b : Builder} {s : Bool} {t : Table} {v : Value}

def withStrict (s : Bool) (b : Builder) : Builder := { b with strict := s }

theorem blind_requireClausesOpen : requireClausesOpen.Blind (withStrict s) :=
  (blind_requireOpen (f := withStrict s) fun _ => rfl).bind fun _ =>
    blind_get_bind (fun _ => rfl) fun _ => blind_ite (blind_throw _) (blind_pure _)

theorem blind_groupFor (h : t.resolve v ≠ .ok none) : (groupFor t v).Blind (withStrict s) := by
  unfold groupFor
  rcases hr : t.resolve v with e | _ | m
  · exact fun _ => rfl
  · exact absurd hr h
  · exact fun _ => rfl

theorem blind_addKeywords (fs ks : List Value) : (addKeywords fs ks).Blind (withStrict s) := by
  induction ks with
  | nil => exact blind_pure _
  | cons k ks ih => exact Blind.bind (blind_modify fun _ => rfl) fun _ => ih

theorem blind_onDraft {α : Type} (a : Action Draft α) : (onDraft a).Blind (withStrict s) :=
  (blind_id a).within (fun _ => rfl) fun _ _ => rfl

theorem run_groupFor_of_unresolved (h : t.resolve v = .ok none) :
    (groupFor t v).run b =
      if b.strict then ⟨.error (.unsupported t v), b, []⟩
      else ⟨.ok none, b,
        [.logged ⟨Level.warning.severity, Channel.builder.name, ignored t v⟩]⟩ := by
  unfold groupFor
  rw [h]
  cases hs : b.strict <;> simp [run_bind, hs, -bind_pure_comp]

theorem run_groupFor_of_unreadable {e : Error} (h : t.resolve v = .error e) :
    (groupFor t v).run b = ⟨.error e, b, []⟩ := by
  rw [groupFor, h]
  rfl

theorem run_requireClausesOpen_of_open (hc : b.consumed = false)
    (hw : b.document.isWrapped = false) : requireClausesOpen.run b = ⟨.ok (), b, []⟩ := by
  simp [requireClausesOpen, requireOpen, run_bind, hc, hw]

theorem run_guardedClauses_of_wrapped {α : Type} (hc : b.consumed = false)
    (hw : b.document.isWrapped = true) (f : Unit → Action Builder α) :
    (requireClausesOpen >>= f).run b = ⟨.error (.state .wrapped), b, []⟩ := by
  simp [requireClausesOpen, requireOpen, run_bind, hc, hw]

end Builder

/-! ## Calls -/

namespace Call

open Builder

variable {c : Call} {b : Builder} {s : Bool} {t : Table} {v : Value}

/-- The table that a call takes its group from, and what it gives for a member. -/
def naming? : Call → Option (Table × Value)
  | addWhere _ _ o _ => some (.operator, o)
  | whereNested _ _ _ l _ _ | whereNestedRaw _ _ l _ => some (.logic, l)
  | _ => none

/-- Calls that take a group from a table ask for it right after the guard, and do nothing without
one. -/
theorem apply_eq_of_naming? (h : c.naming? = some (t, v)) :
    ∃ k : Option ClauseGroup → Action Builder Unit, k none = pure () ∧
      c.apply = requireClausesOpen >>= fun _ => groupFor t v >>= k := by
  cases c with
  | addWhere f w o q =>
      cases h
      exact ⟨_, rfl, rfl⟩
  | whereNested p f w l q r =>
      cases h
      exact ⟨_, rfl, rfl⟩
  | whereNestedRaw p q l r =>
      cases h
      exact ⟨_, rfl, rfl⟩
  | _ => cases h

/-- Without a table, or with a member of it, a call does not see the flag. -/
theorem blind_apply_of_resolved (h : ∀ t v, c.naming? = some (t, v) → t.resolve v ≠ .ok none) :
    c.apply.Blind (withStrict s) := by
  have hopen : requireOpen.Blind (withStrict s) := blind_requireOpen fun _ => rfl
  cases c with
  | setIndex i => exact hopen.bind fun _ => blind_modify fun _ => rfl
  | limit n =>
      exact hopen.bind fun _ => (blind_lift _).bind fun _ => blind_modify fun _ => rfl
  | paginate n p =>
      exact hopen.bind fun _ => (blind_lift _).bind fun q => blind_modify fun _ => rfl
  | orderBy o g =>
      refine hopen.bind fun _ => (blind_lift _).bind fun os => ?_
      exact blind_appendOrders os fun _ => blind_modify fun _ => rfl
  | addWhere f w o q =>
      refine blind_requireClausesOpen.bind fun _ => ?_
      refine (blind_groupFor (h _ _ rfl)).bind fun g => ?_
      cases g with
      | none => exact blind_pure _
      | some g => exact Blind.bind (blind_modify fun _ => rfl) fun _ => blind_log _ _ _
  | whereNull f n => exact blind_requireClausesOpen.bind fun _ => blind_modify fun _ => rfl
  | keywords ks fs =>
      refine blind_requireClausesOpen.bind fun _ => (blind_lift _).bind fun names => ?_
      refine (blind_lift _).bind fun words => ?_
      exact (blind_addKeywords _ _).bind fun _ => blind_lift _
  | minShouldMatch n => exact blind_requireClausesOpen.bind fun _ => blind_modify fun _ => rfl
  | minScore n =>
      exact hopen.bind fun _ => (blind_lift _).bind fun x => blind_modify fun _ => rfl
  | highlight fs css =>
      exact hopen.bind fun _ => (blind_lift _).bind fun names => blind_modify fun _ => rfl
  | whereNested p f w l q r =>
      refine blind_requireClausesOpen.bind fun _ => ?_
      refine (blind_groupFor (h _ _ rfl)).bind fun g => ?_
      cases g with
      | none => exact blind_pure _
      | some g => exact (blind_onDraft _).bind fun _ => blind_pure _
  | whereNestedRaw p q l r =>
      refine blind_requireClausesOpen.bind fun _ => ?_
      refine (blind_groupFor (h _ _ rfl)).bind fun g => ?_
      cases g with
      | none => exact blind_pure _
      | some g =>
          exact (blind_lift _).bind fun inner => (blind_onDraft _).bind fun _ => blind_pure _
  | aggregate ns =>
      refine hopen.bind fun _ => (blind_lift _).bind fun built => ?_
      refine blind_get_bind (fun _ => rfl) fun b => blind_ite ?_ (blind_modify fun _ => rfl)
      refine (blind_lift _).bind fun ks => (blind_throw _).bind fun _ => ?_
      exact blind_modify fun _ => rfl
  | functions m n =>
      refine hopen.bind fun _ => blind_get_bind (fun _ => rfl) fun b => ?_
      refine Blind.guarded ((blind_lift _).bind fun t => ?_)
      refine Blind.bind (blind_modify fun _ => rfl) fun _ => ?_
      exact blind_get_bind (fun _ => rfl) fun b => blind_log _ _ _

/-- Under a word that names nothing an open builder does not change, and only the flag decides how
the call ends. -/
theorem run_apply_of_unresolved (h : c.naming? = some (t, v)) (hv : t.resolve v = .ok none)
    (hc : b.consumed = false) (hw : b.document.isWrapped = false) :
    c.apply.run b =
      if b.strict then ⟨.error (.unsupported t v), b, []⟩
      else ⟨.ok (), b,
        [.logged ⟨Level.warning.severity, Channel.builder.name, ignored t v⟩]⟩ := by
  obtain ⟨k, hk, hc'⟩ := apply_eq_of_naming? h
  have hopen := run_requireClausesOpen_of_open hc hw
  have hgroup := run_groupFor_of_unresolved (b := b) hv
  rw [hc', run_bind, hopen]
  cases hs : b.strict <;> simp [run_bind, hgroup, hk, hs]

/-- Under a value that cannot be looked up the call fails, whatever the flag is. -/
theorem run_apply_of_unreadable {e : Error} (h : c.naming? = some (t, v))
    (hv : t.resolve v = .error e) (hc : b.consumed = false) (hw : b.document.isWrapped = false) :
    c.apply.run b = ⟨.error e, b, []⟩ := by
  obtain ⟨k, -, hk⟩ := apply_eq_of_naming? h
  rw [hk, run_bind, run_requireClausesOpen_of_open hc hw]
  simp [run_bind, run_groupFor_of_unreadable hv]

/-- A call is refused before it looks at its table if the query takes no clauses. -/
theorem run_apply_of_closed (h : c.naming? = some (t, v))
    (hclosed : b.consumed = true ∨ b.document.isWrapped = true) :
    c.apply.run (b.withStrict s) =
      ⟨(c.apply.run b).result, (c.apply.run b).state.withStrict s, (c.apply.run b).events⟩ := by
  obtain ⟨k, -, hk⟩ := apply_eq_of_naming? h
  rw [hk]
  cases hc : b.consumed with
  | true =>
      rw [run_guardedClauses_of_consumed hc,
        run_guardedClauses_of_consumed (b := b.withStrict s) hc]
  | false =>
      have hw : b.document.isWrapped = true := hclosed.resolve_left (by simp [hc])
      rw [run_guardedClauses_of_wrapped hc hw,
        run_guardedClauses_of_wrapped (b := b.withStrict s) hc hw]

end Call

/-! ## Uses -/

/-- The use adds clauses to a query that takes them, under a member of a table that a value names. -/
def Use.Asks (u : Use) (b : Builder) (t : Table) (v : Value) : Prop :=
  ∃ c : Call, u = .change c ∧ c.naming? = some (t, v) ∧
    b.consumed = false ∧ b.document.isWrapped = false

/-- The use asks for a value that has a text and names nothing. -/
def Use.NamesNothing (u : Use) (b : Builder) (t : Table) (v : Value) : Prop :=
  u.Asks b t v ∧ v.isWritable = true ∧ ¬ t.Names v

namespace Desk

variable {d : Desk} {s : Bool}

def withStrict (s : Bool) (d : Desk) : Desk := { d with builder := d.builder.withStrict s }

theorem blind_ensureGateway : ensureGateway.Blind (withStrict s) := by
  refine blind_get_bind (fun _ => rfl) fun d => ?_
  split
  · refine Blind.bind ((blind_id _).within (fun _ => rfl) fun _ _ => rfl) fun t => ?_
    exact (blind_lift _).bind fun c => blind_modify fun _ => rfl
  · exact blind_pure _

theorem blind_search (params timeout : Value) : (search params timeout).Blind (withStrict s) := by
  refine (blind_emit _).bind fun _ => blind_get_bind (fun _ => rfl) fun d => ?_
  split
  · exact (blind_id _).within (fun _ => rfl) fun _ _ => rfl
  · exact (blind_id _).within (fun _ => rfl) fun _ _ => rfl

theorem blind_execute (timeout : Value) : (execute timeout).Blind (withStrict s) := by
  have hopen : (onBuilder Builder.requireOpen).Blind (withStrict s) :=
    (Builder.blind_requireOpen (f := Builder.withStrict s) fun _ => rfl).within
      (fun _ => rfl) fun _ _ => rfl
  refine hopen.bind fun _ => blind_get_bind (fun _ => rfl) fun d => Blind.guarded ?_
  refine (blind_lift _).bind fun p => blind_ensureGateway.bind fun _ => ?_
  have hconsume : (onBuilder (modify fun b => { b with consumed := true })).Blind (withStrict s) := by
    refine Blind.within (g := Builder.withStrict s) ?_ (fun _ => rfl) fun _ _ => rfl
    exact blind_modify fun _ => rfl
  refine hconsume.bind fun _ => (blind_log _ _ _).bind fun _ => ?_
  exact (blind_search _ _).bind fun r => blind_get_bind (fun _ => rfl) fun d => blind_lift _

end Desk

namespace Use

variable {u : Use} {d : Desk} {s : Bool} {t : Table} {v : Value}

theorem blind_apply_of_ne (h : ∀ c, u ≠ .change c) : u.apply.Blind (Desk.withStrict s) := by
  cases u with
  | change c => exact absurd rfl (h c)
  | params => exact blind_get_bind (fun _ => rfl) fun d => (blind_lift _).bind fun v => blind_pure _
  | snapshot =>
      exact blind_get_bind (fun _ => rfl) fun d => (blind_lift _).bind fun v => blind_pure _
  | execute t => exact (Desk.blind_execute t).bind fun v => blind_pure _
  | fetchPage n p t =>
      have hpage : (Desk.onBuilder (Builder.paginate n p)).Blind (Desk.withStrict s) :=
        (Call.blind_apply_of_resolved (c := .paginate n p) nofun).within (fun _ => rfl)
          fun _ _ => rfl
      exact (hpage.bind fun _ => Desk.blind_execute t).bind fun v => blind_pure _

/-- A call as a use: the desk keeps its link and its site. -/
theorem run_change (c : Call) (d : Desk) :
    (change c).run d = ⟨(c.apply.run d.builder).result.map fun _ => .builder,
      { d with builder := (c.apply.run d.builder).state }, (c.apply.run d.builder).events⟩ := by
  unfold run apply Desk.onBuilder
  rw [run_bind, run_within]
  cases (c.apply.run d.builder).result <;> simp [Except.map]

theorem run_of_namesNothing (h : u.NamesNothing d.builder t v) :
    u.run d =
      if d.builder.strict then ⟨.error (.unsupported t v), d, []⟩
      else ⟨.ok .builder, d,
        [.logged ⟨Level.warning.severity, Channel.builder.name, Builder.ignored t v⟩]⟩ := by
  obtain ⟨⟨c, rfl, hnaming, hc, hw⟩, hv⟩ := h
  rw [run_change, Call.run_apply_of_unresolved hnaming (Table.resolve_eq_none_iff.mpr hv) hc hw]
  cases d.builder.strict <;> rfl

theorem run_of_unwritable (h : u.Asks d.builder t v) (hv : ¬ v.isWritable = true) :
    u.run d = ⟨.error .badContent, d, []⟩ := by
  obtain ⟨c, rfl, hnaming, hc, hw⟩ := h
  rw [run_change, Call.run_apply_of_unreadable hnaming (Table.resolve_of_not_isWritable hv) hc hw]
  rfl

/-- Only where a use names nothing it sees the flag. -/
theorem run_withStrict_of_names (h : ∀ t v, ¬ u.NamesNothing d.builder t v) :
    u.run (d.withStrict s) =
      ⟨(u.run d).result, (u.run d).state.withStrict s, (u.run d).events⟩ := by
  by_cases hu : ∃ c, u = .change c
  · obtain ⟨c, rfl⟩ := hu
    have hcall : c.apply.run (d.builder.withStrict s) = ⟨(c.apply.run d.builder).result,
        (c.apply.run d.builder).state.withStrict s, (c.apply.run d.builder).events⟩ := by
      by_cases hresolved : ∃ t v, c.naming? = some (t, v) ∧ t.resolve v = .ok none
      · obtain ⟨t, v, hnaming, hv⟩ := hresolved
        refine Call.run_apply_of_closed hnaming ?_
        cases hc : d.builder.consumed with
        | true => exact Or.inl rfl
        | false =>
            cases hw : d.builder.document.isWrapped with
            | true => exact Or.inr rfl
            | false =>
                exact absurd ⟨⟨c, rfl, hnaming, hc, hw⟩, Table.resolve_eq_none_iff.mp hv⟩ (h t v)
      · refine Call.blind_apply_of_resolved (fun t v hnaming hv => ?_) d.builder
        exact hresolved ⟨t, v, hnaming, hv⟩
    rw [run_change, run_change]
    exact congrArg (fun o : Outcome Builder Unit => (⟨o.result.map fun _ => .builder,
      { d with builder := o.state }, o.events⟩ : Outcome Desk Product)) hcall
  · exact blind_apply_of_ne (fun c hc => hu ⟨c, hc⟩) d

/-- No use makes a difference to the rest of the desk for the flag. -/
theorem state_run_withStrict (u : Use) (d : Desk) (s : Bool) :
    (u.run (d.withStrict s)).state = (u.run d).state.withStrict s := by
  by_cases h : ∃ t v, u.NamesNothing d.builder t v
  · obtain ⟨t, v, hu⟩ := h
    have hsame (d' : Desk) (h : u.NamesNothing d'.builder t v) : (u.run d').state = d' := by
      rw [run_of_namesNothing h]
      cases d'.builder.strict <;> rfl
    rw [hsame d hu, hsame (d.withStrict s) hu]
  · rw [run_withStrict_of_names fun t v hu => h ⟨t, v, hu⟩]

end Use

namespace Desk

theorem after_withStrict (us : List Use) (d : Desk) (s : Bool) :
    (d.withStrict s).after us = (d.after us).withStrict s := by
  induction us generalizing d with
  | nil => rfl
  | cons u us ih => rw [after_cons, after_cons, Use.state_run_withStrict, ih]

/-- A strict and a lenient builder that are used alike, whatever fails on the way. They always differ
in the flag only. Any further use has the same outcome for both, unless it adds clauses to a query
that takes them under a value whose text names nothing in its table: then the strict one fails, the
lenient one returns and hands its logger one warning, and neither changes. Under a value without a text
both fail, and neither changes. -/
theorem lockstep (mode : ExecutionMode) (link : Link) (site : Site) (us : List Use) (u : Use) :
    let strict := (⟨.new mode true, link, site⟩ : Desk).after us
    let lenient := (⟨.new mode false, link, site⟩ : Desk).after us
    strict.builder.strict = true ∧ lenient = strict.withStrict false ∧
      (∀ t v, u.NamesNothing strict.builder t v →
        u.run strict = ⟨.error (.unsupported t v), strict, []⟩ ∧
        u.run lenient = ⟨.ok .builder, lenient,
          [.logged ⟨Level.warning.severity, Channel.builder.name, Builder.ignored t v⟩]⟩) ∧
      ((∀ t v, ¬ u.NamesNothing strict.builder t v) →
        u.run lenient =
          ⟨(u.run strict).result, (u.run strict).state.withStrict false, (u.run strict).events⟩) ∧
      ∀ t v, u.Asks strict.builder t v → v.isWritable = false →
        u.run strict = ⟨.error .badContent, strict, []⟩ ∧
        u.run lenient = ⟨.error .badContent, lenient, []⟩ := by
  intro strict lenient
  have hstrict : strict = strict.withStrict true :=
    after_withStrict us ⟨.new mode true, link, site⟩ true
  have hlenient : lenient = strict.withStrict false :=
    after_withStrict us ⟨.new mode true, link, site⟩ false
  have hflag : strict.builder.strict = true := by
    rw [hstrict]
    rfl
  have hasks {t : Table} {v : Value} (hu : u.Asks strict.builder t v) :
      u.Asks lenient.builder t v := by
    rw [hlenient]
    exact hu
  refine ⟨hflag, hlenient, fun t v hu => ⟨?_, ?_⟩, fun hu => ?_, fun t v hu hv => ?_⟩
  · rw [Use.run_of_namesNothing hu, if_pos hflag]
  · have hflag' : lenient.builder.strict = false := by rw [hlenient]; rfl
    rw [Use.run_of_namesNothing ⟨hasks hu.1, hu.2⟩, hflag']
    rfl
  · rw [hlenient]
    exact Use.run_withStrict_of_names hu
  · have hv := Bool.eq_false_iff.mp hv
    exact ⟨Use.run_of_unwritable hu hv, Use.run_of_unwritable (hasks hu) hv⟩

/-- An unknown logic parts two builders that have met an unknown operator and a clause; once their
queries are wrapped it is not even looked at. -/
theorem lockstep_of_unknown_logic : ∃ (site : Site) (us : List Use) (wrap u : Use),
    let strict : Desk := ⟨.new .raw true, .shared, site⟩
    let lenient : Desk := ⟨.new .raw false, .shared, site⟩
    (u.run (strict.after us)).result = .error (.unsupported .logic (.str " XOR ")) ∧
      (u.run (lenient.after us)).result = .ok .builder ∧
      (u.run (lenient.after us)).state = lenient.after us ∧
      (u.run (lenient.after (us ++ [wrap]))).result =
        (u.run (strict.after (us ++ [wrap]))).result := by
  let site : Site := ⟨⟨some (.memory .empty), .quiet⟩, .empty, .empty, .initial false⟩
  let us : List Use := [.change (.addWhere (.str "name") (.str "red") (.str "~") (.str "term")),
    .change (.addWhere (.str "name") (.str "red") (.str "EQ") (.str "term"))]
  let wrap : Use := .change (.functions (.str "sum") (.str "replace"))
  let c : Call := .whereNested (.str "tags") (.str "tags.name") (.str "red") (.str " XOR ")
    (.str "term") .standard
  let strict : Desk := ⟨.new .raw true, .shared, site⟩
  have hunknown : ¬ Table.logic.Names (.str " XOR ") := by
    have hword : Logic.ofWord? (Text.lower (Text.strip " XOR ")) = none := by decide +kernel
    refine (Table.resolve_eq_none_iff.mp ?_).2
    rw [Table.resolve, Logic.resolve_str, hword]
    rfl
  have hopen : (strict.after us).builder.consumed = false ∧
      (strict.after us).builder.document.isWrapped = false := by decide +kernel
  have hwrapped : (strict.after (us ++ [wrap])).builder.document.isWrapped = true := by
    decide +kernel
  obtain ⟨-, -, hparted, -, -⟩ := lockstep .raw .shared site us (.change c)
  obtain ⟨hs, hl⟩ := hparted .logic (.str " XOR ") ⟨⟨c, rfl, rfl, hopen⟩, rfl, hunknown⟩
  obtain ⟨-, -, -, hsame, -⟩ := lockstep .raw .shared site (us ++ [wrap]) (.change c)
  have hnames : ∀ t v,
      ¬ (Use.change c).NamesNothing (strict.after (us ++ [wrap])).builder t v := by
    rintro t v ⟨⟨-, -, -, -, hw⟩, -⟩
    rw [hwrapped] at hw
    cases hw
  exact ⟨site, us, wrap, .change c, by rw [hs], by rw [hl], by rw [hl], by rw [hsame hnames]⟩

end Desk

end DocSearch
