import DocSearch.Proofs.Builder.Copies

/-!
# The envelope is final

Once a query is wrapped no use of the builder changes it any more: calls that would are refused for
the state of the builder, and the others do not see the envelope. It holds the query as it was
before the wrap and the scoring functions that were registered until then.
-/

namespace DocSearch

open DocSearch.Action

/-! ## Calls on a wrapped query -/

namespace Builder

/-- The builder with its query taken out of the envelope. -/
def unwrapped (b : Builder) : Builder :=
  { b with document := { b.document with envelope := none } }

end Builder

namespace Call

open Builder

variable {c : Call} {b b' : Builder} {d : Document}

/-- A call that neither adds clauses nor wraps the query does not see the envelope. -/
theorem blind_apply (hc : c.isClause = false) (hm : c.modes? = none) :
    c.apply.Blind unwrapped := by
  have hopen : requireOpen.Blind unwrapped := blind_requireOpen fun _ => rfl
  cases c with
  | setIndex i => exact hopen.bind fun _ => blind_modify fun _ => rfl
  | limit s =>
      exact hopen.bind fun _ => (blind_lift _).bind fun _ => blind_modify fun _ => rfl
  | paginate s p =>
      exact hopen.bind fun _ => (blind_lift _).bind fun q => blind_modify fun _ => rfl
  | orderBy o g =>
      refine hopen.bind fun _ => (blind_lift _).bind fun os => ?_
      exact blind_appendOrders os fun _ => blind_modify fun _ => rfl
  | minScore s =>
      exact hopen.bind fun _ => (blind_lift _).bind fun x => blind_modify fun _ => rfl
  | highlight fs css =>
      exact hopen.bind fun _ => (blind_lift _).bind fun names => blind_modify fun _ => rfl
  | aggregate ns =>
      refine hopen.bind fun _ => (blind_lift _).bind fun built => ?_
      refine blind_get_bind (fun _ => rfl) fun b => blind_ite ?_ (blind_modify fun _ => rfl)
      refine (blind_lift _).bind fun ks => (blind_throw _).bind fun _ => ?_
      exact blind_modify fun _ => rfl
  | functions s m => cases hm
  | _ => cases hc

theorem fails_of_isClause (hw : b.document.isWrapped = true) (hc : c.isClause = true) :
    ∃ r, c.apply.Fails b (.state r) b := by
  have hguarded (f : Unit → Action Builder Unit) :
      ∃ r, (requireClausesOpen >>= f).Fails b (.state r) b := by
    cases hconsumed : b.consumed with
    | true => exact ⟨.executed, fails_bind_iff.mpr (Or.inl (by simp [hconsumed]))⟩
    | false => exact ⟨.wrapped, fails_bind_iff.mpr (Or.inl (by simp [hconsumed, hw]))⟩
  cases c with
  | addWhere f v o t => exact hguarded _
  | whereNull f n => exact hguarded _
  | keywords ks fs => exact hguarded _
  | minShouldMatch n => exact hguarded _
  | whereNested p f v l t r => exact hguarded _
  | whereNestedRaw p q l r => exact hguarded _
  | _ => cases hc

theorem fails_functions (hw : b.document.isWrapped = true) (s m : Value) :
    ∃ r, (functions s m).apply.Fails b (.state r) b := by
  cases hconsumed : b.consumed with
  | true => exact ⟨.executed, fails_bind_iff.mpr (Or.inl (by simp [hconsumed]))⟩
  | false =>
      refine ⟨.alreadyWrapped, fails_bind_iff.mpr (Or.inr ⟨(), b, by simp [hconsumed], ?_⟩)⟩
      rw [fails_get_bind_iff, if_pos hw]
      exact fails_bind_iff.mpr (Or.inl (by simp))

/-! ## The query of a wrapped builder -/

end Call

namespace Document

/-- What the query is composed of, and the modes of its envelope. -/
def composed (d : Document) : Draft × Option ScoreSettings := (d.draft, d.envelope)

theorem clause_eq_of_composed {d d' : Document} (h : d.composed = d'.composed) :
    d.clause = d'.clause := by
  obtain ⟨hdraft, henvelope⟩ := Prod.ext_iff.mp h
  simp only [composed] at hdraft henvelope
  rw [clause, clause, hdraft, henvelope]

theorem isWrapped_eq_of_composed {d d' : Document} (h : d.composed = d'.composed) :
    d.isWrapped = d'.isWrapped :=
  congrArg (Option.isSome ∘ Prod.snd) h

end Document

namespace Call

variable {c : Call} {b : Builder}

theorem composed_change (hc : c.isClause = false) (hm : c.modes? = none) (d : Document) :
    (c.change d).composed = d.composed := by
  cases c with
  | functions s m => cases hm
  | _ => first | rfl | cases hc

theorem composed_of_returns {b' : Builder} (hw : b.document.isWrapped = true)
    (h : c.apply.Returns b () b') : b'.document.composed = b.document.composed := by
  obtain ⟨-, hclause, haccepted, rfl⟩ := returns_apply_iff.mp h
  have hc : c.isClause = false := by
    rw [← Bool.not_eq_true]
    intro hc
    rw [hclause hc] at hw
    cases hw
  have hm : c.modes? = none := by
    cases c with
    | functions s m =>
        rw [haccepted.1] at hw
        cases hw
    | _ => rfl
  exact composed_change hc hm b.document

theorem composed_run (hw : b.document.isWrapped = true) (c : Call) :
    (c.apply.run b).state.document.composed = b.document.composed := by
  cases hr : (c.apply.run b).result with
  | ok x => exact composed_of_returns hw ⟨hr, rfl⟩
  | error e =>
      rcases Builder.fails_cases (e := e) ⟨hr, rfl⟩ with h | ⟨o, g, os, ws, -, -, -, h⟩ | ⟨-, h⟩
      · rw [← h]
      · rw [← h]
        rfl
      · exact composed_of_returns hw h

/-- A call that fails registers no scoring functions. -/
theorem functions_of_fails {b' : Builder} {e : Error} (h : c.apply.Fails b e b') :
    b'.document.draft.functions = b.document.draft.functions := by
  rcases Builder.fails_cases h with rfl | ⟨o, g, os, ws, -, -, -, rfl⟩ | ⟨hbroken, hcut⟩
  · rfl
  · rfl
  · obtain ⟨-, -, -, rfl⟩ := returns_apply_iff.mp hcut
    have hregistered : c.cut.registered = [] := by
      unfold BreaksOff at hbroken
      split at hbroken
      · rfl
      · exact hbroken.elim
    rw [functions_change, hregistered, List.append_nil]

end Call

namespace Use

/-- The scoring functions that the call of a use registers; one that fails registers none. -/
def registered (u : Use) (b : Builder) : List (Weighted Clause) :=
  match u.call? with
  | some c => if (c.apply.run b).result.isOk then c.registered else []
  | none => []

theorem composed_run {d : Desk} (hw : d.builder.document.isWrapped = true) (u : Use) :
    (u.run d).state.builder.document.composed = d.builder.document.composed := by
  rw [document_run, changed]
  split
  · exact Call.composed_run hw _
  · rfl

theorem functions_run (u : Use) (d : Desk) :
    (u.run d).state.builder.document.draft.functions =
      d.builder.document.draft.functions ++ u.registered d.builder := by
  rw [document_run]
  cases hu : u.call? with
  | none => simp [changed, registered, hu]
  | some c =>
      simp only [changed, registered, hu]
      cases hr : (c.apply.run d.builder).result with
      | ok x =>
          obtain ⟨-, -, -, hstate⟩ := Call.returns_apply_iff.mp ⟨hr, rfl⟩
          rw [← hstate, Call.functions_change]
          rfl
      | error e =>
          rw [Call.functions_of_fails ⟨hr, rfl⟩]
          exact (List.append_nil _).symm

end Use

namespace Desk

/-- The scoring functions that are registered in the course of a run. -/
def registered : Desk → List Use → List (Weighted Clause)
  | _, [] => []
  | d, u :: us => u.registered d.builder ++ registered (u.run d).state us

theorem functions_after (d : Desk) (us : List Use) :
    (d.after us).builder.document.draft.functions =
      d.builder.document.draft.functions ++ d.registered us := by
  induction us generalizing d with
  | nil => simp [registered]
  | cons u us ih => rw [after_cons, ih, Use.functions_run, registered, List.append_assoc]

/-- A wrapped query stays what it is in every run. -/
theorem composed_after {d : Desk} (hw : d.builder.document.isWrapped = true) (us : List Use) :
    (d.after us).builder.document.composed = d.builder.document.composed := by
  induction us generalizing d with
  | nil => rfl
  | cons u us ih =>
      have hu := u.composed_run hw
      rw [after_cons, ih ((Document.isWrapped_eq_of_composed hu).trans hw), hu]

end Desk

/-! ## Compiled queries -/

def Value.bodyQuery (params : Value) : Except Error Value := do
  (← params.part "body").part "query"

/-- A query in an envelope with its scoring functions. -/
def Value.enveloped (query : Value) (functions : List Value) (scoreMode boostMode : Value) :
    Value :=
  .object [("function_score", .object [("query", query), ("functions", .list functions),
    ("score_mode", scoreMode), ("boost_mode", boostMode)])]

def Clause.weightedEntry (w : Weighted Clause) : Except Error Value := do
  return .object [("filter", ← w.filter.render), ("weight", w.weight)]

theorem Clause.renderWeighted_eq_mapM (ws : List (Weighted Clause)) :
    renderWeighted ws = ws.mapM weightedEntry := by
  induction ws with
  | nil => rfl
  | cons w ws ih =>
      rw [List.mapM_cons, renderWeighted, ih, weightedEntry]
      cases w.filter.render <;> simp

namespace Document

variable {d e : Document} {u v : Value}

theorem bodyQuery_params (h : d.params = .ok v) :
    ∃ q, d.clause.render = .ok q ∧ v.bodyQuery = .ok q := by
  obtain ⟨body, hbody, rfl⟩ := Except.map_eq_ok_iff.mp h
  obtain ⟨parts, hparts, rfl⟩ := Except.map_eq_ok_iff.mp hbody
  obtain ⟨query, hquery, hparts⟩ := Except.bind_eq_ok_iff.mp hparts
  obtain ⟨shown, -, hparts⟩ := Except.bind_eq_ok_iff.mp hparts
  obtain ⟨aggregations, -, hparts⟩ := Except.bind_eq_ok_iff.mp hparts
  obtain rfl := Except.ok.inj hparts
  exact ⟨query, hquery, by simp [Value.bodyQuery]⟩

/-- What an envelope compiles to that was put around a query that compiles. -/
theorem bodyQuery_wrapped {ws : List (Weighted Clause)} {t : ScoreSettings}
    (hclause : e.clause = .functionScore d.clause ws t) (hu : d.params = .ok u)
    (hv : e.params = .ok v) :
    ∃ q fs, u.bodyQuery = .ok q ∧ ws.mapM Clause.weightedEntry = .ok fs ∧
      v.bodyQuery = .ok (.enveloped q fs (.str t.scoreMode.word) (.str t.boostMode.word)) := by
  obtain ⟨q, hq, hquery⟩ := bodyQuery_params hu
  obtain ⟨w, hw, hwrapped⟩ := bodyQuery_params hv
  rw [hclause, Clause.render, hq, Except.ok_bind, Clause.renderWeighted_eq_mapM] at hw
  obtain ⟨fs, hfs, hw⟩ := Except.bind_eq_ok_iff.mp hw
  obtain rfl := Except.ok.inj hw
  exact ⟨q, fs, hquery, hfs, hwrapped⟩

end Document

/-- Modes that cannot be read leave the query unwrapped and the builder as it was, so clauses are
still added to it. -/
theorem Call.functions_of_bad_modes {b : Builder} {s m : Value} (hw : b.document.isWrapped = false)
    (hmodes : ∀ t, ScoreSettings.ofValues s m ≠ .ok t) :
    (∃ e, (functions s m).apply.Fails b e b) ∧
      (b.consumed = false → ∀ c : Call, c.isClause = true → c.Accepted b →
        ∃ b', c.apply.Returns b () b') := by
  constructor
  · refine (atomic_apply (by nofun) fun _ => id).fails fun x b' h => ?_
    obtain ⟨-, -, ⟨-, t, ht⟩, -⟩ := returns_apply_iff.mp h
    exact hmodes t ht
  · exact fun hopen c hc ha => ⟨_, returns_apply_iff.mpr ⟨hopen, fun _ => hw, ha, rfl⟩⟩

namespace Desk

/-- The query of a new builder that is used, wrapped with `s` and `m` and used again. Right after
the wrap and after any further uses, failing ones included, it is the query from before the wrap in
an envelope with these modes and with the scoring functions registered until then, and compiling it
does not fail later on if everything that is given can be copied. Calls for clauses and for a second
envelope are refused for the state of the builder and change nothing; all other calls end as if
there were no envelope. Modes that cannot be read leave a query unwrapped. -/
theorem envelope_final {start : Desk} {mode : ExecutionMode} {strict : Bool} {before : List Use}
    {s m : Value} {b : Builder} (hstart : start.builder = .new mode strict)
    (hwrap : (Call.functions s m).apply.Returns (start.after before).builder () b) :
    let d := start.after before
    let wrapped : Desk := { d with builder := b }
    (∃ t, ScoreSettings.ofValues s m = .ok t ∧ ∀ us,
      (wrapped.after us).builder.document.clause =
        .functionScore d.builder.document.clause (start.registered before) t) ∧
    (∀ us u v, d.builder.params = .ok u → (wrapped.after us).builder.params = .ok v →
      ∃ q fs, u.bodyQuery = .ok q ∧
        (start.registered before).mapM Clause.weightedEntry = .ok fs ∧
        v.bodyQuery = .ok (.enveloped q fs s m)) ∧
    (∀ us, (∀ u ∈ before ++ us, u.Copyable) →
      ((∃ v, (wrapped.after us).builder.params = .ok v) ↔ ∃ v, b.params = .ok v)) ∧
    (∀ us, let final := (wrapped.after us).builder
      (∀ c : Call, c.isClause = true ∨ c.modes?.isSome = true →
        ∃ r, c.apply.Fails final (.state r) final) ∧
      ∀ c : Call, c.isClause = false → c.modes? = none →
        (c.apply.run final).result = (c.apply.run final.unwrapped).result) ∧
    ∀ (b : Builder) (s m : Value), b.document.isWrapped = false →
      (∀ t, ScoreSettings.ofValues s m ≠ .ok t) →
      (∃ e, (Call.functions s m).apply.Fails b e b) ∧
        (b.consumed = false → ∀ c : Call, c.isClause = true → c.Accepted b →
          ∃ b', c.apply.Returns b () b') := by
  intro d wrapped
  obtain ⟨-, -, ⟨hunwrapped, t, ht⟩, hb⟩ := Call.returns_apply_iff.mp hwrap
  obtain ⟨rfl, rfl⟩ := Call.modes_accepted ht
  have hwrapped : b.document.isWrapped = true := by
    rw [← hb, Document.isWrapped, Call.change, ht]
    rfl
  have hcomposed (us : List Use) :
      (wrapped.after us).builder.document.composed = b.document.composed :=
    composed_after (d := wrapped) hwrapped us
  have hregistered : d.builder.document.draft.functions = start.registered before := by
    rw [functions_after, hstart]
    exact List.nil_append _
  have hclause (us : List Use) : (wrapped.after us).builder.document.clause =
      .functionScore d.builder.document.clause (start.registered before) t := by
    have henvelope : d.builder.document.envelope = none :=
      Option.isNone_iff_eq_none.mp (Option.isSome_eq_false_iff.mp hunwrapped)
    rw [Document.clause_eq_of_composed (hcomposed us), ← hb, ← hregistered, Call.change, ht]
    unfold Document.clause
    rw [henvelope]
    rfl
  refine ⟨⟨t, ht, hclause⟩, fun us u v hu hv => ?_, fun us hus => ?_, fun us => ⟨?_, ?_⟩, ?_⟩
  · exact Document.bodyQuery_wrapped (hclause us) hu hv
  · rw [List.forall_mem_append] at hus
    have hdoc : d.builder.document.Copyable := by
      refine Document.Copyable.after ?_ hus.1
      rw [hstart]
      exact Document.Copyable.empty
    have hcall : (Call.functions (.str t.scoreMode.word) (.str t.boostMode.word)).Copyable := by
      simp [Call.Copyable, Call.arguments, Value.copyable]
    have hdoc : b.document.Copyable := by
      rw [← hb]
      exact hdoc.change (b := d.builder) hcall ⟨hunwrapped, t, ht⟩
    rw [Builder.params, Builder.params, (hdoc.after (d := wrapped) hus.2).exists_params_iff,
      hdoc.exists_params_iff, hclause us, ← hclause []]
    rfl
  · have hfinal : (wrapped.after us).builder.document.isWrapped = true :=
      (Document.isWrapped_eq_of_composed (hcomposed us)).trans hwrapped
    rintro c (hc | hc)
    · exact Call.fails_of_isClause hfinal hc
    · cases c with
      | functions s m => exact Call.fails_functions hfinal s m
      | _ => cases hc
  · intro c hc hm
    rw [Call.blind_apply hc hm]
  · exact fun b s m hw hmodes => Call.functions_of_bad_modes hw hmodes

/-- A wrapped query on two values outlives a clause, a second envelope and an execution, the first
two of which are refused. -/
theorem envelope_final_of_two_values : ∃ (start : Desk) (before us : List Use) (b : Builder),
    (Call.functions (.str "max") (.str "sum")).apply.Returns (start.after before).builder () b ∧
      (start.registered before).length = 2 ∧
      ∃ u v q fs, (start.after before).builder.params = .ok u ∧
        (({ start.after before with builder := b } : Desk).after us).builder.params = .ok v ∧
        u.bodyQuery = .ok q ∧ v.bodyQuery = .ok (.enveloped q fs (.str "max") (.str "sum")) := by
  let site : Site := ⟨⟨some (.memory .empty), .quiet⟩, .empty, .empty, .initial false⟩
  let start : Desk := ⟨.new .raw true, .shared, site⟩
  let before : List Use := [.change (.setIndex (.str "shop")),
    .change (.whereNested (.str "tags") (.str "tags.name") (.list [.str "red", .str "blue"])
      (.str "or") (.str "term") .standard),
    .change (.functions (.str "most") (.str "sum"))]
  let us : List Use := [.change (.whereNull (.str "name") (.bool true)),
    .change (.functions (.str "sum") (.str "sum")), .change (.limit (.int 3)), .execute .null]
  let b := ((Call.functions (.str "max") (.str "sum")).apply.run (start.after before).builder).state
  have hresult : ((Call.functions (.str "max") (.str "sum")).apply.run
      (start.after before).builder).result.isOk = true := by decide +kernel
  have hregistered : (start.registered before).length = 2 := by decide +kernel
  have hbefore : (start.after before).builder.params.isOk = true := by decide +kernel
  have hafter : (({ start.after before with builder := b } : Desk).after us).builder.params.isOk =
      true := by decide +kernel
  obtain ⟨x, hx⟩ := Except.exists_of_isOk hresult
  obtain ⟨u, hu⟩ := Except.exists_of_isOk hbefore
  obtain ⟨v, hv⟩ := Except.exists_of_isOk hafter
  have hreturns : (Call.functions (.str "max") (.str "sum")).apply.Returns
      (start.after before).builder () b := ⟨hx, rfl⟩
  have hstart : start.builder = .new .raw true := rfl
  obtain ⟨-, hquery, -⟩ := envelope_final hstart hreturns
  obtain ⟨q, fs, hq, -, hw⟩ := hquery us u v hu hv
  exact ⟨start, before, us, b, hreturns, hregistered, u, v, q, fs, hu, hv, hq, hw⟩

end Desk

end DocSearch
