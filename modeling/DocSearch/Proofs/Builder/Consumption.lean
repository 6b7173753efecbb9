import DocSearch.Builder.Execution
import DocSearch.Proofs.Builder.Changes
import DocSearch.Proofs.Gateway.Searches

/-!
# A builder searches once

Calls never touch the flag of consumption and never reach a gateway. An execution first prepares its
search, which changes nothing about the builder, and then consumes the builder and sends the search;
`Desk.Quiet` and `Desk.Sends` are the two ways a use can go, and every run is made of them.
-/

namespace DocSearch

open DocSearch.Action

namespace Event

/-- The event is a record for a logger: neither a search handed to a gateway nor a call on a client.
-/
def Internal (e : Event) : Prop := e.search? = none ∧ e.call? = none

theorem internal_logged (r : LogRecord) : (logged r).Internal := ⟨rfl, rfl⟩

def searches (es : List Event) : List Value := es.filterMap search?

@[simp] theorem searches_append (es fs : List Event) :
    searches (es ++ fs) = searches es ++ searches fs :=
  List.filterMap_append

theorem searches_eq_nil {es : List Event} (h : ∀ e ∈ es, e.search? = none) : searches es = [] :=
  List.filterMap_eq_nil_iff.mpr h

end Event

/-! ## Calls -/

namespace Builder

/-- The action leaves the flag of consumption alone and does not reach a gateway. -/
abbrev Harmless {α : Type} (a : Action Builder α) : Prop :=
  a.Steady Builder.consumed Event.Internal

theorem harmless_modifyDocument (f : Document → Document) : Harmless (modifyDocument f) :=
  steady_modify fun _ => rfl

theorem harmless_log (l : Level) (m : String) : Harmless (log l .builder m) :=
  steady_log Event.internal_logged l _ m

theorem harmless_appendOrders (os : List (Value × Value)) : Harmless (appendOrders os) := by
  induction os with
  | nil => exact steady_pure _
  | cons o os ih =>
      refine (steady_lift _).bind fun w => ?_
      exact (harmless_modifyDocument _).bind fun _ => ih

theorem harmless_addKeywords (fs ks : List Value) : Harmless (addKeywords fs ks) := by
  induction ks with
  | nil => exact steady_pure _
  | cons k ks ih => exact (harmless_modifyDocument _).bind fun _ => ih

theorem harmless_nest (path : Value) (inner : List Clause) (g : ClauseGroup) (r : Registration) :
    Harmless (onDraft (Draft.nest path inner g r)) := by
  have hnest : (Draft.nest path inner g r).Steady (fun _ => ()) Event.Internal :=
    Steady.bind (steady_modify fun _ => rfl) fun _ =>
      (steady_log Event.internal_logged _ _ _).bind fun _ => steady_pure _
  exact hnest.within fun _ _ _ => rfl

end Builder

open Builder in
theorem Call.harmless_apply (c : Call) : Builder.Harmless c.apply := by
  cases c with
  | setIndex i => exact steady_requireOpen.bind fun _ => harmless_modifyDocument _
  | limit s =>
      refine steady_requireOpen.bind fun _ => (steady_lift _).bind fun _ => ?_
      exact harmless_modifyDocument _
  | paginate s p =>
      refine steady_requireOpen.bind fun _ => (steady_lift _).bind fun q => ?_
      exact harmless_modifyDocument _
  | orderBy o g =>
      refine steady_requireOpen.bind fun _ => (steady_lift _).bind fun os => ?_
      exact harmless_appendOrders os
  | addWhere f v o t =>
      refine steady_requireClausesOpen.bind fun _ => ?_
      refine (steady_groupFor Event.internal_logged _ _).bind fun g => ?_
      cases g with
      | none => exact steady_pure _
      | some g => exact (harmless_modifyDocument _).bind fun _ => harmless_log _ _
  | whereNull f n => exact steady_requireClausesOpen.bind fun _ => harmless_modifyDocument _
  | keywords ks fs =>
      refine steady_requireClausesOpen.bind fun _ => (steady_lift _).bind fun names => ?_
      refine (steady_lift _).bind fun words => ?_
      exact (harmless_addKeywords _ _).bind fun _ => steady_lift _
  | minShouldMatch n => exact steady_requireClausesOpen.bind fun _ => harmless_modifyDocument _
  | minScore s =>
      refine steady_requireOpen.bind fun _ => (steady_lift _).bind fun x => ?_
      exact harmless_modifyDocument _
  | highlight fs c =>
      refine steady_requireOpen.bind fun _ => (steady_lift _).bind fun names => ?_
      exact harmless_modifyDocument _
  | whereNested p f v l t r =>
      refine steady_requireClausesOpen.bind fun _ => ?_
      refine (steady_groupFor Event.internal_logged _ _).bind fun g => ?_
      cases g with
      | none => exact steady_pure _
      | some g => exact (harmless_nest _ _ _ _).bind fun _ => steady_pure _
  | whereNestedRaw p q l r =>
      refine steady_requireClausesOpen.bind fun _ => ?_
      refine (steady_groupFor Event.internal_logged _ _).bind fun g => ?_
      cases g with
      | none => exact steady_pure _
      | some g =>
          refine (steady_lift _).bind fun inner => ?_
          exact (harmless_nest _ _ _ _).bind fun _ => steady_pure _
  | aggregate ns =>
      refine steady_requireOpen.bind fun _ => (steady_lift _).bind fun built => ?_
      refine steady_get.bind fun b => ?_
      refine steady_ite ?_ (harmless_modifyDocument _)
      refine (steady_lift _).bind fun ks => (steady_throw _).bind fun _ => ?_
      exact harmless_modifyDocument _
  | functions s m =>
      refine steady_requireOpen.bind fun _ => steady_get.bind fun b => Steady.guarded ?_
      refine (steady_lift _).bind fun t => (harmless_modifyDocument _).bind fun _ => ?_
      exact steady_get.bind fun b => harmless_log _ _

/-! ## The guard -/

namespace Builder

theorem run_requireOpen_of_consumed {b : Builder} (h : b.consumed = true) :
    requireOpen.run b = ⟨.error (.state .executed), b, []⟩ := by
  simp [requireOpen, run_bind, h]

/-- What starts with the guard does nothing once the builder is consumed. -/
theorem run_guarded_of_consumed {α : Type} {b : Builder} (h : b.consumed = true)
    (f : Unit → Action Builder α) :
    (requireOpen >>= f).run b = ⟨.error (.state .executed), b, []⟩ := by
  have hrun := run_requireOpen_of_consumed h
  rw [run_bind_of_error (e := .state .executed) (by rw [hrun]), hrun]

theorem run_guardedClauses_of_consumed {α : Type} {b : Builder} (h : b.consumed = true)
    (f : Unit → Action Builder α) :
    (requireClausesOpen >>= f).run b = ⟨.error (.state .executed), b, []⟩ := by
  unfold requireClausesOpen
  rw [bind_assoc]
  exact run_guarded_of_consumed h _

end Builder

theorem Call.run_apply_of_consumed {b : Builder} (h : b.consumed = true) (c : Call) :
    c.apply.run b = ⟨.error (.state .executed), b, []⟩ := by
  cases c <;> first
    | exact Builder.run_guarded_of_consumed h _
    | exact Builder.run_guardedClauses_of_consumed h _

/-! ## The two halves of an execution -/

namespace Desk

/-- All that an execution does before it consumes the builder. -/
def prepare : Action Desk Snapshot := do
  onBuilder Builder.requireOpen
  let document := (← get).builder.document
  if !document.index.truthy then throw (.argument .noIndex)
  let s ← document.snapshot
  ensureGateway
  return s

/-- Consumes the builder and sends the search. -/
def send (timeout : Value) (s : Snapshot) : Action Desk Value := do
  onBuilder (modify fun b => { b with consumed := true })
  Action.log .debug .builder ("Executing search on " ++ s.index.text)
  let response ← search s.params timeout
  answer (← get).builder.mode response

theorem execute_eq (timeout : Value) : execute timeout = prepare >>= send timeout := by
  simp only [execute, prepare, bind_assoc]
  congr 1
  funext _
  congr 1
  funext d
  split
  · simp only [bind_assoc, pure_bind]
    rfl
  · simp only [bind_assoc, pure_bind]
    rfl

theorem steady_ensureGateway : ensureGateway.Steady Desk.builder Event.Internal := by
  have hsettings : Site.settings.Steady (fun _ => ()) Event.Internal :=
    steady_get.bind fun s => (steady_lift _).bind fun t => (steady_set fun _ => rfl).bind fun _ =>
      steady_pure _
  refine steady_get.bind fun d => ?_
  split
  · refine Steady.bind (hsettings.within fun _ _ _ => rfl) fun t => ?_
    exact (steady_lift _).bind fun c => steady_modify fun _ => rfl
  · exact steady_pure _

theorem steady_prepare : prepare.Steady Desk.builder Event.Internal := by
  have hopen : Builder.requireOpen.Steady (fun b => b) Event.Internal :=
    Builder.steady_requireOpen
  refine Steady.bind (hopen.within fun _ _ h => h) fun _ => steady_get.bind fun d => ?_
  refine Steady.guarded ((steady_lift _).bind fun s => ?_)
  exact steady_ensureGateway.bind fun _ => steady_pure _

theorem run_prepare_of_consumed {d : Desk} (h : d.builder.consumed = true) :
    prepare.run d = ⟨.error (.state .executed), d, []⟩ := by
  have hopen : (onBuilder Builder.requireOpen).run d = ⟨.error (.state .executed), d, []⟩ := by
    rw [onBuilder, run_within, Builder.run_requireOpen_of_consumed h]
  unfold prepare
  rw [run_bind_of_error (e := .state .executed) (by rw [hopen]), hopen]

/-- Why an execution cannot send its search: there is no index, the document does not compile, or
there is no gateway and none can be made. -/
def Unready (d : Desk) : Prop :=
  d.builder.document.index.truthy = false ∨ (∃ e, d.builder.document.snapshot = .error e) ∨
    ∃ e, (ensureGateway.run d).result = .error e

theorem prepare_fails_iff {d : Desk} (h : d.builder.consumed = false) :
    (∃ e, (prepare.run d).result = .error e) ↔ d.Unready := by
  have hopen : (onBuilder Builder.requireOpen).run d = ⟨.ok (), d, []⟩ := by
    simp [onBuilder, run_within, Builder.requireOpen, run_bind, h]
  unfold Unready
  cases hi : d.builder.document.index.truthy with
  | false => simp [prepare, run_bind, hopen, hi]
  | true =>
      cases hs : d.builder.document.snapshot with
      | error e => simp [prepare, run_bind, hopen, hi, hs]
      | ok s =>
          cases hg : (ensureGateway.run d).result <;>
            simp [prepare, run_bind, hopen, hi, hs, hg, -bind_pure_comp]

/-- The gateway at work on a search that it was handed. -/
def serve (params timeout : Value) : Action Desk Value := do
  match (← get).link with
  | .shared => onExchange (Exchange.perform (.search params timeout))
  | .own c => onOwn c (Cluster.search params timeout)

theorem search_eq (params timeout : Value) :
    search params timeout = (do Action.emit (.searched params); serve params timeout) := rfl

theorem steady_serve (params timeout : Value) :
    (serve params timeout).Steady Desk.builder Event.NoSearch := by
  refine steady_get.bind fun d => ?_
  split
  · exact (Exchange.steady_perform_search params timeout).within fun _ _ _ => rfl
  · exact (Cluster.steady_search params timeout).within fun _ _ _ => rfl

/-- Sending consumes the builder and hands over one search, also when the gateway fails. -/
theorem run_send (timeout : Value) (s : Snapshot) (d : Desk) :
    ((send timeout s).run d).state.builder = { d.builder with consumed := true } ∧
      Event.searches ((send timeout s).run d).events = [s.params] := by
  let rest : Action Desk Value := do
    let response ← serve s.params timeout
    answer (← get).builder.mode response
  have hrest : rest.Steady Desk.builder Event.NoSearch :=
    (steady_serve _ _).bind fun response => steady_get.bind fun e => steady_lift _
  let d' : Desk := { d with builder := { d.builder with consumed := true } }
  obtain ⟨hbuilder, hevents⟩ := hrest d'
  have hrun : ((send timeout s).run d).state = (rest.run d').state ∧
      ((send timeout s).run d).events =
        .logged ⟨Level.debug.severity, Channel.builder.name, "Executing search on " ++ s.index.text⟩
          :: .searched s.params :: (rest.run d').events := by
    have hsend : send timeout s = (do
        onBuilder (modify fun b => { b with consumed := true })
        Action.log .debug .builder ("Executing search on " ++ s.index.text)
        Action.emit (.searched s.params)
        rest) := by
      simp only [send, search_eq, bind_assoc, rest]
    rw [hsend]
    exact ⟨rfl, rfl⟩
  rw [hrun.1, hrun.2]
  refine ⟨hbuilder, ?_⟩
  have hnone := Event.searches_eq_nil hevents
  simp only [Event.searches, List.filterMap_cons, Event.search?] at hnone ⊢
  rw [hnone]

/-! ## The two ways a use can go -/

variable {α β : Type}

/-- The use leaves the builder open or consumed as it was and does not reach a gateway. -/
def Quiet (d : Desk) (o : Outcome Desk α) : Prop :=
  o.state.builder.consumed = d.builder.consumed ∧ ∀ e ∈ o.events, e.Internal

/-- The use consumes the open builder and hands over one search. -/
def Sends (d : Desk) (o : Outcome Desk α) : Prop :=
  d.builder.consumed = false ∧ o.state.builder.consumed = true ∧
    ∃ params, Event.searches o.events = [params]

/-- An execution either fails before it has changed the builder or reached a gateway, or sends. -/
theorem execute_cases (timeout : Value) (d : Desk) :
    ((∃ e, ((execute timeout).run d).result = .error e) ∧
        ((execute timeout).run d).state.builder = d.builder ∧
        ∀ e ∈ ((execute timeout).run d).events, e.Internal) ∨
      d.Sends ((execute timeout).run d) := by
  obtain ⟨hbuilder, hevents⟩ := steady_prepare d
  rw [execute_eq]
  cases hp : (prepare.run d).result with
  | error e =>
      left
      rw [run_bind_of_error hp]
      exact ⟨⟨e, rfl⟩, hbuilder, hevents⟩
  | ok s =>
      right
      obtain ⟨hsent, hsearch⟩ := run_send timeout s (prepare.run d).state
      rw [run_bind_of_ok hp]
      refine ⟨?_, ?_, s.params, ?_⟩
      · rw [← Bool.not_eq_true]
        intro hc
        rw [run_prepare_of_consumed hc] at hp
        cases hp
      · rw [hsent]
      · rw [Event.searches_append, hsearch, Event.searches_eq_nil fun e he => (hevents e he).1]
        rfl

/-- A use either leaves everything open or sends its search. -/
def Goes (d : Desk) (o : Outcome Desk α) : Prop := d.Quiet o ∨ d.Sends o

theorem goes_execute (timeout : Value) (d : Desk) : d.Goes ((execute timeout).run d) := by
  rcases execute_cases timeout d with ⟨-, hbuilder, hevents⟩ | hsends
  · exact Or.inl ⟨congrArg Builder.consumed hbuilder, hevents⟩
  · exact Or.inr hsends

/-- A harmless action before a use makes no difference to the way it goes. -/
theorem goes_bind {a : Action Builder α} (ha : Builder.Harmless a) {f : α → Action Desk β}
    (hf : ∀ x d, Goes d ((f x).run d)) (d : Desk) : d.Goes ((onBuilder a >>= f).run d) := by
  have hsteady : (onBuilder a).Steady (fun d => d.builder.consumed) Event.Internal :=
    ha.within fun _ _ h => h
  obtain ⟨hconsumed, hevents⟩ := hsteady d
  cases hr : ((onBuilder a).run d).result with
  | error e =>
      rw [run_bind_of_error hr]
      exact Or.inl ⟨hconsumed, hevents⟩
  | ok x =>
      rw [run_bind_of_ok hr]
      rcases hf x ((onBuilder a).run d).state with ⟨hc, he⟩ | ⟨hc, hc', params, hs⟩
      · refine Or.inl ⟨hc.trans hconsumed, ?_⟩
        intro e hmem
        rcases List.mem_append.mp hmem with hmem | hmem
        · exact hevents e hmem
        · exact he e hmem
      · refine Or.inr ⟨hconsumed.symm.trans hc, hc', params, ?_⟩
        rw [Event.searches_append, hs, Event.searches_eq_nil fun e he => (hevents e he).1]
        rfl

theorem run_bind_pure (a : Action Desk α) (f : α → β) (d : Desk) :
    ((a >>= fun x => pure (f x)).run d).state = (a.run d).state ∧
      ((a >>= fun x => pure (f x)).run d).events = (a.run d).events := by
  rw [run_bind]
  cases (a.run d).result <;> simp

theorem goes_bind_pure {a : Action Desk α} {d : Desk} (h : d.Goes (a.run d)) (f : α → β) :
    d.Goes ((a >>= fun x => pure (f x)).run d) := by
  obtain ⟨hstate, hevents⟩ := run_bind_pure a f d
  unfold Goes Quiet Sends
  rw [hstate, hevents]
  exact h

theorem run_execute_of_consumed {d : Desk} (h : d.builder.consumed = true) (timeout : Value) :
    (execute timeout).run d = ⟨.error (.state .executed), d, []⟩ := by
  have hp := run_prepare_of_consumed h
  rw [execute_eq, run_bind_of_error (e := .state .executed) (by rw [hp]), hp]

theorem run_fetchPage_of_consumed {d : Desk} (h : d.builder.consumed = true)
    (size page timeout : Value) :
    (fetchPage size page timeout).run d = ⟨.error (.state .executed), d, []⟩ := by
  have hp : (onBuilder (Builder.paginate size page)).run d =
      ⟨.error (.state .executed), d, []⟩ := by
    rw [onBuilder, run_within, Builder.paginate, Builder.run_guarded_of_consumed h]
  unfold fetchPage
  rw [run_bind_of_error (e := .state .executed) (by rw [hp]), hp]

end Desk

namespace Use

/-- All uses but the two that only read the document. -/
def isGuarded : Use → Bool
  | params | snapshot => false
  | change _ | execute _ | fetchPage _ _ _ => true

def run (u : Use) (d : Desk) : Outcome Desk Product := u.apply.run d

theorem run_reading {u : Use} (h : u.isGuarded = false) (d : Desk) :
    (u.run d).state = d ∧ (u.run d).events = [] := by
  cases u with
  | params => exact Desk.run_bind_pure (liftM d.builder.params) Product.value d
  | snapshot => exact Desk.run_bind_pure (liftM d.builder.document.snapshot) Product.snapshot d
  | _ => cases h

/-- Once the builder is consumed, no use changes or emits anything, and guarded uses fail. -/
theorem run_of_consumed {d : Desk} (h : d.builder.consumed = true) (u : Use) :
    (u.run d).state = d ∧ (u.run d).events = [] ∧
      (u.isGuarded = true → (u.run d).result = .error (.state .executed)) := by
  have hfail {α : Type} {a : Action Desk α} {f : α → Action Desk Product}
      (ha : a.run d = ⟨.error (.state .executed), d, []⟩) :
      (a >>= f).run d = ⟨.error (.state .executed), d, []⟩ := by
    rw [run_bind_of_error (e := .state .executed) (by rw [ha]), ha]
  cases u with
  | change c =>
      have hc : (Desk.onBuilder c.apply).run d = ⟨.error (.state .executed), d, []⟩ := by
        rw [Desk.onBuilder, run_within, Call.run_apply_of_consumed h]
      unfold run apply
      rw [hfail hc]
      exact ⟨rfl, rfl, fun _ => rfl⟩
  | params => exact ⟨(run_reading rfl d).1, (run_reading rfl d).2, nofun⟩
  | snapshot => exact ⟨(run_reading rfl d).1, (run_reading rfl d).2, nofun⟩
  | execute t =>
      unfold run apply
      rw [hfail (Desk.run_execute_of_consumed h t)]
      exact ⟨rfl, rfl, fun _ => rfl⟩
  | fetchPage s p t =>
      unfold run apply
      rw [hfail (Desk.run_fetchPage_of_consumed h s p t)]
      exact ⟨rfl, rfl, fun _ => rfl⟩

theorem goes (u : Use) (d : Desk) : d.Goes (u.run d) := by
  have hread (h : u.isGuarded = false) : d.Goes (u.run d) := by
    obtain ⟨hstate, hevents⟩ := run_reading h d
    left
    unfold Desk.Quiet
    rw [hstate, hevents]
    exact ⟨rfl, nofun⟩
  cases u with
  | change c => exact Desk.goes_bind c.harmless_apply (fun _ d => Or.inl ⟨rfl, by simp⟩) d
  | params => exact hread rfl
  | snapshot => exact hread rfl
  | execute t => exact Desk.goes_bind_pure (Desk.goes_execute t d) _
  | fetchPage s p t =>
      refine Desk.goes_bind_pure ?_ _
      exact Desk.goes_bind (Call.paginate s p).harmless_apply (fun _ d => Desk.goes_execute t d) d

end Use

/-! ## Runs -/

namespace Desk

/-- The desk after uses one after the other, going on after those that fail. -/
def after (d : Desk) (us : List Use) : Desk :=
  us.foldl (fun d u => (u.run d).state) d

def eventsOf : Desk → List Use → List Event
  | _, [] => []
  | d, u :: us => (u.run d).events ++ eventsOf (u.run d).state us

@[simp] theorem after_nil (d : Desk) : d.after [] = d := rfl

@[simp] theorem after_cons (d : Desk) (u : Use) (us : List Use) :
    d.after (u :: us) = (u.run d).state.after us := rfl

/-- The searches of a run are counted by what it makes of the flag of consumption. -/
theorem length_searches_eventsOf (d : Desk) (us : List Use) :
    d.builder.consumed.toNat + (Event.searches (d.eventsOf us)).length =
      (d.after us).builder.consumed.toNat := by
  induction us generalizing d with
  | nil => rfl
  | cons u us ih =>
      have hrest := ih (u.run d).state
      rw [after_cons, ← hrest, eventsOf, Event.searches_append, List.length_append]
      rcases u.goes d with ⟨hc, he⟩ | ⟨hc, hc', params, hs⟩
      · rw [hc, Event.searches_eq_nil fun e hmem => (he e hmem).1]
        simp
      · rw [hc, hc', hs]
        simp

theorem after_of_consumed {d : Desk} (h : d.builder.consumed = true) (us : List Use) :
    d.after us = d ∧ d.eventsOf us = [] := by
  induction us with
  | nil => exact ⟨rfl, rfl⟩
  | cons u us ih =>
      obtain ⟨hstate, hevents, -⟩ := Use.run_of_consumed h u
      rw [after_cons, eventsOf, hstate, hevents]
      exact ih

theorem consumed_iff (d : Desk) (u : Use) :
    (u.run d).state.builder.consumed = true ↔
      d.builder.consumed = true ∨ Event.searches (u.run d).events ≠ [] := by
  rcases u.goes d with ⟨hc, he⟩ | ⟨hc, hc', params, hs⟩
  · rw [hc, Event.searches_eq_nil fun e hmem => (he e hmem).1]
    simp
  · rw [hc', hs]
    simp

theorem execute_unsent {d : Desk} {timeout : Value}
    (h : Event.searches ((Use.execute timeout).run d).events = []) :
    (∃ e, ((Use.execute timeout).run d).result = .error e) ∧
      (∀ e ∈ ((Use.execute timeout).run d).events, e.Internal) ∧
        ((Use.execute timeout).run d).state.builder = d.builder := by
  obtain ⟨hstate, hevents⟩ := run_bind_pure (execute timeout) Product.value d
  rcases execute_cases timeout d with ⟨⟨e, he⟩, hbuilder, hinternal⟩ | ⟨-, -, params, hs⟩
  · have hrun : (Use.execute timeout).run d =
        ⟨.error e, ((execute timeout).run d).state, ((execute timeout).run d).events⟩ :=
      run_bind_of_error he
    rw [hrun]
    exact ⟨⟨e, rfl⟩, hinternal, hbuilder⟩
  · have hsent : Event.searches ((Use.execute timeout).run d).events = [params] :=
      (congrArg Event.searches hevents).trans hs
    rw [hsent] at h
    cases h

theorem execute_unsent_iff {d : Desk} (h : d.builder.consumed = false) (timeout : Value) :
    Event.searches ((Use.execute timeout).run d).events = [] ↔ d.Unready := by
  have hevents : ((Use.execute timeout).run d).events = ((execute timeout).run d).events :=
    (run_bind_pure (execute timeout) Product.value d).2
  rw [hevents, ← prepare_fails_iff h, execute_eq]
  have hquiet := Event.searches_eq_nil fun e he => ((steady_prepare d).2 e he).1
  cases hp : (prepare.run d).result with
  | error e =>
      rw [run_bind_of_error hp]
      exact ⟨fun _ => ⟨e, rfl⟩, fun _ => hquiet⟩
  | ok s =>
      rw [run_bind_of_ok hp, Event.searches_append, (run_send timeout s _).2, hquiet]
      simp

/-- In every run of uses of a new builder, failing ones included, at most one search is handed to a
gateway. The builder is consumed by exactly that use, and from then on nothing changes any more,
nothing is emitted, and all uses but reading fail. An execution that does not reach the gateway
fails and leaves the builder as it was; it does so for three reasons only. -/
theorem searches_at_most_once (mode : ExecutionMode) (strict : Bool) (link : Link) (site : Site)
    (us : List Use) :
    let start : Desk := ⟨.new mode strict, link, site⟩
    let d := start.after us
    (Event.searches (start.eventsOf us)).length = d.builder.consumed.toNat ∧
      (∀ u : Use, (u.run d).state.builder.consumed = true ↔
        d.builder.consumed = true ∨ Event.searches (u.run d).events ≠ []) ∧
      (d.builder.consumed = true → ∀ vs,
        d.after vs = d ∧ d.eventsOf vs = [] ∧ (d.after vs).builder.params = d.builder.params ∧
          ∀ u : Use, u.isGuarded = true →
            (u.run (d.after vs)).result = .error (.state .executed)) ∧
      (∀ timeout, Event.searches ((Use.execute timeout).run d).events = [] →
        (∃ e, ((Use.execute timeout).run d).result = .error e) ∧
          (∀ e ∈ ((Use.execute timeout).run d).events, e.Internal) ∧
            ((Use.execute timeout).run d).state.builder = d.builder) ∧
      (d.builder.consumed = false → ∀ timeout,
        Event.searches ((Use.execute timeout).run d).events = [] ↔ d.Unready) := by
  intro start d
  refine ⟨?_, d.consumed_iff, ?_, fun timeout => execute_unsent, execute_unsent_iff⟩
  · exact (Nat.zero_add _).symm.trans (start.length_searches_eventsOf us)
  · intro h vs
    obtain ⟨hafter, hevents⟩ := after_of_consumed h vs
    rw [hafter]
    exact ⟨rfl, hevents, rfl, fun u hu => (Use.run_of_consumed h u).2.2 hu⟩

/-- Of three executions the first one fails for want of an index, and the last one is refused. -/
theorem searches_once_of_three_executions : ∃ (start : Desk) (us : List Use),
    (Event.searches (start.eventsOf us)).length = 1 ∧
      (start.after us).builder.consumed = true ∧
        ∀ u : Use, u.isGuarded = true →
          (u.run (start.after us)).result = .error (.state .executed) := by
  let site : Site := ⟨⟨some (.memory .empty), .quiet⟩, .empty, .empty, .initial false⟩
  let us : List Use := [.execute .null, .change (.setIndex (.str "shop")), .execute .null,
    .execute .null]
  have hconsumed :
      ((⟨.new .raw false, .shared, site⟩ : Desk).after us).builder.consumed = true := by
    decide +kernel
  obtain ⟨hcount, -, hafter, -⟩ := searches_at_most_once .raw false .shared site us
  have hfail := (hafter hconsumed []).2.2.2
  rw [hconsumed] at hcount
  simp only [after_nil] at hfail
  exact ⟨_, us, hcount, hconsumed, hfail⟩

end Desk

end DocSearch
