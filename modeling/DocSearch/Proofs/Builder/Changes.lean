import DocSearch.Builder.Call
import DocSearch.Proofs.Action.Outcomes

/-!
# What a call changes

A call that succeeds does so on an open builder whose query still takes what it adds, with arguments
that can be read, and then changes the document by `Call.change` and nothing else. The equivalence
`Call.returns_apply_iff` says all of this at once; later proofs use it in place of the calls
themselves.
-/

namespace DocSearch

open DocSearch.Action

namespace Builder

/-- Fields with their directions in normal form. -/
def directed : List (Value × Value) → Except Error (List (Value × Value))
  | [] => .ok []
  | (name, given) :: os => do
    let w ← direction given
    return (name, w) :: (← directed os)

def changeGroups (f : Groups Clause → Groups Clause) (d : Document) : Document :=
  { d with draft := { d.draft with groups := f d.draft.groups } }

/-- Adds the clauses of keywords over several fields. -/
def mentioning (fields ks : List Value) (d : Document) : Document :=
  ks.foldl (fun d k => addClause .must (.multiMatch k (.tuple fields) .null) d) d

end Builder

/-- The items that come before an argument ends or breaks off; a text is one item. -/
def Iterable.handed (i : Iterable) : List Value :=
  (i.oneOrMany.toOption.map Prod.fst).getD []

@[simp] theorem Iterable.oneOrMany_value (v : Value) :
    (Iterable.value v).oneOrMany = v.oneOrMany.map fun xs => (xs, none) := rfl

theorem Iterable.handed_value (v : Value) :
    (Iterable.value v).handed = v.oneOrMany.toOption.getD [] := by
  rw [handed, oneOrMany_value]
  cases v.oneOrMany <;> rfl

namespace Call

open Builder (changeGroups directed)

/-- Places clauses in the group that a table member names; without a member there is no group. -/
def placeIn (s : Except Error (Option Symbol)) (r : Registration) (cs : List Clause)
    (d : Document) : Document :=
  match s with
  | .ok (some s) => { d with draft := d.draft.place s.group r cs }
  | _ => d

/-- What a call that succeeds makes of a document. -/
@[simp] def change : Call → Document → Document
  | setIndex i, d => { d with index := i }
  | limit s, d => { d with page := { d.page with size := some s } }
  | paginate s p, d => { d with page := (Page.number s p).toOption.getD d.page }
  | orderBy o g, d =>
    { d with sort := d.sort ++ (Builder.ordersOf o g >>= directed).toOption.getD [] }
  | addWhere f v o t, d =>
    match Table.operator.resolve o with
    | .ok (some s) => Builder.addClause s.group (.term f v t) d
    | _ => d
  | whereNull f n, d =>
    changeGroups (fun gs => gs.replace (if n.truthy then .mustNot else .must) (.existence f)) d
  | keywords ks fs, d => Builder.mentioning (fs.oneOrMany.toOption.getD []) ks.handed d
  | minShouldMatch n, d => changeGroups (fun gs => { gs with minimum := n }) d
  | minScore s, d => { d with minScore := (Builder.scoreOf s).toOption }
  | highlight fs c, d =>
    { d with highlight := (Builder.fieldNames fs).toOption.map fun names => ⟨names, c⟩ }
  | whereNested p f v l t r, d =>
    placeIn (Table.logic.resolve l) r (Draft.underPath p (Draft.predicates f v t)) d
  | whereNestedRaw p q l r, d =>
    placeIn (Table.logic.resolve l) r (Draft.underPath p ((Draft.given q).toOption.getD [])) d
  | aggregate ns, d =>
    { d with aggregations :=
        Entries.putAll d.aggregations ((Aggregation.documentOf ns).toOption.getD []) }
  | functions s b, d => { d with envelope := (ScoreSettings.ofValues s b).toOption }

/-- The arguments of a call can be read, and the builder takes them. -/
@[simp] def Accepted (b : Builder) : Call → Prop
  | setIndex _ | whereNull _ _ | minShouldMatch _ => True
  | limit s => s.isBelow 0 = .ok false
  | paginate s p => ∃ q, Page.number s p = .ok q
  | orderBy o g => ∃ ws, (Builder.ordersOf o g >>= directed) = .ok ws
  | addWhere _ _ o _ => ∃ s, Table.operator.resolve o = .ok s ∧ (s = none → b.strict = false)
  | keywords ks fs => (∃ xs, fs.oneOrMany = .ok xs) ∧ ∃ ys, ks.oneOrMany = .ok (ys, none)
  | minScore s => ∃ x, Builder.scoreOf s = .ok x
  | highlight fs _ => ∃ names, Builder.fieldNames fs = .ok names
  | whereNested _ _ _ l _ _ => ∃ s, Table.logic.resolve l = .ok s ∧ (s = none → b.strict = false)
  | whereNestedRaw _ q l _ => ∃ s, Table.logic.resolve l = .ok s ∧ (s = none → b.strict = false) ∧
      (s ≠ none → ∃ cs, Draft.given q = .ok cs)
  | aggregate ns => ∃ es, Aggregation.documentOf ns = .ok es ∧
      Entries.sharedKeys es b.document.aggregations = []
  | functions s m => b.document.isWrapped = false ∧ ∃ t, ScoreSettings.ofValues s m = .ok t

end Call

/-! ## Steps of a call -/

namespace Builder

@[simp] theorem returns_requireOpen_iff {b b' : Builder} {x : Unit} :
    requireOpen.Returns b x b' ↔ b.consumed = false ∧ b = b' := by
  cases h : b.consumed <;> simp [requireOpen, and_assoc, h]

@[simp] theorem returns_requireClausesOpen_iff {b b' : Builder} {x : Unit} :
    requireClausesOpen.Returns b x b' ↔
      b.consumed = false ∧ b.document.isWrapped = false ∧ b = b' := by
  cases h : b.document.isWrapped <;>
    simp [requireClausesOpen, and_assoc, h]

@[simp] theorem fails_requireOpen_iff {b b' : Builder} {e : Error} :
    requireOpen.Fails b e b' ↔ b.consumed = true ∧ .state .executed = e ∧ b = b' := by
  cases h : b.consumed <;> simp [requireOpen, h]

@[simp] theorem fails_requireClausesOpen_iff {b b' : Builder} {e : Error} :
    requireClausesOpen.Fails b e b' ↔
      (b.consumed = true ∧ .state .executed = e ∧ b = b') ∨
        (b.consumed = false ∧ b.document.isWrapped = true ∧ .state .wrapped = e ∧ b = b') := by
  rw [requireClausesOpen, fails_bind_iff]
  cases hc : b.consumed <;> cases hw : b.document.isWrapped <;> simp [hc, hw]

@[simp] theorem returns_modifyDocument_iff {f : Document → Document} {b b' : Builder}
    {x : Unit} :
    (modifyDocument f).Returns b x b' ↔ { b with document := f b.document } = b' := by
  simp [modifyDocument]

theorem returns_groupFor_iff {t : Table} {v : Value} {b b' : Builder}
    {g : Option ClauseGroup} :
    (groupFor t v).Returns b g b' ↔
      ∃ s, t.resolve v = .ok s ∧ s.map Symbol.group = g ∧ (s = none → b.strict = false) ∧
        b = b' := by
  rw [groupFor, returns_lift_bind_iff]
  rcases h : t.resolve v with e | _ | s
  · simp
  · cases hs : b.strict <;> simp [hs, and_assoc, and_comm]
  · simp

section

variable {ρ : Type} {view : Builder → ρ} {p : Event → Prop}

theorem steady_requireOpen : requireOpen.Steady view p :=
  steady_get.bind fun _ => steady_ite (steady_throw _) (steady_pure _)

theorem steady_requireClausesOpen : requireClausesOpen.Steady view p :=
  steady_requireOpen.bind fun _ => steady_get.bind fun _ =>
    steady_ite (steady_throw _) (steady_pure _)

theorem steady_groupFor (hp : ∀ r, p (.logged r)) (t : Table) (v : Value) :
    (groupFor t v).Steady view p := by
  refine (steady_lift _).bind fun s => ?_
  split
  · exact steady_pure _
  · refine steady_get.bind fun b => ?_
    exact Steady.guarded ((steady_log hp _ _ _).bind fun _ => steady_pure _)

end

theorem blind_requireOpen {f : Builder → Builder} (hf : ∀ b, (f b).consumed = b.consumed) :
    requireOpen.Blind f := by
  refine blind_get_bind (fun b => ?_) fun _ => blind_ite (blind_throw _) (blind_pure _)
  rw [hf b]

theorem blind_appendOrders {f : Builder → Builder} (os : List (Value × Value))
    (hf : ∀ ws, (modifyDocument fun d => { d with sort := d.sort ++ ws }).Blind f) :
    (appendOrders os).Blind f := by
  induction os with
  | nil => exact blind_pure _
  | cons o os ih => exact (blind_lift _).bind fun w => (hf [(o.1, w)]).bind fun _ => ih

theorem returns_appendOrders_iff {os : List (Value × Value)} {b b' : Builder} {x : Unit} :
    (appendOrders os).Returns b x b' ↔
      ∃ ws, directed os = .ok ws ∧
        { b with document := { b.document with sort := b.document.sort ++ ws } } = b' := by
  induction os generalizing b with
  | nil =>
      rw [appendOrders, directed]
      simp
  | cons o os ih =>
      obtain ⟨name, given⟩ := o
      rw [appendOrders, directed]
      cases h : direction given with
      | error e => simp
      | ok w =>
          simp only [returns_lift_bind_iff, Except.ok_bind, Except.ok.injEq, exists_eq_left',
            Except.bind_eq_ok_iff, Except.pure_eq]
          rw [returns_bind_iff]
          simp only [returns_modifyDocument_iff, ih]
          constructor
          · rintro ⟨_, _, rfl, ws, hws, rfl⟩
            exact ⟨_, ⟨ws, hws, rfl⟩, by simp⟩
          · rintro ⟨_, ⟨ws, hws, rfl⟩, rfl⟩
            exact ⟨(), _, rfl, ws, hws, by simp⟩

/-- The clauses of keywords are added without fail. -/
theorem returns_addKeywords_iff {fs ks : List Value} {b b' : Builder} {x : Unit} :
    (addKeywords fs ks).Returns b x b' ↔
      { b with document := mentioning fs ks b.document } = b' := by
  induction ks generalizing b with
  | nil => simp [addKeywords, mentioning]
  | cons k ks ih =>
      rw [addKeywords, returns_bind_iff]
      simp [ih, mentioning]

theorem returns_nest_iff {p : Value} {inner cs : List Clause} {g : ClauseGroup}
    {r : Registration} {b b' : Builder} :
    (onDraft (Draft.nest p inner g r)).Returns b cs b' ↔
      Draft.underPath p inner = cs ∧
        { b with document := { b.document with
            draft := b.document.draft.place g r (Draft.underPath p inner) } } = b' := by
  simp [onDraft, Draft.nest, returns_within_iff, and_assoc]

end Builder

/-! ## Whole calls -/

namespace Call

attribute [simp] isClause

/-- The method returns exactly where an open builder accepts the call, with the change that the call
names. -/
@[simp] def Specifies (c : Call) (method : Action Builder Unit) : Prop :=
  ∀ b b' : Builder, method.Returns b () b' ↔
    b.consumed = false ∧ (c.isClause = true → b.document.isWrapped = false) ∧
      c.Accepted b ∧ { b with document := c.change b.document } = b'

theorem specifies_setIndex (i : Value) : Specifies (setIndex i) (Builder.setIndex i) := by
  simp [and_assoc, Builder.setIndex]

theorem specifies_limit (s : Value) : Specifies (limit s) (Builder.limit s) := by
  simp [and_assoc, Builder.limit, Page.requireLeast_eq_ok_iff]

theorem specifies_paginate (s p : Value) : Specifies (paginate s p) (Builder.paginate s p) := by
  cases h : Page.number s p <;> simp [and_assoc, Builder.paginate, h]

theorem specifies_orderBy (o g : Value) : Specifies (orderBy o g) (Builder.orderBy o g) := by
  cases h : Builder.ordersOf o g with
  | error e => simp [Builder.orderBy, h]
  | ok os =>
      cases hw : Builder.directed os <;>
        simp [and_assoc, Builder.orderBy, Builder.returns_appendOrders_iff, h, hw]

theorem specifies_addWhere (f v o t : Value) :
    Specifies (addWhere f v o t) (Builder.addWhere f v o t) := by
  rcases h : Table.operator.resolve o with e | _ | s <;>
    simp [and_assoc, Builder.addWhere, Builder.returns_groupFor_iff, h]

theorem specifies_whereNull (f n : Value) : Specifies (whereNull f n) (Builder.whereNull f n) := by
  simp [and_assoc, Builder.whereNull, Builder.changeGroups]

theorem specifies_keywords (ks : Iterable) (fs : Value) :
    Specifies (keywords ks fs) (Builder.keywords ks fs) := by
  cases hf : fs.oneOrMany <;> rcases hk : ks.oneOrMany with e | ⟨ys, _ | e⟩ <;>
    simp [and_assoc, Builder.keywords, Builder.returns_addKeywords_iff, Iterable.handed,
      Iterable.finish, hf, hk]

theorem specifies_minShouldMatch (n : Value) :
    Specifies (minShouldMatch n) (Builder.minShouldMatch n) := by
  simp [and_assoc, Builder.minShouldMatch, Builder.changeGroups]

theorem specifies_minScore (s : Value) : Specifies (minScore s) (Builder.minScore s) := by
  cases h : Builder.scoreOf s <;> simp [and_assoc, Builder.minScore, h]

theorem specifies_highlight (fs c : Value) :
    Specifies (highlight fs c) (Builder.highlight fs c) := by
  cases h : Builder.fieldNames fs <;> simp [and_assoc, Builder.highlight, h]

theorem specifies_whereNested (p f v l t : Value) (r : Registration) :
    Specifies (whereNested p f v l t r) (Builder.whereNested p f v l t r) := by
  rcases h : Table.logic.resolve l with e | _ | s <;>
    simp [and_assoc, Builder.whereNested, Builder.returns_groupFor_iff,
      Builder.returns_nest_iff, placeIn, h]

theorem specifies_whereNestedRaw (p q l : Value) (r : Registration) :
    Specifies (whereNestedRaw p q l r) (Builder.whereNestedRaw p q l r) := by
  rcases h : Table.logic.resolve l with e | _ | s <;> cases hq : Draft.given q <;>
    simp [and_assoc, Builder.whereNestedRaw, Builder.returns_groupFor_iff,
      Builder.returns_nest_iff, placeIn, h, hq]

theorem specifies_aggregate (ns : Value) : Specifies (aggregate ns) (Builder.aggregate ns) := by
  intro b b'
  cases h : Aggregation.documentOf ns with
  | error e => simp [and_assoc, Builder.aggregate, h]
  | ok es =>
      by_cases hk : Entries.sharedKeys es b.document.aggregations = [] <;>
        simp [and_assoc, Builder.aggregate, h, hk]

theorem specifies_functions (s m : Value) : Specifies (functions s m) (Builder.functions s m) := by
  intro b b'
  cases hw : b.document.isWrapped <;> cases h : ScoreSettings.ofValues s m <;>
    simp [and_assoc, Builder.functions, h, hw]

/-- Everything that a call can do when it succeeds. -/
theorem returns_apply_iff {c : Call} {b b' : Builder} :
    c.apply.Returns b () b' ↔
      b.consumed = false ∧ (c.isClause = true → b.document.isWrapped = false) ∧
        c.Accepted b ∧ { b with document := c.change b.document } = b' := by
  cases c with
  | setIndex i => exact specifies_setIndex i b b'
  | limit s => exact specifies_limit s b b'
  | paginate s p => exact specifies_paginate s p b b'
  | orderBy o g => exact specifies_orderBy o g b b'
  | addWhere f v o t => exact specifies_addWhere f v o t b b'
  | whereNull f n => exact specifies_whereNull f n b b'
  | keywords ks fs => exact specifies_keywords ks fs b b'
  | minShouldMatch n => exact specifies_minShouldMatch n b b'
  | minScore s => exact specifies_minScore s b b'
  | highlight fs c => exact specifies_highlight fs c b b'
  | whereNested p f v l t r => exact specifies_whereNested p f v l t r b b'
  | whereNestedRaw p q l r => exact specifies_whereNestedRaw p q l r b b'
  | aggregate ns => exact specifies_aggregate ns b b'
  | functions s m => exact specifies_functions s m b b'

/-- Whether a builder takes a call depends on four of its parts. -/
theorem returns_of_like {c : Call} {b u b' : Builder} (hconsumed : b.consumed = u.consumed)
    (hstrict : b.strict = u.strict) (hwrapped : b.document.isWrapped = u.document.isWrapped)
    (haggregations : b.document.aggregations = u.document.aggregations)
    (h : c.apply.Returns b () b') :
    { b with document := c.change b.document } = b' ∧
      c.apply.Returns u () { u with document := c.change u.document } := by
  obtain ⟨hopen, hclause, ha, hb'⟩ := returns_apply_iff.mp h
  rw [hconsumed] at hopen
  rw [hwrapped] at hclause
  have hu : c.Accepted u := by
    cases c <;> simp only [Accepted, hstrict, hwrapped, haggregations] at ha ⊢ <;> exact ha
  exact ⟨hb', returns_apply_iff.mpr ⟨hopen, hclause, hu, rfl⟩⟩

/-! ## Calls one after the other -/

/-- What relates a builder to the calls that it has taken is carried over a run in which none fails,
if every call that is accepted carries it over. -/
theorem related_of_returns (R : List Call → Builder → Prop) {calls : List Call} {b b' : Builder}
    (hrun : (forM calls apply).Returns b () b')
    (hstep : ∀ c ∈ calls, ∀ past u, R past u → c.Accepted u →
      R (past ++ [c]) { u with document := c.change u.document }) :
    ∀ past, R past b → R (past ++ calls) b' := by
  induction calls generalizing b with
  | nil =>
      obtain ⟨-, rfl⟩ := returns_pure_iff.mp hrun
      intro past hb
      rwa [List.append_nil]
  | cons c calls ih =>
      rw [List.forM_cons] at hrun
      obtain ⟨⟨⟩, u, hc, hrun⟩ := returns_bind_iff.mp hrun
      obtain ⟨-, -, ha, rfl⟩ := returns_apply_iff.mp hc
      intro past hb
      have hfirst := hstep c List.mem_cons_self past b hb ha
      have hrest := ih hrun (fun d hd => hstep d (List.mem_cons_of_mem c hd)) _ hfirst
      rwa [List.append_assoc] at hrest

/-- Builders that are related stay related over a run in which none fails, if they stay related over
every single call. -/
theorem exists_related_run {R : Builder → Builder → Prop} {calls : List Call} {b u b' : Builder}
    (hstep : ∀ (c : Call) (b u b' : Builder), R b u → c.apply.Returns b () b' →
      ∃ u', c.apply.Returns u () u' ∧ R b' u')
    (h : R b u) (hrun : (forM calls apply).Returns b () b') :
    ∃ u', (forM calls apply).Returns u () u' ∧ R b' u' := by
  induction calls generalizing b u with
  | nil =>
      obtain ⟨-, rfl⟩ := returns_pure_iff.mp hrun
      exact ⟨u, returns_pure_iff.mpr ⟨rfl, rfl⟩, h⟩
  | cons c calls ih =>
      rw [List.forM_cons] at hrun
      obtain ⟨⟨⟩, v, hc, hrun⟩ := returns_bind_iff.mp hrun
      obtain ⟨w, hw, hvw⟩ := hstep c b u v h hc
      obtain ⟨u', hu', h'⟩ := ih hvw hrun
      refine ⟨u', ?_, h'⟩
      rw [List.forM_cons]
      exact returns_bind_iff.mpr ⟨(), w, hw, hu'⟩

/-- Running calls leaves open what is open. -/
theorem consumed_of_returns {cs : List Call} {b b' : Builder}
    (h : (forM cs apply).Returns b () b') : b'.consumed = b.consumed :=
  related_of_returns (fun _ u => u.consumed = b.consumed) h (fun _ _ _ _ hu _ => hu) [] rfl

theorem returns_forM_append {cs ds : List Call} {b u b' : Builder}
    (hcs : (forM cs apply).Returns b () u) (hds : (forM ds apply).Returns u () b') :
    (forM (cs ++ ds) apply).Returns b () b' := by
  rw [List.forM_append]
  exact returns_bind_iff.mpr ⟨(), u, hcs, hds⟩

theorem returns_forM_cons {c : Call} {cs : List Call} {b u b' : Builder}
    (hc : c.apply.Returns b () u) (hcs : (forM cs apply).Returns u () b') :
    (forM (c :: cs) apply).Returns b () b' := by
  rw [List.forM_cons]
  exact returns_bind_iff.mpr ⟨(), u, hc, hcs⟩

end Call

end DocSearch
