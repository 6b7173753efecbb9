import DocSearch.Proofs.Builder.Compilation

/-!
# Three ways to the same nested clauses

A nested predicate on a list of values leaves what one call for each value leaves, and two lists one
after the other leave what the list of both leaves. The bodies of the predicates, given as they are,
leave other clauses, but clauses that compile to the same, whatever calls follow.
-/

namespace DocSearch

open DocSearch.Action

/-! ## Drafts with the same bodies -/

/-- In each group and among the scoring functions the two drafts have the same bodies. -/
structure Draft.RendersAs (d e : Draft) : Prop where
  groups : ∀ g, Clause.renderAll (d.groups.get g) = Clause.renderAll (e.groups.get g)
  minimum : d.groups.minimum = e.groups.minimum
  functions : Clause.renderWeighted d.functions = Clause.renderWeighted e.functions

namespace Draft.RendersAs

variable {d e : Draft}

theorem render_bool (h : d.RendersAs e) :
    (Clause.bool d.groups).render = (Clause.bool e.groups).render := by
  have hfilter := h.groups .filter
  have hmust := h.groups .must
  have hnot := h.groups .mustNot
  have hshould := h.groups .should
  simp only [Groups.get] at hfilter hmust hnot hshould
  simp only [Clause.render, hfilter, hmust, hnot, hshould, h.minimum]

theorem render_functionScore (h : d.RendersAs e) (s : ScoreSettings) :
    (Clause.functionScore (.bool d.groups) d.functions s).render =
      (Clause.functionScore (.bool e.groups) e.functions s).render := by
  have hbool := h.render_bool
  have hfunctions := h.functions
  generalize Clause.bool d.groups = c at hbool ⊢
  simp only [Clause.render, hbool, hfunctions]

/-- Clauses with the same bodies keep the bodies the same, wherever they are placed. -/
theorem place (h : d.RendersAs e) {cs ds : List Clause}
    (hcs : Clause.renderAll cs = Clause.renderAll ds)
    (hfs : ∀ w, Clause.renderWeighted (cs.map fun c => ⟨c, w⟩) =
      Clause.renderWeighted (ds.map fun c => ⟨c, w⟩))
    (g : ClauseGroup) (r : Registration) : (d.place g r cs).RendersAs (e.place g r ds) where
  groups k := by
    simp only [Draft.place, Call.get_addAll, Clause.renderAll_append, h.groups k]
    split
    · rw [hcs]
    · rfl
  minimum := by simp only [Draft.place, Groups.addAll, Groups.minimum_set, h.minimum]
  functions := by
    simp only [Draft.place, Clause.renderWeighted_append, h.functions, Registration.functions]
    split
    · rw [hfs]
    · rfl

end Draft.RendersAs

/-- The two builders differ at most in the form of their clauses. -/
structure Builder.RendersAs (b c : Builder) : Prop where
  draft : b.document.draft.RendersAs c.document.draft
  rest : b = { c with document := { c.document with draft := b.document.draft } }

/-- What a call makes of the rest of a document does not depend on the clauses. -/
theorem Call.change_draft (call : Call) (d : Document) (draft : Draft) :
    call.change { d with draft := draft } =
      { call.change d with draft := (call.change { d with draft := draft }).draft } := by
  cases hclause : call.isClause with
  | true =>
      rw [change_of_isClause hclause d, change_of_isClause hclause { d with draft := draft }]
  | false =>
      cases call <;> first | rfl | cases hclause

namespace Builder.RendersAs

variable {b c b' : Builder} {call : Call} {calls : List Call}

theorem body (h : b.RendersAs c) : b.document.body = c.document.body := by
  have hclause : b.document.clause.render = c.document.clause.render := by
    rw [h.rest, Document.clause, Document.clause]
    cases c.document.envelope with
    | none => exact h.draft.render_bool
    | some s => exact h.draft.render_functionScore s
  rw [Document.body, Document.body, Document.parts, Document.parts, hclause, h.rest]
  rfl

theorem params (h : b.RendersAs c) : b.params = c.params := by
  rw [Builder.params, Builder.params, Document.params, Document.params, h.body, h.rest]

theorem snapshot (h : b.RendersAs c) : b.document.snapshot = c.document.snapshot := by
  rw [Document.snapshot, Document.snapshot, h.body, h.rest]

theorem change (h : b.RendersAs c) :
    Builder.RendersAs { b with document := call.change b.document }
      { c with document := call.change c.document } where
  draft :=
    { groups := fun g => by
        rw [Call.groups_change, Call.groups_change, Clause.renderAll_append,
          Clause.renderAll_append]
        split
        · rfl
        · rw [h.draft.groups g]
      minimum := by rw [Call.minimum_change, Call.minimum_change, h.draft.minimum]
      functions := by
        rw [Call.functions_change, Call.functions_change, Clause.renderWeighted_append,
          Clause.renderWeighted_append, h.draft.functions] }
  rest := by
    rw [h.rest]
    exact congrArg (fun d => { c with document := d }) (call.change_draft c.document _)

theorem returns (h : b.RendersAs c) (hb : call.apply.Returns b () b') :
    ∃ c', call.apply.Returns c () c' ∧ b'.RendersAs c' := by
  have hconsumed : b.consumed = c.consumed := by rw [h.rest]
  have hstrict : b.strict = c.strict := by rw [h.rest]
  have hwrapped : b.document.isWrapped = c.document.isWrapped := by rw [h.rest]; rfl
  have haggregations : b.document.aggregations = c.document.aggregations := by rw [h.rest]
  obtain ⟨rfl, hc⟩ := Call.returns_of_like hconsumed hstrict hwrapped haggregations hb
  exact ⟨_, hc, h.change⟩

/-- Whatever calls one builder takes, the other takes as well. -/
theorem run (h : b.RendersAs c) (hb : (forM calls Call.apply).Returns b () b') :
    ∃ c', (forM calls Call.apply).Returns c () c' ∧ b'.RendersAs c' :=
  Call.exists_related_run (fun _ _ _ _ h hb => h.returns hb) h hb

end Builder.RendersAs

/-! ## Nested predicates -/

namespace Call

open Draft (underPath predicates given)

/-- What a predicate on one of several values asks for: some query types take a list. -/
def asked (queryType : String) (v : Value) : Value :=
  if queryType = "terms" then .list [v] else v

theorem copyable_asked (queryType : String) (v : Value) :
    (asked queryType v).copyable = v.copyable := by
  unfold asked
  split <;> simp [Value.copyable, Value.copyableItems]

def unrolledBody (field queryType : String) (v : Value) : Value :=
  termBody (.str field) (asked queryType v) (.str queryType)

theorem predicates_eq (field queryType : String) (kind : SeqKind) (vs : List Value) :
    predicates (.str field) (.seq kind vs) (.str queryType) =
      vs.map fun v => .term (.str field) (asked queryType v) (.str queryType) := by
  simp [predicates, Value.unroll, asked]

theorem predicates_append {field queryType : Value} {j k m : SeqKind} (xs ys : List Value) :
    predicates field (.seq j (xs ++ ys)) queryType =
      predicates field (.seq k xs) queryType ++ predicates field (.seq m ys) queryType := by
  simp [predicates, Value.unroll]

/-- A value that is no sequence is asked for like a list of this one value. -/
theorem predicates_single {field queryType v : Value} (hv : ∀ k xs, v ≠ .seq k xs)
    (kind : SeqKind) :
    predicates field v queryType = predicates field (.seq kind [v]) queryType := by
  cases v with
  | seq k xs => exact absurd rfl (hv k xs)
  | _ => rfl

theorem copyable_of_predicates {field queryType : String} {kind : SeqKind} {vs bodies : List Value}
    (h : Clause.renderAll (predicates (.str field) (.seq kind vs) (.str queryType)) =
      .ok bodies) : ∀ v ∈ vs, v.copyable = true := by
  rw [predicates_eq] at h
  induction vs generalizing bodies with
  | nil => nofun
  | cons v vs ih =>
      obtain ⟨body, hbody, h⟩ := Except.bind_eq_ok_iff.mp h
      obtain ⟨rest, hrest, -⟩ := Except.bind_eq_ok_iff.mp h
      rw [Clause.render] at hbody
      obtain ⟨copied, hcopied, -⟩ := Except.bind_eq_ok_iff.mp hbody
      have hv := (Value.copy_eq_ok_iff.mp hcopied).1
      rw [copyable_asked] at hv
      exact List.forall_mem_cons.mpr ⟨hv, ih hrest⟩

theorem bodies_of_predicates {field queryType : String} {kind : SeqKind} {vs : List Value}
    (hvs : ∀ v ∈ vs, v.copyable = true) :
    Clause.renderAll (predicates (.str field) (.seq kind vs) (.str queryType)) =
      .ok (vs.map (unrolledBody field queryType)) := by
  rw [predicates_eq]
  refine Clause.renderAll_map_ok fun v hv => Clause.render_term_ok rfl rfl ?_
  rw [copyable_asked, hvs v hv]

theorem dict_of_unrolledBody {field queryType : String} {v : Value} (hv : v.copyable = true) :
    (unrolledBody field queryType v).copyable = true ∧
      ∃ es, unrolledBody field queryType v = .dict es := by
  refine ⟨?_, _, rfl⟩
  simp [unrolledBody, termBody, Value.copyable, Value.copyableEntries, copyable_asked, hv]

theorem renderAll_underPath {cs : List Clause} {bodies : List Value}
    (h : Clause.renderAll cs = .ok bodies) (path : Value) :
    Clause.renderAll (underPath path cs) = .ok (bodies.map (nestedBody path)) := by
  induction cs generalizing bodies with
  | nil =>
      obtain rfl := Except.ok.inj h
      rfl
  | cons c cs ih =>
      obtain ⟨body, hbody, h⟩ := Except.bind_eq_ok_iff.mp h
      obtain ⟨rest, hrest, h⟩ := Except.bind_eq_ok_iff.mp h
      obtain rfl := Except.ok.inj h
      have hcs := ih hrest
      rw [underPath] at hcs
      simp [underPath, Clause.renderAll, Clause.render_nested_ok hbody, hcs]

theorem underPath_append (path : Value) (cs ds : List Clause) :
    underPath path (cs ++ ds) = underPath path cs ++ underPath path ds := by
  simp [underPath]

end Call

namespace Builder

open Call (unrolledBody)
open Draft (underPath predicates given)

def placing (b : Builder) (g : ClauseGroup) (r : Registration) (cs : List Clause) : Builder :=
  { b with document := { b.document with draft := b.document.draft.place g r cs } }

theorem placing_nil (b : Builder) (g : ClauseGroup) (r : Registration) :
    b.placing g r [] = b := by
  simp [placing, Draft.place, Registration.functions]

theorem placing_append (b : Builder) (g : ClauseGroup) (r : Registration) (cs ds : List Clause) :
    b.placing g r (cs ++ ds) = (b.placing g r cs).placing g r ds := by
  simp [placing, Draft.place_append]

/-- The builder takes clauses, and the logic names a group for them. -/
structure Takes (b : Builder) (logic : Value) (l : Logic) : Prop where
  opened : b.consumed = false
  unwrapped : b.document.isWrapped = false
  logic : Logic.resolve logic = .ok (some l)

namespace Takes

variable {b : Builder} {logic path field queryType : Value} {l : Logic} {r : Registration}
  {kind : SeqKind} {vs : List Value}

theorem placing (h : b.Takes logic l) (g : ClauseGroup) (r : Registration) (cs : List Clause) :
    (b.placing g r cs).Takes logic l :=
  ⟨h.opened, h.unwrapped, h.logic⟩

theorem returns_whereNested (h : b.Takes logic l) (v : Value) :
    (Call.whereNested path field v logic queryType r).apply.Returns b ()
      (b.placing l.group r (underPath path (predicates field v queryType))) := by
  refine Call.returns_apply_iff.mpr ⟨h.opened, fun _ => h.unwrapped, ?_, ?_⟩
  · simp [Table.resolve, h.logic, Except.map]
  · simp [Call.placeIn, Table.resolve, h.logic, Except.map, Symbol.group, Builder.placing]

theorem returns_whereNestedRaw (h : b.Takes logic l) {query : Value} {cs : List Clause}
    (hcs : given query = .ok cs) :
    (Call.whereNestedRaw path query logic r).apply.Returns b ()
      (b.placing l.group r (underPath path cs)) := by
  refine Call.returns_apply_iff.mpr ⟨h.opened, fun _ => h.unwrapped, ?_, ?_⟩
  · simp [Table.resolve, h.logic, hcs, Except.map]
  · simp [Call.placeIn, Table.resolve, h.logic, Except.map, Symbol.group, hcs, Builder.placing]

/-- One call for each value adds what one call for all of them adds. -/
theorem returns_singles (h : b.Takes logic l) (hvs : ∀ v ∈ vs, ∀ k xs, v ≠ .seq k xs) :
    (forM (vs.map fun v => Call.whereNested path field v logic queryType r) Call.apply).Returns b ()
      (b.placing l.group r (underPath path (predicates field (.seq kind vs) queryType))) := by
  induction vs generalizing b with
  | nil =>
      refine returns_pure_iff.mpr ⟨rfl, ?_⟩
      exact (b.placing_nil l.group r).symm
  | cons v vs ih =>
      have hfirst : (Call.whereNested path field v logic queryType r).apply.Returns b () _ :=
        h.returns_whereNested v
      have hrest := ih (h.placing l.group r (underPath path (predicates field v queryType)))
        fun w hw => hvs w (List.mem_cons_of_mem v hw)
      rw [← placing_append, ← Call.underPath_append,
        Call.predicates_single (hvs v List.mem_cons_self) kind, ← Call.predicates_append,
        ← Call.predicates_single (hvs v List.mem_cons_self) kind] at hrest
      exact Call.returns_forM_cons hfirst hrest

/-- The bodies of clauses, given as they are, add clauses that compile to the same. -/
theorem returns_bodies (h : b.Takes logic l) {cs : List Clause} {bodies : List Value}
    (hcs : Clause.renderAll cs = .ok bodies)
    (hbodies : ∀ body ∈ bodies, body.copyable = true ∧ ∃ es, body = .dict es) :
    ∃ u, (Call.whereNestedRaw path (.list bodies) logic r).apply.Returns b () u ∧
      u.RendersAs (b.placing l.group r (underPath path cs)) := by
  have hgiven : given (.list bodies) = .ok (bodies.map .raw) := Call.given_dicts hbodies
  have hraw : Clause.renderAll (underPath path (bodies.map .raw)) =
      .ok (bodies.map (Call.nestedBody path)) :=
    @Call.renderAll_given (.list bodies) hbodies path
  have hunder := Call.renderAll_underPath hcs path
  refine ⟨_, h.returns_whereNestedRaw hgiven, ?_, rfl⟩
  refine Draft.RendersAs.place ⟨fun _ => rfl, rfl, rfl⟩ (hraw.trans hunder.symm) (fun w => ?_) _ _
  rw [Clause.renderWeighted_map_ok w hraw, Clause.renderWeighted_map_ok w hunder]

end Takes

section Unrolled

variable {b : Builder} {logic : Value} {l : Logic} {vs : List Value} (hopen : b.consumed = false)
  (hwrapped : b.document.isWrapped = false) (hl : Logic.resolve logic = .ok (some l))
  (hvs : ∀ v ∈ vs, ∀ k xs, v ≠ .seq k xs)

include hopen hwrapped hl hvs

/-- A nested predicate on a list of values, one on each of its values, and one on each part of the
list leave the same builder. The bodies of the predicates leave one that compiles to the same,
whatever calls follow. -/
theorem nested_values_unrolled (path : Value) (field queryType : String) (kind : SeqKind)
    (r : Registration) :
    let call (v : Value) : Call := .whereNested path (.str field) v logic (.str queryType) r
    ∃ b', (call (.seq kind vs)).apply.Returns b () b' ∧
      (forM (vs.map call) Call.apply).Returns b () b' ∧
      (∀ bodies, Clause.renderAll
          (predicates (.str field) (.seq kind vs) (.str queryType)) = .ok bodies →
        bodies = vs.map (unrolledBody field queryType) ∧
          ∃ u, (Call.whereNestedRaw path (.list bodies) logic r).apply.Returns b () u ∧
            u.RendersAs b' ∧
            ∀ (calls : List Call) w, (forM calls Call.apply).Returns u () w →
              ∃ w', (forM calls Call.apply).Returns b' () w' ∧ w.RendersAs w' ∧
                w.params = w'.params ∧ w.document.snapshot = w'.document.snapshot) ∧
      ∀ xs ys, vs = xs ++ ys →
        ∃ m, (call (.seq kind xs)).apply.Returns b () m ∧
          (call (.seq kind ys)).apply.Returns m () b' := by
  intro call
  have htakes : b.Takes logic l := ⟨hopen, hwrapped, hl⟩
  refine ⟨_, htakes.returns_whereNested _, htakes.returns_singles hvs, ?_, ?_⟩
  · intro bodies hbodies
    have hcopy := Call.copyable_of_predicates hbodies
    obtain rfl := Except.ok.inj (hbodies.symm.trans (Call.bodies_of_predicates hcopy))
    have hdicts : ∀ body ∈ vs.map (unrolledBody field queryType),
        body.copyable = true ∧ ∃ es, body = .dict es := by
      intro body hbody
      obtain ⟨v, hv, rfl⟩ := List.mem_map.mp hbody
      exact Call.dict_of_unrolledBody (hcopy v hv)
    obtain ⟨u, hu, hsame⟩ := htakes.returns_bodies hbodies hdicts
    refine ⟨rfl, u, hu, hsame, fun calls w hw => ?_⟩
    obtain ⟨w', hw', h⟩ := hsame.run hw
    exact ⟨w', hw', h, h.params, h.snapshot⟩
  · rintro xs ys rfl
    refine ⟨_, htakes.returns_whereNested _, ?_⟩
    rw [Call.predicates_append xs ys (j := kind) (k := kind) (m := kind), Call.underPath_append,
      placing_append]
    exact (htakes.placing _ _ _).returns_whereNested _

end Unrolled

/-- Two values that are asked for as lists of one each, in a query that is under way. -/
theorem nested_values_unrolled_of_two_tags :
    let b : Builder :=
      ((Call.whereNull (.str "gone") (.bool true)).apply.run (.new .raw true)).state
    let call (v : Value) : Call := .whereNested (.str "tags") (.str "tags.name") v (.str " AND ")
      (.str "terms") ⟨.bool true, .int 3⟩
    let body (tag : String) : Value :=
      .dict [(.str "terms", .dict [(.str "tags.name", .list [.str tag])])]
    ∃ b', (call (.tuple [.str "a", .str "b"])).apply.Returns b () b' ∧
      (∃ m, (call (.str "a")).apply.Returns b () m ∧ (call (.str "b")).apply.Returns m () b') ∧
      ∃ u, (Call.whereNestedRaw (.str "tags") (.list [body "a", body "b"]) (.str " AND ")
          ⟨.bool true, .int 3⟩).apply.Returns b () u ∧
        u.RendersAs b' ∧ u.params = b'.params := by
  intro b call body
  have hvs : ∀ v ∈ [Value.str "a", .str "b"], ∀ k xs, v ≠ .seq k xs := by simp
  have hl : Logic.resolve (.str " AND ") = .ok (some .and) := by
    have hword : Logic.ofWord? (Text.lower (Text.strip " AND ")) = some .and := by decide +kernel
    rw [Logic.resolve_str, hword]
  have hbodies : Clause.renderAll (predicates (.str "tags.name")
      (.tuple [.str "a", .str "b"]) (.str "terms")) = .ok [body "a", body "b"] :=
    Call.bodies_of_predicates (by simp [Value.copyable])
  obtain ⟨b', hwhole, hsingles, hraw, -⟩ := @nested_values_unrolled b _ _ _ rfl rfl hl hvs
    (.str "tags") "tags.name" "terms" .tuple ⟨.bool true, .int 3⟩
  obtain ⟨-, u, hu, hsame, -⟩ := hraw _ hbodies
  rw [List.map_cons, List.forM_cons] at hsingles
  obtain ⟨⟨⟩, m, hm, hrest⟩ := returns_bind_iff.mp hsingles
  rw [List.map_cons, List.forM_cons] at hrest
  obtain ⟨⟨⟩, m', hm', hend⟩ := returns_bind_iff.mp hrest
  obtain ⟨-, rfl⟩ := returns_pure_iff.mp hend
  exact ⟨_, hwhole, ⟨m, hm, hm'⟩, u, hu, hsame, hsame.params⟩

end Builder

end DocSearch
