import DocSearch.Proofs.Aggregation.Copies
import DocSearch.Proofs.Builder.Changes
import DocSearch.Proofs.Builder.History
import DocSearch.Proofs.Value.Fields

/-!
# Compilation follows the history

`Document.Follows` relates a document to the calls that it was made by, one rule for each part. A
call that succeeds carries the relation over to the longer history, and a document that follows a
history compiles to what `History.params` computes from the calls alone.
-/

namespace DocSearch

open DocSearch.Action

namespace Clause

theorem renderWeighted_append (fs gs : List (Weighted Clause)) :
    renderWeighted (fs ++ gs) = do
      let vs ← renderWeighted fs
      return vs ++ (← renderWeighted gs) := by
  induction fs with
  | nil => cases h : renderWeighted gs <;> simp [renderWeighted, h]
  | cons f fs ih =>
      obtain ⟨c, w⟩ := f
      simp only [List.cons_append, renderWeighted, ih]
      cases render c <;> cases renderWeighted fs <;> cases renderWeighted gs <;> rfl

theorem renderAll_append_ok {cs ds : List Clause} {vs ws : List Value}
    (hc : renderAll cs = .ok vs) (hd : renderAll ds = .ok ws) :
    renderAll (cs ++ ds) = .ok (vs ++ ws) := by
  simp [renderAll_append, hc, hd]

theorem renderWeighted_append_ok {fs gs : List (Weighted Clause)} {vs ws : List Value}
    (hf : renderWeighted fs = .ok vs) (hg : renderWeighted gs = .ok ws) :
    renderWeighted (fs ++ gs) = .ok (vs ++ ws) := by
  simp [renderWeighted_append, hf, hg]

theorem renderAll_map_ok {α : Type} {xs : List α} {c : α → Clause} {v : α → Value}
    (h : ∀ x ∈ xs, (c x).render = .ok (v x)) : renderAll (xs.map c) = .ok (xs.map v) := by
  induction xs with
  | nil => rfl
  | cons x xs ih =>
      have hx := h x List.mem_cons_self
      have hxs := ih fun y hy => h y (List.mem_cons_of_mem x hy)
      simp [renderAll, hx, hxs]

theorem renderWeighted_map_ok {cs : List Clause} {vs : List Value} (w : Value)
    (h : renderAll cs = .ok vs) :
    renderWeighted (cs.map fun c => ⟨c, w⟩) =
      .ok (vs.map fun v => .object [("filter", v), ("weight", w)]) := by
  induction cs generalizing vs with
  | nil =>
      obtain rfl := Except.ok.inj h
      rfl
  | cons c cs ih =>
      obtain ⟨v, hv, h⟩ := Except.bind_eq_ok_iff.mp h
      obtain ⟨us, hus, h⟩ := Except.bind_eq_ok_iff.mp h
      obtain rfl := Except.ok.inj h
      simp [renderWeighted, hv, ih hus]

theorem render_term_ok {field value queryType : Value} (hf : field.isKey = true)
    (ht : queryType.isKey = true) (hv : value.copyable = true) :
    (term field value queryType).render = .ok (Call.termBody field value queryType) := by
  simp [render, Value.copy_eq_ok hv, Value.entry_eq_ok hf, Value.entry_eq_ok ht, Call.termBody]

theorem render_nested_ok {path v : Value} {c : Clause} (h : c.render = .ok v) :
    (nested path c .null).render = .ok (Call.nestedBody path v) := by
  simp [render, h, givenEntry, Call.nestedBody]

theorem render_raw_ok {es : List (Value × Value)} (h : (Value.dict es).copyable = true) :
    (raw (.dict es)).render = .ok (.dict es) := by
  simp [render, Value.toEntries, Value.copy_eq_ok h]

theorem dict_of_asClause {v : Value} {c : Clause} (hcopy : v.copyable = true)
    (hdata : ∀ k fs, v ≠ .record k fs) (h : v.asClause = .ok c) : ∃ es, v = .dict es := by
  cases v with
  | map k es =>
      rw [Value.copyable, Bool.and_eq_true, decide_eq_true_eq] at hcopy
      exact ⟨es, by rw [hcopy.1]⟩
  | record k fs => exact absurd rfl (hdata k fs)
  | _ => cases h

theorem asClause_dict {es : List (Value × Value)} (h : (Value.dict es).copyable = true) :
    (Value.dict es).asClause = .ok (.raw (.dict es)) := by
  simp [Value.asClause, ofValue, kind?, Value.copy_eq_ok h, Except.map]

end Clause

namespace Call

open Builder (addClause changeGroups directed mentioning)

def clauses : Call → List Clause
  | addWhere f v _ t => [.term f v t]
  | whereNull f _ => [.existence f]
  | keywords ks fs => (keywordsOf ks).map fun k => .multiMatch k (.tuple (oneOrMany fs)) .null
  | whereNested p f v _ t _ => Draft.underPath p (Draft.predicates f v t)
  | whereNestedRaw p q _ _ => Draft.underPath p ((Draft.given q).toOption.getD [])
  | _ => []

/-- The scoring functions that the call registers. -/
def registered (c : Call) : List (Weighted Clause) :=
  match c.target?, c.registration? with
  | some _, some r => r.functions c.clauses
  | _, _ => []

theorem renderAll_predicates {field value queryType : Value} (hf : field.isKey = true)
    (ht : queryType.isKey = true) (hv : value.copyable = true) (path : Value) :
    Clause.renderAll (Draft.underPath path (Draft.predicates field value queryType)) =
      .ok (value.unroll.map fun x => nestedBody path
        (termBody field (if queryType == .str "terms" then .list [x] else x) queryType)) := by
  unfold Draft.underPath Draft.predicates
  rw [List.map_map]
  refine Clause.renderAll_map_ok fun x hx => Clause.render_nested_ok ?_
  have hx := Value.copyable_unroll hv hx
  refine Clause.render_term_ok hf ht ?_
  split
  · exact Value.copyable_seq.mpr fun y hy => List.mem_singleton.mp hy ▸ hx
  · exact hx

/-- Plain data is accepted as clauses only if all of it are bodies. -/
theorem dicts_of_given {query : Value} {cs : List Clause}
    (h : ∀ b ∈ query.unroll, b.copyable = true ∧ ∀ k fs, b ≠ .record k fs)
    (hgiven : Draft.given query = .ok cs) :
    ∀ b ∈ query.unroll, b.copyable = true ∧ ∃ es, b = .dict es := by
  intro b hb
  obtain ⟨c, hc⟩ := Except.exists_mapM_iff.mp ⟨cs, hgiven⟩ b hb
  obtain ⟨hcopy, hdata⟩ := h b hb
  exact ⟨hcopy, Clause.dict_of_asClause hcopy hdata hc⟩

theorem given_dicts {query : Value}
    (h : ∀ b ∈ query.unroll, b.copyable = true ∧ ∃ es, b = .dict es) :
    Draft.given query = .ok (query.unroll.map .raw) := by
  unfold Draft.given
  generalize query.unroll = bs at h
  induction bs with
  | nil => rfl
  | cons b bs ih =>
      obtain ⟨hb, es, rfl⟩ := h b List.mem_cons_self
      have hbs := ih fun x hx => h x (List.mem_cons_of_mem _ hx)
      simp [List.mapM_cons, Clause.asClause_dict hb, hbs]

theorem renderAll_given {query : Value}
    (h : ∀ b ∈ query.unroll, b.copyable = true ∧ ∃ es, b = .dict es) (path : Value) :
    Clause.renderAll (Draft.underPath path (query.unroll.map .raw)) =
      .ok (query.unroll.map (nestedBody path)) := by
  unfold Draft.underPath
  rw [List.map_map]
  refine Clause.renderAll_map_ok fun b hb => Clause.render_nested_ok ?_
  obtain ⟨hc, es, rfl⟩ := h b hb
  exact Clause.render_raw_ok hc

/-- A call that finds its group adds clauses with the bodies that the call tells. -/
theorem renderAll_clauses {b : Builder} {c : Call} {g : ClauseGroup} (h : c.IsPlain)
    (ha : c.Accepted b) (ht : c.target? = some g) :
    Clause.renderAll c.clauses = .ok c.bodies := by
  cases c with
  | addWhere f v o t =>
      obtain ⟨hf, ht, hv⟩ := h
      simp [clauses, bodies, Clause.renderAll, Clause.render_term_ok hf ht hv]
  | whereNull f n => rfl
  | keywords ks fs =>
      refine Clause.renderAll_map_ok fun k _ => ?_
      simp [Clause.render, Value.items, Clause.givenEntry]
  | whereNested p f v l t r =>
      obtain ⟨hf, ht, hv⟩ := h
      exact renderAll_predicates hf ht hv p
  | whereNestedRaw p q l r =>
      obtain ⟨s, hs, -, hgiven⟩ := ha
      have hlogic : s ≠ none := by
        rintro rfl
        rcases hl : Logic.resolve l with e | _ | m
        · simp [target?, hl] at ht
        · simp [target?, hl] at ht
        · simp [Table.resolve, hl, Except.map] at hs
      obtain ⟨cs, hcs⟩ := hgiven hlogic
      have hdicts := dicts_of_given h hcs
      rw [clauses, given_dicts hdicts]
      exact renderAll_given hdicts p
  | _ => rfl

theorem renderWeighted_registered {b : Builder} {c : Call} (h : c.IsPlain) (ha : c.Accepted b) :
    Clause.renderWeighted c.registered = .ok c.weighted := by
  cases ht : c.target? with
  | none => simp [registered, weighted, ht, Clause.renderWeighted]
  | some g =>
      cases hr : c.registration? with
      | none => simp [registered, weighted, ht, hr, Clause.renderWeighted]
      | some r =>
          simp only [registered, weighted, ht, hr, Registration.functions]
          split
          · exact Clause.renderWeighted_map_ok _ (renderAll_clauses h ha ht)
          · rfl

theorem copyable_aggregations {c : Call} (h : ∀ ns, c = .aggregate ns → ns.copyable = true) :
    Value.copyableEntries c.aggregations = true := by
  cases c with
  | aggregate ns =>
      rw [aggregations]
      cases hd : Aggregation.documentOf ns with
      | error e => rfl
      | ok es => exact Aggregation.copyableEntries_documentOf (h ns rfl) hd
  | _ => rfl

/-! ## Changes part by part -/

theorem foldl_addClause (g : ClauseGroup) (c : Value → Clause) (xs : List Value) (d : Document) :
    xs.foldl (fun d x => addClause g (c x) d) d =
      changeGroups (fun gs => gs.addAll g (xs.map c)) d := by
  induction xs generalizing d with
  | nil => simp [changeGroups]
  | cons x xs ih =>
      rw [List.foldl_cons, ih]
      simp [changeGroups, addClause, Groups.addAll_cons]

/-- A call that adds or changes clauses leaves everything but the draft as it is. -/
theorem change_of_isClause {c : Call} (h : c.isClause = true) (d : Document) :
    c.change d = { d with draft := (c.change d).draft } := by
  cases c with
  | addWhere f v o t => rcases hr : Table.operator.resolve o with e | _ | s <;> simp [addClause, hr]
  | keywords ks fs => simp [mentioning, foldl_addClause, changeGroups]
  | whereNested p f v l t r => rcases hr : Table.logic.resolve l with e | _ | s <;> simp [placeIn, hr]
  | whereNestedRaw p q l r => rcases hr : Table.logic.resolve l with e | _ | s <;> simp [placeIn, hr]
  | _ => first | rfl | cases h

theorem get_addAll (gs : Groups Clause) (g k : ClauseGroup) (cs : List Clause) :
    (gs.addAll g cs).get k = gs.get k ++ if g = k then cs else [] := by
  cases g <;> cases k <;> simp [Groups.addAll, Groups.set, Groups.get]

theorem groups_placeIn (s : Except Error (Option Symbol)) (r : Registration) (cs : List Clause)
    (d : Document) (g : ClauseGroup) :
    (placeIn s r cs d).draft.groups.get g =
      d.draft.groups.get g ++ if s.toOption.join.map Symbol.group = some g then cs else [] := by
  rcases s with e | _ | s
  · simp [placeIn]
  · simp [placeIn]
  · simp [placeIn, Draft.place, get_addAll]

theorem functions_placeIn (s : Except Error (Option Symbol)) (r : Registration) (cs : List Clause)
    (d : Document) :
    (placeIn s r cs d).draft.functions =
      d.draft.functions ++ if s.toOption.join.isSome then r.functions cs else [] := by
  rcases s with e | _ | s
  · simp [placeIn]
  · simp [placeIn]
  · simp [placeIn, Draft.place]

theorem oneOrMany_toOption (v : Value) : v.oneOrMany.toOption.getD [] = oneOrMany v := by
  unfold Value.oneOrMany oneOrMany
  split <;> rfl

theorem handed_eq (ks : Iterable) : ks.handed = keywordsOf ks := by
  cases ks with
  | value v => rw [Iterable.handed_value, oneOrMany_toOption, keywordsOf]
  | source xs stop size => rfl

theorem groups_change (c : Call) (d : Document) (g : ClauseGroup) :
    (c.change d).draft.groups.get g =
      (if c.replaces g then [] else d.draft.groups.get g) ++
        if c.target? = some g then c.clauses else [] := by
  cases c with
  | addWhere f v o t =>
      rcases h : Operator.resolve o with e | _ | op
      · simp [target?, replaces, Table.resolve, h, Except.map]
      · simp [target?, replaces, Table.resolve, h, Except.map]
      · simp [target?, replaces, clauses, Table.resolve, addClause, Groups.get_add, h,
          Symbol.group, Except.map]
  | whereNull f n =>
      simp only [change, changeGroups, Groups.get_replace, target?, replaces, clauses,
        decide_eq_true_eq, Option.some.injEq]
      by_cases hg : (if n.truthy = true then ClauseGroup.mustNot else ClauseGroup.must) = g
      · simp [hg]
      · simp [hg]
  | keywords ks fs =>
      simp only [change, mentioning, foldl_addClause, oneOrMany_toOption, handed_eq]
      simp [changeGroups, get_addAll, target?, replaces, clauses]
  | minShouldMatch n => cases g <;> simp [changeGroups, target?, replaces, Groups.get]
  | whereNested p f v l t r =>
      rcases h : Logic.resolve l with e | _ | m <;>
        simp [groups_placeIn, target?, replaces, clauses, Table.resolve, h, Symbol.group,
          Except.map]
  | whereNestedRaw p q l r =>
      rcases h : Logic.resolve l with e | _ | m <;>
        simp [groups_placeIn, target?, replaces, clauses, Table.resolve, h, Symbol.group,
          Except.map]
  | _ => simp [target?, replaces]

theorem functions_change (c : Call) (d : Document) :
    (c.change d).draft.functions = d.draft.functions ++ c.registered := by
  cases c with
  | addWhere f v o t =>
      rcases h : Operator.resolve o with e | _ | op <;>
        simp [registered, registration?, target?, Table.resolve, addClause, h, Except.map]
  | keywords ks fs =>
      rw [change, mentioning, foldl_addClause]
      simp [changeGroups, registered, registration?]
  | whereNested p f v l t r =>
      rcases h : Logic.resolve l with e | _ | m <;>
        simp [functions_placeIn, registered, registration?, target?, clauses, Table.resolve, h,
          Except.map]
  | whereNestedRaw p q l r =>
      rcases h : Logic.resolve l with e | _ | m <;>
        simp [functions_placeIn, registered, registration?, target?, clauses, Table.resolve, h,
          Except.map]
  | _ => simp [registered, registration?, changeGroups]

/-! ## Accepted arguments -/

theorem eq_directionOf {v w : Value} (h : Builder.direction v = .ok w) : w = directionOf v := by
  have hword {u : Value} (hu : (do
      let w := Text.lower (← u.written)
      if Builder.directions.contains w then return .str w
      throw (.refusing (.direction u Builder.directions))) = Except.ok w) :
      w = .str (Text.lower u.text) := by
    obtain ⟨s, hs, hu⟩ := Except.bind_eq_ok_iff.mp hu
    obtain ⟨-, rfl⟩ := Value.written_eq_ok_iff.mp hs
    dsimp only at hu
    split at hu
    · exact (Except.ok.inj hu).symm
    · cases hu
  cases v with
  | map k es => exact (Except.ok.inj h).symm
  | _ => exact hword h

theorem eq_map_directionOf {os ws : List (Value × Value)} (h : directed os = .ok ws) :
    ws = os.map fun e => (e.1, directionOf e.2) := by
  induction os generalizing ws with
  | nil => exact (Except.ok.inj h).symm
  | cons o os ih =>
      obtain ⟨name, given⟩ := o
      obtain ⟨w, hw, h⟩ := Except.bind_eq_ok_iff.mp h
      obtain ⟨us, hus, h⟩ := Except.bind_eq_ok_iff.mp h
      obtain rfl := Except.ok.inj h
      rw [List.map_cons, ← ih hus, eq_directionOf hw]

theorem eq_givenOrders {o g : Value} {os : List (Value × Value)}
    (h : Builder.ordersOf o g = .ok os) : os = givenOrders o g := by
  cases o <;> first | exact (Except.ok.inj h).symm | cases h

theorem orders_accepted {o g : Value} {ws : List (Value × Value)}
    (h : (Builder.ordersOf o g >>= directed) = .ok ws) : ws = (orderBy o g).orders := by
  obtain ⟨os, hos, h⟩ := Except.bind_eq_ok_iff.mp h
  rw [eq_map_directionOf h, eq_givenOrders hos, orders]

theorem score_accepted {s : Value} {x : Float} (h : Builder.scoreOf s = .ok x) :
    s.toFloat = .ok x := by
  unfold Builder.scoreOf at h
  split at h
  · cases h
  · cases h
  · exact h

theorem page_accepted {s p : Value} {q : Page} (h : Page.number s p = .ok q) :
    ∃ n, (paginate s p).offset? = some n ∧ q = ⟨some n, some s⟩ := by
  unfold Page.number at h
  obtain ⟨-, -, h⟩ := Except.bind_eq_ok_iff.mp h
  obtain ⟨-, -, h⟩ := Except.bind_eq_ok_iff.mp h
  obtain ⟨n, hn, h⟩ := Except.bind_eq_ok_iff.mp h
  refine ⟨n, ?_, (Except.ok.inj h).symm⟩
  rw [offset?, hn, Except.toOption_ok]

/-- A value that is a member of a vocabulary without table signs is the word of that member. -/
theorem eq_str_of_memberOf {α : Type} {find : String → Option α} {word : α → String} {v : Value}
    {a : α} (hword : ∀ w b, find w = some b → word b = w)
    (hsign : ∀ s : Symbol, find s.sign = none) (h : v.memberOf find = .ok (some a)) :
    v = .str (word a) := by
  have hfind : v.word?.bind find = some a := by
    unfold Value.memberOf at h
    split at h
    · exact Except.ok.inj h
    · split at h
      · cases Except.ok.inj h
      · cases h
  obtain ⟨w, hv, hw⟩ := Option.bind_eq_some_iff.mp hfind
  cases v with
  | str s =>
      cases hv
      rw [hword _ a hw]
  | symbol s =>
      cases hv
      rw [hsign s] at hw
      cases hw
  | _ => cases hv

theorem modes_accepted {s m : Value} {t : ScoreSettings} (h : ScoreSettings.ofValues s m = .ok t) :
    s = .str t.scoreMode.word ∧ m = .str t.boostMode.word := by
  have hscore (w : String) (a : ScoreMode) (hw : ScoreMode.ofWord? w = some a) : a.word = w := by
    simpa using List.find?_some hw
  have hboost (w : String) (a : BoostMode) (hw : BoostMode.ofWord? w = some a) : a.word = w := by
    simpa using List.find?_some hw
  have hsigns (x : Symbol) : ScoreMode.ofWord? x.sign = none ∧ BoostMode.ofWord? x.sign = none := by
    rcases x with o | l
    · cases o <;> decide
    · cases l <;> decide
  unfold ScoreSettings.ofValues at h
  obtain ⟨found, hs, h⟩ := Except.bind_eq_ok_iff.mp h
  cases found with
  | none => cases h
  | some a =>
      obtain ⟨found, hb, h⟩ := Except.bind_eq_ok_iff.mp h
      cases found with
      | none => cases h
      | some b =>
          obtain rfl := Except.ok.inj h
          exact ⟨eq_str_of_memberOf hscore (fun x => (hsigns x).1) hs,
            eq_str_of_memberOf hboost (fun x => (hsigns x).2) hb⟩

/-! ## Changes of the other parts -/

theorem index_change (c : Call) (d : Document) : (c.change d).index = c.index?.getD d.index := by
  cases c <;> first | rfl | rw [change_of_isClause rfl]; rfl

theorem page_change {b : Builder} {c : Call} (h : c.Accepted b) (d : Document) :
    (c.change d).page = ⟨c.offset?.or d.page.offset, c.size?.or d.page.size⟩ := by
  cases c with
  | paginate s p =>
      obtain ⟨q, hq⟩ := h
      obtain ⟨n, hn, rfl⟩ := page_accepted hq
      simp [hq, hn, size?]
  | _ => first | rfl | rw [change_of_isClause rfl]; rfl

theorem sort_change {b : Builder} {c : Call} (h : c.Accepted b) (d : Document) :
    (c.change d).sort = d.sort ++ c.orders := by
  cases c with
  | orderBy o g =>
      obtain ⟨ws, hws⟩ := h
      rw [← orders_accepted hws, change, hws]
      rfl
  | _ =>
      simp only [orders, List.append_nil]
      first | rfl | rw [change_of_isClause rfl]

theorem minimum_change (c : Call) (d : Document) :
    (c.change d).draft.groups.minimum = c.minimum?.getD d.draft.groups.minimum := by
  cases c with
  | addWhere f v o t =>
      rcases h : Table.operator.resolve o with e | _ | s <;> simp [minimum?, addClause, Groups.add, h]
  | whereNull f n => simp [minimum?, changeGroups, Groups.replace]
  | keywords ks fs => simp [minimum?, mentioning, foldl_addClause, changeGroups, Groups.addAll]
  | whereNested p f v l t r =>
      rcases h : Table.logic.resolve l with e | _ | s <;> simp [minimum?, placeIn, Draft.place, Groups.addAll, h]
  | whereNestedRaw p q l r =>
      rcases h : Table.logic.resolve l with e | _ | s <;> simp [minimum?, placeIn, Draft.place, Groups.addAll, h]
  | _ => rfl

theorem modes_change {b : Builder} {c : Call} (h : c.Accepted b) (d : Document) :
    (c.change d).envelope.map (fun s => (Value.str s.scoreMode.word, Value.str s.boostMode.word)) =
      c.modes?.or
        (d.envelope.map fun s => (Value.str s.scoreMode.word, Value.str s.boostMode.word)) := by
  cases c with
  | functions s m =>
      obtain ⟨-, t, ht⟩ := h
      obtain ⟨rfl, rfl⟩ := modes_accepted ht
      rw [change, ht]
      rfl
  | _ => first | rfl | rw [change_of_isClause rfl]; rfl

theorem minScore_change {b : Builder} {c : Call} (h : c.Accepted b) (d : Document) :
    (c.change d).minScore = c.minScore?.or d.minScore := by
  cases c with
  | minScore s =>
      obtain ⟨x, hx⟩ := h
      simp [minScore?, hx, score_accepted hx]
  | _ => first | rfl | rw [change_of_isClause rfl]; rfl

theorem highlight_change {b : Builder} {c : Call}
    (hc : ∀ fs css, c = .highlight fs css → css.isWritable = true) (h : c.Accepted b)
    (d : Document) :
    (c.change d).highlightEntries =
      (c.highlight?.map fun v => .ok [("highlight", v)]).getD d.highlightEntries := by
  cases c with
  | highlight fs css =>
      obtain ⟨names, hn⟩ := h
      simp [Document.highlightEntries, highlight?, hn, Highlight.toValue, Highlight.opening,
        Value.written_of_isWritable (hc fs css rfl), Except.map]
  | _ => first | rfl | rw [change_of_isClause rfl]; rfl

theorem aggregations_change (c : Call) (d : Document) :
    (c.change d).aggregations = Entries.putAll d.aggregations c.aggregations := by
  cases c <;> first | rfl | rw [change_of_isClause rfl]; rfl

end Call

/-! ## The relation -/

/-- Every part of the document is what the calls have contributed to it. -/
structure Document.Follows (d : Document) (cs : List Call) : Prop where
  index : d.index = (History.last Call.index? cs).getD (.str "")
  offset : d.page.offset = History.last Call.offset? cs
  size : d.page.size = History.last Call.size? cs
  sort : d.sort = cs.flatMap Call.orders
  groups : ∀ g, Clause.renderAll (d.draft.groups.get g) = .ok (History.group g cs)
  minimum : d.draft.groups.minimum = (History.last Call.minimum? cs).getD .null
  functions : Clause.renderWeighted d.draft.functions = .ok (cs.flatMap Call.weighted)
  modes : (d.envelope.map fun s => (Value.str s.scoreMode.word, Value.str s.boostMode.word)) =
    History.last Call.modes? cs
  minScore : d.minScore = History.last Call.minScore? cs
  highlight : d.highlightEntries =
    .ok (History.entry? "highlight" (History.last Call.highlight? cs))
  aggregations : d.aggregations = Entries.ofList (cs.flatMap Call.aggregations)
  copyable : Value.copyableEntries d.aggregations = true

namespace Document.Follows

theorem empty : Document.empty.Follows [] where
  index := rfl
  offset := rfl
  size := rfl
  sort := rfl
  groups g := by cases g <;> rfl
  minimum := rfl
  functions := rfl
  modes := rfl
  minScore := rfl
  highlight := rfl
  aggregations := rfl
  copyable := rfl

open History (last_append_singleton group_append_singleton)

variable {b : Builder} {cs : List Call} {c : Call}

/-- A call that the builder accepts makes a document that follows the longer history. -/
theorem change (h : b.document.Follows cs) (hc : c.IsPlain) (ha : c.Accepted b) :
    (c.change b.document).Follows (cs ++ [c]) where
  index := by
    rw [last_append_singleton, Call.index_change, h.index]
    cases c.index? <;> rfl
  offset := by rw [last_append_singleton, Call.page_change ha, h.offset]
  size := by rw [last_append_singleton, Call.page_change ha, h.size]
  sort := by
    rw [List.flatMap_append, List.flatMap_singleton, Call.sort_change ha, h.sort]
  groups g := by
    rw [group_append_singleton, Call.groups_change]
    refine Clause.renderAll_append_ok ?_ ?_
    · split
      · rfl
      · exact h.groups g
    · unfold Call.placed
      split
      · rename_i ht
        exact Call.renderAll_clauses hc ha ht
      · rfl
  minimum := by
    rw [last_append_singleton, Call.minimum_change, h.minimum]
    cases c.minimum? <;> rfl
  functions := by
    rw [List.flatMap_append, List.flatMap_singleton, Call.functions_change]
    exact Clause.renderWeighted_append_ok h.functions (Call.renderWeighted_registered hc ha)
  modes := by rw [last_append_singleton, Call.modes_change ha, h.modes]
  minScore := by rw [last_append_singleton, Call.minScore_change ha, h.minScore]
  highlight := by
    have hclass (fs css : Value) (hcall : c = .highlight fs css) : css.isWritable = true := by
      rw [hcall] at hc
      exact hc
    rw [last_append_singleton, Call.highlight_change hclass ha, h.highlight]
    cases c.highlight? <;> rfl
  aggregations := by
    rw [List.flatMap_append, List.flatMap_singleton, Call.aggregations_change, h.aggregations,
      Entries.ofList, Entries.ofList, Entries.putAll_append]
  copyable := by
    rw [Call.aggregations_change]
    refine Entries.copyableEntries_putAll h.copyable (Call.copyable_aggregations ?_)
    rintro ns rfl
    exact hc

/-- A run of calls in which none fails carries the relation over to the whole history. -/
theorem run {calls : List Call} {b b' : Builder} {cs : List Call} (h : b.document.Follows cs)
    (hcalls : ∀ c ∈ calls, c.IsPlain) (hrun : (forM calls Call.apply).Returns b () b') :
    b'.document.Follows (cs ++ calls) :=
  Call.related_of_returns (fun past u => u.document.Follows past) hrun
    (fun c hc _ _ hu ha => hu.change (hcalls c hc) ha) cs h

/-! ## Compiling -/

variable {d : Document}

theorem minimum_entries (v : Option Value) :
    (if (v.getD .null).isNull then [] else [("minimum_should_match", v.getD .null)]) =
      History.entry? "minimum_should_match" (History.notNull v) := by
  cases v with
  | none => rfl
  | some v => cases v <;> rfl

theorem render_boolean (h : d.Follows cs) :
    (Clause.bool d.draft.groups).render = .ok (History.boolean cs) := by
  have hfilter := h.groups .filter
  have hmust := h.groups .must
  have hnot := h.groups .mustNot
  have hshould := h.groups .should
  have hmin := h.minimum
  rcases hgroups : d.draft.groups with ⟨f, m, n, s, k⟩
  simp only [Groups.get, hgroups] at hfilter hmust hnot hshould hmin
  simp [Clause.render, hfilter, hmust, hnot, hshould, hmin, minimum_entries, History.boolean]

theorem render_clause (h : d.Follows cs) : d.clause.render = .ok (History.query cs) := by
  have hmodes := h.modes
  unfold Document.clause History.query
  cases he : d.envelope with
  | none =>
      rw [he] at hmodes
      rw [← hmodes]
      exact h.render_boolean
  | some s =>
      rw [he] at hmodes
      rw [← hmodes]
      rw [Clause.render, h.render_boolean, h.functions]
      rfl

theorem aggregationEntries (h : d.Follows cs) :
    d.aggregationEntries =
      .ok (History.aggregationEntries (Entries.ofList (cs.flatMap Call.aggregations))) := by
  unfold Document.aggregationEntries History.aggregationEntries
  rw [← h.aggregations]
  split
  · rfl
  · rw [Value.copy_eq_ok (Value.copyable_dict.mpr h.copyable)]
    rfl

theorem body (h : d.Follows cs) : d.body = .ok (History.body cs) := by
  have hsort : d.sortEntries = History.sortEntries (cs.flatMap Call.orders) := by
    rw [← h.sort]
    rfl
  have hpage : d.page.entries = History.entry? "from" (History.last Call.offset? cs)
      ++ History.entry? "size" (History.last Call.size? cs) := by
    rw [← h.offset, ← h.size]
    rfl
  have hscore : (d.minScore.map fun x => ("min_score", Value.float x)).toList =
      History.entry? "min_score" ((History.last Call.minScore? cs).map .float) := by
    rw [← h.minScore, History.entry?, Option.map_map]
    rfl
  simp [Document.body, Document.parts, h.render_clause, h.highlight, h.aggregationEntries, hsort,
    hpage, hscore, History.body, Except.map]

theorem params (h : d.Follows cs) : d.params = .ok (History.params cs) := by
  simp [Document.params, h.body, h.index, History.params, Except.map]

end Document.Follows

/-- A run of calls on a new builder in which none fails compiles to what the calls alone say. -/
theorem Builder.params_of_history {mode : ExecutionMode} {strict : Bool} {calls : List Call}
    {b : Builder} (hcalls : ∀ c ∈ calls, c.IsPlain)
    (hrun : (forM calls Call.apply).Returns (.new mode strict) () b) :
    b.params = .ok (History.params calls) := by
  have hnew : (Builder.new mode strict).document.Follows [] := Document.Follows.empty
  exact (hnew.run hcalls hrun).params

/-- The clauses that a later call replaces still score. -/
theorem Builder.params_of_replaced_group :
    let calls : List Call :=
      [.whereNested (.str "tags") (.str "tags.name") (.list [.str "a", .str "b"])
          (.symbol (.logic .and)) (.str "term") ⟨.bool true, .int 3⟩,
        .whereNull (.str "gone") (.bool false), .limit (.int 5),
        .functions (.str "sum") (.str "max")]
    let nested (tag : String) : Value := Call.nestedBody (.str "tags")
      (Call.termBody (.str "tags.name") (.str tag) (.str "term"))
    let function (tag : String) : Value := .object [("filter", nested tag), ("weight", .int 3)]
    ((forM calls Call.apply).run (.new .raw false)).state.params =
      .ok (.object [("index", .str ""), ("body", .object
        [("query", .object [("function_score", .object
          [("query", .object [("bool", .object [("filter", .list []),
            ("must", .list [.object [("exists", .object [("field", .str "gone")])]]),
            ("must_not", .list []), ("should", .list [])])]),
          ("functions", .list [function "a", function "b"]),
          ("score_mode", .str "sum"), ("boost_mode", .str "max")])]), ("size", .int 5)])]) := by
  intro calls nested function
  have hcalls : ∀ c ∈ calls, c.IsPlain := by
    simp [calls, Call.IsPlain, Value.isKey, Value.copyable, Value.copyableItems]
  have hrun : (forM calls Call.apply).Returns (.new .raw false) ()
      ((forM calls Call.apply).run (.new .raw false)).state := ⟨rfl, rfl⟩
  have hweighted : calls.flatMap Call.weighted = [function "a", function "b"] := by
    have hterm : (Value.str "term" == Value.str "terms") = false := by simp
    simp only [calls, List.flatMap_cons, List.flatMap_nil, Call.weighted, Call.bodies, hterm]
    rfl
  have hmodes : History.last Call.modes? calls = some (.str "sum", .str "max") := rfl
  rw [Builder.params_of_history hcalls hrun]
  simp only [History.params, History.body, History.query, hmodes, hweighted, History.boolean]
  rfl

end DocSearch
