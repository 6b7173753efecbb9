import DocSearch.Proofs.Builder.Orders
import DocSearch.Proofs.Builder.Uses
import DocSearch.Proofs.Query.Copies

/-!
# Documents that can be copied

Calls whose arguments can be copied, failing ones included, accumulate documents that compile to
values that can be copied, if they compile at all.
-/

namespace DocSearch

open DocSearch.Action

namespace Value

theorem mem_of_mem_distinct {x : Value} {xs : List Value} (h : x ∈ distinct xs) : x ∈ xs := by
  have hfold (ys seen : List Value) (h : x ∈ ys.foldl
      (fun seen y => if seen.any (· == y) then seen else seen ++ [y]) seen) :
      x ∈ seen ∨ x ∈ ys := by
    induction ys generalizing seen with
    | nil => exact Or.inl h
    | cons y ys ih =>
        rw [List.foldl_cons] at h
        have hrest := ih _ h
        split at hrest
        · exact hrest.imp_right (List.mem_cons_of_mem y)
        · simpa [or_assoc] using hrest
  exact (hfold xs [] h).resolve_left nofun

theorem eq_of_mapM_asKey {xs ys : List Value} (h : xs.mapM asKey = .ok ys) : ys = xs := by
  rw [← List.map_id ys]
  exact Except.map_of_mapM (fun x y hy => (asKey_eq_ok_iff.mp hy).2.symm) h

end Value

/-! ## Contributions -/

namespace Call

@[simp] def arguments : Call → List Value
  | setIndex i => [i]
  | limit s => [s]
  | paginate s p => [s, p]
  | orderBy o g => [o, g]
  | addWhere f v o t => [f, v, o, t]
  | whereNull f n => [f, n]
  | keywords (.value ks) fs => [ks, fs]
  | keywords (.source ks _ _) fs => fs :: ks
  | minShouldMatch n => [n]
  | minScore s => [s]
  | highlight fs c => [fs, c]
  | whereNested p f v l t r => [p, f, v, l, t, r.asFunction, r.weight]
  | whereNestedRaw p q l r => [p, q, l, r.asFunction, r.weight]
  | aggregate ns => [ns]
  | functions s b => [s, b]

/-- Everything that the call is given can be copied, and the class of a highlight has a text. -/
def Copyable (c : Call) : Prop :=
  (∀ v ∈ c.arguments, v.copyable = true) ∧
    ∀ fs css, c = .highlight fs css → css.isWritable = true

theorem Copyable.cut {c : Call} (h : c.Copyable) : c.cut.Copyable := by
  unfold Call.cut
  split
  · exact ⟨h.1, nofun⟩
  · exact h

variable {c : Call} {v : Value}

theorem copyable_index? (h : c.Copyable) (hv : c.index? = some v) : v.copyable = true := by
  cases c with
  | setIndex i =>
      obtain rfl := Option.some.inj hv
      exact h.1 _ (by simp)
  | _ => cases hv

theorem copyable_offset? (hv : c.offset? = some v) : v.copyable = true := by
  cases c with
  | paginate s p =>
      have hv := Except.toOption_eq_some_iff.mp hv
      unfold Page.skipped at hv
      obtain ⟨x, -, hv⟩ := Except.bind_eq_ok_iff.mp hv
      obtain ⟨y, -, hv⟩ := Except.bind_eq_ok_iff.mp hv
      split at hv
      · rename_i n hn
        obtain rfl := Except.ok.inj hv
        cases n <;> rfl
      · cases hv
  | _ => cases hv

theorem copyable_size? (h : c.Copyable) (hv : c.size? = some v) : v.copyable = true := by
  cases c with
  | limit s =>
      obtain rfl := Option.some.inj hv
      exact h.1 _ (by simp)
  | paginate s p =>
      obtain rfl := Option.some.inj hv
      exact h.1 _ (by simp)
  | _ => cases hv

theorem copyable_minimum? (h : c.Copyable) (hv : c.minimum? = some v) : v.copyable = true := by
  cases c with
  | minShouldMatch n =>
      obtain rfl := Option.some.inj hv
      exact h.1 _ (by simp)
  | _ => cases hv

theorem copyable_oneOrMany (h : v.copyable = true) : ∀ x ∈ oneOrMany v, x.copyable = true := by
  unfold oneOrMany
  split
  · exact List.forall_mem_singleton.mpr h
  · cases hx : v.items with
    | error e => nofun
    | ok xs => exact Value.copyable_items h hx

theorem copyable_keywordsOf {ks : Iterable} {fs : Value} (h : (keywords ks fs).Copyable) :
    (∀ x ∈ oneOrMany fs, x.copyable = true) ∧ ∀ k ∈ keywordsOf ks, k.copyable = true := by
  cases ks with
  | value v =>
      exact ⟨copyable_oneOrMany (h.1 fs (by simp)), copyable_oneOrMany (h.1 v (by simp))⟩
  | source xs stop size =>
      obtain ⟨hfs, hxs⟩ := List.forall_mem_cons.mp h.1
      exact ⟨copyable_oneOrMany hfs, hxs⟩

theorem copyable_fieldNames {names : List Value} (h : v.copyable = true)
    (hnames : Builder.fieldNames v = .ok names) : ∀ x ∈ names, x.copyable = true := by
  unfold Builder.fieldNames at hnames
  split at hnames
  · obtain rfl := Except.ok.inj hnames
    exact List.forall_mem_singleton.mpr h
  · obtain ⟨xs, hxs, hnames⟩ := Except.bind_eq_ok_iff.mp hnames
    obtain ⟨ys, hys, hnames⟩ := Except.bind_eq_ok_iff.mp hnames
    obtain rfl := Except.ok.inj hnames
    obtain rfl := Value.eq_of_mapM_asKey hys
    exact fun x hx => Value.copyable_items h hxs x (Value.mem_of_mem_distinct hx)

theorem copyable_highlight? (h : c.Copyable) (hv : c.highlight? = some v) : v.copyable = true := by
  cases c with
  | highlight fs css =>
      obtain ⟨names, hnames, hv⟩ := Option.bind_eq_some_iff.mp hv
      have hnames := copyable_fieldNames (h.1 fs (by simp))
        (Except.toOption_eq_some_iff.mp hnames)
      obtain ⟨front, -, hv⟩ := Except.bind_eq_ok_iff.mp (Except.toOption_eq_some_iff.mp hv)
      obtain rfl := Except.ok.inj hv
      have hfields : Value.copyableEntries
          (Entries.ofList (names.map fun f => (f, Value.dict []))) = true := by
        refine Entries.copyableEntries_putAll rfl (Value.copyableEntries_iff.mpr ?_)
        intro e he
        obtain ⟨f, hf, rfl⟩ := List.mem_map.mp he
        exact ⟨hnames f hf, rfl⟩
      refine Value.copyable_object ?_
      simpa [Value.copyable] using hfields
  | _ => cases hv

theorem copyable_directionOf (h : v.copyable = true) : (directionOf v).copyable = true := by
  cases v with
  | map k es =>
      rw [Value.copyable, Bool.and_eq_true] at h
      exact Value.copyable_dict.mpr h.2
  | _ => rfl

theorem copyableEntries_givenOrders {o g : Value} (ho : o.copyable = true)
    (hg : g.copyable = true) : Value.copyableEntries (givenOrders o g) = true := by
  cases o with
  | null => rfl
  | map k es =>
      rw [Value.copyable, Bool.and_eq_true] at ho
      exact ho.2
  | _ => simp [givenOrders, Value.copyableEntries, ho, hg]

theorem copyableEntries_directions {os : List (Value × Value)}
    (h : Value.copyableEntries os = true) :
    Value.copyableEntries (os.map fun e => (e.1, directionOf e.2)) = true := by
  rw [Value.copyableEntries_iff] at h ⊢
  intro e he
  obtain ⟨o, ho, rfl⟩ := List.mem_map.mp he
  exact ⟨(h o ho).1, copyable_directionOf (h o ho).2⟩

theorem copyableEntries_orders (h : c.Copyable) : Value.copyableEntries c.orders = true := by
  cases c with
  | orderBy o g =>
      exact copyableEntries_directions (copyableEntries_givenOrders (h.1 o (by simp))
        (h.1 g (by simp)))
  | _ => rfl

theorem copyable_clauses (h : c.Copyable) : ∀ x ∈ c.clauses, x.Copyable := by
  cases c with
  | addWhere f v o t =>
      exact List.forall_mem_singleton.mpr
        (Clause.copyable_term (h.1 f (by simp)) (h.1 t (by simp)) v)
  | whereNull f n =>
      exact List.forall_mem_singleton.mpr (Clause.copyable_existence (h.1 f (by simp)))
  | keywords ks fs =>
      intro x hx
      obtain ⟨k, hk, rfl⟩ := List.mem_map.mp hx
      obtain ⟨hfs, hks⟩ := copyable_keywordsOf h
      exact Clause.copyable_multiMatch (hks k hk) (Value.copyable_seq.mpr hfs) rfl
  | whereNested p f v l t r =>
      refine Draft.copyable_underPath (h.1 p (by simp)) ?_
      exact Draft.copyable_predicates (h.1 f (by simp)) (h.1 t (by simp))
  | whereNestedRaw p q l r =>
      refine Draft.copyable_underPath (h.1 p (by simp)) ?_
      cases hcs : Draft.given q with
      | error e => nofun
      | ok cs => exact Draft.copyable_given (h.1 q (by simp)) hcs
  | _ => nofun

theorem copyable_registered (h : c.Copyable) : ∀ w ∈ c.registered, Clause.CopyableWeighted w := by
  have hfunctions {r : Registration} (hr : r.weight.copyable = true) :
      ∀ w ∈ r.functions c.clauses, Clause.CopyableWeighted w := by
    unfold Registration.functions
    split
    · intro w hw
      obtain ⟨x, hx, rfl⟩ := List.mem_map.mp hw
      exact ⟨copyable_clauses h x hx, hr⟩
    · exact List.forall_mem_nil _
  unfold registered
  split
  · rename_i g r ht hr
    refine hfunctions ?_
    cases c with
    | whereNested p f v l t r =>
        obtain rfl := Option.some.inj hr
        exact h.1 _ (by simp)
    | whereNestedRaw p q l r =>
        obtain rfl := Option.some.inj hr
        exact h.1 _ (by simp)
    | _ => cases hr
  · exact List.forall_mem_nil _

end Call

/-- Everything that the call of a use is given can be copied. -/
def Use.Copyable (u : Use) : Prop := ∀ c, u.call? = some c → c.Copyable

/-! ## Documents -/

namespace Document

/-- Everything in the document that its body is made from can be copied. -/
structure Copyable (d : Document) : Prop where
  index : d.index.copyable = true
  offset : ∀ v, d.page.offset = some v → v.copyable = true
  size : ∀ v, d.page.size = some v → v.copyable = true
  sort : Value.copyableEntries d.sort = true
  clauses : ∀ g, ∀ c ∈ d.draft.groups.get g, c.Copyable
  functions : ∀ w ∈ d.draft.functions, Clause.CopyableWeighted w
  minimum : d.draft.groups.minimum.copyable = true
  highlight : ∃ es, d.highlightEntries = .ok es ∧ ∀ e ∈ es, e.2.copyable = true
  aggregations : Value.copyableEntries d.aggregations = true

namespace Copyable

variable {d : Document} {b : Builder} {c : Call}

theorem empty : Document.empty.Copyable where
  index := rfl
  offset := nofun
  size := nofun
  sort := rfl
  clauses := by
    intro g c hc
    rw [Document.empty, Draft.empty, Groups.get_empty] at hc
    cases hc
  functions := nofun
  minimum := rfl
  highlight := ⟨[], rfl, nofun⟩
  aggregations := rfl

/-- A call that succeeds with arguments that can be copied keeps the property. -/
theorem change (h : d.Copyable) (hc : c.Copyable) (ha : c.Accepted b) : (c.change d).Copyable where
  index := by
    rw [Call.index_change]
    cases hi : c.index? with
    | none => exact h.index
    | some v => exact Call.copyable_index? hc hi
  offset := by
    intro v hv
    rw [Call.page_change ha] at hv
    rcases Option.or_eq_some_iff.mp hv with hv | ⟨-, hv⟩
    · exact Call.copyable_offset? hv
    · exact h.offset v hv
  size := by
    intro v hv
    rw [Call.page_change ha] at hv
    rcases Option.or_eq_some_iff.mp hv with hv | ⟨-, hv⟩
    · exact Call.copyable_size? hc hv
    · exact h.size v hv
  sort := by
    rw [Call.sort_change ha, Value.copyableEntries_append, h.sort,
      Call.copyableEntries_orders hc]
    rfl
  clauses := by
    intro g x hx
    rw [Call.groups_change, List.mem_append] at hx
    rcases hx with hx | hx
    · split at hx
      · cases hx
      · exact h.clauses g x hx
    · split at hx
      · exact Call.copyable_clauses hc x hx
      · cases hx
  functions := by
    rw [Call.functions_change]
    exact List.forall_mem_append.mpr ⟨h.functions, Call.copyable_registered hc⟩
  minimum := by
    rw [Call.minimum_change]
    cases hm : c.minimum? with
    | none => exact h.minimum
    | some v => exact Call.copyable_minimum? hc hm
  highlight := by
    rw [Call.highlight_change hc.2 ha]
    cases hv : c.highlight? with
    | none => exact h.highlight
    | some v =>
        exact ⟨_, rfl, List.forall_mem_singleton.mpr (Call.copyable_highlight? hc hv)⟩
  aggregations := by
    rw [Call.aggregations_change]
    refine Entries.copyableEntries_putAll h.aggregations (Call.copyable_aggregations ?_)
    rintro ns rfl
    exact hc.1 ns (by simp)

/-- So does a call that fails: it changes nothing, or it appends a front part of its order, or it goes
on until its keywords break off. -/
theorem run (h : b.document.Copyable) (hc : c.Copyable) :
    (c.apply.run b).state.document.Copyable := by
  cases hr : (c.apply.run b).result with
  | ok x =>
      obtain ⟨-, -, ha, hstate⟩ := Call.returns_apply_iff.mp ⟨hr, rfl⟩
      rw [← hstate]
      exact h.change hc ha
  | error e =>
      rcases Builder.fails_cases (e := e) ⟨hr, rfl⟩ with
        hstate | ⟨o, g, os, ws, rfl, hos, ⟨front, name, w, back, rfl, hws, -⟩, hstate⟩ | ⟨-, hcut⟩
      · rw [← hstate]
        exact h
      · have hgiven := Call.copyableEntries_givenOrders (hc.1 o (by simp))
          (hc.1 g (by simp))
        rw [← Call.eq_givenOrders hos, Value.copyableEntries_append, Bool.and_eq_true] at hgiven
        have hfront := Call.copyableEntries_directions hgiven.1
        rw [← Call.eq_map_directionOf hws] at hfront
        rw [← hstate]
        refine { h with sort := ?_ }
        rw [Builder.sort_ordered, Value.copyableEntries_append, h.sort, hfront]
        rfl
      · obtain ⟨-, -, ha, hstate⟩ := Call.returns_apply_iff.mp hcut
        rw [← hstate]
        exact h.change hc.cut ha

theorem changed {u : Use} (h : b.document.Copyable) (hu : u.Copyable) :
    (u.changed b).document.Copyable := by
  unfold Use.changed
  split
  · rename_i c hc
    exact h.run (hu c hc)
  · exact h

theorem after {d : Desk} (h : d.builder.document.Copyable) {us : List Use}
    (hus : ∀ u ∈ us, u.Copyable) : (d.after us).builder.document.Copyable := by
  induction us generalizing d with
  | nil => exact h
  | cons u us ih =>
      obtain ⟨hu, hus⟩ := List.forall_mem_cons.mp hus
      refine ih ?_ hus
      rw [Use.document_run]
      exact h.changed hu

theorem copyable_clause (h : d.Copyable) : d.clause.Copyable := by
  have hbool := Clause.copyable_bool h.clauses h.minimum
  unfold Document.clause
  split
  · exact hbool
  · exact Clause.copyable_functionScore hbool h.functions _

theorem copyable_sortEntries (h : d.Copyable) : ∀ e ∈ d.sortEntries, e.2.copyable = true := by
  unfold Document.sortEntries
  split
  · nofun
  · refine List.forall_mem_singleton.mpr (Value.copyable_seq.mpr fun v hv => ?_)
    obtain ⟨o, ho, rfl⟩ := List.mem_map.mp hv
    have hpair := Value.copyableEntries_iff.mp h.sort o ho
    simp [Value.copyable, Value.copyableEntries, hpair.1, hpair.2]

theorem copyable_pageEntries (h : d.Copyable) : ∀ e ∈ d.page.entries, e.2.copyable = true := by
  have hbound {name : String} {v : Option Value} (hv : ∀ w, v = some w → w.copyable = true) :
      ∀ e ∈ Page.bound name v, e.2.copyable = true := by
    intro e he
    obtain ⟨w, hw, rfl⟩ := Option.map_eq_some_iff.mp (Option.mem_toList.mp he)
    exact hv w hw
  exact List.forall_mem_append.mpr ⟨hbound h.offset, hbound h.size⟩

theorem aggregationEntries_eq_ok (h : d.Copyable) :
    d.aggregationEntries =
      .ok (if d.aggregations.isEmpty then [] else [("aggs", .dict d.aggregations)]) := by
  unfold Document.aggregationEntries
  split
  · rfl
  · rw [Value.copy_eq_ok (Value.copyable_dict.mpr h.aggregations)]
    rfl

/-- A document that can be copied compiles if its query can be rendered. -/
theorem exists_params_iff (h : d.Copyable) :
    (∃ v, d.params = .ok v) ↔ ∃ q, d.clause.render = .ok q := by
  obtain ⟨es, hes, -⟩ := h.highlight
  unfold Document.params Document.body Document.parts
  rw [h.aggregationEntries_eq_ok, hes]
  cases d.clause.render <;> simp [Except.map]

theorem copyable_body {v : Value} (h : d.Copyable) (hv : d.body = .ok v) : v.copyable = true := by
  obtain ⟨parts, hparts, rfl⟩ := Except.map_eq_ok_iff.mp hv
  obtain ⟨query, hquery, hparts⟩ := Except.bind_eq_ok_iff.mp hparts
  obtain ⟨shown, hshown, hparts⟩ := Except.bind_eq_ok_iff.mp hparts
  obtain ⟨aggregations, haggs, hparts⟩ := Except.bind_eq_ok_iff.mp hparts
  obtain rfl := Except.ok.inj hparts
  have haggregations : ∀ e ∈ aggregations, e.2.copyable = true := by
    obtain rfl := Except.ok.inj (h.aggregationEntries_eq_ok.symm.trans haggs)
    split
    · nofun
    · exact List.forall_mem_singleton.mpr (Value.copyable_dict.mpr h.aggregations)
  have hscore : ∀ e ∈ (d.minScore.map fun x => ("min_score", Value.float x)).toList,
      e.2.copyable = true := by
    intro e he
    obtain ⟨x, -, rfl⟩ := Option.map_eq_some_iff.mp (Option.mem_toList.mp he)
    rfl
  have hhighlight : ∀ e ∈ shown, e.2.copyable = true := by
    obtain ⟨es, hes, hcopy⟩ := h.highlight
    obtain rfl := Except.ok.inj (hes.symm.trans hshown)
    exact hcopy
  refine Value.copyable_object ?_
  simp only [List.forall_mem_append, List.forall_mem_singleton]
  exact ⟨⟨⟨⟨⟨h.copyable_clause query hquery, h.copyable_sortEntries⟩, h.copyable_pageEntries⟩,
    hscore⟩, hhighlight⟩, haggregations⟩

end Copyable

end Document

end DocSearch
