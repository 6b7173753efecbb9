import DocSearch.Proofs.Search.Boolean
import DocSearch.Proofs.Search.Scores
import DocSearch.Proofs.Search.Sortable

/-!
# Searches of a history

What a store makes of the search that a history of calls compiles to. The hits depend on three parts
of the body: the query, the threshold of the scores and the sort clauses. Where a nested predicate on
a list of values is the only clause call, the query asks how many of the values occur.
-/

namespace DocSearch

/-- Which documents a logic selects by whether they match each of some values. -/
def Logic.selects {α : Type} (l : Logic) (p : α → Bool) (xs : List α) : Bool :=
  match l with
  | .or => xs.any p
  | .and => xs.all p
  | .notEqualTo => !xs.any p

theorem Groups.mem_of_mem_get_addAll {α : Type} {g k : ClauseGroup} {xs : List α} {x : α}
    (h : x ∈ (Groups.empty.addAll g xs).get k) : x ∈ xs := by
  cases g <;> cases k <;> simp_all [addAll, set, get, empty]

/-- Clauses in the group of a logic alone select as the logic does. -/
theorem Groups.selects_addAll {α : Type} {l : Logic} {p : α → Bool} {xs : List α} (h : xs ≠ []) :
    ∃ n, (Groups.empty.addAll l.group xs).required = .ok n ∧
      (Groups.empty.addAll l.group xs).selects p n = l.selects p xs := by
  cases l with
  | and =>
      refine ⟨0, ?_, ?_⟩
      · simp [required, addAll, set, get, empty, Value.isNull, Logic.group, h]
      · simp [selects, enough, addAll, set, get, empty, Logic.group, Logic.selects]
  | or =>
      refine ⟨1, rfl, ?_⟩
      have hcount : enough xs p 1 = xs.any p := by
        rw [Bool.eq_iff_iff, List.any_eq_true, ← List.countP_pos_iff]
        simp only [enough, List.isEmpty_eq_false_iff.mpr h, Bool.false_or, decide_eq_true_eq]
        omega
      simp [selects, addAll, set, get, empty, Logic.group, Logic.selects, hcount]
  | notEqualTo =>
      refine ⟨1, rfl, ?_⟩
      simp [selects, enough, addAll, set, get, empty, Logic.group, Logic.selects]

namespace History

variable {α β : Type}

/-! ## Calls that matter -/

theorem flatMap_filter {p : α → Bool} {f : α → List β} (h : ∀ a, p a = false → f a = [])
    (xs : List α) : (xs.filter p).flatMap f = xs.flatMap f := by
  induction xs with
  | nil => rfl
  | cons x xs ih => cases hp : p x <;> simp [hp, ih, h]

theorem last_filter {p : α → Bool} {f : α → Option β} (h : ∀ a, p a = false → f a = none)
    (xs : List α) : last f (xs.filter p) = last f xs := by
  unfold last
  rw [List.filterMap_filter]
  congr 2
  funext a
  cases hp : p a <;> simp [hp, h]

theorem last_insert {f : α → Option β} {x : α} (h : f x = none) (xs ys : List α) :
    last f (xs ++ x :: ys) = last f (xs ++ ys) := by
  simp [last, List.filterMap_append, h]

theorem last_eq_none {f : α → Option β} {xs : List α} (h : ∀ x ∈ xs, f x = none) :
    last f xs = none := by
  rw [last, List.filterMap_eq_nil_iff.mpr h]
  rfl

theorem since_of_any_eq_false {q : α → Bool} {xs : List α} (h : xs.any q = false) :
    since q xs = xs := by
  cases xs with
  | nil => rfl
  | cons x xs =>
      rw [List.any_cons, Bool.or_eq_false_iff] at h
      simp [since, h.2]

theorem since_filter {p q : α → Bool} (h : ∀ a, p a = false → q a = false) (xs : List α) :
    since q (xs.filter p) = (since q xs).filter p := by
  induction xs with
  | nil => rfl
  | cons x xs ih =>
      have hany : (xs.filter p).any q = xs.any q := by
        rw [List.any_filter]
        congr 1
        funext a
        cases hp : p a <;> simp [h, hp]
      cases hq : xs.any q with
      | true => cases hp : p x <;> simp [since, hp, hq, hany, ih]
      | false =>
          cases hp : p x with
          | true => simp [since, hp, hq, hany]
          | false =>
              have hnone := since_of_any_eq_false (hany.trans hq)
              simp [since, hp, hq, hnone]

theorem group_filter (g : ClauseGroup) (cs : List Call) :
    group g (cs.filter Call.isClause) = group g cs := by
  have hreplaces (c : Call) (h : c.isClause = false) : c.replaces g = false := by
    cases c <;> first | rfl | cases h
  have hplaced (c : Call) (h : c.isClause = false) : c.placed g = [] := by
    cases c <;> first | rfl | cases h
  unfold group
  rw [since_filter hreplaces, flatMap_filter hplaced]

/-! ## The parts of a body that a search depends on -/

theorem field?_optionalEntry (k : String) (v : Option Value) (name : String) :
    Value.field? (List.map (fun e => (.str e.1, e.2)) <| entry? k v) name =
      if k = name then v else none := by
  cases v with
  | none => simp [ entry?]
  | some v => simp [ entry?, Value.field?_word_cons]

theorem field?_aggregationEntries {name : String} (h : "aggs" ≠ name) (es : List (Value × Value)) :
    Value.field? ((aggregationEntries es).map fun e => (.str e.1, e.2)) name = none := by
  unfold aggregationEntries
  split
  · rfl
  · exact Value.field?_singleton_of_ne h _

theorem field?_sortEntries (os : List (Value × Value)) (name : String) :
    Value.field? ((sortEntries os).map fun e => (.str e.1, e.2)) name =
      if "sort" = name ∧ os ≠ [] then some (.list (os.map fun o => .dict [o])) else none := by
  cases os <;> simp [sortEntries, Value.field?_word_cons]

/-- What a search reads of the body of a history. -/
structure ReadsAs (cs : List Call) (es : List (Value × Value)) : Prop where
  query : Value.fieldD es "query" ScoreFunction.matchAll = History.query cs
  offset : Value.fieldD es "from" (.int 0) = (last Call.offset? cs).getD (.int 0)
  size : Value.fieldD es "size" (.int 10) = (last Call.size? cs).getD (.int 10)
  threshold : Value.fieldD es "min_score" .null =
    ((last Call.minScore? cs).map Value.float).getD .null
  sort : Value.fieldD es "sort" (.list []) =
    .list ((cs.flatMap Call.orders).map fun o => .dict [o])

theorem exists_readsAs (cs : List Call) : ∃ es, body cs = .dict es ∧ ReadsAs cs es := by
  refine ⟨_, rfl, ?_⟩
  constructor
  case query => simp [Value.fieldD, Value.field?_word_cons]
  case sort =>
    generalize cs.flatMap Call.orders = os
    cases os <;>
      simp [Value.fieldD, Value.field?_append, Value.field?_word_cons, field?_optionalEntry,
        field?_sortEntries, field?_aggregationEntries]
  all_goals
    simp [Value.fieldD, Value.field?_append, Value.field?_word_cons, field?_optionalEntry,
      field?_sortEntries, field?_aggregationEntries]

variable {σ : Type} [Arithmetic σ]

/-- The hits of a search without a threshold depend on the query and the sort clauses only. -/
theorem hits_body {cs : List Call} (docs : List (Value × Value))
    (h : last Call.minScore? cs = none) :
    (Search.hits docs (body cs) : Except Error (List (Hit σ))) =
      Search.found (.ofValue (query cs)) (.ofQuery (query cs)) docs >>=
        Hit.sortBy (.list ((cs.flatMap Call.orders).map fun o => .dict [o])) := by
  obtain ⟨es, hbody, hreads⟩ := exists_readsAs cs
  have hthreshold : Value.fieldD es "min_score" .null = .null := by
    rw [hreads.threshold, h]
    rfl
  rw [hbody, Search.hits_dict, Search.matching, hreads.query, hthreshold, hreads.sort]
  exact congrArg (· >>= _) (bind_pure _)

/-- An envelope finds what the query in it finds. -/
theorem ofValue_query (cs : List Call) :
    Condition.ofValue (query cs) = Condition.ofValue (boolean cs) := by
  unfold query
  split
  · rfl
  · simp [Value.object, Condition.ofValue, Condition.envelopeIn, Condition.conditionIn_eq,
      Value.hasField, Value.field?_word_cons]

theorem ofQuery_query (cs : List Call) :
    ScoreRule.ofQuery (query cs) =
      match last Call.modes? cs with
      | none => .flat
      | some (s, b) =>
        .weighted ((cs.flatMap Call.weighted).map ScoreFunction.ofValue) (ScoreRule.modeOf s)
          (b == .str "replace") := by
  unfold query
  cases last Call.modes? cs with
  | none => simp [boolean, Value.object, ScoreRule.ofQuery, Value.field?_word_cons]
  | some m =>
      simp [Value.object, ScoreRule.ofQuery, ScoreRule.ofEnvelope, Value.items, Value.fieldD,
        Value.field?_word_cons]

/-! ## One nested predicate on a list of values -/

section Unrolled

variable {cs : List Call} {path field queryType : String} {kind : SeqKind} {vs : List Value}
  {logic : Value} {l : Logic} {r : Registration}

theorem group_unrolled (hl : Logic.resolve logic = .ok (some l))
    (h : cs.filter Call.isClause =
      [.whereNested (.str path) (.str field) (.seq kind vs) logic (.str queryType) r])
    (g : ClauseGroup) :
    group g cs = if l.group = g then vs.map (Condition.itemBody path field queryType) else [] := by
  have htarget : (Call.whereNested (.str path) (.str field) (.seq kind vs) logic
      (.str queryType) r).target? = some l.group := by
    rw [Call.target?, hl]
    rfl
  rw [← group_filter, h]
  simp only [group, since, List.any_nil, Bool.false_eq_true, if_false, List.flatMap_singleton,
    Call.placed, htarget, Option.some.injEq]
  rfl

theorem boolean_unrolled (hl : Logic.resolve logic = .ok (some l))
    (h : cs.filter Call.isClause =
      [.whereNested (.str path) (.str field) (.seq kind vs) logic (.str queryType) r]) :
    boolean cs =
      ((Groups.empty.addAll l.group vs).map (Condition.itemBody path field queryType)).body := by
  have hminimum : last Call.minimum? cs = none := by
    have hnone (c : Call) (hc : c.isClause = false) : c.minimum? = none := by
      cases c <;> first | rfl | cases hc
    rw [← last_filter hnone, h]
    rfl
  simp only [boolean, group_unrolled hl h, hminimum]
  cases l <;> rfl

theorem weighted_unrolled (hl : Logic.resolve logic = .ok (some l))
    (h : cs.filter Call.isClause =
      [.whereNested (.str path) (.str field) (.seq kind vs) logic (.str queryType) r]) :
    cs.flatMap Call.weighted =
      if r.asFunction.truthy then
        vs.map fun v => .object [("filter", Condition.itemBody path field queryType v),
          ("weight", r.weight)]
      else [] := by
  have hnone (c : Call) (hc : c.isClause = false) : c.weighted = [] := by
    cases c <;> first | rfl | cases hc
  rw [← flatMap_filter hnone, h, List.flatMap_singleton]
  simp only [Call.weighted, Call.target?, hl, Except.toOption_ok, Option.join_some,
    Option.map_some, Call.registration?]
  split
  · rw [Call.bodies, List.map_map]
    rfl
  · rfl

/-- The score of a document in which a number of the values occur. -/
def scoreOf (modes : Option (Value × Value)) (count : Nat) (x : σ) : σ :=
  match modes with
  | none => Arithmetic.one
  | some (s, b) =>
    ScoreRule.settle (ScoreRule.modeOf s) (b == .str "replace") (List.replicate count x)

variable (ht : queryType = "term" ∨ queryType = "terms") (hl : Logic.resolve logic = .ok (some l))
  (hvs : ∀ v ∈ vs, v.IsScalar)
  (h : cs.filter Call.isClause =
    [.whereNested (.str path) (.str field) (.seq kind vs) logic (.str queryType) r])

include ht hl hvs h

theorem score_unrolled {x : σ} (hw : Arithmetic.ofValue r.weight = .ok x) (doc : Value) :
    (ScoreRule.ofQuery (query cs)).score doc =
      .ok (scoreOf (last Call.modes? cs)
        (if r.asFunction.truthy then vs.countP (doc.occurs path field) else 0) x) := by
  rw [ofQuery_query]
  cases last Call.modes? cs with
  | none => rfl
  | some m =>
      refine ScoreRule.score_weighted ?_
      rw [weighted_unrolled hl h]
      split
      · have hread : (vs.map fun v => Value.object
            [("filter", Condition.itemBody path field queryType v), ("weight", r.weight)]).map
              ScoreFunction.ofValue =
            vs.map fun v =>
              .ok ⟨.ofValue (Condition.itemBody path field queryType v), r.weight⟩ := by
          rw [List.map_map]
          refine List.map_congr_left fun v _ => ?_
          simp [Value.object, ScoreFunction.ofValue, Value.fieldD, Value.field?_word_cons]
        rw [hread]
        exact ScoreRule.weights_map hw fun v hv => Condition.holds_itemBody ht (hvs v hv)
      · rfl

theorem holds_unrolled (hne : vs ≠ []) (doc : Value) :
    (Condition.ofValue (query cs)).holds doc "" =
      .ok (l.selects (doc.occurs path field) vs) := by
  obtain ⟨n, hn, hselects⟩ :=
    Groups.selects_addAll (l := l) (p := doc.occurs path field) hne
  rw [ofValue_query, boolean_unrolled hl h, ← hselects]
  refine Groups.holds_body (fun k v hv => ?_) hn
  exact Condition.holds_itemBody ht (hvs v (Groups.mem_of_mem_get_addAll hv))

/-- The hits are the documents that the logic selects, each scored by how many of the values occur
in it, in the order that the calls ask for. -/
theorem hits_unrolled (hne : vs ≠ []) {x : σ} (hw : Arithmetic.ofValue r.weight = .ok x)
    (hscore : last Call.minScore? cs = none) (docs : List (Value × Value)) :
    Search.hits docs (body cs) =
      Hit.sortBy (.list ((cs.flatMap Call.orders).map fun o => .dict [o]))
        ((docs.filter fun d => l.selects (d.2.occurs path field) vs).map fun d =>
          ⟨d.1, d.2, scoreOf (last Call.modes? cs)
            (if r.asFunction.truthy then vs.countP (d.2.occurs path field) else 0) x⟩) := by
  rw [hits_body docs hscore, Search.found_eq_ok
    (p := fun doc => l.selects (doc.occurs path field) vs)
    (s := fun doc => scoreOf (last Call.modes? cs)
      (if r.asFunction.truthy then vs.countP (doc.occurs path field) else 0) x)
    (fun d _ => holds_unrolled ht hl hvs h hne d.2) fun d _ => score_unrolled ht hl hvs h hw d.2,
    Except.ok_bind]

end Unrolled

end History

end DocSearch
