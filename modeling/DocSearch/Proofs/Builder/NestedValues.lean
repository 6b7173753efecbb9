import DocSearch.Gateway.Store
import DocSearch.Proofs.Builder.Compilation
import DocSearch.Proofs.Builder.Searches

/-!
# What a nested predicate on a list of values means

A builder that makes one nested predicate on a list of values finds the documents in which some, all
or none of the values occur under the path. The values are unrolled into clauses of their own, so the
objects that they occur in may differ, and it makes no difference whether a clause asks for a value
or for one of a list.
-/

namespace DocSearch

open DocSearch.Action

namespace Call

/-- The call leaves it to other calls which documents are hits: it adds no clause and sets no
threshold. The class of a highlight has a text, and aggregations can be copied. -/
def KeepsHits : Call → Prop
  | setIndex _ | limit _ | paginate _ _ | orderBy _ _ | functions _ _ => True
  | highlight _ css => css.isWritable = true
  | aggregate ns => ns.copyable = true
  | addWhere _ _ _ _ | whereNull _ _ | keywords _ _ | minShouldMatch _ | minScore _ => False
  | whereNested _ _ _ _ _ _ | whereNestedRaw _ _ _ _ => False

namespace KeepsHits

variable {c : Call}

theorem isClause (h : c.KeepsHits) : c.isClause = false := by
  cases c <;> first | rfl | exact h.elim

theorem minScore? (h : c.KeepsHits) : c.minScore? = none := by
  cases c <;> first | rfl | exact h.elim

theorem isPlain (h : c.KeepsHits) : c.IsPlain := by
  cases c <;> trivial

end KeepsHits

/-! ### One more call among those that keep the hits -/

variable {before after : List Call} {c : Call}

theorem mem_insert {d : Call} (h : d ∈ before ++ c :: after) : d = c ∨ d ∈ before ++ after := by
  simp only [List.mem_append, List.mem_cons] at h ⊢
  tauto

section

variable (hothers : ∀ d ∈ before ++ after, d.KeepsHits)

include hothers

theorem isPlain_insert (hc : c.IsPlain) : ∀ d ∈ before ++ c :: after, d.IsPlain := by
  intro d hd
  rcases mem_insert hd with rfl | hd
  · exact hc
  · exact (hothers d hd).isPlain

theorem minScore?_insert (hc : c.minScore? = none) :
    History.last Call.minScore? (before ++ c :: after) = none := by
  refine History.last_eq_none fun d hd => ?_
  rcases mem_insert hd with rfl | hd
  · exact hc
  · exact (hothers d hd).minScore?

theorem filter_isClause_insert (hc : c.isClause = true) :
    (before ++ c :: after).filter isClause = [c] := by
  have hnone {cs : List Call} (h : ∀ d ∈ cs, d.KeepsHits) : cs.filter isClause = [] := by
    refine List.filter_eq_nil_iff.mpr fun d hd => ?_
    rw [(h d hd).isClause]
    exact Bool.false_ne_true
  rw [List.filter_append, List.filter_cons_of_pos hc,
    hnone fun d hd => hothers d (List.mem_append_left after hd),
    hnone fun d hd => hothers d (List.mem_append_right before hd)]
  rfl

end

end Call

namespace Hit

/-- The document of a hit with its identifier. -/
def entry {σ : Type} (h : Hit σ) : Value × Value := (h.id, h.document)

end Hit

namespace Search

variable {σ : Type} [Arithmetic σ]

open Call (nestedBody termBody)

/-- One nested clause that takes a list finds the documents in which one of the values occurs. -/
theorem hits_of_terms {path field : String} {kind : SeqKind} {vs : List Value}
    (hkind : kind = .list ∨ kind = .tuple) (hvs : ∀ v ∈ vs, v.IsScalar)
    (docs : List (Value × Value)) :
    ∃ hs : List (Hit σ),
      hs.map Hit.entry = docs.filter (fun d => vs.any (d.2.occurs path field)) ∧
      hits docs (.object [("query", nestedBody (.str path)
        (termBody (.str field) (.seq kind vs) (.str "terms")))]) = .ok hs := by
  have hflat : ScoreRule.ofQuery (nestedBody (.str path)
      (termBody (.str field) (.seq kind vs) (.str "terms"))) = .flat := by
    simp [nestedBody, Value.object, ScoreRule.ofQuery, Value.field?_word_cons]
  refine ⟨(docs.filter fun d => vs.any (d.2.occurs path field)).map fun d =>
    ⟨d.1, d.2, Arithmetic.one⟩, ?_, ?_⟩
  · rw [List.map_map]
    exact List.map_id _
  · rw [hits_query, hflat]
    exact found_eq_ok (p := fun doc => vs.any (doc.occurs path field))
      (s := fun _ => Arithmetic.one) (fun _ _ => Condition.holds_terms hkind hvs) fun _ _ => rfl

end Search

namespace Builder

/-- A builder whose query is not wrapped takes a nested predicate. -/
theorem exists_returns_whereNested (hopen : b.consumed = false)
    (hwrapped : b.document.isWrapped = false) (path field v queryType : Value) {logic : Value}
    {l : Logic} (hl : Logic.resolve logic = .ok (some l)) (r : Registration) :
    ∃ b', (Call.whereNested path field v logic queryType r).apply.Returns b () b' := by
  refine ⟨_, Call.returns_apply_iff.mpr ⟨hopen, fun _ => hwrapped, ?_, rfl⟩⟩
  exact ⟨some (.logic l), by rw [Table.resolve, hl]; rfl, nofun⟩

open Call (nestedBody termBody)

section Unrolled

variable {σ : Type} [Arithmetic σ] {before after : List Call} {mode : ExecutionMode}
  {strict : Bool} {b : Builder} {path field : String} {kind : SeqKind} {vs : List Value}
  {logic : Value} {l : Logic} {r : Registration} {x : σ}
  (hothers : ∀ c ∈ before ++ after, c.KeepsHits)
  (hbefore : (forM before Call.apply).Returns (.new mode strict) () b)
  (hwrapped : b.document.isWrapped = false) (hne : vs ≠ []) (hvs : ∀ v ∈ vs, v.IsScalar)
  (hl : Logic.resolve logic = .ok (some l)) (hw : Arithmetic.ofValue r.weight = .ok x)

include hothers hbefore hwrapped hne hvs hl hw

/-- The builder takes a nested predicate on a list of values, and the search that it compiles to
finds the documents that the logic selects. What the other calls add is the score modes and the
order. -/
theorem searches_of_nested_values {queryType : String}
    (ht : queryType = "term" ∨ queryType = "terms") :
    ∃ b₁, (Call.whereNested (.str path) (.str field) (.seq kind vs) logic (.str queryType)
        r).apply.Returns b () b₁ ∧
      ∀ b₂, (forM after Call.apply).Returns b₁ () b₂ →
        ∃ body, b₂.params = .ok (.object
            [("index", (History.last Call.index? (before ++ after)).getD (.str "")),
              ("body", body)]) ∧
          ∀ docs, (Search.hits docs body : Except Error (List (Hit σ))) =
            Hit.sortBy (.list (((before ++ after).flatMap Call.orders).map fun o => .dict [o]))
              ((docs.filter fun d => l.selects (d.2.occurs path field) vs).map fun d =>
                ⟨d.1, d.2, History.scoreOf (History.last Call.modes? (before ++ after))
                  (if r.asFunction.truthy then vs.countP (d.2.occurs path field) else 0) x⟩) := by
  let call : Call := .whereNested (.str path) (.str field) (.seq kind vs) logic (.str queryType) r
  have hopen : b.consumed = false := Call.consumed_of_returns hbefore
  have hcopy : ∀ v ∈ vs, v.copyable = true := fun v hv => Value.copyable_of_isScalar (hvs v hv)
  have hplain := Call.isPlain_insert hothers (c := call) ⟨rfl, rfl, Value.copyable_seq.mpr hcopy⟩
  have hclauses := Call.filter_isClause_insert hothers (c := call) rfl
  have hscore := Call.minScore?_insert hothers (c := call) rfl
  have horders : (before ++ call :: after).flatMap Call.orders =
      (before ++ after).flatMap Call.orders := by
    simp [call, Call.orders]
  obtain ⟨b₁, hcall⟩ := exists_returns_whereNested hopen hwrapped (.str path) (.str field)
    (.seq kind vs) (.str queryType) hl r
  refine ⟨b₁, hcall, fun b₂ hafter => ?_⟩
  have hrun : (forM (before ++ call :: after) Call.apply).Returns (.new mode strict) () b₂ :=
    Call.returns_forM_append hbefore (Call.returns_forM_cons hcall hafter)
  have hnew : (Builder.new mode strict).document.Follows [] := Document.Follows.empty
  refine ⟨History.body (before ++ call :: after), ?_, fun docs => ?_⟩
  · rw [Builder.params, (hnew.run hplain hrun).params, List.nil_append, History.params,
      History.last_insert rfl]
  · rw [History.hits_unrolled ht hl hvs hclauses hne hw hscore, horders, History.last_insert rfl]

open Call (nestedBody termBody)

/-- A nested predicate on a list of values finds the documents in which some, all or none of the
values occur, whichever query type it has, if the search can sort them as other calls ask for. One
clause that asks for one of the values finds the same as the clauses that are joined by `or`. -/
theorem hits_of_nested_values (hkind : kind = .list ∨ kind = .tuple) (st : Store) :
    let index := (History.last Call.index? (before ++ after)).getD (.str "")
    let selected :=
      (st.documents index).filter fun d => l.selects (d.2.occurs path field) vs
    ((∀ o ∈ (before ++ after).flatMap Call.orders,
        o.2.isWritable = true ∧ ∀ d ∈ selected, d.2.SortsBy o.1) →
      ∃ hs : List (Hit σ), (hs.map Hit.entry).Perm selected ∧
        ∀ queryType, queryType = "term" ∨ queryType = "terms" →
          ∃ b₁, (Call.whereNested (.str path) (.str field) (.seq kind vs) logic (.str queryType)
              r).apply.Returns b () b₁ ∧
            ∀ b₂, (forM after Call.apply).Returns b₁ () b₂ →
              ∃ body, b₂.params = .ok (.object [("index", index), ("body", body)]) ∧
                Search.hits (st.documents index) body = .ok hs) ∧
    (l = .or → ∃ alone : List (Hit σ), alone.map Hit.entry = selected ∧
      Search.hits (st.documents index) (.object [("query", nestedBody (.str path)
        (termBody (.str field) (.seq kind vs) (.str "terms")))]) = .ok alone) := by
  intro index selected
  refine ⟨fun hsorts => ?_, ?_⟩
  · let found : List (Hit σ) := selected.map fun d =>
      ⟨d.1, d.2, History.scoreOf (History.last Call.modes? (before ++ after))
        (if r.asFunction.truthy then vs.countP (d.2.occurs path field) else 0) x⟩
    have hentry : found.map Hit.entry = selected := by
      rw [List.map_map]
      exact List.map_id _
    have hfound : ∀ o ∈ (before ++ after).flatMap Call.orders,
        o.2.isWritable = true ∧ ∀ h ∈ found, h.document.SortsBy o.1 := fun o ho =>
      ⟨(hsorts o ho).1, List.forall_mem_map.mpr (hsorts o ho).2⟩
    obtain ⟨hs, hsort⟩ := Hit.exists_sortBy_iff.mpr hfound
    refine ⟨hs, hentry ▸ (Hit.sortBy_perm hsort).map Hit.entry, fun queryType ht => ?_⟩
    obtain ⟨b₁, hcall, hafter⟩ :=
      searches_of_nested_values hothers hbefore hwrapped hne hvs hl hw ht
    refine ⟨b₁, hcall, fun b₂ hrun => ?_⟩
    obtain ⟨body, hparams, hhits⟩ := hafter b₂ hrun
    exact ⟨body, hparams, (hhits _).trans hsort⟩
  · rintro rfl
    exact Search.hits_of_terms hkind hvs (st.documents index)

end Unrolled

/-- Two values that have to occur may occur in different objects. -/
theorem hits_of_two_required_values :
    let doc (tags : List String) : Value :=
      .object [("tags", .list (tags.map fun t => .object [("name", .str t)]))]
    let docs := [(.str "1", doc ["a", "c"]), (.str "2", doc ["b", "c", "a"])]
    let shop : Store := ⟨[(.str "shop", docs)], [], []⟩
    let b : Builder :=
      ⟨.raw, false, { Document.empty with index := .str "shop" }, false⟩
    ∃ hs : List (Hit Float), (hs.map Hit.entry).Perm [(.str "2", doc ["b", "c", "a"])] ∧
      ∀ queryType, queryType = "term" ∨ queryType = "terms" →
        ∃ b₁, (Call.whereNested (.str "tags") (.str "tags.name") (.list [.str "a", .str "b"])
            (.symbol (.logic .and)) (.str queryType) .standard).apply.Returns b () b₁ ∧
          ∃ body, b₁.params = .ok (.object [("index", .str "shop"), ("body", body)]) ∧
            Search.hits (shop.documents (.str "shop")) body = .ok hs := by
  intro doc docs shop b
  have hothers : ∀ c ∈ [Call.setIndex (.str "shop")] ++ [], c.KeepsHits := by
    simp [Call.KeepsHits]
  have hdocs : shop.documents (.str "shop") = docs := by simp [shop, Store.documents]
  have hselected : (docs.filter fun d =>
      Logic.and.selects (d.2.occurs "tags" "tags.name") [.str "a", .str "b"]) =
        [(.str "2", doc ["b", "c", "a"])] := by
    have hfirst : Logic.and.selects ((doc ["a", "c"]).occurs "tags" "tags.name")
        [.str "a", .str "b"] = false := by decide +kernel
    have hsecond : Logic.and.selects ((doc ["b", "c", "a"]).occurs "tags" "tags.name")
        [.str "a", .str "b"] = true := by decide +kernel
    simp only [docs, List.filter_cons, List.filter_nil, hfirst, hsecond, if_true,
      Bool.false_eq_true, if_false]
  have hscalar : ∀ v ∈ [Value.str "a", .str "b"], v.IsScalar := by simp [Value.IsScalar]
  obtain ⟨hfinds, -⟩ :=
    @hits_of_nested_values Float _ [.setIndex (.str "shop")] [] .raw false b "tags" "tags.name"
      .list [.str "a", .str "b"] (.symbol (.logic .and)) .and .standard 2 hothers ⟨rfl, rfl⟩ rfl
      (List.cons_ne_nil _ _) hscalar rfl rfl (.inl rfl) shop
  obtain ⟨hs, hperm, hruns⟩ := hfinds nofun
  refine ⟨hs, ?_, fun queryType ht => ?_⟩
  · rw [← hselected, ← hdocs]
    exact hperm
  · obtain ⟨b₁, hcall, hafter⟩ := hruns queryType ht
    obtain ⟨body, hparams, hhits⟩ := hafter b₁ ⟨rfl, rfl⟩
    exact ⟨b₁, hcall, body, hparams, hhits⟩

end Builder

end DocSearch
