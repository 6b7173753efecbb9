import DocSearch.Proofs.Builder.NestedValues
import DocSearch.Proofs.Search.Ordering

/-!
# Documents in which more values occur rank higher

A nested predicate on a list of values registers each of its clauses once as a scoring function, all
with one weight. Where the scores of the functions are summed up and replace the score of the query,
the score of a hit tells how many of the clauses it meets, and sorting by falling scores sorts by
that number.
-/

namespace DocSearch

namespace Arithmetic

variable {σ : Type} [Arithmetic σ]

/-- Up to `n` summands of a weight that is the whole number `w` add up without rounding. -/
def AddsExactly (x : σ) (w : Int) (n : Nat) : Prop :=
  ∀ k ≤ n, place? (total (List.replicate k x)) = some (.point (w * k : Int))

/-- Fractions always do. -/
theorem addsExactly_rat (w : Int) (n : Nat) : AddsExactly (w : Rat) w n := by
  intro k _
  have htotal (k : Nat) : total (List.replicate k (w : Rat)) = (w * k : Int) := by
    induction k with
    | zero => simp [total, zero]
    | succ k ih =>
        rw [total] at ih ⊢
        rw [List.replicate_succ', List.foldl_append, ih]
        simp only [List.foldl_cons, List.foldl_nil, add]
        rw [← Rat.intCast_add, Int.natCast_add, Int.mul_add, Int.natCast_one, Int.mul_one]
  rw [htotal]
  rfl

end Arithmetic

namespace Search

variable {σ : Type} {docs : List (Value × Value)} {p : Value → Bool} {s : Value → σ}

/-- The documents with a property as hits with their positions. -/
def marked (p : Value → Bool) (s : Value → σ) (docs : List (Value × Value)) :
    List (Hit σ × Nat) :=
  (docs.zipIdx.filter fun d => p d.1.2).map fun d => (⟨d.1.1, d.1.2, s d.1.2⟩, d.2)

theorem map_fst_marked :
    (marked p s docs).map Prod.fst =
      (docs.filter fun d => p d.2).map fun d => ⟨d.1, d.2, s d.2⟩ := by
  have hfst : (docs.filter fun d => p d.2) =
      (docs.zipIdx.filter fun d => p d.1.2).map Prod.fst := by
    conv_lhs => rw [← List.zipIdx_map_fst 0 docs, List.filter_map]
    rfl
  rw [hfst, marked, List.map_map, List.map_map]
  rfl

theorem mem_marked {e : Hit σ × Nat} :
    e ∈ marked p s docs ↔
      docs[e.2]? = some (e.1.id, e.1.document) ∧ p e.1.document = true ∧
        e.1.score = s e.1.document := by
  simp only [marked, List.mem_map, List.mem_filter, List.mem_zipIdx_iff_getElem?]
  constructor
  · rintro ⟨d, ⟨hd, hp⟩, rfl⟩
    exact ⟨hd, hp, rfl⟩
  · rintro ⟨hd, hp, hs⟩
    exact ⟨((e.1.id, e.1.document), e.2), ⟨hd, hp⟩, by rw [← hs]⟩

theorem placed_marked : Placed docs (marked p s docs) where
  document e he := (mem_marked.mp he).1
  increasing := by
    have hincreasing : docs.zipIdx.Pairwise fun d e => d.2 < e.2 := by
      rw [← List.pairwise_map (f := Prod.snd), List.zipIdx_map_snd]
      exact List.pairwise_lt_range'
    rw [marked, List.pairwise_map]
    exact hincreasing.filter _

end Search

namespace Hit

variable {σ : Type} {count : Value → Nat}

/-- The first hit has the greater count, or the counts are equal and its document stands before that
of the second one in the index. -/
def Outranks (count : Value → Nat) (d e : Hit σ × Nat) : Prop :=
  count e.1.document < count d.1.document ∨
    (count d.1.document = count e.1.document ∧ d.2 < e.2)

theorem outranks_asymm {d e : Hit σ × Nat} (h : Outranks count d e) : ¬ Outranks count e d := by
  unfold Outranks at *
  omega

/-- Hits with positions, by falling counts. -/
def byCount (count : Value → Nat) (marked : List (Hit σ × Nat)) : List (Hit σ × Nat) :=
  marked.mergeSort fun d e => decide (count e.1.document ≤ count d.1.document)

theorem pairwise_byCount {marked : List (Hit σ × Nat)} (h : marked.Pairwise fun d e => d.2 < e.2) :
    (byCount count marked).Pairwise (Outranks count) := by
  refine (pairwise_mergeSort_stable ?_ ?_ h).imp ?_
  · simp only [decide_eq_true_eq]
    omega
  · simp only [Bool.or_eq_true, decide_eq_true_eq]
    omega
  · simp only [decide_eq_true_eq, Outranks]
    omega

/-- Sorting by falling scores sorts by counts where the scores are the counts times a weight. -/
theorem sortBy_score [Arithmetic σ] {marked : List (Hit σ × Nat)} {w : Int} (hw : 0 < w)
    (hscore : ∀ e ∈ marked,
      Arithmetic.place? e.1.score = some (.point (w * count e.1.document : Int))) :
    sortBy (.list [.dict [(.str "_score", .str "desc")]]) (marked.map Prod.fst) =
      .ok ((byCount count marked).map Prod.fst) := by
  let key (h : Hit σ) : SortKey := .number (Arithmetic.place? h.score)
  have hkey : ∀ e ∈ marked, e.1.key (.str "_score") = .ok (key e.1) := by
    simp [Hit.key, key]
  have hplaced : ∀ e ∈ marked, (key e.1).isPlaced = true := by
    intro e he
    simp [key, SortKey.isPlaced, hscore e he]
  have hfalls : falls (.str "desc") = true := by
    decide +kernel
  have hle : ∀ d ∈ marked, ∀ e ∈ marked,
      decide (count e.1.document ≤ count d.1.document) =
        if falls (.str "desc") then !(key d.1).lt (key e.1) else !(key e.1).lt (key d.1) := by
    intro d hd e he
    -- A positive weight keeps the order of the counts.
    have hlt : (w * count d.1.document < w * count e.1.document) ↔
        count d.1.document < count e.1.document := by
      rw [Int.mul_lt_mul_left hw, Int.ofNat_lt]
    simp only [hfalls, if_true, key, hscore d hd, hscore e he, SortKey.lt, Place.lt,
      Rat.intCast_lt_intCast, hlt]
    rw [← decide_not, decide_eq_decide, Nat.not_lt]
  exact (bind_pure _).trans ((bind_pure _).trans (sortByField_of_keys rfl hkey hplaced hle))

end Hit

/-- Documents found with scores that are their counts times a weight can be sorted by falling scores:
the ranking has all documents that count, each once, by falling counts. -/
theorem Search.exists_ranking {σ : Type} [Arithmetic σ] {count : Value → Nat} {s : Value → σ}
    {w : Int} (hw : 0 < w) (docs : List (Value × Value))
    (hscore : ∀ d ∈ docs, 0 < count d.2 →
      Arithmetic.place? (s d.2) = some (.point (w * count d.2 : Int))) :
    ∃ ranked : List (Hit σ × Nat),
      Hit.sortBy (.list [.dict [(.str "_score", .str "desc")]])
        ((docs.filter fun d => 0 < count d.2).map fun d => ⟨d.1, d.2, s d.2⟩) =
          .ok (ranked.map Prod.fst) ∧
      (ranked.map Prod.snd).Nodup ∧
      (∀ i d, docs[i]? = some d → (i ∈ ranked.map Prod.snd ↔ 0 < count d.2)) ∧
      (∀ e ∈ ranked, docs[e.2]? = some (e.1.id, e.1.document) ∧
        ∃ t : Int, Arithmetic.place? e.1.score = some (.point t) ∧
          t = w * count e.1.document ∧ w ≤ t) ∧
      ∀ i j (hi : i < ranked.length) (hj : j < ranked.length),
        i < j ↔ Hit.Outranks count ranked[i] ranked[j] := by
  let hits : List (Hit σ × Nat) := marked (fun doc => 0 < count doc) s docs
  have hplaced : Placed docs hits := placed_marked
  have hmem {e : Hit σ × Nat} : e ∈ hits ↔
      docs[e.2]? = some (e.1.id, e.1.document) ∧ 0 < count e.1.document ∧
        e.1.score = s e.1.document := by
    simp [hits, mem_marked]
  have hplace : ∀ e ∈ hits,
      Arithmetic.place? e.1.score = some (.point (w * count e.1.document : Int)) := by
    intro e he
    obtain ⟨hdoc, hcount, hs⟩ := hmem.mp he
    rw [hs]
    exact hscore _ (List.mem_of_getElem? hdoc) hcount
  have hperm : (Hit.byCount count hits).Perm hits := List.mergeSort_perm _ _
  refine ⟨Hit.byCount count hits, ?_, ?_, fun i d hd => ?_, fun e he => ?_, fun i j hi hj => ?_⟩
  · rw [← Hit.sortBy_score hw hplace, map_fst_marked]
  · exact (hperm.map Prod.snd).nodup_iff.mpr hplaced.nodup
  · rw [(hperm.map Prod.snd).mem_iff, List.mem_map]
    constructor
    · rintro ⟨e, he, rfl⟩
      obtain ⟨hdoc, hcount, -⟩ := hmem.mp he
      obtain rfl := Option.some.inj (hd.symm.trans hdoc)
      exact hcount
    · intro hcount
      exact ⟨(⟨d.1, d.2, s d.2⟩, i), hmem.mpr ⟨hd, hcount, rfl⟩, rfl⟩
  · have he := hperm.mem_iff.mp he
    obtain ⟨hdoc, hcount, -⟩ := hmem.mp he
    refine ⟨hdoc, _, hplace e he, rfl, ?_⟩
    calc w = w * 1 := (Int.mul_one w).symm
      _ ≤ w * count e.1.document :=
        Int.mul_le_mul_of_nonneg_left (by omega) (Int.le_of_lt hw)
  · exact lt_iff_of_pairwise (fun _ _ => Hit.outranks_asymm)
      (Hit.pairwise_byCount hplaced.increasing) hi hj

namespace Condition

/-- How many of the clauses that a list of values is unrolled into a document meets. -/
def countMet (path field queryType : String) (vs : List Value) (doc : Value) : Nat :=
  vs.countP fun v =>
    ((ofValue (itemBody path field queryType v)).holds doc "").toOption == some true

theorem countMet_eq {path field queryType : String} (ht : queryType = "term" ∨ queryType = "terms")
    {vs : List Value} (hvs : ∀ v ∈ vs, v.IsScalar) (doc : Value) :
    countMet path field queryType vs doc = vs.countP (doc.occurs path field) := by
  refine List.countP_congr fun v hv => ?_
  rw [holds_itemBody ht (hvs v hv), Except.toOption_ok]
  cases doc.occurs path field v <;> simp

end Condition

/-- Scores and orders are left to other calls. -/
def Call.isFraming : Call → Bool
  | setIndex _ | limit _ | paginate _ _ | highlight _ _ | aggregate _ => true
  | addWhere _ _ _ _ | whereNull _ _ | keywords _ _ | minShouldMatch _ | minScore _ => false
  | whereNested _ _ _ _ _ _ | whereNestedRaw _ _ _ _ | orderBy _ _ | functions _ _ => false

namespace History

theorem scoreOf_sum {σ : Type} [Arithmetic σ] {k : Nat} (hk : 0 < k) (x : σ) :
    scoreOf (some (.str "sum", .str "replace")) k x = Arithmetic.total (List.replicate k x) := by
  cases k with
  | zero => cases hk
  | succ k => rfl

section

variable {cs : List Call} {given : Value}
  (h : cs.filter (fun c => !c.isFraming) =
    [.functions (.str "sum") (.str "replace"), .orderBy (.dict [(.str "_score", .str "desc")]) given])

include h

theorem modes_of_ranking : last Call.modes? cs = some (.str "sum", .str "replace") := by
  have hnone (c : Call) (hc : (!c.isFraming) = false) : c.modes? = none := by
    cases c <;> first | rfl | cases hc
  rw [← last_filter hnone, h]
  rfl

theorem orders_of_ranking : cs.flatMap Call.orders = [(.str "_score", .str "desc")] := by
  have hnone (c : Call) (hc : (!c.isFraming) = false) : c.orders = [] := by
    cases c <;> first | rfl | cases hc
  have hlower : Text.lower "desc" = "desc" := by decide +kernel
  rw [← flatMap_filter hnone, h]
  simp [Call.orders, Call.givenOrders, Call.directionOf, hlower]

end

end History

namespace Builder

/-- A nested predicate on a list of values with the query wrapped by the default modes and sorted by
falling scores: a document is a hit if it meets one of the clauses, its score is the weight times the
number of those that it meets, and hits that meet more of them come first. Where two hits meet
equally many, the order of the index decides. -/
theorem ranking_of_nested_values {σ : Type} [Arithmetic σ] {before after : List Call}
    {mode : ExecutionMode} {strict : Bool} {b : Builder} {path field queryType : String}
    {kind : SeqKind} {vs : List Value} {logic given : Value} {r : Registration} {w : Int} {x : σ}
    (hothers : ∀ c ∈ before ++ after, c.KeepsHits)
    (hranks : (before ++ after).filter (fun c => !c.isFraming) =
      [.functions (.str "sum") (.str "replace"),
        .orderBy (.dict [(.str "_score", .str "desc")]) given])
    (hbefore : (forM before Call.apply).Returns (.new mode strict) () b)
    (hwrapped : b.document.isWrapped = false) (ht : queryType = "term" ∨ queryType = "terms")
    (hne : vs ≠ []) (hvs : ∀ v ∈ vs, v.IsScalar) (hl : Logic.resolve logic = .ok (some .or))
    (hfunction : r.asFunction.truthy = true) (hweight : r.weight = .int w) (hpos : 0 < w)
    (hx : Arithmetic.ofValue (.int w) = .ok x) (hexact : Arithmetic.AddsExactly x w vs.length)
    (st : Store) :
    let index := (History.last Call.index? (before ++ after)).getD (.str "")
    let docs := st.documents index
    let count := Condition.countMet path field queryType vs
    ∃ b₁, (Call.whereNested (.str path) (.str field) (.seq kind vs) logic (.str queryType)
        r).apply.Returns b () b₁ ∧
      ∀ b₂, (forM after Call.apply).Returns b₁ () b₂ →
        ∃ body, b₂.params = .ok (.object [("index", index), ("body", body)]) ∧
          ∃ ranked : List (Hit σ × Nat), Search.hits docs body = .ok (ranked.map Prod.fst) ∧
            (ranked.map Prod.snd).Nodup ∧
            (∀ i d, docs[i]? = some d → (i ∈ ranked.map Prod.snd ↔ 0 < count d.2)) ∧
            (∀ e ∈ ranked, docs[e.2]? = some (e.1.id, e.1.document) ∧
              ∃ s : Int, Arithmetic.place? e.1.score = some (.point s) ∧
                s = w * count e.1.document ∧ w ≤ s) ∧
            ∀ i j (hi : i < ranked.length) (hj : j < ranked.length),
              i < j ↔ Hit.Outranks count ranked[i] ranked[j] := by
  intro index docs count
  have hcount (doc : Value) : count doc = vs.countP (doc.occurs path field) :=
    Condition.countMet_eq ht hvs doc
  have hsome (doc : Value) : vs.any (doc.occurs path field) = true ↔ 0 < count doc := by
    rw [hcount, List.countP_pos_iff, List.any_eq_true]
  obtain ⟨b₁, hcall, hafter⟩ :=
    searches_of_nested_values hothers hbefore hwrapped hne hvs hl (hweight ▸ hx) ht
  refine ⟨b₁, hcall, fun b₂ hrun => ?_⟩
  obtain ⟨body, hparams, hhits⟩ := hafter b₂ hrun
  let score (doc : Value) : σ :=
    History.scoreOf (some (.str "sum", .str "replace")) (count doc) x
  have hscore : ∀ d ∈ docs, 0 < count d.2 →
      Arithmetic.place? (score d.2) = some (.point (w * count d.2 : Int)) := by
    intro d _ hd
    rw [← hexact (count d.2) (hcount d.2 ▸ List.countP_le_length)]
    exact congrArg Arithmetic.place? (History.scoreOf_sum hd x)
  obtain ⟨ranked, hsort, hranked⟩ := Search.exists_ranking hpos docs hscore
  refine ⟨body, hparams, ranked, ?_, hranked⟩
  have hselected : (docs.filter fun d => Logic.or.selects (d.2.occurs path field) vs) =
      docs.filter fun d => 0 < count d.2 := by
    refine List.filter_congr fun d _ => ?_
    rw [Bool.eq_iff_iff, decide_eq_true_eq]
    exact hsome d.2
  rw [hhits, History.modes_of_ranking hranks, History.orders_of_ranking hranks, hselected]
  simp only [hfunction, if_true, ← hcount]
  exact hsort

theorem ranking_of_repeated_value :
    let doc (tags : List String) : Value :=
      .object [("tags", .list (tags.map fun t => .object [("name", .str t)]))]
    let docs := [(.str "1", doc ["b"]), (.str "2", doc ["c", "a"]), (.str "3", doc ["c"]),
      (.str "4", doc ["b", "a"])]
    let shop : Store := ⟨[(.str "shop", docs)], [], []⟩
    let vs : List Value := [.str "a", .str "b", .str "a"]
    let calls : List Call :=
      [.setIndex (.str "shop"), .whereNested (.str "tags") (.str "tags.name") (.list vs)
          (.symbol (.logic .or)) (.str "term") .standard, .functions (.str "sum") (.str "replace"),
        .orderBy (.dict [(.str "_score", .str "desc")]) (.str "desc")]
    ∃ b, (forM calls Call.apply).Returns (.new .raw false) () b ∧
      ∃ body, b.params = .ok (.object [("index", .str "shop"), ("body", body)]) ∧
        ∃ ranked : List (Hit Float × Nat),
          Search.hits (shop.documents (.str "shop")) body = .ok (ranked.map Prod.fst) ∧
          2 ∉ ranked.map Prod.snd ∧ 3 ∈ ranked.map Prod.snd ∧
          ∀ i j (hi : i < ranked.length) (hj : j < ranked.length),
            i < j ↔ Hit.Outranks (Condition.countMet "tags" "tags.name" "term" vs)
              ranked[i] ranked[j] := by
  intro doc docs shop vs calls
  let before : List Call := [.setIndex (.str "shop")]
  let after : List Call := [.functions (.str "sum") (.str "replace"),
    .orderBy (.dict [(.str "_score", .str "desc")]) (.str "desc")]
  have hothers : ∀ c ∈ before ++ after, c.KeepsHits := by
    simp [before, after, Call.KeepsHits]
  have hscalar : ∀ v ∈ vs, v.IsScalar := by simp [vs, Value.IsScalar]
  have hexact : Arithmetic.AddsExactly (2 : Float) 2 vs.length := by
    unfold Arithmetic.AddsExactly
    decide +kernel
  have hdocs : shop.documents (.str "shop") = docs := by simp [shop, Store.documents]
  have hthird : ¬ 0 < Condition.countMet "tags" "tags.name" "term" vs (doc ["c"]) := by
    decide +kernel
  have hfourth : 0 < Condition.countMet "tags" "tags.name" "term" vs (doc ["b", "a"]) := by
    decide +kernel
  obtain ⟨b₁, hcall, hafter⟩ :=
    @ranking_of_nested_values Float _ before after .raw false
      ⟨.raw, false, { Document.empty with index := .str "shop" }, false⟩ "tags" "tags.name" "term"
      .list vs (.symbol (.logic .or)) (.str "desc") .standard 2 2 hothers rfl ⟨rfl, rfl⟩ rfl
      (.inl rfl) (List.cons_ne_nil _ _) hscalar rfl rfl rfl (by decide) rfl hexact shop
  have hrest : ∃ b₂, (forM after Call.apply).Returns b₁ () b₂ := by
    obtain ⟨-, rfl⟩ := hcall
    exact ⟨_, rfl, rfl⟩
  obtain ⟨b₂, hrest⟩ := hrest
  obtain ⟨body, hparams, ranked, hhits, -, hmem, -, horder⟩ := hafter b₂ hrest
  have hbefore : (forM before Call.apply).Returns (.new .raw false) ()
      ⟨.raw, false, { Document.empty with index := .str "shop" }, false⟩ := ⟨rfl, rfl⟩
  refine ⟨b₂, Call.returns_forM_append hbefore (Call.returns_forM_cons hcall hrest), body, hparams,
    ranked, hhits, ?_, ?_, horder⟩
  · exact fun h => hthird ((hmem 2 (.str "3", doc ["c"]) (hdocs ▸ rfl)).mp h)
  · exact (hmem 3 (.str "4", doc ["b", "a"]) (hdocs ▸ rfl)).mpr hfourth

end Builder

end DocSearch
