import DocSearch.Proofs.Builder.Predicates
import DocSearch.Proofs.Builder.Ranking

/-!
# The order of predicates does not matter

Two builders that are given the same predicates in another order find the same documents. Where
weights are combined without rounding the documents also score the same, unless the first weight
decides.
-/

namespace DocSearch

open DocSearch.Action

/-! ## Two orders of the same predicates -/

namespace Hit

theorem map_entry {σ : Type} (s : Value → σ) (xs : List (Value × Value)) :
    (xs.map fun d => (⟨d.1, d.2, s d.2⟩ : Hit σ)).map Hit.entry = xs := by
  rw [List.map_map]
  exact List.map_id _

end Hit

namespace History

variable {before cs ds after : List Call}
  (hothers : ∀ c ∈ before ++ after, c.isNeutral = true) (hcs : ∀ c ∈ cs, c.IsPredicate)
  (hds : ∀ c ∈ ds, c.IsPredicate) (hperm : cs.Perm ds)

theorem last_reordered {β : Type} {f : Call → Option β} (hcs : ∀ c ∈ cs, f c = none)
    (hds : ∀ c ∈ ds, f c = none) :
    last f (before ++ cs ++ after) = last f (before ++ ds ++ after) := by
  rw [last_between hcs, last_between hds]

include hothers hperm

theorem weights_perm {σ : Type} [Arithmetic σ] (doc : Value) :
    (weights (before ++ cs ++ after) doc : List σ).Perm (weights (before ++ ds ++ after) doc) := by
  unfold weights
  rw [weighted_between hothers, weighted_between hothers]
  exact (hperm.flatMap_right _).filterMap _

include hcs hds

theorem groups_perm :
    (groups (before ++ cs ++ after)).Perm (groups (before ++ ds ++ after)) where
  get g := by
    rw [get_groups, get_groups, group_between hothers hcs, group_between hothers hds]
    exact hperm.flatMap_right _
  minimum := by
    have hminimum : last Call.minimum? (before ++ cs ++ after) =
        last Call.minimum? (before ++ ds ++ after) :=
      last_reordered (fun c hc => (hcs c hc).addsOnly.minimum) fun c hc =>
        (hds c hc).addsOnly.minimum
    simp only [groups, hminimum]

variable {n : Int} (hn : (groups (before ++ cs ++ after)).required = .ok n)
  {docs : List (Value × Value)} (hdocs : ∀ d ∈ docs, ∀ c ∈ cs, c.Compares d.2)

include hn hdocs

theorem hits_reordered {σ : Type} [Arithmetic σ] (hw : ∀ c ∈ cs, c.WeighsIn σ) :
    ∃ hs hs' : List (Hit σ), Search.hits docs (body (before ++ cs ++ after)) = .ok hs ∧
      Search.hits docs (body (before ++ ds ++ after)) = .ok hs' ∧
        hs.map Hit.entry = hs'.map Hit.entry := by
  have hgroups := groups_perm hothers hcs hds hperm
  have hn' : (groups (before ++ ds ++ after)).required = .ok n := hgroups.required.symm.trans hn
  have hw' : ∀ c ∈ ds, c.WeighsIn σ := fun c hc => hw c (hperm.mem_iff.mpr hc)
  have hdocs' : ∀ d ∈ docs, ∀ c ∈ ds, c.Compares d.2 :=
    fun d hd c hc => hdocs d hd c (hperm.mem_iff.mpr hc)
  refine ⟨_, _, hits_between hothers hcs hw hn hdocs, hits_between hothers hds hw' hn' hdocs', ?_⟩
  rw [Hit.map_entry fun doc => settled (last Call.modes? (before ++ cs ++ after))
      (weights (before ++ cs ++ after) doc),
    Hit.map_entry fun doc => settled (last Call.modes? (before ++ ds ++ after))
      (weights (before ++ ds ++ after) doc)]
  exact List.filter_congr fun d _ => hgroups.selects _ n

/-- Without rounding both orders score the documents alike. -/
theorem hits_reordered_exactly
    (hmode : ∀ s b, last Call.modes? (before ++ cs ++ after) = some (s, b) →
      ScoreRule.modeOf s ≠ .first) :
    (Search.hits docs (body (before ++ cs ++ after)) : Except Error (List (Hit Rat))) =
      Search.hits docs (body (before ++ ds ++ after)) := by
  have hgroups := groups_perm hothers hcs hds hperm
  have hn' : (groups (before ++ ds ++ after)).required = .ok n := hgroups.required.symm.trans hn
  have hmodes : last Call.modes? (before ++ cs ++ after) =
      last Call.modes? (before ++ ds ++ after) :=
    last_reordered (fun c hc => (hcs c hc).addsOnly.modes) fun c hc => (hds c hc).addsOnly.modes
  have hsettled (doc : Value) :
      settled (last Call.modes? (before ++ cs ++ after))
          (weights (before ++ cs ++ after) doc : List Rat) =
        settled (last Call.modes? (before ++ ds ++ after)) (weights (before ++ ds ++ after) doc) := by
    rw [← hmodes]
    unfold settled
    split
    · rfl
    · rename_i s b hsome
      exact ScoreRule.settle_perm (hmode s b hsome) _ (weights_perm hothers hperm doc)
  have hdocs' : ∀ d ∈ docs, ∀ c ∈ ds, c.Compares d.2 :=
    fun d hd c hc => hdocs d hd c (hperm.mem_iff.mpr hc)
  rw [hits_between hothers hcs (fun c hc => (hcs c hc).weighsIn_rat) hn hdocs,
    hits_between hothers hds (fun c hc => (hds c hc).weighsIn_rat) hn' hdocs']
  simp only [hsettled, hgroups.selects]

end History

/-! ## Builders -/

namespace Call

/-- The calls that a list of predicates may end with: how many optional ones have to match, and the
wrap. -/
def closing (minimum : Option Int) (envelope : Option ScoreSettings) : List Call :=
  (minimum.map fun n => minShouldMatch (.int n)).toList ++
    (envelope.map fun s => functions (.str s.scoreMode.word) (.str s.boostMode.word)).toList

variable {c : Call} {cs : List Call} {b : Builder} {minimum : Option Int}
  {envelope : Option ScoreSettings}

theorem isNeutral_of_mem_closing (h : c ∈ closing minimum envelope) :
    c.isNeutral = true ∧ c.IsPlain := by
  rcases List.mem_append.mp h with h | h
  · obtain ⟨n, -, rfl⟩ := Option.map_eq_some_iff.mp (Option.mem_toList.mp h)
    exact ⟨rfl, trivial⟩
  · obtain ⟨s, -, rfl⟩ := Option.map_eq_some_iff.mp (Option.mem_toList.mp h)
    exact ⟨rfl, trivial⟩

theorem isNeutral_of_isFraming (h : c.isFraming = true) : c.isNeutral = true := by
  cases c <;> first | rfl | cases h

/-- A builder that takes clauses takes every call that it accepts. -/
theorem returns_of_accepted (hopen : b.consumed = false) (hw : b.document.isWrapped = false)
    (h : c.Accepted b) :
    c.apply.Returns b () { b with document := c.change b.document } :=
  returns_apply_iff.mpr ⟨hopen, fun _ => hw, h, rfl⟩

theorem exists_run_predicates (hcs : ∀ c ∈ cs, c.IsPredicate) (hopen : b.consumed = false)
    (hw : b.document.isWrapped = false) :
    ∃ b', (forM cs apply).Returns b () b' ∧ b'.consumed = false ∧
      b'.document.isWrapped = false := by
  induction cs generalizing b with
  | nil => exact ⟨b, returns_pure_iff.mpr ⟨rfl, rfl⟩, hopen, hw⟩
  | cons c cs ih =>
      have hc := hcs c List.mem_cons_self
      have hclause : c.isClause = true := by
        cases c <;> first | rfl | exact hc.elim
      have hunwrapped : (c.change b.document).isWrapped = false := by
        rw [change_of_isClause hclause]
        exact hw
      obtain ⟨b', hrun, hb'⟩ := ih (b := { b with document := c.change b.document })
        (fun d hd => hcs d (List.mem_cons_of_mem c hd)) hopen hunwrapped
      exact ⟨b', returns_forM_cons (returns_of_accepted hopen hw (hc.accepted b)) hrun, hb'⟩

theorem exists_run_closing (minimum : Option Int) (envelope : Option ScoreSettings)
    (hopen : b.consumed = false) (hw : b.document.isWrapped = false) :
    ∃ b', (forM (closing minimum envelope) apply).Returns b () b' := by
  have hwrap {b : Builder} (hopen : b.consumed = false) (hw : b.document.isWrapped = false) :
      ∃ b', (forM (closing none envelope) apply).Returns b () b' := by
    cases envelope with
    | none => exact ⟨b, returns_pure_iff.mpr ⟨rfl, rfl⟩⟩
    | some s =>
        have hmodes : (functions (.str s.scoreMode.word) (.str s.boostMode.word)).Accepted b :=
          ⟨hw, s, ScoreSettings.ofValues_words s⟩
        exact ⟨_, returns_forM_cons (returns_of_accepted hopen hw hmodes)
          (returns_pure_iff.mpr ⟨rfl, rfl⟩)⟩
  cases minimum with
  | none => exact hwrap hopen hw
  | some n =>
      have hstep := returns_of_accepted (c := minShouldMatch (.int n)) hopen hw trivial
      obtain ⟨b', hrun⟩ := hwrap (b := { b with
        document := (minShouldMatch (.int n)).change b.document }) hopen hw
      exact ⟨b', returns_forM_cons hstep hrun⟩

end Call

namespace History

variable {before cs : List Call} {minimum : Option Int} {envelope : Option ScoreSettings}

variable (hbefore : ∀ c ∈ before, c.isFraming = true) (hcs : ∀ c ∈ cs, c.IsPredicate)

include hbefore hcs

theorem last_of_front {β : Type} {f : Call → Option β}
    (hframing : ∀ c, c.isFraming = true → f c = none) (honly : ∀ c, c.AddsOnly → f c = none)
    (ys : List Call) : last f (before ++ cs ++ ys) = last f ys := by
  refine last_append_of_none (fun c hc => ?_) ys
  rcases List.mem_append.mp hc with hc | hc
  · exact hframing c (hbefore c hc)
  · exact honly c (hcs c hc).addsOnly

theorem last_minimum?_closing :
    last Call.minimum? (before ++ cs ++ Call.closing minimum envelope) =
      minimum.map Value.int := by
  have hframing (c : Call) (h : c.isFraming = true) : c.minimum? = none := by
    cases c <;> first | rfl | cases h
  rw [last_of_front hbefore hcs hframing fun c hc => hc.minimum]
  cases minimum <;> cases envelope <;> rfl

theorem last_modes?_closing :
    last Call.modes? (before ++ cs ++ Call.closing minimum envelope) =
      envelope.map fun s => (.str s.scoreMode.word, .str s.boostMode.word) := by
  have hframing (c : Call) (h : c.isFraming = true) : c.modes? = none := by
    cases c <;> first | rfl | cases h
  rw [last_of_front hbefore hcs hframing fun c hc => hc.modes]
  cases minimum <;> cases envelope <;> rfl

end History

namespace Builder

open History (last body groups)

theorem exists_compiled {before cs : List Call} {mode : ExecutionMode} {strict : Bool}
    {b : Builder} (minimum : Option Int) (envelope : Option ScoreSettings)
    (hbefore : ∀ c ∈ before, c.isFraming = true ∧ c.IsPlain)
    (hrun : (forM before Call.apply).Returns (.new mode strict) () b)
    (hcs : ∀ c ∈ cs, c.IsPredicate) :
    ∃ b', (forM (cs ++ Call.closing minimum envelope) Call.apply).Returns b () b' ∧
      b'.params = .ok (.object [("index", (last Call.index? before).getD (.str "")),
        ("body", body (before ++ cs ++ Call.closing minimum envelope))]) := by
  have hnew : (Builder.new mode strict).document.Follows [] := Document.Follows.empty
  have hfollows := hnew.run (fun c hc => (hbefore c hc).2) hrun
  have hopen : b.consumed = false := Call.consumed_of_returns hrun
  have hunwrapped : b.document.isWrapped = false := by
    have hmodes : last Call.modes? before = none := by
      refine History.last_eq_none fun c hc => ?_
      have hframing := (hbefore c hc).1
      cases c <;> first | rfl | cases hframing
    have henvelope := hfollows.modes.trans hmodes
    rw [Document.isWrapped, Option.isSome_eq_false_iff, Option.isNone_iff_eq_none]
    exact Option.map_eq_none_iff.mp henvelope
  obtain ⟨u, hpredicates, hu, hu'⟩ := Call.exists_run_predicates hcs hopen hunwrapped
  obtain ⟨b', hclosing⟩ := Call.exists_run_closing minimum envelope hu hu'
  have hafter := Call.returns_forM_append hpredicates hclosing
  have hplain : ∀ c ∈ cs ++ Call.closing minimum envelope, c.IsPlain := by
    intro c hc
    rcases List.mem_append.mp hc with hc | hc
    · exact (hcs c hc).isPlain
    · exact (Call.isNeutral_of_mem_closing hc).2
  have hindex : last Call.index? (before ++ cs ++ Call.closing minimum envelope) =
      last Call.index? before := by
    have hnil : (Call.closing minimum envelope).filterMap Call.index? = [] := by
      cases minimum <;> cases envelope <;> rfl
    rw [History.last_between fun c hc => (hcs c hc).addsOnly.index, last, last,
      List.filterMap_append, hnil, List.append_nil]
  refine ⟨b', hafter, ?_⟩
  rw [Builder.params, (hfollows.run hplain hafter).params, List.nil_append, ← List.append_assoc,
    History.params, hindex]

/-- Predicates in two orders, each with the same calls in front of them and at the end: both builders
take them. Where everything that they compare by its text has one, the searches have the same hits in
the same order, list the same part of them and tell the same number. Where weights are fractions the
scores are the same as well, unless the first weight decides. -/
theorem searches_of_permuted_predicates {σ : Type} [Arithmetic σ] {before cs ds : List Call}
    {mode : ExecutionMode} {strict : Bool} {b : Builder} (minimum : Option Int)
    (envelope : Option ScoreSettings) (hbefore : ∀ c ∈ before, c.isFraming = true ∧ c.IsPlain)
    (hrun : (forM before Call.apply).Returns (.new mode strict) () b)
    (hcs : ∀ c ∈ cs, c.IsPredicate) (hw : ∀ c ∈ cs, c.WeighsIn σ) (hperm : cs.Perm ds) :
    let index := (last Call.index? before).getD (.str "")
    ∃ b₁ b₂ body₁ body₂,
      (forM (cs ++ Call.closing minimum envelope) Call.apply).Returns b () b₁ ∧
      (forM (ds ++ Call.closing minimum envelope) Call.apply).Returns b () b₂ ∧
      b₁.params = .ok (.object [("index", index), ("body", body₁)]) ∧
      b₂.params = .ok (.object [("index", index), ("body", body₂)]) ∧
      ∀ st : Store, let docs := st.documents index
        (∀ d ∈ docs, ∀ c ∈ cs, c.Compares d.2) →
        (∃ hs₁ hs₂ : List (Hit σ), Search.hits docs body₁ = .ok hs₁ ∧
          Search.hits docs body₂ = .ok hs₂ ∧ hs₁.map Hit.entry = hs₂.map Hit.entry) ∧
        (Search.run docs body₁).map (Search.Answer.entries (σ := σ)) =
          (Search.run docs body₂).map (Search.Answer.entries (σ := σ)) ∧
        ((∀ s, envelope = some s → s.scoreMode ≠ .first) →
          (Search.run docs body₁ : Except Error (Search.Answer Rat)) = Search.run docs body₂) := by
  intro index
  let after := Call.closing minimum envelope
  have hframing : ∀ c ∈ before, c.isFraming = true := fun c hc => (hbefore c hc).1
  have hothers : ∀ c ∈ before ++ after, c.isNeutral = true := by
    intro c hc
    rcases List.mem_append.mp hc with hc | hc
    · exact Call.isNeutral_of_isFraming (hframing c hc)
    · exact (Call.isNeutral_of_mem_closing hc).1
  have hds : ∀ c ∈ ds, c.IsPredicate := fun c hc => hcs c (hperm.mem_iff.mpr hc)
  obtain ⟨b₁, hrun₁, hparams₁⟩ := exists_compiled minimum envelope hbefore hrun hcs
  obtain ⟨b₂, hrun₂, hparams₂⟩ := exists_compiled minimum envelope hbefore hrun hds
  refine ⟨b₁, b₂, _, _, hrun₁, hrun₂, hparams₁, hparams₂, fun st => ?_⟩
  intro docs hdocs
  obtain ⟨n, hn⟩ : ∃ n, (groups (before ++ cs ++ after)).required = .ok n := by
    refine Groups.exists_required ?_
    simp only [groups, after, History.last_minimum?_closing hframing hcs]
    cases minimum with
    | none => exact Or.inl rfl
    | some n => exact Or.inr ⟨n, rfl⟩
  have hoffset : last Call.offset? (before ++ cs ++ after) =
      last Call.offset? (before ++ ds ++ after) :=
    History.last_reordered (fun c hc => (hcs c hc).addsOnly.offset) fun c hc =>
      (hds c hc).addsOnly.offset
  have hsize : last Call.size? (before ++ cs ++ after) =
      last Call.size? (before ++ ds ++ after) :=
    History.last_reordered (fun c hc => (hcs c hc).addsOnly.size) fun c hc =>
      (hds c hc).addsOnly.size
  obtain ⟨hs₁, hs₂, hhits₁, hhits₂, hentries⟩ :=
    History.hits_reordered hothers hcs hds hperm hn hdocs hw
  refine ⟨⟨hs₁, hs₂, hhits₁, hhits₂, hentries⟩, ?_, fun hmode => ?_⟩
  · exact History.run_entries_congr hoffset hsize hhits₁ hhits₂ hentries
  · obtain ⟨hs, -, hexact, -⟩ := History.hits_reordered hothers hcs hds hperm hn hdocs
      fun c hc => (hcs c hc).weighsIn_rat
    have hsame := History.hits_reordered_exactly hothers hcs hds hperm hn hdocs ?_
    · exact History.run_congr hoffset hsize hexact (hsame.symm.trans hexact) rfl
    · intro s m hsm
      rw [History.last_modes?_closing hframing hcs] at hsm
      obtain ⟨t, ht, hst⟩ := Option.map_eq_some_iff.mp hsm
      obtain ⟨rfl, -⟩ := Prod.mk.inj hst
      have hmodeOf : ScoreRule.modeOf (.str t.scoreMode.word) = t.scoreMode := by
        simp [ScoreRule.modeOf, Value.word?]
      rw [hmodeOf]
      exact hmode t ht

/-- A nested predicate in front of two others or behind them. -/
theorem searches_of_three_predicates :
    let doc : Value := .object [("colour", .str "red"), ("title", .str "Tea"),
      ("tags", .list [.object [("name", .str "ab")]])]
    let shop : Store := ⟨[(.str "", [(.str "1", doc)])], [], []⟩
    let cs : List Call := [.addWhere (.str "colour") (.list [.str "red", .int 3]) (.str "=")
        (.str "terms"), .keywords (.value (.str "tea")) (.list [.str "title", .str "text"])]
    let d : Call := .whereNested (.str "tags") (.str "tags.name") (.list [.str "a", .str "b"])
      (.str "OR") (.str "match") ⟨.bool true, .int (-3)⟩
    ∃ b₁ b₂ body₁ body₂,
      (forM ((cs ++ [d]) ++ Call.closing (some 1) (some ⟨.avg, .sum⟩)) Call.apply).Returns
        (.new .raw false) () b₁ ∧
      (forM (([d] ++ cs) ++ Call.closing (some 1) (some ⟨.avg, .sum⟩)) Call.apply).Returns
        (.new .raw false) () b₂ ∧
      b₁.params = .ok (.object [("index", .str ""), ("body", body₁)]) ∧
      b₂.params = .ok (.object [("index", .str ""), ("body", body₂)]) ∧
      (Search.run (shop.documents (.str "")) body₁ : Except Error (Search.Answer Rat)) =
        Search.run (shop.documents (.str "")) body₂ := by
  intro doc shop cs d
  have hmem {c : Call} (hc : c ∈ cs ++ [d]) : c = cs[0] ∨ c = cs[1] ∨ c = d := by
    simpa [cs] using hc
  have hpredicates : ∀ c ∈ cs ++ [d], c.IsPredicate := by
    have hwhere : Operator.ofWord? (Text.lower (Text.strip "=")) = some .equalTo := by decide +kernel
    have hnested : Logic.ofWord? (Text.lower (Text.strip "OR")) = some .or := by decide +kernel
    intro c hc
    rcases hmem hc with rfl | rfl | rfl
    · exact ⟨⟨_, rfl⟩, rfl, ⟨_, by rw [Operator.resolve_str, hwhere]⟩,
        .inr (.inr ⟨rfl, .list, _, rfl, rfl⟩)⟩
    · exact ⟨⟨_, rfl⟩, ["title", "text"], rfl⟩
    · exact ⟨⟨_, rfl⟩, ⟨_, rfl⟩, rfl, ⟨_, by rw [Logic.resolve_str, hnested]⟩, .inr (.inl rfl), -3,
        rfl⟩
  have hdocs : ∀ e ∈ shop.documents (.str ""), ∀ c ∈ cs ++ [d], c.Compares e.2 := by
    have hshop : shop.documents (.str "") = [(.str "1", doc)] := by simp [shop, Store.documents]
    rw [hshop, List.forall_mem_singleton]
    intro c hc
    rcases hmem hc with rfl | rfl | rfl
    · rintro name ⟨⟩
      simp [Value.Compares]
    · have htitle : doc.HasTexts "" "title" := by unfold Value.HasTexts; decide +kernel
      have htext : doc.HasTexts "" "text" := by unfold Value.HasTexts; decide +kernel
      refine List.forall_mem_singleton.mpr ⟨rfl, fun name hname => ?_⟩
      rcases List.mem_pair.mp hname with hname | hname
      · exact Value.str.inj hname ▸ htitle
      · exact Value.str.inj hname ▸ htext
    · rintro path name ⟨⟩ ⟨⟩ o ho x hx -
      have hx : (Condition.expected x).isWritable = true := by
        rcases List.mem_pair.mp hx with rfl | rfl <;> rfl
      have htexts : ∀ o ∈ doc.objectsAt "" "tags",
          ∀ v ∈ (o.lookup (relativeName (Condition.under "tags") "tags.name")).asList,
            v.isWritable = true := by decide +kernel
      exact ⟨hx, htexts o ho⟩
  have hweights : ∀ c ∈ cs ++ [d], c.WeighsIn Rat := fun c hc => (hpredicates c hc).weighsIn_rat
  have hframing : ∀ c ∈ ([] : List Call), c.isFraming = true ∧ c.IsPlain :=
    List.forall_mem_nil _
  obtain ⟨b₁, b₂, body₁, body₂, hrun₁, hrun₂, hparams₁, hparams₂, hsame⟩ :=
    searches_of_permuted_predicates (some 1) (some ⟨.avg, .sum⟩) hframing
      (returns_pure_iff.mpr ⟨rfl, rfl⟩) hpredicates hweights List.perm_append_comm
  have hmode : ∀ s, some (⟨.avg, .sum⟩ : ScoreSettings) = some s → s.scoreMode ≠ .first := by
    rintro s ⟨⟩
    decide
  exact ⟨b₁, b₂, body₁, body₂, hrun₁, hrun₂, hparams₁, hparams₂, (hsame shop hdocs).2.2 hmode⟩

/-- A predicate that would fail for want of a text does not fail behind one that is not met. -/
theorem failure_of_unwritable {n : Int} (hlong : ¬ (Value.int n).isWritable = true) :
    let doc : Value := .object [("a", .str "q"), ("x", .int 2)]
    let shop : Store := ⟨[(.str "", [(.str "1", doc)])], [], []⟩
    let short : Call := .addWhere (.str "x") (.int 1) (.str "=") (.str "term")
    let long : Call := .addWhere (.str "a") (.int n) (.str "=") (.str "match")
    let finds (cs : List Call) (result : Except Error (List (Hit Rat))) : Prop :=
      ∃ b body, (forM cs Call.apply).Returns (.new .raw false) () b ∧
        b.params = .ok (.object [("index", .str ""), ("body", body)]) ∧
        Search.hits (shop.documents (.str "")) body = result
    finds [short, long] (.ok []) ∧ finds [long, short] (.error .badContent) := by
  intro doc shop short long finds
  have hshop : shop.documents (.str "") = [(.str "1", doc)] := by simp [shop, Store.documents]
  have hequal : Operator.resolve (.str "=") = .ok (some .equalTo) := by
    have hword : Operator.ofWord? (Text.lower (Text.strip "=")) = some .equalTo := by
      decide +kernel
    rw [Operator.resolve_str, hword]
  have hcalls {cs : List Call} (hcs : ∀ c ∈ cs, c = short ∨ c = long) :
      (∀ c ∈ cs, c.IsPredicate) ∧ ∀ c ∈ cs, c.target? = some .filter := by
    constructor
    · intro c hc
      rcases hcs c hc with rfl | rfl
      · exact ⟨⟨_, rfl⟩, rfl, ⟨_, hequal⟩, .inl rfl⟩
      · exact ⟨⟨_, rfl⟩, rfl, ⟨_, hequal⟩, .inr (.inl rfl)⟩
    · intro c hc
      rcases hcs c hc with rfl | rfl <;>
        simp [short, long, Call.target?, hequal, Operator.group]
  have hfinds {cs : List Call} (hcs : ∀ c ∈ cs, c = short ∨ c = long) :
      finds cs (Search.found (.ofValue (History.query cs)) (.ofQuery (History.query cs))
        [(.str "1", doc)]) := by
    obtain ⟨hpredicates, -⟩ := hcalls hcs
    obtain ⟨b, hrun, hparams⟩ := @exists_compiled [] cs .raw false _ none none
      (List.forall_mem_nil _) (returns_pure_iff.mpr ⟨rfl, rfl⟩) hpredicates
    have hscore : last Call.minScore? cs = none :=
      History.last_eq_none fun c hc => (hpredicates c hc).addsOnly.minScore
    have horders : cs.flatMap Call.orders = [] :=
      List.flatMap_eq_nil_iff.mpr fun c hc => (hpredicates c hc).addsOnly.orders
    have hnil : Call.closing none none = [] := rfl
    rw [hnil, List.append_nil] at hrun
    rw [hnil, List.append_nil, List.nil_append] at hparams
    refine ⟨b, body cs, hrun, hparams, ?_⟩
    rw [hshop, History.hits_body _ hscore, horders]
    exact bind_pure _
  have hholds {cs : List Call} (hcs : ∀ c ∈ cs, c = short ∨ c = long) :
      (Condition.ofValue (History.query cs)).holds doc "" =
        Condition.allHold doc "" ((cs.flatMap Call.bodies).map .ofValue) :=
    History.holds_query_of_required (hcalls hcs).1 (hcalls hcs).2 doc
  have ha : nameParts "a" = ["a"] := by decide
  have hx : nameParts "x" = ["x"] := by decide
  have hmisses : (Condition.ofValue (Call.termBody (.str "x") (.int 1) (.str "term"))).holds doc "" =
      .ok false := by
    have hread : Condition.ofValue (Call.termBody (.str "x") (.int 1) (.str "term")) =
        .fields [(.str "x", .equals (.int 1))] := by
      simp [Call.termBody, Condition.ofValue, Condition.envelopeIn, Condition.leaf?, Value.hasField,
        Value.field?_word_cons, Condition.tests, Condition.expected]
    have hvalues : doc.fieldValues "" (.str "x") = .ok [.int 2] := by
      simp [doc, Value.fieldValues, Value.word?, Value.lookup, hx, Value.object, Value.fieldD,
        Value.field?_word_cons, Value.asList]
    have hdiffer : (Value.int 2 == .int 1) = false := by decide +kernel
    simp [hread, Condition.holds, hvalues, Test.passes, hdiffer]
  have hfails : (Condition.ofValue (Call.termBody (.str "a") (.int n) (.str "match"))).holds doc "" =
      .error .badContent := by
    have hread : Condition.ofValue (Call.termBody (.str "a") (.int n) (.str "match")) =
        .fields [(.str "a", .resembles (.int n))] := by
      simp [Call.termBody, Condition.ofValue, Condition.envelopeIn, Condition.leaf?, Value.hasField,
        Value.field?_word_cons, Condition.tests, Condition.expected]
    have hvalues : doc.fieldValues "" (.str "a") = .ok [.str "q"] := by
      simp [doc, Value.fieldValues, Value.word?, Value.lookup, ha, Value.object, Value.fieldD,
        Value.field?_word_cons, Value.asList]
    simp [hread, Condition.holds, hvalues, Test.passes, Value.mentions,
      Value.written_of_not_isWritable hlong]
  constructor
  · have hall : Condition.allHold doc "" (([short, long].flatMap Call.bodies).map .ofValue) =
        .ok false := by
      simp [short, long, Call.bodies, Condition.allHold, hmisses]
    have h := @hfinds [short, long] (by simp)
    rwa [Search.found, hholds (by simp), hall] at h
  · have hall : Condition.allHold doc "" (([long, short].flatMap Call.bodies).map .ofValue) =
        .error .badContent := by
      simp [short, long, Call.bodies, Condition.allHold, hfails]
    have h := @hfinds [long, short] (by simp)
    rwa [Search.found, hholds (by simp), hall] at h

/-- Where a value has no text to be compared by, the order decides whether the search fails. -/
theorem order_decides_failure :
    let doc : Value := .object [("a", .str "q"), ("x", .int 2)]
    let shop : Store := ⟨[(.str "", [(.str "1", doc)])], [], []⟩
    let short : Call := .addWhere (.str "x") (.int 1) (.str "=") (.str "term")
    let long : Call := .addWhere (.str "a") (.int (10 ^ 5000)) (.str "=") (.str "match")
    let finds (cs : List Call) (result : Except Error (List (Hit Rat))) : Prop :=
      ∃ b body, (forM cs Call.apply).Returns (.new .raw false) () b ∧
        b.params = .ok (.object [("index", .str ""), ("body", body)]) ∧
        Search.hits (shop.documents (.str "")) body = result
    finds [short, long] (.ok []) ∧ finds [long, short] (.error .badContent) :=
  failure_of_unwritable (Value.not_isWritable_pow (k := 5000) (by decide))

end Builder

end DocSearch
