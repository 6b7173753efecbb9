import DocSearch.Proofs.Aggregation.Coercion
import DocSearch.Proofs.Builder.Compilation

/-!
# Forests declared in pieces

A forest can be given as one list, call by call to a builder that merges the finished documents, or
step by step to a collection that is built at the end. A document has the keys of its list in their
order, so lists whose keys are apart can be put together before or after they are built, and the
three ways agree.
-/

namespace DocSearch

open DocSearch.Action

def Value.members : Value → List Value
  | .seq _ vs => vs
  | _ => []

namespace Aggregation

open Declared

variable {vs js ks : List Value} {ns : Value} {es fs : List (Value × Value)} {ds : List Declared}

/-- All of the keys are texts. -/
def Worded (ks : List Value) : Prop := ∀ k ∈ ks, k.word?.isSome = true

/-- Every key that the declarations of a list give is a text. -/
def TextKeys (vs : List Value) : Prop :=
  ∀ d ∈ ofValues vs, d.key.truthy = true → d.key.word?.isSome = true

instance (vs : List Value) : Decidable (TextKeys vs) :=
  inferInstanceAs (Decidable (∀ d ∈ ofValues vs, d.key.truthy = true → d.key.word?.isSome = true))

theorem apart_comm (hks : Worded ks) : Apart js ks ↔ Apart ks js := by
  constructor
  · intro h k hk j hj
    rw [Value.beq_comm_of_word (hks k hk)]
    exact h j hj k hk
  · intro h j hj k hk
    rw [← Value.beq_comm_of_word (hks k hk)]
    exact h k hk j hj

/-! ## Putting documents together -/

theorem keys_document (h : document ds = .ok es) : Entries.keys es = ds.map Declared.key := by
  obtain ⟨as, has, hes⟩ := Except.bind_eq_ok_iff.mp h
  obtain ⟨fs, hfs, -, -, rfl⟩ := mergeInto_eq_ok_iff.mp hes
  rw [List.nil_append, keys_of_entries hfs, (expandAll_eq_ok has).1]

theorem putAll_of_apart (hapart : Apart (Entries.keys fs) (Entries.keys es))
    (hdistinct : Distinct (Entries.keys es)) : Entries.putAll fs es = fs ++ es := by
  induction es generalizing fs with
  | nil => exact (List.append_nil fs).symm
  | cons e es ih =>
      obtain ⟨hnew, hapart⟩ := apart_cons_right.mp hapart
      obtain ⟨hhead, hdistinct⟩ := distinct_cons.mp hdistinct
      have hnext : Apart (Entries.keys (fs ++ [e])) (Entries.keys es) := by
        rw [keys_append, apart_append_left]
        exact ⟨hapart, hhead⟩
      rw [Entries.putAll_cons, put_of_new hnew, ih hnext hdistinct, List.append_assoc, List.singleton_append]

/-- Two maps share no key exactly if their keys are apart; that one of them has texts as keys makes
up for the two ways in which the shared keys are looked for. -/
theorem sharedKeys_eq_nil_iff (hes : Worded (Entries.keys es)) :
    Entries.sharedKeys es fs = [] ↔ Apart (Entries.keys fs) (Entries.keys es) := by
  have hfilter {gs hs : List (Value × Value)} :
      (Entries.keys gs).filter (Entries.has hs) = [] ↔
        Apart (Entries.keys hs) (Entries.keys gs) := by
    simp only [List.filter_eq_nil_iff, not_has_iff]
    exact ⟨fun h j hj k hk => h k hk j hj, fun h k hk j hj => h j hj k hk⟩
  unfold Entries.sharedKeys
  split
  · exact hfilter
  · rw [apart_comm hes]
    exact hfilter

theorem ofValues_eq_map (vs : List Value) : ofValues vs = vs.map ofValue := by
  induction vs with
  | nil => rfl
  | cons v vs ih => rw [ofValues, ih, List.map_cons]

theorem documentOf_append_eq_ok_iff {xs ys : List Value} :
    documentOf (.list (xs ++ ys)) = .ok es ↔ ∃ fs gs, documentOf (.list xs) = .ok fs ∧
      documentOf (.list ys) = .ok gs ∧ Apart (Entries.keys fs) (Entries.keys gs) ∧
        fs ++ gs = es := by
  simp only [documentOf_seq, ofValues_eq_map, List.map_append]
  exact document_append_eq_ok_iff

/-- What lists declarations without being a sequence lists none that is a node. -/
theorem documentOf_members (h : documentOf ns = .ok es) : documentOf (.list ns.members) = .ok es := by
  have hothers {α : Type} (xs : List α) (kind : α → String)
      (h : document (xs.map fun x => .other (kind x)) = .ok es) : document [] = .ok es := by
    cases xs with
    | nil => exact h
    | cons x xs => cases h
  cases ns with
  | seq kind vs => exact h
  | map kind fs => exact hothers fs _ h
  | str s => exact hothers s.toList _ h
  | symbol s => exact hothers s.sign.toList _ h
  | null | bool _ | int _ | float _ | record _ _ => cases h

theorem TextKeys.worded (h : TextKeys vs) (hes : documentOf (.list vs) = .ok es) :
    Worded (Entries.keys es) := by
  intro k hk
  rw [keys_document hes] at hk
  obtain ⟨d, hd, rfl⟩ := List.mem_map.mp hk
  refine h d hd ?_
  by_contra hblank
  have hbad : d.Bad := .blank (Or.inl (Bool.not_eq_true _ ▸ hblank))
  exact not_flawed_of_document hes (.top _) (Or.inl ⟨d, hd, hbad⟩)

end Aggregation

/-! ## Calls of a builder -/

namespace Call

open Aggregation

variable {c : Call} {calls : List Call} {b b' : Builder} {vs : List Value}

def nodes : Call → List Value
  | aggregate ns => ns.members
  | _ => []

theorem documentOf_change (hb : documentOf (.list vs) = .ok b.document.aggregations)
    (hc : TextKeys c.nodes) (ha : c.Accepted b) :
    documentOf (.list (vs ++ c.nodes)) = .ok (c.change b.document).aggregations := by
  rw [aggregations_change]
  cases c with
  | aggregate ns =>
      obtain ⟨es, hes, hshared⟩ := ha
      have hmembers := documentOf_members hes
      have hapart := (sharedKeys_eq_nil_iff (hc.worded hmembers)).mp hshared
      have hdistinct := (document_eq_ok_iff.mp hmembers).2
      have hput := putAll_of_apart hapart hdistinct
      refine documentOf_append_eq_ok_iff.mpr ⟨_, es, hb, hmembers, hapart, ?_⟩
      rw [aggregations, hes]
      exact hput.symm
  | _ => simpa [nodes, aggregations] using hb

/-- A new builder that has taken calls holds the document of all their nodes. -/
theorem documentOf_run {mode : ExecutionMode} {strict : Bool}
    (hcalls : ∀ c ∈ calls, TextKeys c.nodes)
    (hrun : (forM calls apply).Returns (.new mode strict) () b) :
    documentOf (.list (calls.flatMap nodes)) = .ok b.document.aggregations := by
  refine related_of_returns
    (fun past u => documentOf (.list (past.flatMap nodes)) = .ok u.document.aggregations)
    hrun (fun c hc past u hu ha => ?_) [] rfl
  rw [List.flatMap_append, List.flatMap_singleton]
  exact documentOf_change hu (hcalls c hc) ha

/-- Adding aggregations leaves the query and the highlight as they are. -/
theorem clause_run (hcalls : ∀ c ∈ calls, ∃ ns, c = .aggregate ns)
    (hrun : (forM calls apply).Returns b () b') :
    b'.document.clause = b.document.clause ∧ b'.document.highlight = b.document.highlight := by
  refine related_of_returns (fun _ u => u.document.clause = b.document.clause ∧
    u.document.highlight = b.document.highlight) hrun (fun c hc _ u hu _ => ?_) [] ⟨rfl, rfl⟩
  obtain ⟨ns, rfl⟩ := hcalls c hc
  exact hu

theorem returns_aggregate_iff {ns : Value} (hopen : b.consumed = false)
    (hns : TextKeys ns.members) :
    (∃ b', (aggregate ns).apply.Returns b () b') ↔ ∃ es, documentOf ns = .ok es ∧
      Apart (Entries.keys b.document.aggregations) (Entries.keys es) := by
  constructor
  · rintro ⟨b', h⟩
    obtain ⟨-, -, ⟨es, hes, hshared⟩, -⟩ := returns_apply_iff.mp h
    have hworded := hns.worded (documentOf_members hes)
    exact ⟨es, hes, (sharedKeys_eq_nil_iff hworded).mp hshared⟩
  · rintro ⟨es, hes, hapart⟩
    have hworded := hns.worded (documentOf_members hes)
    have hshared := (sharedKeys_eq_nil_iff hworded).mpr hapart
    exact ⟨_, returns_apply_iff.mpr ⟨hopen, nofun, ⟨es, hes, hshared⟩, rfl⟩⟩

/-- An open builder refuses a list of nodes that is refused by itself or repeats a key. -/
theorem fails_aggregate_iff {ns : Value} (hopen : b.consumed = false) (hns : TextKeys ns.members) :
    (∃ e b', (aggregate ns).apply.Fails b e b') ↔ (∃ e, documentOf ns = .error e) ∨
      ∃ es, documentOf ns = .ok es ∧
        ¬ Apart (Entries.keys b.document.aggregations) (Entries.keys es) := by
  constructor
  · rintro ⟨e, b', hfails⟩
    cases hd : documentOf ns with
    | error e => exact Or.inl ⟨e, rfl⟩
    | ok es =>
        refine Or.inr ⟨es, rfl, fun hapart => ?_⟩
        obtain ⟨u, hu⟩ := (returns_aggregate_iff hopen hns).mpr ⟨es, hd, hapart⟩
        exact hfails.not_returns hu
  · intro hrefused
    refine fails_of_not_returns fun x b' h => ?_
    obtain ⟨es, hes, hapart⟩ := (returns_aggregate_iff hopen hns).mp ⟨b', h⟩
    rcases hrefused with ⟨e, he⟩ | ⟨fs, hfs, hshared⟩
    · cases hes.symm.trans he
    · obtain rfl := Except.ok.inj (hes.symm.trans hfs)
      exact hshared hapart

end Call

namespace Document

variable {d : Document} {body : Value}

/-- The aggregations stand in the compiled body as they are, if there are any. -/
theorem part_aggs (h : d.body = .ok body) :
    body.part "aggs" =
      if d.aggregations.isEmpty then .error .noKey else .ok (.dict d.aggregations) := by
  obtain ⟨parts, hparts, rfl⟩ := Except.map_eq_ok_iff.mp h
  obtain ⟨query, -, hparts⟩ := Except.bind_eq_ok_iff.mp hparts
  obtain ⟨shown, hshown, hparts⟩ := Except.bind_eq_ok_iff.mp hparts
  obtain ⟨last, hlast, hparts⟩ := Except.bind_eq_ok_iff.mp hparts
  obtain rfl := Except.ok.inj hparts
  have hnames : ∀ name v, (name, v) ∈ shown → ¬ name = "aggs" := by
    unfold highlightEntries at hshown
    split at hshown
    · obtain rfl := Except.ok.inj hshown
      simp
    · obtain ⟨v, -, rfl⟩ := Except.map_eq_ok_iff.mp hshown
      simp
  rw [Value.part_object_append]
  · unfold aggregationEntries at hlast
    split at hlast
    · rename_i hempty
      obtain rfl := Except.ok.inj hlast
      rw [if_pos hempty]
      rfl
    · rename_i hsome
      obtain ⟨copy, hcopy, rfl⟩ := Except.map_eq_ok_iff.mp hlast
      obtain ⟨-, rfl⟩ := Value.copy_eq_ok_iff.mp hcopy
      rw [if_neg hsome, Value.part_object_cons, if_pos rfl]
  · unfold sortEntries
    split <;> simp [Page.entries, Page.bound, or_imp, forall_and, Option.map_eq_some_iff] <;>
      exact hnames

theorem exists_body_iff (hplain : d.highlight = none) :
    (∃ v, d.body = .ok v) ↔
      (∃ q, d.clause.render = .ok q) ∧ (Value.dict d.aggregations).copyable = true := by
  have hhighlight : d.highlightEntries = .ok [] := by rw [highlightEntries, hplain]
  have haggregations : (∃ last, d.aggregationEntries = .ok last) ↔
      (Value.dict d.aggregations).copyable = true := by
    unfold aggregationEntries
    cases d.aggregations with
    | nil => simp [Value.copyable, Value.copyableEntries]
    | cons e es => cases h : (Value.dict (e :: es)).copyable <;> simp [Value.copy, h, Except.map]
  unfold Document.body Document.parts
  rw [← haggregations]
  cases d.clause.render <;> cases d.aggregationEntries <;> simp [hhighlight, Except.map]

end Document

/-! ## Steps of a collection -/

namespace Forest

open Aggregation Declared

variable {f g : Forest} {ns vs : List Value}

/-- A step collects given nodes or a node that is given by its parts. -/
inductive Step where
  | add (nodes : List Value)
  | node (key path fieldType children : Value)

namespace Step

def apply : Step → Action Forest Unit
  | add vs => Forest.add vs
  | node k p t c => Forest.node k p t c

def nodes : Step → List Value
  | add vs => vs
  | node k p t c => [.record .node [k, p, t, if c.truthy then c else .list []]]

end Step

theorem expandAll_of_mapM (h : vs.mapM Value.asNode = .ok ns) :
    expandAll (ofValues ns) = expandAll (ofValues vs) := by
  induction vs generalizing ns with
  | nil =>
      obtain rfl := Except.ok.inj h
      rfl
  | cons v vs ih =>
      rw [List.mapM_cons] at h
      obtain ⟨n, hn, h⟩ := Except.bind_eq_ok_iff.mp h
      obtain ⟨us, hus, h⟩ := Except.bind_eq_ok_iff.mp h
      obtain rfl := Except.ok.inj h
      obtain ⟨hproblem, rfl⟩ := Value.asNode_eq_ok_iff.mp hn
      rw [ofValues, ofValues, expandAll, expandAll, expand_toNode v hproblem, ih hus]

theorem expandAll_append (xs ys : List Value) :
    expandAll (ofValues (xs ++ ys)) = do
      let as ← expandAll (ofValues xs)
      let bs ← expandAll (ofValues ys)
      return as ++ bs := by
  simp only [expandAll_eq_mapM, ofValues_eq_map, List.map_append, List.mapM_append]

/-- What a step collects expands like the nodes that it is given. -/
theorem collected_of_step {s : Step} (h : s.apply.Returns f () g) :
    ∃ ns, f ++ ns = g ∧ expandAll (ofValues ns) = expandAll (ofValues s.nodes) := by
  cases s with
  | add vs =>
      obtain ⟨ns, hns, rfl⟩ := returns_add_iff.mp h
      exact ⟨ns, rfl, expandAll_of_mapM hns⟩
  | node k p t c =>
      obtain ⟨hproblem, h⟩ := returns_node_iff.mp h
      obtain ⟨ns, hns, rfl⟩ := returns_add_iff.mp h
      refine ⟨ns, rfl, ?_⟩
      have hgiven : childrenOf (if c.truthy then c else .list []) = childrenGiven c := by
        unfold childrenGiven
        split <;> rfl
      have hchildren := expandAll_nodesOf c hproblem
      rw [expandAll_of_mapM hns, Step.nodes]
      simp only [ofValues, ofValue, expandAll, expand, childrenOf, hgiven]
      rw [expandChildren, hchildren]

theorem collected_of_steps {steps : List Step} (h : (forM steps Step.apply).Returns f () g) :
    ∃ ns, f ++ ns = g ∧ expandAll (ofValues ns) = expandAll (ofValues (steps.flatMap Step.nodes)) := by
  induction steps generalizing f with
  | nil =>
      obtain ⟨-, rfl⟩ := returns_pure_iff.mp h
      exact ⟨[], List.append_nil f, rfl⟩
  | cons s steps ih =>
      rw [List.forM_cons] at h
      obtain ⟨⟨⟩, u, hs, h⟩ := returns_bind_iff.mp h
      obtain ⟨ns, rfl, hns⟩ := collected_of_step hs
      obtain ⟨us, rfl, hus⟩ := ih h
      refine ⟨ns ++ us, (List.append_assoc f ns us).symm, ?_⟩
      rw [List.flatMap_cons, expandAll_append, expandAll_append, hns, hus]

/-- A collection is built like the list of all nodes that its steps were given. -/
theorem build_of_steps {steps : List Step} (h : (forM steps Step.apply).Returns [] () f) :
    build f = (documentOf (.list (steps.flatMap Step.nodes))).map .dict := by
  obtain ⟨ns, rfl, hns⟩ := collected_of_steps h
  rw [List.nil_append, build, documentOf_seq, documentOf_seq, document, document, hns]

end Forest

namespace Aggregation

/-- Lists of nodes can be put together before or after they are built. Two lists together have a
document exactly if both have one and no key stands in both, and it is the one followed by the
other. So a builder that has taken list after list holds, and compiles to, the document of all of
them, refuses a list exactly if it is refused by itself or repeats a key, and a collection is built
like the list of all nodes that it was given. -/
theorem pieces_agree :
    (∀ xs ys es, documentOf (.list (xs ++ ys)) = .ok es ↔ ∃ fs gs,
      documentOf (.list xs) = .ok fs ∧ documentOf (.list ys) = .ok gs ∧
        Apart (Entries.keys fs) (Entries.keys gs) ∧ fs ++ gs = es) ∧
      (∀ mode strict (calls : List Call) b, (∀ c ∈ calls, TextKeys c.nodes) →
        (forM calls Call.apply).Returns (.new mode strict) () b →
        ∃ es, documentOf (.list (calls.flatMap Call.nodes)) = .ok es ∧
          b.document.aggregations = es ∧
          (∀ body, b.document.body = .ok body →
            body.part "aggs" = if es.isEmpty then .error .noKey else .ok (.dict es)) ∧
          ((∀ c ∈ calls, ∃ ns, c = .aggregate ns) →
            ((∃ body, b.document.body = .ok body) ↔ (Value.dict es).copyable = true))) ∧
      (∀ (b : Builder) ns, b.consumed = false → TextKeys ns.members →
        ((∃ e b', (Call.aggregate ns).apply.Fails b e b') ↔ (∃ e, documentOf ns = .error e) ∨
          ∃ es, documentOf ns = .ok es ∧
            ¬ Apart (Entries.keys b.document.aggregations) (Entries.keys es))) ∧
      ∀ (steps : List Forest.Step) f, (forM steps Forest.Step.apply).Returns [] () f →
        f.build = (documentOf (.list (steps.flatMap Forest.Step.nodes))).map .dict := by
  refine ⟨fun _ _ _ => documentOf_append_eq_ok_iff, fun mode strict calls b hcalls hrun => ?_,
    fun _ _ => Call.fails_aggregate_iff, fun _ _ => Forest.build_of_steps⟩
  refine ⟨b.document.aggregations, Call.documentOf_run hcalls hrun, rfl,
    fun _ => Document.part_aggs, fun honly => ?_⟩
  obtain ⟨hclause, hhighlight⟩ := Call.clause_run honly hrun
  rw [Document.exists_body_iff hhighlight, hclause]
  exact and_iff_right ⟨_, rfl⟩

/-- Two lists with another call between them, a list that repeats a key, and a collection. -/
theorem pieces_of_two_calls :
    let a : Value := .record .node [.str "a", .str "p", .null, .list []]
    let c : Value := .record .node [.str "c", .str "q", .str "terms",
      .tuple [.object [("key", .str "a"), ("path", .str "p")]]]
    let calls : List Call :=
      [.aggregate (.list [a]), .limit (.int 5), .aggregate (.tuple [c])]
    let steps : List Forest.Step := [.add [a], .node (.str "c") (.str "q") (.str "terms")
      (.tuple [.object [("key", .str "a"), ("path", .str "p")]])]
    ∃ b f, (forM calls Call.apply).Returns (.new .raw false) () b ∧
      documentOf (.list [a, c]) = .ok b.document.aggregations ∧
      (∃ e b', (Call.aggregate (.list [a])).apply.Fails b e b') ∧
      (forM steps Forest.Step.apply).Returns [] () f ∧
      f.build = .ok (.dict b.document.aggregations) := by
  intro a c calls steps
  obtain ⟨-, hcalls, hrefused, hsteps⟩ := pieces_agree
  have hkeys : ∀ c ∈ calls, TextKeys c.nodes := by decide
  have hrun : ((forM calls Call.apply).run (.new .raw false)).result.isOk = true := by
    decide +kernel
  obtain ⟨⟨⟩, hrun⟩ := Except.exists_of_isOk hrun
  obtain ⟨es, hes, rfl, -, -⟩ := hcalls _ _ calls _ hkeys ⟨hrun, rfl⟩
  have hbuild : ((forM steps Forest.Step.apply).run []).result.isOk = true := by decide +kernel
  obtain ⟨⟨⟩, hbuild⟩ := Except.exists_of_isOk hbuild
  have hnodes : steps.flatMap Forest.Step.nodes = calls.flatMap Call.nodes := rfl
  refine ⟨_, _, ⟨hrun, rfl⟩, hes, ?_, ⟨hbuild, rfl⟩, ?_⟩
  · have hopen := Call.consumed_of_returns ⟨hrun, rfl⟩
    refine (hrefused _ (.list [a]) hopen (by decide)).mpr (Or.inr ⟨_, rfl, fun hapart => ?_⟩)
    rw [keys_document hes] at hapart
    have hsame := hapart (.str "a") List.mem_cons_self (.str "a") List.mem_cons_self
    rw [Value.str_beq_str] at hsame
    cases hsame
  · rw [hsteps steps _ ⟨hbuild, rfl⟩, hnodes, hes]
    rfl

end Aggregation

end DocSearch
