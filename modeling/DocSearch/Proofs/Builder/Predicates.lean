import DocSearch.Proofs.Builder.NestedValues
import DocSearch.Proofs.Search.Permutations

/-!
# Predicates

The calls that add predicates which can be held against every document. The search of a history that
has only such clauses does not fail to find its hits: `History.hits_between` says which documents
they are and how they score, and `History.run_body` what is listed of them.
-/

namespace DocSearch

open DocSearch.Action

/-! ## Predicates that can be held against every document -/

/-- All values that the document has under a field have texts. -/
def Value.HasTexts (doc : Value) (pre name : String) : Prop :=
  ∀ v ∈ (doc.lookup (relativeName pre name)).asList, v.isWritable = true

namespace Condition

/-- Held against the document, the condition gives an answer. -/
def Decides (c : Condition) (doc : Value) (pre : String) : Prop :=
  ∃ b, c.holds doc pre = .ok b

/-- What the body of a clause answers for a document. -/
def answer (doc v : Value) : Bool :=
  ((ofValue v).holds doc "").toOption.getD false

theorem Decides.holds_eq {doc v : Value} (h : (ofValue v).Decides doc "") :
    (ofValue v).holds doc "" = .ok (answer doc v) := by
  obtain ⟨b, hb⟩ := h
  rw [answer, hb]
  rfl

theorem exists_anyM {α : Type} {xs : List α} {f : α → Except Error Bool}
    (h : ∀ x ∈ xs, ∃ b, f x = .ok b) : ∃ b, xs.anyM f = .ok b := by
  have hf : ∀ x ∈ xs, f x = .ok ((f x).toOption.getD false) := by
    intro x hx
    obtain ⟨b, hb⟩ := h x hx
    rw [hb]
    rfl
  exact ⟨_, anyM_eq_ok hf⟩

theorem exists_mentions {v needle : Value} (hv : v.isWritable = true)
    (hneedle : needle.isWritable = true) : ∃ b, v.mentions needle = .ok b :=
  ⟨_, by rw [Value.mentions, Value.written_of_isWritable hneedle, Value.written_of_isWritable hv]; rfl⟩

variable {doc : Value} {pre name : String}

theorem decides_field {t : Test}
    (ht : ∃ b, t.passes (doc.lookup (relativeName pre name)).asList = .ok b) :
    (fields [(.str name, t)]).Decides doc pre := by
  obtain ⟨b, hb⟩ := ht
  have hvalues : doc.fieldValues pre (.str name) =
      .ok (doc.lookup (relativeName pre name)).asList := rfl
  exact ⟨b, by cases b <;> simp [holds, hvalues, hb]⟩

theorem decides_anyField {needle : Value} {names : List String}
    (hneedle : needle.isWritable = true) (hdoc : ∀ name ∈ names, doc.HasTexts pre name) :
    (anyField needle (names.map .str)).Decides doc pre := by
  rw [Decides, holds]
  refine exists_anyM fun f hf => ?_
  obtain ⟨name, hname, rfl⟩ := List.mem_map.mp hf
  exact exists_anyM fun v hv => exists_mentions (hdoc name hname v hv) hneedle

theorem Decides.nested {c : Condition} {path : String}
    (h : ∀ o ∈ doc.objectsAt pre path, c.Decides o (under path)) :
    (nested path c).Decides doc pre := by
  rw [Decides, holds]
  exact exists_anyM h

end Condition

/-- A predicate on the value of this query type can be held against documents; the type that takes
lists has to be given one. -/
def Value.Suits (v queryType : Value) : Prop :=
  queryType = .str "term" ∨ queryType = .str "match" ∨
    (queryType = .str "terms" ∧ ∃ kind xs, kind.isSet = false ∧ v = .seq kind xs)

/-- What a predicate of this query type compares by its text has one: the value and, in the document,
what is under the field. -/
def Value.Compares (doc : Value) (pre name : String) (v queryType : Value) : Prop :=
  queryType = .str "match" → (Condition.expected v).isWritable = true ∧ doc.HasTexts pre name

namespace Condition

open Call (nestedBody termBody)

theorem decides_termBody {doc v queryType : Value} {pre name : String} (h : v.Suits queryType)
    (hdoc : doc.Compares pre name v queryType) :
    (ofValue (termBody (.str name) v queryType)).Decides doc pre := by
  rcases h with rfl | rfl | ⟨rfl, kind, xs, hkind, rfl⟩
  · have hread : ofValue (termBody (.str name) v (.str "term")) =
        .fields [(.str name, .equals (expected v))] := by
      simp [termBody, ofValue, envelopeIn, leaf?, Value.hasField, Value.field?_word_cons, tests]
    exact hread ▸ decides_field ⟨_, rfl⟩
  · have hread : ofValue (termBody (.str name) v (.str "match")) =
        .fields [(.str name, .resembles (expected v))] := by
      simp [termBody, ofValue, envelopeIn, leaf?, Value.hasField, Value.field?_word_cons, tests]
    obtain ⟨hv, htexts⟩ := hdoc rfl
    exact hread ▸ decides_field (exists_anyM fun x hx => exists_mentions (htexts x hx) hv)
  · have hread : ofValue (termBody (.str name) (.seq kind xs) (.str "terms")) =
        .fields [(.str name, .among (.seq kind xs))] := by
      simp [termBody, ofValue, envelopeIn, leaf?, Value.hasField, Value.field?_word_cons, tests]
    refine hread ▸ decides_field (exists_anyM fun x _ => ?_)
    exact ⟨xs.any (· == x), by simp [Value.holds, hkind]⟩

theorem ofValue_multiMatch {needle : Value} (h : needle.isWritable = true) (fs : List Value) :
    ofValue (.object [("multi_match", .object [("query", needle), ("fields", .list fs)])]) =
      .anyField needle fs := by
  simp [Value.object, ofValue, envelopeIn, leaf?, multiMatch, Value.hasField, Value.fieldD,
    Value.field?_word_cons, Value.items, Value.written_of_isWritable h]

end Condition

namespace Call

/-- The call adds predicates that can be held against documents: fields and paths are texts, a value
suits its query type and can be copied, the operator or logic is in its table, and weights are whole
numbers. -/
def IsPredicate : Call → Prop
  | addWhere f v o t => (∃ name, f = .str name) ∧ v.copyable = true ∧
      (∃ m, Operator.resolve o = .ok (some m)) ∧ v.Suits t
  | keywords ks fs => (∃ xs, ks.oneOrMany = .ok (xs, none)) ∧
      ∃ names : List String, fs.oneOrMany = .ok (names.map .str)
  | whereNested p f v l t r => (∃ path, p = .str path) ∧ (∃ name, f = .str name) ∧
      v.copyable = true ∧ (∃ m, Logic.resolve l = .ok (some m)) ∧
        (t = .str "term" ∨ t = .str "match" ∨ t = .str "terms") ∧ ∃ w, r.weight = .int w
  | _ => False

/-- What the predicates of the call compare by its text has one, in the call and in the document. -/
def Compares (doc : Value) : Call → Prop
  | addWhere f v _ t => ∀ name, f = .str name → doc.Compares "" name v t
  | keywords ks fs => ∀ k ∈ ks.handed, k.isWritable = true ∧
      ∀ name, .str name ∈ oneOrMany fs → doc.HasTexts "" name
  | whereNested p f v _ t _ => ∀ path name, p = .str path → f = .str name →
      ∀ o ∈ doc.objectsAt "" path, ∀ x ∈ v.unroll, o.Compares (Condition.under path) name x t
  | _ => True

namespace IsPredicate

variable {c : Call}

theorem isPlain (h : c.IsPredicate) : c.IsPlain := by
  cases c with
  | addWhere f v o t =>
      obtain ⟨⟨name, rfl⟩, hcopy, -, ht⟩ := h
      rcases ht with rfl | rfl | ⟨rfl, -⟩ <;> exact ⟨rfl, rfl, hcopy⟩
  | keywords ks fs => trivial
  | whereNested p f v l t r =>
      obtain ⟨-, ⟨name, rfl⟩, hcopy, -, ht, -⟩ := h
      rcases ht with rfl | rfl | rfl <;> exact ⟨rfl, rfl, hcopy⟩
  | _ => exact h.elim

theorem accepted (h : c.IsPredicate) (b : Builder) : c.Accepted b := by
  cases c with
  | addWhere f v o t =>
      obtain ⟨-, -, ⟨m, hm⟩, -⟩ := h
      exact ⟨some (.operator m), by rw [Table.resolve, hm]; rfl, by simp⟩
  | keywords ks fs =>
      obtain ⟨hks, names, hfs⟩ := h
      exact ⟨⟨_, hfs⟩, hks⟩
  | whereNested p f v l t r =>
      obtain ⟨-, -, -, ⟨m, hm⟩, -⟩ := h
      exact ⟨some (.logic m), by rw [Table.resolve, hm]; rfl, by simp⟩
  | _ => exact h.elim

theorem decides (h : c.IsPredicate) {doc : Value} (hdoc : c.Compares doc) :
    ∀ v ∈ c.bodies, (Condition.ofValue v).Decides doc "" := by
  cases c with
  | addWhere f v o t =>
      obtain ⟨⟨name, rfl⟩, -, -, ht⟩ := h
      exact List.forall_mem_singleton.mpr (Condition.decides_termBody ht (hdoc name rfl))
  | keywords ks fs =>
      obtain ⟨-, names, hfs⟩ := h
      have hnames : oneOrMany fs = names.map .str := by
        rw [← oneOrMany_toOption, hfs]
        rfl
      intro v hv
      obtain ⟨k, hk, rfl⟩ := List.mem_map.mp hv
      obtain ⟨hneedle, htexts⟩ := hdoc k (handed_eq ks ▸ hk)
      rw [Condition.ofValue_multiMatch hneedle, hnames]
      refine Condition.decides_anyField hneedle fun name hname => htexts name ?_
      exact hnames ▸ List.mem_map_of_mem hname
  | whereNested p f v l t r =>
      obtain ⟨⟨path, rfl⟩, ⟨name, rfl⟩, -, -, ht, -⟩ := h
      intro body hbody
      obtain ⟨x, hx, rfl⟩ := List.mem_map.mp hbody
      rw [Condition.ofValue_nestedBody]
      refine Condition.Decides.nested fun o ho => ?_
      have hcompares := hdoc path name rfl rfl o ho x hx
      -- The type that takes lists gets a list of the one value.
      rcases ht with rfl | rfl | rfl
      · exact Condition.decides_termBody (Or.inl rfl) (by simp [Value.Compares])
      · exact Condition.decides_termBody (Or.inr (Or.inl rfl)) (by simpa using hcompares)
      · exact Condition.decides_termBody (Or.inr (Or.inr ⟨rfl, .list, [x], rfl, by simp⟩))
          (by simp [Value.Compares])
  | _ => exact h.elim

end IsPredicate

/-- The weights that the call registers denote numbers of this kind. -/
def WeighsIn (σ : Type) [Arithmetic σ] (c : Call) : Prop :=
  ∀ r, c.registration? = some r → ∃ x : σ, Arithmetic.ofValue r.weight = .ok x

theorem IsPredicate.weighsIn_rat {c : Call} (h : c.IsPredicate) : c.WeighsIn Rat := by
  intro r hr
  cases c with
  | whereNested p f v l t r =>
      obtain rfl := Option.some.inj hr
      obtain ⟨-, -, -, -, -, w, hw⟩ := h
      rw [hw]
      exact ⟨w, rfl⟩
  | addWhere f v o t => cases hr
  | keywords ks fs => cases hr
  | _ => exact h.elim

theorem exists_of_mem_weighted {c : Call} {f : Value} (h : f ∈ c.weighted) :
    ∃ r, c.registration? = some r ∧ ∃ b ∈ c.bodies,
      f = .object [("filter", b), ("weight", r.weight)] := by
  unfold weighted at h
  split at h
  · rename_i r _ hr
    split at h
    · obtain ⟨b, hb, rfl⟩ := List.mem_map.mp h
      exact ⟨r, hr, b, hb, rfl⟩
    · cases h
  · cases h

/-- A scoring function of a predicate weighs every document. -/
theorem IsPredicate.exists_weigh {σ : Type} [Arithmetic σ] {c : Call} (h : c.IsPredicate)
    (hw : c.WeighsIn σ) {doc : Value} (hdoc : c.Compares doc) : ∀ f ∈ c.weighted, ∃ w : Option σ,
      (ScoreFunction.ofValue f >>= ScoreFunction.weigh doc) = .ok w := by
  intro f hf
  obtain ⟨r, hr, b, hb, rfl⟩ := exists_of_mem_weighted hf
  obtain ⟨x, hx⟩ := hw r hr
  have hread : ScoreFunction.ofValue (.object [("filter", b), ("weight", r.weight)]) =
      .ok ⟨.ofValue b, r.weight⟩ := by
    simp [Value.object, ScoreFunction.ofValue, Value.fieldD, Value.field?_word_cons]
  have hholds := (h.decides hdoc b hb).holds_eq
  refine ⟨if Condition.answer doc b then some x else none, ?_⟩
  rw [hread, Except.ok_bind, ScoreFunction.weigh, hholds]
  cases Condition.answer doc b <;> simp [hx]

/-- The call leaves all parts of a search but its query to other calls. -/
structure AddsOnly (c : Call) : Prop where
  index : c.index? = none
  offset : c.offset? = none
  size : c.size? = none
  minimum : c.minimum? = none
  modes : c.modes? = none
  minScore : c.minScore? = none
  orders : c.orders = []
  replaces : ∀ g, c.replaces g = false

theorem IsPredicate.addsOnly {c : Call} (h : c.IsPredicate) : c.AddsOnly := by
  cases c with
  | addWhere f v o t => exact ⟨rfl, rfl, rfl, rfl, rfl, rfl, rfl, fun g => rfl⟩
  | keywords ks fs => exact ⟨rfl, rfl, rfl, rfl, rfl, rfl, rfl, fun g => rfl⟩
  | whereNested p f v l t r => exact ⟨rfl, rfl, rfl, rfl, rfl, rfl, rfl, fun g => rfl⟩
  | _ => exact h.elim

/-- The call adds no clauses, no orders and no threshold. -/
def isNeutral : Call → Bool
  | setIndex _ | limit _ | paginate _ _ | highlight _ _ | aggregate _ => true
  | minShouldMatch _ | functions _ _ => true
  | addWhere _ _ _ _ | whereNull _ _ | keywords _ _ | orderBy _ _ | minScore _ => false
  | whereNested _ _ _ _ _ _ | whereNestedRaw _ _ _ _ => false

/-- A neutral call contributes nothing to the groups, the functions, the orders and the threshold. -/
structure AddsNothing (c : Call) : Prop where
  weighted : c.weighted = []
  minScore : c.minScore? = none
  orders : c.orders = []
  placed : ∀ g, c.placed g = []
  replaces : ∀ g, c.replaces g = false

theorem addsNothing_of_isNeutral {c : Call} (h : c.isNeutral = true) : c.AddsNothing := by
  cases c <;> first | exact ⟨rfl, rfl, rfl, fun g => rfl, fun g => rfl⟩ | cases h

end Call

/-! ## Histories with predicates in the middle -/

namespace History

variable {before cs ds after : List Call}

/-- The groups of a history with the number of optional clauses that have to match. -/
def groups (cs : List Call) : Groups Value :=
  ⟨group .filter cs, group .must cs, group .mustNot cs, group .should cs,
    (last Call.minimum? cs).getD .null⟩

theorem get_groups (cs : List Call) (g : ClauseGroup) : (groups cs).get g = group g cs := by
  cases g <;> rfl

theorem boolean_eq_body (cs : List Call) : boolean cs = (groups cs).body := by
  rw [boolean, ← Document.Follows.minimum_entries]
  rfl

/-- The score that modes make of some weights. -/
def settled {σ : Type} [Arithmetic σ] (modes : Option (Value × Value)) (ws : List σ) : σ :=
  match modes with
  | none => Arithmetic.one
  | some (s, b) => ScoreRule.settle (ScoreRule.modeOf s) (b == .str "replace") ws

/-- The weights that the functions of a history have for a document. -/
def weights {σ : Type} [Arithmetic σ] (cs : List Call) (doc : Value) : List σ :=
  (cs.flatMap Call.weighted).filterMap fun f =>
    (ScoreFunction.ofValue f >>= ScoreFunction.weigh doc).toOption.getD none

theorem last_between {β : Type} {f : Call → Option β} (h : ∀ c ∈ cs, f c = none)
    (xs ys : List Call) : last f (xs ++ cs ++ ys) = last f (xs ++ ys) := by
  have hnil : cs.filterMap f = [] := List.filterMap_eq_nil_iff.mpr h
  simp only [last, List.filterMap_append, hnil, List.append_nil]

theorem last_append_of_none {β : Type} {f : Call → Option β} (h : ∀ c ∈ cs, f c = none)
    (ys : List Call) : last f (cs ++ ys) = last f ys := by
  have hnil : cs.filterMap f = [] := List.filterMap_eq_nil_iff.mpr h
  simp only [last, List.filterMap_append, hnil, List.nil_append]

theorem flatMap_between {β : Type} {f : Call → List β} (h : ∀ c ∈ before ++ after, f c = []) :
    (before ++ cs ++ after).flatMap f = cs.flatMap f := by
  have hbefore : before.flatMap f = [] :=
    List.flatMap_eq_nil_iff.mpr fun c hc => h c (List.mem_append_left after hc)
  have hafter : after.flatMap f = [] :=
    List.flatMap_eq_nil_iff.mpr fun c hc => h c (List.mem_append_right before hc)
  rw [List.flatMap_append, List.flatMap_append, hbefore, hafter, List.nil_append, List.append_nil]

section

variable (hothers : ∀ c ∈ before ++ after, c.isNeutral = true) (hcs : ∀ c ∈ cs, c.IsPredicate)

include hothers

theorem weighted_between :
    (before ++ cs ++ after).flatMap Call.weighted = cs.flatMap Call.weighted :=
  flatMap_between fun c hc => (Call.addsNothing_of_isNeutral (hothers c hc)).weighted

include hcs

theorem leaves_between {c : Call} (hc : c ∈ before ++ cs ++ after) :
    c.minScore? = none ∧ c.orders = [] ∧ ∀ g, c.replaces g = false := by
  have hcase : c ∈ before ++ after ∨ c ∈ cs := by
    simp only [List.mem_append] at hc ⊢
    tauto
  rcases hcase with hc | hc
  · have hnothing := Call.addsNothing_of_isNeutral (hothers c hc)
    exact ⟨hnothing.minScore, hnothing.orders, hnothing.replaces⟩
  · have honly := (hcs c hc).addsOnly
    exact ⟨honly.minScore, honly.orders, honly.replaces⟩

theorem group_between (g : ClauseGroup) :
    group g (before ++ cs ++ after) = cs.flatMap (Call.placed g) := by
  have hreplaces : (before ++ cs ++ after).any (Call.replaces g) = false := by
    refine List.any_eq_false.mpr fun c hc => ?_
    rw [(leaves_between hothers hcs hc).2.2 g]
    exact Bool.false_ne_true
  rw [group, since_of_any_eq_false hreplaces]
  exact flatMap_between fun c hc => (Call.addsNothing_of_isNeutral (hothers c hc)).placed g

end

/-! ## What a history finds -/

variable {σ : Type} [Arithmetic σ]

theorem holds_query {n : Int} {doc : Value}
    (hdecides : ∀ g, ∀ v ∈ group g cs, (Condition.ofValue v).Decides doc "")
    (hn : (groups cs).required = .ok n) :
    (Condition.ofValue (query cs)).holds doc "" =
      .ok ((groups cs).selects (Condition.answer doc) n) := by
  have hmap : (groups cs).map id = groups cs := by simp [Groups.map]
  have hbody := Groups.holds_body (g := groups cs) (v := id) (p := Condition.answer doc)
    (fun g v hv => (hdecides g v (get_groups cs g ▸ hv)).holds_eq) hn
  rw [hmap] at hbody
  rw [ofValue_query, boolean_eq_body]
  exact hbody

/-- Predicates that documents have to meet are held against them in their order. -/
theorem holds_query_of_required {cs : List Call} (hcs : ∀ c ∈ cs, c.IsPredicate)
    (htarget : ∀ c ∈ cs, c.target? = some .filter) (doc : Value) :
    (Condition.ofValue (query cs)).holds doc "" =
      Condition.allHold doc "" ((cs.flatMap Call.bodies).map .ofValue) := by
  have hplaced (g : ClauseGroup) (c : Call) (hc : c ∈ cs) :
      c.placed g = if g = .filter then c.bodies else [] := by
    rw [Call.placed, htarget c hc]
    cases g <;> rfl
  have hgroup (g : ClauseGroup) :
      group g cs = if g = .filter then cs.flatMap Call.bodies else [] := by
    have hall : group g cs = cs.flatMap (Call.placed g) := by
      simpa using @group_between [] cs [] (List.forall_mem_nil _) hcs g
    rw [hall, List.flatMap_congr (hplaced g)]
    split
    · rfl
    · exact List.flatMap_eq_nil_iff.mpr fun _ _ => rfl
  have hminimum : last Call.minimum? cs = none :=
    last_eq_none fun c hc => (hcs c hc).addsOnly.minimum
  have hgroups : groups cs = ⟨cs.flatMap Call.bodies, [], [], [], .null⟩ := by
    simp [groups, hgroup, hminimum]
  rw [ofValue_query, boolean_eq_body, hgroups, Groups.ofValue_body, Condition.holds]
  simp only [List.map_nil, Condition.allHold, Condition.someHolds, Condition.countHolding,
    Condition.enough]
  cases Condition.allHold doc "" ((cs.flatMap Call.bodies).map .ofValue) with
  | error e => rfl
  | ok b => cases b <;> rfl

theorem score_query {doc : Value} (hweigh : ∀ f ∈ cs.flatMap Call.weighted, ∃ w : Option σ,
      (ScoreFunction.ofValue f >>= ScoreFunction.weigh doc) = .ok w) :
    (ScoreRule.ofQuery (query cs)).score doc =
      .ok (settled (last Call.modes? cs) (weights cs doc : List σ)) := by
  rw [ofQuery_query]
  cases last Call.modes? cs with
  | none => rfl
  | some m =>
      refine ScoreRule.score_weighted ?_
      rw [ScoreRule.weights_eq_ok (w := fun f => (f >>= ScoreFunction.weigh doc).toOption.getD none),
        List.filterMap_map]
      · rfl
      · intro f hf
        obtain ⟨v, hv, rfl⟩ := List.mem_map.mp hf
        obtain ⟨w, hw⟩ := hweigh v hv
        rw [hw]
        rfl

section

variable (hothers : ∀ c ∈ before ++ after, c.isNeutral = true) (hcs : ∀ c ∈ cs, c.IsPredicate)

include hothers hcs

/-- The search finds the documents that the groups select, in the order of the index. -/
theorem hits_between (hw : ∀ c ∈ cs, c.WeighsIn σ) {n : Int}
    (hn : (groups (before ++ cs ++ after)).required = .ok n) {docs : List (Value × Value)}
    (hdocs : ∀ d ∈ docs, ∀ c ∈ cs, c.Compares d.2) :
    Search.hits docs (body (before ++ cs ++ after)) =
      .ok ((docs.filter fun d =>
          (groups (before ++ cs ++ after)).selects (Condition.answer d.2) n).map fun d =>
        (⟨d.1, d.2, settled (last Call.modes? (before ++ cs ++ after))
          (weights (before ++ cs ++ after) d.2)⟩ : Hit σ)) := by
  have hdecides : ∀ d ∈ docs, ∀ g, ∀ v ∈ group g (before ++ cs ++ after),
      (Condition.ofValue v).Decides d.2 "" := by
    intro d hd g v hv
    rw [group_between hothers hcs] at hv
    obtain ⟨c, hc, hv⟩ := List.mem_flatMap.mp hv
    unfold Call.placed at hv
    split at hv
    · exact (hcs c hc).decides (hdocs d hd c hc) v hv
    · cases hv
  have hweigh : ∀ d ∈ docs, ∀ f ∈ (before ++ cs ++ after).flatMap Call.weighted,
      ∃ w : Option σ, (ScoreFunction.ofValue f >>= ScoreFunction.weigh d.2) = .ok w := by
    intro d hd f hf
    rw [weighted_between hothers] at hf
    obtain ⟨c, hc, hf⟩ := List.mem_flatMap.mp hf
    exact (hcs c hc).exists_weigh (hw c hc) (hdocs d hd c hc) f hf
  have hscore : last Call.minScore? (before ++ cs ++ after) = none :=
    last_eq_none fun c hc => (leaves_between hothers hcs hc).1
  have horders : (before ++ cs ++ after).flatMap Call.orders = [] :=
    List.flatMap_eq_nil_iff.mpr fun c hc => (leaves_between hothers hcs hc).2.1
  rw [hits_body docs hscore, horders, Search.found_eq_ok
    (p := fun doc => (groups (before ++ cs ++ after)).selects (Condition.answer doc) n)
    (s := fun doc => settled (last Call.modes? (before ++ cs ++ after))
      (weights (before ++ cs ++ after) doc))
    (fun d hd => holds_query (hdecides d hd) hn) fun d hd => score_query (hweigh d hd)]
  rfl

end

end History

/-! ## What a search lists -/

namespace Search

variable {σ : Type}

/-- The items of a list from a position on, up to a number of them. -/
def part {α : Type} (start count : Value) (xs : List α) : Except Error (List α) := do
  checkSum start count
  let offset ← position start
  let size ← position count
  return slice xs offset (offset + size)

theorem map_part {α β : Type} (f : α → β) (start count : Value) (xs : List α) :
    (part start count xs).map (List.map f) = part start count (xs.map f) := by
  unfold part
  cases checkSum start count <;> cases position start <;> cases position count <;>
    simp [Except.map, map_slice]

/-- What an answer says apart from scores: how many hits there are, and which are listed. -/
def Answer.entries (a : Answer σ) : Nat × List (Value × Value) :=
  (a.total, a.listed.map Hit.entry)

end Search

namespace History

variable {σ : Type} [Arithmetic σ] {cs ds : List Call} {docs : List (Value × Value)}
  {hs hs' : List (Hit σ)}

theorem run_body (h : Search.hits docs (body cs) = .ok hs) :
    Search.run docs (body cs) =
      (Search.part ((last Call.offset? cs).getD (.int 0)) ((last Call.size? cs).getD (.int 10))
        hs).map (Search.Answer.mk hs.length) := by
  obtain ⟨es, hbody, hreads⟩ := exists_readsAs cs
  have hwindow : Search.window es hs = Search.part ((last Call.offset? cs).getD (.int 0))
      ((last Call.size? cs).getD (.int 10)) hs := by
    rw [← hreads.offset, ← hreads.size]
    rfl
  rw [Search.run, h, Except.ok_bind, hbody, Value.entries, Except.ok_bind, hwindow]
  cases Search.part ((last Call.offset? cs).getD (.int 0))
    ((last Call.size? cs).getD (.int 10)) hs <;> rfl

section

variable (hoffset : last Call.offset? cs = last Call.offset? ds)
  (hsize : last Call.size? cs = last Call.size? ds) (h : Search.hits docs (body cs) = .ok hs)
  (h' : Search.hits docs (body ds) = .ok hs')

include hoffset hsize h h'

theorem run_congr (heq : hs = hs') :
    (Search.run docs (body cs) : Except Error (Search.Answer σ)) = Search.run docs (body ds) := by
  rw [run_body h, run_body h', hoffset, hsize, heq]

theorem run_entries_congr (heq : hs.map Hit.entry = hs'.map Hit.entry) :
    (Search.run docs (body cs)).map (Search.Answer.entries (σ := σ)) =
      (Search.run docs (body ds)).map (Search.Answer.entries (σ := σ)) := by
  have hlength : hs.length = hs'.length := by simpa using congrArg List.length heq
  have hentries (start count : Value) (hs : List (Hit σ)) :
      ((Search.part start count hs).map (Search.Answer.mk hs.length)).map Search.Answer.entries =
        (Search.part start count (hs.map Hit.entry)).map (Prod.mk hs.length) := by
    rw [← Search.map_part]
    cases Search.part start count hs <;> rfl
  rw [run_body h, run_body h', hentries, hentries, hoffset, hsize, heq, hlength]

end

end History

end DocSearch
