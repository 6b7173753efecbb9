import DocSearch.Proofs.Builder.Wrapping
import DocSearch.Proofs.Builder.Directions
import DocSearch.Proofs.Search.Filtering

/-!
# Wrapping changes scores only

The search of a builder finds the documents that meet its query, leaves out those that score less
than its threshold and sorts the rest. An envelope is met by the documents that meet the query in it,
so wrapping changes no more than the scores, and with them the order only if hits are sorted by
scores. A threshold keeps those of the hits that reach it.
-/

namespace DocSearch

open DocSearch.Action

theorem Place.not_lt_iff (p q : Place) : p.lt q = false ↔ q.lt p = true ∨ q = p := by
  constructor
  · intro hpq
    cases hqp : q.lt p with
    | true => exact Or.inl rfl
    | false => exact Or.inr (Place.eq_of_not_lt hqp hpq)
  · rintro (hqp | rfl)
    · rw [← Bool.not_eq_true]
      intro hpq
      have hpp := Place.lt_trans hpq hqp
      rw [Place.lt_irrefl] at hpp
      cases hpp
    · exact Place.lt_irrefl q

theorem Arithmetic.atLeast_float (score least : Float) :
    Arithmetic.atLeast score least = (Number.float least).le (.float score) := by
  have hplace (x : Float) : Arithmetic.place? x = Number.floatPlace? x := rfl
  rw [Arithmetic.atLeast, Number.le, Number.lt, Number.eq, Number.place?, Number.place?, hplace,
    hplace]
  cases hscore : Number.floatPlace? score with
  | none => cases Number.floatPlace? least <;> rfl
  | some p =>
      cases hleast : Number.floatPlace? least with
      | none => rfl
      | some q =>
          rw [Bool.eq_iff_iff, Bool.not_eq_true', Place.not_lt_iff]
          simp

theorem Condition.ofValue_enveloped (q : Value) (fs : List Value) (s m : Value) :
    Condition.ofValue (.enveloped q fs s m) = Condition.ofValue q := by
  simp [Value.enveloped, Value.object, Condition.ofValue, Condition.envelopeIn,
    Condition.conditionIn_eq, Value.hasField, Value.field?_word_cons]

theorem Search.aboveThreshold_float (x : Float) (hs : List (Hit Float)) :
    aboveThreshold (.float x) hs = .ok (hs.filter fun h => Arithmetic.atLeast h.score x) := by
  cases hs <;> rfl

namespace Store

variable {index : Value} {es : List (Value × Value)}

theorem part_index : (request index es).part "index" = .ok index := by
  simp [request]

theorem part_body : (request index es).part "body" = .ok (.dict es) := by
  simp [request]

end Store

namespace Document

/-- The hits of the query, in the order of the index. -/
def found (d : Document) (docs : List (Value × Value)) : Except Error (List (Hit Float)) := do
  let query ← d.clause.render
  let _ ← d.highlightEntries
  let _ ← d.aggregationEntries
  Search.found (.ofValue query) (.ofQuery query) docs

theorem exists_frame {d : Document} {query : Value} {highlight aggregations : List (String × Value)}
    (hquery : d.clause.render = .ok query) (hh : d.highlightEntries = .ok highlight)
    (ha : d.aggregationEntries = .ok aggregations) :
    ∃ f, d.frame = .ok f ∧
      Value.fieldD (f.1 ++ f.2) "query" ScoreFunction.matchAll = query ∧
      Value.fieldD (f.1 ++ f.2) "min_score" .null = (d.minScore.map Value.float).getD .null := by
  have hshown := field?_highlight hh (by decide : "highlight" ≠ "min_score")
  have haggs := field?_aggregations ha (by decide : "aggs" ≠ "min_score")
  have hbound (k : String) (v : Option Value) := field?_optional k id v "min_score"
  simp only [id] at hbound
  refine ⟨_, by rw [frame, hquery, hh, ha]; rfl, ?_, ?_⟩
  · simp [Value.fieldD, Value.field?_word_cons]
  · simp [Value.fieldD, Value.field?_append, Value.field?_word_cons, Page.entries, Page.bound,
      hbound, field?_optional, hshown, haggs]

theorem entries_of_wrapped {d : Document} {t : Option ScoreSettings} {docs : List (Value × Value)}
    {hs hs' : List (Hit Float)} (hopen : d.isWrapped = false) (h : d.found docs = .ok hs)
    (h' : Document.found { d with envelope := t } docs = .ok hs') :
    hs.map Hit.entry = hs'.map Hit.entry := by
  have hnone : d.envelope = none := Option.isNone_iff_eq_none.mp (by simpa [isWrapped] using hopen)
  cases t with
  | none =>
      rw [← hnone] at h'
      rw [Except.ok.inj (h.symm.trans h')]
  | some t =>
      obtain ⟨query, hquery, h⟩ := Except.bind_eq_ok_iff.mp h
      obtain ⟨-, -, h⟩ := Except.bind_eq_ok_iff.mp h
      obtain ⟨-, -, h⟩ := Except.bind_eq_ok_iff.mp h
      obtain ⟨wrapped, hwrapped, h'⟩ := Except.bind_eq_ok_iff.mp h'
      obtain ⟨-, -, h'⟩ := Except.bind_eq_ok_iff.mp h'
      obtain ⟨-, -, h'⟩ := Except.bind_eq_ok_iff.mp h'
      have hclause : Document.clause { d with envelope := some t } =
          .functionScore d.clause d.draft.functions t := by
        simp only [clause, hnone]
      rw [hclause, Clause.render, hquery, Except.ok_bind] at hwrapped
      obtain ⟨fs, -, hwrapped⟩ := Except.bind_eq_ok_iff.mp hwrapped
      obtain rfl := Except.ok.inj hwrapped
      have hcondition := Condition.ofValue_enveloped query fs (.str t.scoreMode.word)
        (.str t.boostMode.word)
      rw [Value.enveloped] at hcondition
      rw [hcondition] at h'
      exact Search.found_entries h h'

end Document

namespace Builder

/-- All hits of the search that a builder compiles to, in order. -/
def hits (b : Builder) (st : Store) : Except Error (List (Hit Float)) := do
  let params ← b.params
  Search.hits (st.documents (← params.part "index")) (← params.part "body")

theorem hits_eq (b : Builder) (st : Store) :
    b.hits st = (do
      let hs ← b.document.found (st.documents b.document.index)
      let hs ← Search.aboveThreshold ((b.document.minScore.map Value.float).getD .null) hs
      Hit.sortBy (.list (b.document.sort.map fun o => .dict [o])) hs) := by
  rw [hits, params, Document.params_eq_frame, Document.found]
  cases hq : b.document.clause.render with
  | error e => simp [Document.frame, hq]
  | ok query =>
      cases hh : b.document.highlightEntries with
      | error e => simp [Document.frame, hq, hh]
      | ok highlight =>
          cases ha : b.document.aggregationEntries with
          | error e => simp [Document.frame, hq, hh, ha]
          | ok aggregations =>
              obtain ⟨f, hf, hquery, hleast⟩ := b.document.exists_frame hq hh ha
              simp only [hf, Except.ok_bind, Except.pure_eq, Store.part_index, Store.part_body,
                Search.hits_sortFields (Document.field?_sort_of_frame hf), Search.matching, hquery,
                hleast, bind_assoc]

/-- A response tells how many hits there are. -/
theorem exists_hits_of_listing {b : Builder} {st : Store} {l n : Value}
    (h : b.response st >>= Value.listing = .ok (l, n)) :
    ∃ hs, b.hits st = .ok hs ∧ n = .int hs.length := by
  obtain ⟨r, hr, hlisting⟩ := Except.bind_eq_ok_iff.mp h
  obtain ⟨params, hparams, hr⟩ := Except.bind_eq_ok_iff.mp hr
  have hframe := hparams
  rw [Builder.params, Document.params_eq_frame] at hframe
  obtain ⟨f, -, hframe⟩ := Except.bind_eq_ok_iff.mp hframe
  obtain rfl := Except.ok.inj hframe
  have hstore : st.listing b.document.index (f.1 ++ Search.sortFields b.document.sort ++ f.2) =
      .ok (l, n) := by
    rw [Store.listing, hr, Except.ok_bind, hlisting]
  obtain ⟨-, hs, w, hhits, -, hout⟩ := Store.listing_eq_ok_iff.mp hstore
  refine ⟨hs, ?_, (congrArg Prod.snd hout).symm⟩
  rw [hits, hparams, Except.ok_bind, Store.part_index, Store.part_body]
  exact hhits

theorem hits_eq_of_none {b : Builder} (h : b.document.minScore = none) (st : Store) :
    b.hits st = b.document.found (st.documents b.document.index) >>=
      Hit.sortBy (.list (b.document.sort.map fun o => .dict [o])) := by
  rw [hits_eq, h]
  rfl

theorem entry_mem_of_hits {b : Builder} {st : Store} {hs : List (Hit Float)}
    (hleast : b.document.minScore = none) (h : b.hits st = .ok hs) :
    ∀ hit ∈ hs, hit.entry ∈ st.documents b.document.index := by
  rw [hits_eq_of_none hleast] at h
  obtain ⟨all, hall, hsort⟩ := Except.bind_eq_ok_iff.mp h
  obtain ⟨query, -, hall⟩ := Except.bind_eq_ok_iff.mp hall
  obtain ⟨-, -, hall⟩ := Except.bind_eq_ok_iff.mp hall
  obtain ⟨-, -, hall⟩ := Except.bind_eq_ok_iff.mp hall
  obtain ⟨marked, rfl, hplaced⟩ := Search.found_placed hall
  intro hit hhit
  obtain ⟨e, he, rfl⟩ := List.mem_map.mp ((Hit.sortBy_perm hsort).mem_iff.mp hhit)
  exact List.mem_of_getElem? (hplaced.document e he)

/-- Wrapping leaves the hits what they are, in their order if they are not sorted by scores. -/
theorem entries_of_functions {b b' : Builder} {s m : Value} {st : Store} {hs hs' : List (Hit Float)}
    (hwrap : (Call.functions s m).apply.Returns b () b') (hleast : b.document.minScore = none)
    (h : b.hits st = .ok hs) (h' : b'.hits st = .ok hs') :
    (hs.map Hit.entry).Perm (hs'.map Hit.entry) ∧
      ((∀ o ∈ b.document.sort, o.1.word? ≠ some "_score") →
        Hit.Comparable b.document.sort hs → hs.map Hit.entry = hs'.map Hit.entry) := by
  obtain ⟨-, -, ⟨hopen, t, ht⟩, rfl⟩ := Call.returns_apply_iff.mp hwrap
  let wrapped : Builder := { b with document := (Call.functions s m).change b.document }
  have hwrapped := (hits_eq_of_none (b := wrapped) hleast st).symm.trans h'
  rw [hits_eq_of_none hleast] at h
  obtain ⟨all, hall, hsort⟩ := Except.bind_eq_ok_iff.mp h
  obtain ⟨all', hall', hsort'⟩ := Except.bind_eq_ok_iff.mp hwrapped
  have hentries := Document.entries_of_wrapped hopen hall hall'
  have hperm := (Hit.sortBy_perm hsort).map Hit.entry
  have hperm' := (Hit.sortBy_perm hsort').map Hit.entry
  refine ⟨hperm.trans (hentries ▸ hperm'.symm), fun hscore hnan => ?_⟩
  have hnan' := hnan.of_perm (Hit.sortBy_perm hsort)
  exact Hit.entries_of_sortBy hentries hnan' hscore hsort hsort'

/-- A threshold keeps the hits that reach it. -/
theorem hits_of_minScore {b : Builder} {v : Value} {x : Float} {st : Store} {hs : List (Hit Float)}
    (hopen : b.consumed = false) (hleast : b.document.minScore = none) (h : b.hits st = .ok hs)
    (hnan : Hit.Comparable b.document.sort hs) (hx : v.toFloat = .ok x) :
    ∃ b', (Call.minScore v).apply.Returns b () b' ∧
      b'.hits st = .ok (hs.filter fun h => (Number.float x).le (.float h.score)) := by
  have hscore : scoreOf v = .ok x := by rw [scoreOf, hx]
  refine ⟨_, Call.returns_apply_iff.mpr ⟨hopen, nofun, ⟨x, hscore⟩, rfl⟩, ?_⟩
  rw [hits_eq_of_none hleast] at h
  obtain ⟨all, hall, hsort⟩ := Except.bind_eq_ok_iff.mp h
  have hall' : ((Call.minScore v).change b.document).found (st.documents b.document.index) =
      .ok all := hall
  have hleast' : ((Call.minScore v).change b.document).minScore = some x := by
    rw [Call.change, hscore]
    rfl
  have hnan' := hnan.of_perm (Hit.sortBy_perm hsort)
  rw [hits_eq]
  refine (congrArg (· >>= _) hall').trans ?_
  rw [Except.ok_bind, hleast', Option.map_some, Option.getD_some, Search.aboveThreshold_float,
    Except.ok_bind]
  simp only [Arithmetic.atLeast_float]
  exact Hit.sortBy_filter hnan' hsort _

/-- An envelope leaves the hits and their number what they are, and their order too unless they are
sorted by scores. A threshold keeps the hits that score at least as much, in their order and with
their scores, whether the query is wrapped or not. -/
theorem hits_of_wrapping (st : Store) :
    (∀ (b b' : Builder) (s m : Value) (hs hs' : List (Hit Float)),
      (Call.functions s m).apply.Returns b () b' → b.document.minScore = none →
      b.hits st = .ok hs → b'.hits st = .ok hs' →
        (hs.map Hit.entry).Perm (hs'.map Hit.entry) ∧
        (∀ l n l' n', b.response st >>= Value.listing = .ok (l, n) →
          b'.response st >>= Value.listing = .ok (l', n') → n = .int hs.length ∧ n' = n) ∧
        ((∀ o ∈ b.document.sort, o.1.word? ≠ some "_score") →
          Hit.Comparable b.document.sort hs → hs.map Hit.entry = hs'.map Hit.entry)) ∧
    ∀ (b : Builder) (v : Value) (x : Float) (hs : List (Hit Float)),
      b.consumed = false → b.document.minScore = none → b.hits st = .ok hs →
      Hit.Comparable b.document.sort hs → v.toFloat = .ok x →
        ∃ b', (Call.minScore v).apply.Returns b () b' ∧
          b'.hits st = .ok (hs.filter fun h => (Number.float x).le (.float h.score)) := by
  constructor
  · intro b b' s m hs hs' hwrap hleast h h'
    obtain ⟨hperm, horder⟩ := entries_of_functions hwrap hleast h h'
    refine ⟨hperm, fun l n l' n' hlisting hlisting' => ?_, horder⟩
    obtain ⟨all, hall, rfl⟩ := exists_hits_of_listing hlisting
    obtain ⟨all', hall', rfl⟩ := exists_hits_of_listing hlisting'
    obtain rfl := Except.ok.inj (hall.symm.trans h)
    obtain rfl := Except.ok.inj (hall'.symm.trans h')
    have hlength := hperm.length_eq
    rw [List.length_map, List.length_map] at hlength
    exact ⟨rfl, by rw [hlength]⟩
  · intro b v x hs hopen hleast h hnan hx
    exact hits_of_minScore hopen hleast h hnan hx

theorem hits_of_wrapped_tags :
    let doc (price : Int) (tags : List String) : Value := .object [("price", .int price),
      ("tags", .list (tags.map fun t => .object [("name", .str t)]))]
    let docs := [(.str "1", doc 10 ["red"]), (.str "2", doc 30 ["red", "blue"]),
      (.str "3", doc 20 ["blue"])]
    let shop : Store := ⟨[(.str "shop", docs)], [], []⟩
    let tagged (tag logic : String) (weight : Int) : Call :=
      .whereNested (.str "tags") (.str "tags.name") (.str tag) (.str logic) (.str "term")
        ⟨.bool true, .int weight⟩
    let b := (Builder.new .raw true).runCalls [.setIndex (.str "shop"), tagged "red" "and" 2,
      tagged "blue" "or" 3, .orderBy (.object [("price", .str "desc")]) .null]
    let wrapped := b.runCalls [.functions (.str "sum") (.str "replace")]
    ∃ hs hs' b', (Call.functions (.str "sum") (.str "replace")).apply.Returns b () wrapped ∧
      b.hits shop = .ok hs ∧ wrapped.hits shop = .ok hs' ∧
      hs.map Hit.entry = hs'.map Hit.entry ∧
      (Call.minScore (.int 3)).apply.Returns wrapped () b' ∧
      b'.hits shop = .ok (hs'.filter fun h => (Number.float 3).le (.float h.score)) ∧
      (b'.hits shop).toOption.map (List.map fun h => (h.id.word?, Number.floatPlace? h.score)) =
        some [(some "2", some (.point 5))] := by
  intro doc docs shop tagged b wrapped
  obtain ⟨hs, hhits⟩ := Except.exists_of_isOk (by decide +kernel : (b.hits shop).isOk = true)
  obtain ⟨hs', hhits'⟩ :=
    Except.exists_of_isOk (by decide +kernel : (wrapped.hits shop).isOk = true)
  have hwrap : (Call.functions (.str "sum") (.str "replace")).apply.Returns b () wrapped :=
    ⟨rfl, rfl⟩
  have hprice (hit : Hit Float) (hentry : hit.entry ∈ shop.documents (.str "shop")) :
      ∃ n, hit.sortValue "price" = .int n := by
    have hdocs : shop.documents (.str "shop") = docs := by simp [shop, Store.documents]
    have hname : nameParts "price" = ["price"] := by decide
    have hlookup (n : Int) (tags : List String) : (doc n tags).lookup "price" = .int n := by
      simp [doc, Value.lookup, hname, Value.object, Value.fieldD, Value.field?_word_cons]
    rw [hdocs] at hentry
    simp only [docs, List.mem_cons, List.not_mem_nil, or_false] at hentry
    rcases hentry with h | h | h <;> obtain ⟨-, hdocument⟩ := Prod.mk.inj h
    all_goals exact ⟨_, (congrArg (Value.lookup · "price") hdocument).trans (hlookup _ _)⟩
  have hcomparable {c : Builder} {out : List (Hit Float)}
      (hsort : c.document.sort = b.document.sort) (hindex : c.document.index = .str "shop")
      (hleast : c.document.minScore = none) (h : c.hits shop = .ok out) :
      Hit.Comparable c.document.sort out := by
    intro hit hhit o ho field hfield
    have hentry := entry_mem_of_hits hleast h hit hhit
    rw [hindex] at hentry
    rw [hsort] at ho
    obtain rfl := List.mem_singleton.mp ho
    obtain rfl := Option.some.inj hfield
    obtain ⟨n, hn⟩ := hprice hit hentry
    rintro ⟨x, hx, -⟩
    cases hn.symm.trans hx
  obtain ⟨hfunctions, hthreshold⟩ := hits_of_wrapping shop
  obtain ⟨-, -, horder⟩ := hfunctions b wrapped _ _ hs hs' hwrap rfl hhits hhits'
  obtain ⟨b', hb', hkept⟩ := hthreshold wrapped (.int 3) 3 hs' rfl rfl hhits'
    (hcomparable rfl rfl rfl hhits') rfl
  have hscore : ∀ o ∈ b.document.sort, o.1.word? ≠ some "_score" :=
    List.forall_mem_singleton.mpr (by decide)
  have hsame := horder hscore (hcomparable rfl rfl rfl hhits)
  refine ⟨hs, hs', b', hwrap, hhits, hhits', hsame, hb', hkept, ?_⟩
  · obtain ⟨-, -, -, rfl⟩ := Call.returns_apply_iff.mp hb'
    decide +kernel

end Builder

end DocSearch
