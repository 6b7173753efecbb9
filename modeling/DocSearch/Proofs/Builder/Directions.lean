import DocSearch.Proofs.Builder.Searches
import DocSearch.Proofs.Search.Ordering

/-!
# How directions are read

A search reads the direction of a field from its text, so a mapping of options asks for the least
keys first whatever its options are. Two orders that read the same have the same responses in every
store, whatever else the builders are asked for; in particular a direction in a mapping does what
the word in it does unless that word asks for the greatest keys first.
-/

namespace DocSearch

open DocSearch.Action

/-! ## Sorting by what is read -/

namespace Hit

variable {σ : Type} [Arithmetic σ]

theorem falls_map (k : MapKind) (es : List (Value × Value)) : falls (.map k es) = false := by
  -- the text of a mapping starts with a brace, which stays a brace in lower case
  have htext : (Value.map k es).text = Value.quoted (.map .dict es) := by
    cases k <;> rfl
  have hquoted : (Value.quoted (.map .dict es)).toList = '\x7b' ::
      (Text.joinWith ", " (Value.quotedEntries es) ++ "\x7d").toList := by
    rw [Value.quoted, Value.brace, String.append_assoc, String.toList_append]
    rfl
  have hlow : Text.Case.lowerChar '\x7b' = ['\x7b'] := by decide
  unfold falls
  rw [beq_eq_false_iff_ne]
  intro h
  have hlist := congrArg String.toList h
  rw [Text.lower, String.toList_ofList, htext, hquoted, Text.Case.lowerFrom, if_neg (by decide),
    hlow] at hlist
  exact absurd (List.cons.inj hlist).1 (by decide)

/-- What a search reads of a field and its direction. -/
def reading (o : Value × Value) : Value × Except Error Bool := (o.1, descends o.2)

/-- Sorts by one field, the greatest keys first or last. -/
def sortByReading (r : Value × Except Error Bool) (hs : List (Hit σ)) :
    Except Error (List (Hit σ)) := do
  let falling ← r.2
  let keyed ← hs.mapM fun h => do return (← h.key r.1, h)
  return (arrange falling keyed).map (·.2)

theorem sortBy_eq_readings (os : List (Value × Value)) (hs : List (Hit σ)) :
    sortBy (.list (os.map fun o => .dict [o])) hs =
      (os.map reading).reverse.foldlM (fun hs r => sortByReading r hs) hs := by
  have hclause (o : Value × Value) (hs : List (Hit σ)) :
      sortByClause (.dict [o]) hs = sortByReading (reading o) hs := sortByClause_dict o hs
  rw [sortBy, ← List.map_reverse, List.foldlM_map]
  simp only [Value.itemsReversed, SeqKind.isSet, Bool.false_eq_true, if_false, Except.ok_bind,
    ← List.map_reverse, List.foldlM_map, hclause]

end Hit

namespace Search

variable {σ : Type} [Arithmetic σ] {docs pre post os ps : List (Value × Value)} {name : String}

def sortFields (os : List (Value × Value)) : List (Value × Value) :=
  (History.sortEntries os).map fun e => (.str e.1, e.2)

theorem field?_sortFields (hname : "sort" ≠ name) (os : List (Value × Value)) :
    Value.field? (sortFields os) name = none := by
  rw [sortFields, History.field?_sortEntries, if_neg fun h => hname h.1]

theorem hits_sortFields (hnone : Value.field? (pre ++ post) "sort" = none)
    (os : List (Value × Value)) :
    (hits docs (.dict (pre ++ sortFields os ++ post)) : Except Error (List (Hit σ))) =
      matching docs (pre ++ post) >>= Hit.sortBy (.list (os.map fun o => .dict [o])) := by
  have hsort : Value.fieldD (pre ++ sortFields os ++ post) "sort" (.list []) =
      .list (os.map fun o => .dict [o]) := by
    rw [Value.fieldD, Value.field?_inserted hnone, sortFields, History.field?_sortEntries]
    cases os <;> rfl
  rw [hits_dict, hsort, matching_insert (field?_sortFields (by decide) os)
    (field?_sortFields (by decide) os)]

omit [Arithmetic σ] in
theorem window_sortFields (os : List (Value × Value)) (hs : List (Hit σ)) :
    window (pre ++ sortFields os ++ post) hs = window (pre ++ post) hs :=
  window_insert (field?_sortFields (by decide) os) (field?_sortFields (by decide) os) hs

/-- A query without clauses finds all documents, with equal scores. -/
theorem matching_empty (docs : List (Value × Value)) :
    (matching docs [(.str "query", (Groups.empty : Groups Value).body)] :
      Except Error (List (Hit σ))) = .ok (docs.map fun d => ⟨d.1, d.2, Arithmetic.one⟩) := by
  have hholds (doc : Value) :
      (Condition.ofValue (Groups.empty : Groups Value).body).holds doc "" = .ok true :=
    @Groups.holds_body Value .empty id (fun _ => true) 1 doc "" (fun k => by cases k <;> nofun) rfl
  have hflat : ScoreRule.ofQuery (Groups.empty : Groups Value).body = .flat := by
    simp [Groups.body, Value.object, ScoreRule.ofQuery, Value.field?_word_cons]
  simp [matching, Value.fieldD, Value.field?_word_cons, hflat, found_all hholds, aboveThreshold,
    Value.isNull]

/-- Orders that read the same have the same answer. -/
theorem run_of_readings (hnone : Value.field? (pre ++ post) "sort" = none)
    (h : os.map Hit.reading = ps.map Hit.reading) :
    (run docs (.dict (pre ++ sortFields os ++ post)) : Except Error (Answer σ)) =
      run docs (.dict (pre ++ sortFields ps ++ post)) := by
  have hsorted (hs : List (Hit σ)) : Hit.sortBy (.list (os.map fun o => .dict [o])) hs =
      Hit.sortBy (.list (ps.map fun o => .dict [o])) hs := by
    rw [Hit.sortBy_eq_readings, Hit.sortBy_eq_readings, h]
  simp only [run, hits_sortFields hnone, Value.entries, Except.ok_bind, window_sortFields,
    funext hsorted]

end Search

/-! ## The search of a builder -/

theorem Value.copyableEntries_sortFields (os : List (Value × Value)) :
    copyableEntries (Search.sortFields os) = copyableEntries os := by
  have hlisted : (Value.list (os.map fun o => .dict [o])).copyable = copyableEntries os := by
    rw [Bool.eq_iff_iff, copyable_seq, copyableEntries_iff, List.forall_mem_map]
    simp [copyable_dict, copyableEntries]
  cases os with
  | nil => rfl
  | cons o os =>
      simpa [Search.sortFields, History.sortEntries, copyableEntries, copyable] using hlisted

namespace Document

/-- The entries of the compiled body in front of the sort clauses, and those behind them. -/
def frame (d : Document) : Except Error (List (Value × Value) × List (Value × Value)) := do
  let keyed (es : List (String × Value)) := es.map fun e => (Value.str e.1, e.2)
  let query ← d.clause.render
  let highlight ← d.highlightEntries
  let aggregations ← d.aggregationEntries
  return (keyed [("query", query)], keyed (d.page.entries
    ++ (d.minScore.map fun x => ("min_score", .float x)).toList
    ++ highlight ++ aggregations))

theorem params_eq_frame (d : Document) :
    d.params = do
      let f ← d.frame
      return Store.request d.index (f.1 ++ Search.sortFields d.sort ++ f.2) := by
  have hsort : d.sortEntries = History.sortEntries d.sort := rfl
  rw [params, body, parts, frame]
  cases d.clause.render with
  | error e => rfl
  | ok query =>
      cases d.highlightEntries with
      | error e => rfl
      | ok highlight =>
          cases d.aggregationEntries with
          | error e => rfl
          | ok aggregations =>
              simp [Except.map, Store.request, Value.object, Search.sortFields, hsort]

theorem field?_optional {α : Type} (k : String) (part : α → Value) (x : Option α) (name : String) :
    Value.field? (((x.map fun y => (k, part y)).toList).map fun e => (Value.str e.1, e.2)) name =
      if k = name then x.map part else none := by
  cases x with
  | none => exact (ite_self none).symm
  | some y => exact Value.field?_word_cons k (part y) [] name

theorem field?_highlight {d : Document} {es : List (String × Value)} {name : String}
    (h : d.highlightEntries = .ok es) (hname : "highlight" ≠ name) :
    Value.field? (es.map fun e => (Value.str e.1, e.2)) name = none := by
  unfold highlightEntries at h
  split at h
  · obtain rfl := Except.ok.inj h
    rfl
  · obtain ⟨v, -, rfl⟩ := Except.map_eq_ok_iff.mp h
    exact Value.field?_singleton_of_ne hname v

theorem field?_aggregations {d : Document} {es : List (String × Value)} {name : String}
    (h : d.aggregationEntries = .ok es) (hname : "aggs" ≠ name) :
    Value.field? (es.map fun e => (Value.str e.1, e.2)) name = none := by
  unfold aggregationEntries at h
  split at h
  · obtain rfl := Except.ok.inj h
    rfl
  · obtain ⟨v, -, rfl⟩ := Except.map_eq_ok_iff.mp h
    exact Value.field?_singleton_of_ne hname v

theorem field?_sort_of_frame {d : Document} {f : List (Value × Value) × List (Value × Value)}
    (h : d.frame = .ok f) : Value.field? (f.1 ++ f.2) "sort" = none := by
  obtain ⟨query, -, h⟩ := Except.bind_eq_ok_iff.mp h
  obtain ⟨highlight, hhighlight, h⟩ := Except.bind_eq_ok_iff.mp h
  obtain ⟨aggregations, haggregations, h⟩ := Except.bind_eq_ok_iff.mp h
  obtain rfl := Except.ok.inj h
  have hshown := field?_highlight hhighlight (by decide : "highlight" ≠ "sort")
  have haggs := field?_aggregations haggregations (by decide : "aggs" ≠ "sort")
  have hbound (k : String) (v : Option Value) := field?_optional k id v "sort"
  simp only [id] at hbound
  simp [Value.field?_append, Value.field?_word_cons, Page.entries, Page.bound, hbound,
    field?_optional, hshown, haggs]

end Document

namespace Call

def appended : Call → List (Value × Value)
  | orderBy o g => (Builder.ordersOf o g >>= Builder.directed).toOption.getD []
  | _ => []

/-- A call changes the order by what it appends, and the rest whatever the order is. -/
theorem change_sort (c : Call) (d : Document) (os : List (Value × Value)) :
    c.change { d with sort := os } = { c.change d with sort := os ++ c.appended } := by
  cases c with
  | addWhere f v o t =>
      rcases hr : Table.operator.resolve o with e | _ | s <;>
        simp [appended, Builder.addClause, hr]
  | keywords ks fs =>
      simp [appended, Builder.mentioning, foldl_addClause, Builder.changeGroups]
  | whereNested p f v l t r =>
      rcases hr : Table.logic.resolve l with e | _ | s <;> simp [appended, placeIn, hr]
  | whereNestedRaw p q l r =>
      rcases hr : Table.logic.resolve l with e | _ | s <;> simp [appended, placeIn, hr]
  | _ => simp [appended, Builder.changeGroups]

end Call

/-- What a store answers to the search that a builder compiles to. -/
def Builder.response (b : Builder) (st : Store) : Except Error Value := do
  ((Store.search (← b.params)).run st).result

/-- The two builders differ at most in their orders, and those read the same. -/
structure Builder.OrdersAs (b c : Builder) : Prop where
  readings : b.document.sort.map Hit.reading = c.document.sort.map Hit.reading
  copyable : Value.copyableEntries b.document.sort = Value.copyableEntries c.document.sort
  rest : b = { c with document := { c.document with sort := b.document.sort } }

/-- The response lists the hits of the query, sorted by the order. -/
theorem Builder.listing_response {b : Builder} {st : Store}
    {f : List (Value × Value) × List (Value × Value)} {hs out w : List (Hit Float)}
    (hf : b.document.frame = .ok f) (hkey : b.document.index.isKey = true)
    (hindex : b.document.index.copyable = true)
    (hcopyable : Value.copyableEntries (f.1 ++ b.document.sort ++ f.2) = true)
    (hmatching : Search.matching (st.documents b.document.index) (f.1 ++ f.2) = .ok hs)
    (hsorted : Hit.sortBy (.list (b.document.sort.map fun o => .dict [o])) hs = .ok out)
    (hwindow : Search.window (f.1 ++ f.2) out = .ok w) :
    b.response st >>= Value.listing =
      .ok (.list (w.map (Hit.toValue b.document.index)), .int out.length) := by
  have hresponse : b.response st >>= Value.listing =
      st.listing b.document.index (f.1 ++ Search.sortFields b.document.sort ++ f.2) := by
    rw [Builder.response, Builder.params, Document.params_eq_frame, hf]
    rfl
  rw [hresponse]
  refine Store.listing_eq_ok_iff.mpr ⟨⟨hindex, ?_, hkey⟩, out, w, ?_, ?_, rfl⟩
  · simpa only [Value.copyableEntries_append, Value.copyableEntries_sortFields] using hcopyable
  · rw [Search.hits_sortFields (Document.field?_sort_of_frame hf), hmatching]
    exact hsorted
  · rw [Search.window_sortFields, hwindow]

namespace Builder.OrdersAs

variable {b c b' : Builder} {call : Call} {calls : List Call}

theorem response (h : b.OrdersAs c) (st : Store) : b.response st = c.response st := by
  have hframe : b.document.frame = c.document.frame := by
    rw [h.rest]
    rfl
  have hindex : b.document.index = c.document.index := by rw [h.rest]
  rw [Builder.response, Builder.response, Builder.params, Builder.params,
    Document.params_eq_frame, Document.params_eq_frame, hframe, hindex]
  cases hf : c.document.frame with
  | error e => rfl
  | ok f =>
      have hnone := Document.field?_sort_of_frame hf
      have hcopyable : (Store.request c.document.index
          (f.1 ++ Search.sortFields b.document.sort ++ f.2)).copyable =
            (Store.request c.document.index
              (f.1 ++ Search.sortFields c.document.sort ++ f.2)).copyable := by
        rw [Bool.eq_iff_iff, Store.copyable_request, Store.copyable_request]
        simp only [Value.copyableEntries_append, Value.copyableEntries_sortFields, h.copyable]
      simp only [Except.ok_bind, Except.pure_eq, Store.result_search,
        Search.run_of_readings hnone h.readings, Value.copy, hcopyable]
      split <;> rfl

theorem change (h : b.OrdersAs c) :
    Builder.OrdersAs { b with document := call.change b.document }
      { c with document := call.change c.document } := by
  have hb : call.change b.document =
      { call.change c.document with sort := b.document.sort ++ call.appended } := by
    rw [← call.change_sort c.document]
    exact congrArg (fun u => call.change u.document) h.rest
  have hc : (call.change c.document).sort = c.document.sort ++ call.appended :=
    congrArg Document.sort (call.change_sort c.document c.document.sort)
  rw [hb]
  refine ⟨?_, ?_, ?_⟩
  · rw [hc, List.map_append, List.map_append, h.readings]
  · rw [hc, Value.copyableEntries_append, Value.copyableEntries_append, h.copyable]
  · rw [h.rest]

theorem returns (h : b.OrdersAs c) (hb : call.apply.Returns b () b') :
    ∃ c', call.apply.Returns c () c' ∧ b'.OrdersAs c' := by
  have hconsumed : b.consumed = c.consumed := by rw [h.rest]
  have hstrict : b.strict = c.strict := by rw [h.rest]
  have hwrapped : b.document.isWrapped = c.document.isWrapped := by rw [h.rest]; rfl
  have haggregations : b.document.aggregations = c.document.aggregations := by rw [h.rest]
  obtain ⟨rfl, hc⟩ := Call.returns_of_like hconsumed hstrict hwrapped haggregations hb
  exact ⟨_, hc, h.change⟩

/-- Whatever calls one builder takes, the other takes as well. -/
theorem run (h : b.OrdersAs c) (hb : (forM calls Call.apply).Returns b () b') :
    ∃ c', (forM calls Call.apply).Returns c () c' ∧ b'.OrdersAs c' :=
  Call.exists_related_run (fun _ _ _ _ h hb => h.returns hb) h hb

end Builder.OrdersAs

/-! ## Words and mappings -/

/-- A field to sort by with its direction, which is given as a word or in a mapping of some kind. -/
structure SortField where
  name : Value
  falling : Bool
  mapping : Option MapKind

namespace SortField

def word (f : SortField) : String := if f.falling then "desc" else "asc"

def given (f : SortField) : Value :=
  match f.mapping with
  | none => .str f.word
  | some k => .map k [(.str "order", .str f.word)]

def entry (f : SortField) : Value × Value := (f.name, f.given)

/-- The field with its direction as a word. -/
def plain (f : SortField) : SortField := { f with mapping := none }

/-- The field as a search reads it: only a word can ask for the greatest keys first. -/
def asRead (f : SortField) : SortField :=
  { f with falling := f.falling && f.mapping.isNone, mapping := none }

/-- A mapping does what the word in it does, unless it asks for the greatest keys first. -/
theorem map_asRead_eq_iff {fs : List SortField} :
    fs.map asRead = (fs.map plain).map asRead ↔
      ∀ f ∈ fs, f.mapping = none ∨ f.falling = false := by
  have hfield (f : SortField) :
      f.asRead = f.plain.asRead ↔ f.mapping = none ∨ f.falling = false := by
    obtain ⟨name, falling, mapping⟩ := f
    cases falling <;> cases mapping <;> simp [asRead, plain]
  rw [List.map_map, List.map_inj_left]
  exact forall₂_congr fun f _ => hfield f

theorem lower_word (f : SortField) : Text.lower f.word = f.word := by
  have hasc : Text.lower "asc" = "asc" := by decide +kernel
  have hdesc : Text.lower "desc" = "desc" := by decide +kernel
  unfold word
  split
  · exact hdesc
  · exact hasc

/-- Every spelling is accepted; a word stays what it is. -/
theorem direction_given (f : SortField) :
    Builder.direction f.given = .ok (Call.directionOf f.given) := by
  have hknown : Builder.directions.contains f.word = true := by
    unfold word
    split <;> decide
  unfold given
  cases f.mapping with
  | none => simp only [Builder.direction, Value.written_str, Except.ok_bind, f.lower_word, hknown,
      if_true, Except.pure_eq, Call.directionOf, Value.text_str]
  | some k => rfl

theorem directed_entries (fs : List SortField) :
    Builder.directed (fs.map entry) =
      .ok (fs.map fun f => (f.name, Call.directionOf f.given)) := by
  induction fs with
  | nil => rfl
  | cons f fs ih =>
      rw [List.map_cons, entry, Builder.directed, direction_given, ih]
      rfl

theorem isWritable_directionOf (f : SortField) :
    (Call.directionOf f.given).isWritable = true := by
  unfold given
  cases f.mapping <;> rfl

theorem falls_directionOf (f : SortField) :
    Hit.falls (Call.directionOf f.given) = (f.falling && f.mapping.isNone) := by
  unfold given
  cases f.mapping with
  | none =>
      simp only [Call.directionOf, Value.text_str, Hit.falls, word]
      cases f.falling <;> rfl
  | some k => simp [Call.directionOf, Hit.falls_map]

theorem descends_directionOf (f : SortField) :
    Hit.descends (Call.directionOf f.given) = .ok (f.falling && f.mapping.isNone) := by
  rw [Hit.descends_eq_ok f.isWritable_directionOf, f.falls_directionOf]

theorem copyable_directionOf (f : SortField) :
    (Call.directionOf f.given).copyable = true := by
  unfold given
  cases f.mapping <;> rfl

end SortField

namespace Builder

variable {b : Builder} {fs gs : List SortField} {o g o' g' : Value}

theorem returns_orderBy_fields (hopen : b.consumed = false)
    (ho : ordersOf o g = .ok (fs.map SortField.entry)) :
    (Call.orderBy o g).apply.Returns b () { b with document := { b.document with
      sort := b.document.sort ++ fs.map fun f => (f.name, Call.directionOf f.given) } } := by
  have hdirected : (ordersOf o g >>= directed) =
      .ok (fs.map fun f => (f.name, Call.directionOf f.given)) := by
    rw [ho, Except.ok_bind, SortField.directed_entries]
  refine Call.returns_apply_iff.mpr ⟨hopen, nofun, ⟨_, hdirected⟩, ?_⟩
  simp only [Call.change, hdirected, Except.toOption_ok, Option.getD_some]

theorem ordersAs_of_asRead (h : fs.map SortField.asRead = gs.map SortField.asRead) :
    OrdersAs
      { b with document := { b.document with
        sort := b.document.sort ++ fs.map fun f => (f.name, Call.directionOf f.given) } }
      { b with document := { b.document with
        sort := b.document.sort ++ gs.map fun f => (f.name, Call.directionOf f.given) } } := by
  have hread (fs : List SortField) :
      (fs.map fun f => (f.name, Call.directionOf f.given)).map Hit.reading =
        (fs.map SortField.asRead).map fun f => (f.name, .ok f.falling) := by
    simp [Hit.reading, SortField.descends_directionOf, SortField.asRead]
  have hcopyable (fs : List SortField) :
      Value.copyableEntries (fs.map fun f => (f.name, Call.directionOf f.given)) =
        (fs.map SortField.asRead).all fun f => f.name.copyable := by
    induction fs with
    | nil => rfl
    | cons f fs ih =>
        simp [Value.copyableEntries, ih, SortField.copyable_directionOf, SortField.asRead]
  refine ⟨?_, ?_, rfl⟩
  · rw [List.map_append, List.map_append, hread, hread, h]
  · rw [Value.copyableEntries_append, Value.copyableEntries_append, hcopyable, hcopyable, h]

/-- Fields to sort by in two spellings that read the same: the builder takes both, and whatever
follows, every store answers both searches alike. -/
theorem responses_of_spellings (hopen : b.consumed = false)
    (ho : ordersOf o g = .ok (fs.map SortField.entry))
    (ho' : ordersOf o' g' = .ok (gs.map SortField.entry))
    (h : fs.map SortField.asRead = gs.map SortField.asRead) :
    ∃ b₁ b₂, (Call.orderBy o g).apply.Returns b () b₁ ∧
      (Call.orderBy o' g').apply.Returns b () b₂ ∧
      ∀ (calls : List Call) c₁, (forM calls Call.apply).Returns b₁ () c₁ →
        ∃ c₂, (forM calls Call.apply).Returns b₂ () c₂ ∧
          ∀ st, c₁.response st = c₂.response st := by
  refine ⟨_, _, returns_orderBy_fields hopen ho, returns_orderBy_fields hopen ho', ?_⟩
  intro calls c₁ hrun
  obtain ⟨c₂, hc₂, horders⟩ := (ordersAs_of_asRead h).run hrun
  exact ⟨c₂, hc₂, horders.response⟩

/-- The word for the least keys first does the same in a mapping and out of it. -/
theorem responses_of_two_spellings :
    let b : Builder := .new .raw false
    let mapped : Value :=
      .object [("n", .object [("order", .str "asc")]), ("name", .str "desc")]
    let plain : Value := .object [("n", .str "asc"), ("name", .str "desc")]
    ∃ b₁ b₂, (Call.orderBy mapped .null).apply.Returns b () b₁ ∧
      (Call.orderBy plain .null).apply.Returns b () b₂ ∧
      ∀ (calls : List Call) c₁, (forM calls Call.apply).Returns b₁ () c₁ →
        ∃ c₂, (forM calls Call.apply).Returns b₂ () c₂ ∧
          ∀ st, c₁.response st = c₂.response st := by
  intro b mapped plain
  let fs : List SortField := [⟨.str "n", false, some .dict⟩, ⟨.str "name", true, none⟩]
  have hread : ∀ f ∈ fs, f.mapping = none ∨ f.falling = false := by simp [fs]
  have ho : ordersOf mapped .null = .ok (fs.map SortField.entry) := rfl
  have ho' : ordersOf plain .null = .ok ((fs.map SortField.plain).map SortField.entry) := rfl
  exact responses_of_spellings rfl ho ho' (SortField.map_asRead_eq_iff.mpr hread)

/-- A mapping that asks for the greatest keys first gets the least ones first. -/
theorem mapped_direction_ascends :
    let doc (n : Int) : Value := .object [("n", .int n)]
    let shop : Store := ⟨[(.str "shop", [(.str "a", doc 1), (.str "b", doc 2)])], [], []⟩
    let opened : Builder := ⟨.raw, false, { Document.empty with index := .str "shop" }, false⟩
    let hit (id : String) (n : Int) : Value :=
      Hit.toValue (.str "shop") ⟨.str id, doc n, Arithmetic.one⟩
    ∃ b₁ b₂,
      (Call.orderBy (.object [("n", .str "desc")]) .null).apply.Returns opened () b₁ ∧
      (Call.orderBy (.object [("n", .object [("order", .str "desc")])]) .null).apply.Returns
        opened () b₂ ∧
      b₁.response shop >>= Value.listing = .ok (.list [hit "b" 2, hit "a" 1], .int 2) ∧
      b₂.response shop >>= Value.listing = .ok (.list [hit "a" 1, hit "b" 2], .int 2) := by
  intro doc shop opened hit
  let field (m : Option MapKind) : SortField := ⟨.str "n", true, m⟩
  have ho (m : Option MapKind) : ordersOf (.object [("n", (field m).given)]) .null =
      .ok ([field m].map SortField.entry) := rfl
  let ordered (v : Value) : Builder :=
    { opened with document := { opened.document with sort := [(.str "n", v)] } }
  let query : Value := (Groups.empty : Groups Value).body
  let found (id : String) (n : Int) : Hit Float := ⟨.str id, doc n, Arithmetic.one⟩
  have hkey (id : String) (n : Int) : (found id n).key (.str "n") = .ok (.standing (.int n)) := by
    have hn : nameParts "n" = ["n"] := by decide
    have hvalue : (found id n).sortValue "n" = .int n := by
      simp [found, doc, Hit.sortValue, Value.lookup, hn, Value.object, Value.fieldD,
        Value.field?_word_cons]
    have hsortable : ((found id n).sortValue "n").IsSortable := hvalue.symm ▸ Value.isSortable_of_number rfl
    have hsorts : (found id n).document.SortsBy (.str "n") :=
      Value.sortsBy_str.mpr (Or.inr hsortable)
    rw [Hit.key_str hsorts, hvalue]
  have hlisted {v : Value} (hv : v.copyable = true) (hwritable : v.isWritable = true) :
      (ordered v).response shop >>= Value.listing =
        .ok (if Hit.falls v then (.list [hit "b" 2, hit "a" 1], .int 2)
          else (.list [hit "a" 1, hit "b" 2], .int 2)) := by
    have hframe : opened.document.frame = .ok ([(.str "query", query)], []) := rfl
    have hquery : query.copyable = true := rfl
    have hmatching : Search.matching (shop.documents (.str "shop")) [(.str "query", query)] =
        .ok [found "a" 1, found "b" 2] := by
      simp [shop, Store.documents, query, Search.matching_empty, found]
    have hcopyable : Value.copyableEntries
        ([(.str "query", query)] ++ (ordered v).document.sort ++ []) = true := by
      have hname (name : String) : (Value.str name).copyable = true := rfl
      simp [ordered, Value.copyableEntries, hname, hquery, hv]
    have hsorted := Hit.sortBy_pair (v := v) (hkey "a" 1) (hkey "b" 2) rfl rfl (by decide +kernel)
      hwritable
    have hwindow (x y : Hit Float) :
        Search.window [(.str "query", query)] [x, y] = .ok [x, y] :=
      Search.window_default (Value.field?_singleton_of_ne (by decide) _)
        (Value.field?_singleton_of_ne (by decide) _) [x, y]
    have hlisting {x y : Hit Float} (hxy : Hit.sortBy (.list [.dict [(.str "n", v)]])
        [found "a" 1, found "b" 2] = .ok [x, y]) :
        (ordered v).response shop >>= Value.listing =
          .ok (.list ([x, y].map (Hit.toValue (.str "shop"))), .int 2) :=
      Builder.listing_response (b := ordered v) hframe rfl rfl hcopyable hmatching hxy (hwindow x y)
    cases hv' : Hit.falls v with
    | true =>
        rw [hv'] at hsorted
        rw [hlisting hsorted]
        rfl
    | false =>
        rw [hv'] at hsorted
        rw [hlisting hsorted]
        rfl
  refine ⟨_, _, returns_orderBy_fields rfl (ho none), returns_orderBy_fields rfl (ho (some .dict)),
    ?_, ?_⟩
  · refine (hlisted (SortField.copyable_directionOf (field none))
      (SortField.isWritable_directionOf (field none))).trans ?_
    rw [SortField.falls_directionOf]
    rfl
  · refine (hlisted (SortField.copyable_directionOf (field (some .dict)))
      (SortField.isWritable_directionOf (field (some .dict)))).trans ?_
    rw [SortField.falls_directionOf]
    rfl

end Builder

end DocSearch
