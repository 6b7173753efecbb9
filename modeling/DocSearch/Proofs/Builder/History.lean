import DocSearch.Builder.Call

/-!
# Histories of calls

What a sequence of calls compiles to, told from the calls alone. Each call makes its contribution to
each part of the document, and every part has a rule of its own: the last contribution counts, or
all of them in order, or in a group of clauses those since the group was last replaced.
-/

namespace DocSearch

namespace Call

def index? : Call → Option Value
  | setIndex i => some i
  | _ => none

def offset? : Call → Option Value
  | paginate s p => (Page.skipped s p).toOption
  | _ => none

def size? : Call → Option Value
  | limit s => some s
  | paginate s _ => some s
  | _ => none

def minimum? : Call → Option Value
  | minShouldMatch n => some n
  | _ => none

def modes? : Call → Option (Value × Value)
  | functions s b => some (s, b)
  | _ => none

def minScore? : Call → Option Float
  | minScore s => s.toFloat.toOption
  | _ => none

def highlight? : Call → Option Value
  | highlight fs c =>
    (Builder.fieldNames fs).toOption.bind fun names => (Highlight.toValue ⟨names, c⟩).toOption
  | _ => none

def aggregations : Call → List (Value × Value)
  | aggregate ns => (Aggregation.documentOf ns).toOption.getD []
  | _ => []

/-- A direction in lower case; a mapping is a direction with options. -/
def directionOf : Value → Value
  | .map _ es => .dict es
  | v => .str (Text.lower v.text)

/-- The fields of an order with the directions as they are given. -/
def givenOrders (orders direction : Value) : List (Value × Value) :=
  match orders with
  | .null => [(.str "id", .str "desc")]
  | .map _ es => es
  | name => [(name, direction)]

def orders : Call → List (Value × Value)
  | orderBy o g => (givenOrders o g).map fun e => (e.1, directionOf e.2)
  | _ => []

/-- The group that clauses are placed in; an unknown operator or logic names none. -/
def target? : Call → Option ClauseGroup
  | addWhere _ _ o _ => (Operator.resolve o).toOption.join.map Operator.group
  | whereNull _ n => some (if n.truthy then .mustNot else .must)
  | keywords _ _ => some .must
  | whereNested _ _ _ l _ _ => (Logic.resolve l).toOption.join.map Logic.group
  | whereNestedRaw _ _ l _ => (Logic.resolve l).toOption.join.map Logic.group
  | _ => none

/-- Whether the clauses of the call take the place of all clauses in the group. -/
def replaces (g : ClauseGroup) : Call → Bool
  | whereNull _ n => (if n.truthy then .mustNot else .must) = g
  | _ => false

/-- A text alone, or the items. -/
def oneOrMany (v : Value) : List Value :=
  if v.word?.isSome then [v] else v.items.toOption.getD []

def keywordsOf : Iterable → List Value
  | .value v => oneOrMany v
  | .source xs _ _ => xs

def termBody (field value queryType : Value) : Value :=
  .dict [(queryType, .dict [(field, value)])]

def nestedBody (path inner : Value) : Value :=
  .object [("nested", .object [("path", path), ("query", inner)])]

/-- The bodies of the clauses that the call adds, one for each value that it unrolls. -/
def bodies : Call → List Value
  | addWhere f v _ t => [termBody f v t]
  | whereNull f _ => [.object [("exists", .object [("field", f)])]]
  | keywords ks fs =>
    (keywordsOf ks).map fun k =>
      .object [("multi_match", .object [("query", k), ("fields", .list (oneOrMany fs))])]
  | whereNested p f v _ t _ =>
    v.unroll.map fun x => nestedBody p (termBody f (if t == .str "terms" then .list [x] else x) t)
  | whereNestedRaw p q _ _ => q.unroll.map (nestedBody p)
  | _ => []

def registration? : Call → Option Registration
  | whereNested _ _ _ _ _ r => some r
  | whereNestedRaw _ _ _ r => some r
  | _ => none

/-- The bodies that the call places in a group. -/
def placed (g : ClauseGroup) (c : Call) : List Value :=
  if c.target? = some g then c.bodies else []

def weighted (c : Call) : List Value :=
  match c.target?, c.registration? with
  | some _, some r =>
    if r.asFunction.truthy then
      c.bodies.map fun b => .object [("filter", b), ("weight", r.weight)]
    else []
  | _, _ => []

/-- Names of fields and query types can be keys, the class of a highlight has a text, and what a body
takes over can be copied: texts and plain data always do. Clauses that were built before are not plain
data. -/
def IsPlain : Call → Prop
  | addWhere f v _ t => f.isKey = true ∧ t.isKey = true ∧ v.copyable = true
  | whereNested _ f v _ t _ => f.isKey = true ∧ t.isKey = true ∧ v.copyable = true
  | whereNestedRaw _ q _ _ => ∀ b ∈ q.unroll, b.copyable = true ∧ ∀ k fs, b ≠ .record k fs
  | aggregate ns => ns.copyable = true
  | highlight _ c => c.isWritable = true
  | _ => True

end Call

namespace History

variable {α β : Type}

def last (f : α → Option β) (cs : List α) : Option β :=
  (cs.filterMap f).getLast?

/-- The calls from the last one with the property on, and all of them if there is none. -/
def since (p : α → Bool) : List α → List α
  | [] => []
  | c :: cs => if cs.any p then since p cs else c :: cs

theorem last_append_singleton (f : α → Option β) (cs : List α) (c : α) :
    last f (cs ++ [c]) = (f c).or (last f cs) := by
  unfold last
  rw [List.filterMap_append]
  cases h : f c with
  | none => simp [h]
  | some x => simp [h]

theorem last_isSome_iff {f : α → Option β} {cs : List α} :
    (last f cs).isSome ↔ ∃ c ∈ cs, (f c).isSome := by
  rw [last, List.getLast?_isSome, Ne, List.filterMap_eq_nil_iff]
  simp [Option.isSome_iff_ne_none]

theorem exists_of_last {f : α → Option β} {cs : List α} {x : β} (h : last f cs = some x) :
    ∃ c ∈ cs, f c = some x :=
  List.mem_filterMap.mp (List.mem_of_getLast? h)

theorem since_append_singleton (p : α → Bool) (cs : List α) (c : α) :
    since p (cs ++ [c]) = (if p c then [] else since p cs) ++ [c] := by
  induction cs with
  | nil => simp [since]
  | cons d cs ih =>
      cases hc : p c with
      | true => simp [since, ih, hc]
      | false =>
          simp only [List.cons_append, since, ih, hc, List.any_append, List.any_cons, List.any_nil,
            Bool.or_false, Bool.false_eq_true, if_false]
          split <;> rfl

/-- The clauses of a group: those placed in it since it was last replaced. -/
def group (g : ClauseGroup) (cs : List Call) : List Value :=
  (since (Call.replaces g) cs).flatMap (Call.placed g)

theorem group_append_singleton (g : ClauseGroup) (cs : List Call) (c : Call) :
    group g (cs ++ [c]) = (if c.replaces g then [] else group g cs) ++ c.placed g := by
  unfold group
  rw [since_append_singleton, List.flatMap_append, List.flatMap_singleton]
  cases c.replaces g <;> rfl

/-- An entry that is there if its value is. -/
def entry? (name : String) (v : Option Value) : List (String × Value) :=
  (v.map fun v => (name, v)).toList

/-- A value that counts as missing if it is null. -/
def notNull : Option Value → Option Value
  | some .null => none
  | v => v

def boolean (cs : List Call) : Value :=
  .object [("bool", .object
    ([("filter", .list (group .filter cs)), ("must", .list (group .must cs)),
      ("must_not", .list (group .mustNot cs)), ("should", .list (group .should cs))]
      ++ entry? "minimum_should_match" (notNull (last Call.minimum? cs))))]

/-- The boolean query, in an envelope with all registered functions once it is wrapped. -/
def query (cs : List Call) : Value :=
  match last Call.modes? cs with
  | none => boolean cs
  | some (scoreMode, boostMode) =>
    .object [("function_score", .object
      [("query", boolean cs), ("functions", .list (cs.flatMap Call.weighted)),
        ("score_mode", scoreMode), ("boost_mode", boostMode)])]

def sortEntries (os : List (Value × Value)) : List (String × Value) :=
  if os.isEmpty then [] else [("sort", .list (os.map fun o => .dict [o]))]

def aggregationEntries (es : List (Value × Value)) : List (String × Value) :=
  if es.isEmpty then [] else [("aggs", .dict es)]

def body (cs : List Call) : Value :=
  .object ([("query", query cs)] ++ sortEntries (cs.flatMap Call.orders)
    ++ entry? "from" (last Call.offset? cs) ++ entry? "size" (last Call.size? cs)
    ++ entry? "min_score" ((last Call.minScore? cs).map .float)
    ++ entry? "highlight" (last Call.highlight? cs)
    ++ aggregationEntries (Entries.ofList (cs.flatMap Call.aggregations)))

def params (cs : List Call) : Value :=
  .object [("index", (last Call.index? cs).getD (.str "")), ("body", body cs)]

end History

end DocSearch
