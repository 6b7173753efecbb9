import DocSearch.Proofs.Action.Outcomes
import DocSearch.Proofs.Search.Nested

/-!
# Names in full

Inside a nested query a name may be written relative to its path or in full. A query in which every
name and every inner path is written out in full is met by the same documents, to any depth, as long
as no relative name happens to start with the path that it is written under.
-/

namespace DocSearch

open Condition (under)

/-! ## Names under a path -/

theorem relativeName_under (path name : String) :
    relativeName (under path) (under path ++ name) = name := by
  simp [relativeName, Text.dropPrefix?]

namespace Value

/-- The name written out under a path; only texts are names. -/
def fullName (path : String) (name : Value) : Value :=
  match name.word? with
  | some s => .str (under path ++ s)
  | none => name

theorem word?_fullName (path : String) (name : Value) :
    (name.fullName path).word? = name.word?.map (under path ++ ·) := by
  unfold fullName
  cases hs : name.word? with
  | none => exact hs
  | some s => rfl

/-- The name does not start with the path, so it cannot be taken for a name in full. -/
def IsRelative (path : String) (name : Value) : Prop :=
  ∀ s, name.word? = some s → ¬ (under path).toList <+: s.toList

def IsAbsolute (path : String) (name : Value) : Prop :=
  ∀ s, name.word? = some s → (under path).toList <+: s.toList

theorem isAbsolute_under (path s : String) : (Value.str (under path ++ s)).IsAbsolute path := by
  intro t ht
  obtain rfl := Option.some.inj ht
  rw [String.toList_append]
  exact List.prefix_append _ _

theorem isAbsolute_fullName (path : String) (name : Value) :
    (name.fullName path).IsAbsolute path := by
  intro t ht
  rw [word?_fullName, Option.map_eq_some_iff] at ht
  obtain ⟨s, -, rfl⟩ := ht
  exact isAbsolute_under path s _ rfl

theorem relativeName_of_isRelative {path s : String} (h : (Value.str s).IsRelative path) :
    relativeName (under path) s = s := by
  have hnot : (under path).toList.isPrefixOf s.toList = false := by
    rw [Bool.eq_false_iff, ne_eq, List.isPrefixOf_iff_prefix]
    exact h s rfl
  simp [relativeName, Text.dropPrefix?, hnot]

variable {written : String} (full : String) (doc : Value)

theorem fieldValues_fullName {name : Value} (h : name.IsRelative written) :
    doc.fieldValues (under full) (name.fullName full) = doc.fieldValues (under written) name := by
  unfold fieldValues
  rw [word?_fullName]
  cases hs : name.word? with
  | none => rfl
  | some s =>
      have hrelative : relativeName (under written) s = s :=
        relativeName_of_isRelative fun t ht => h t (hs.trans ht)
      simp only [Option.map_some, relativeName_under, hrelative]

theorem objectsAt_inFull {path : String} (h : (Value.str path).IsRelative written) :
    doc.objectsAt (under full) (under full ++ path) = doc.objectsAt (under written) path := by
  rw [objectsAt, objectsAt, relativeName_under, relativeName_of_isRelative h]

end Value

/-! ## Conditions in full -/

namespace Condition

mutual

/-- The condition inside a path with every name in it written out. -/
def inFull (path : String) : Condition → Condition
  | .fields ts => .fields (ts.map fun t => (t.1.fullName path, t.2))
  | .anyField needle fs => .anyField needle (fs.map (Value.fullName path))
  | .present f => .present (f.fullName path)
  | .nested p c => .nested (under path ++ p) (inFull (under path ++ p) c)
  | .bool m f n s required =>
    .bool (allInFull path m) (allInFull path f) (allInFull path n) (allInFull path s) required
  | .all => .all
  | .fault e => .fault e

def allInFull (path : String) : List Condition → List Condition
  | [] => []
  | c :: cs => inFull path c :: allInFull path cs

end

theorem allInFull_eq_map (path : String) (cs : List Condition) :
    allInFull path cs = cs.map (inFull path) := by
  induction cs with
  | nil => rfl
  | cons c cs ih => rw [allInFull, List.map_cons, ih]

/-- What is said of a name and the path it is written under holds of all names in the condition. The
conditions inside a nested one are under its path as it is written. -/
inductive Naming (P : String → Value → Prop) : String → Condition → Prop
  | all {path : String} : Naming P path .all
  | fault {path : String} {e : Error} : Naming P path (.fault e)
  | fields {path : String} {ts : List (Value × Test)} (names : ∀ t ∈ ts, P path t.1) :
    Naming P path (.fields ts)
  | anyField {path : String} {needle : Value} {fs : List Value} (names : ∀ f ∈ fs, P path f) :
    Naming P path (.anyField needle fs)
  | present {path : String} {f : Value} (name : P path f) : Naming P path (.present f)
  | nested {path p : String} {c : Condition} (name : P path (.str p)) (inner : Naming P p c) :
    Naming P path (.nested p c)
  | bool {path : String} {m f n s : List Condition} {required : Except Error Int}
    (must : ∀ c ∈ m, Naming P path c) (filter : ∀ c ∈ f, Naming P path c)
    (mustNot : ∀ c ∈ n, Naming P path c) (should : ∀ c ∈ s, Naming P path c) :
    Naming P path (.bool m f n s required)

def Relative (path : String) (c : Condition) : Prop := c.Naming Value.IsRelative path

def Absolute (path : String) (c : Condition) : Prop := c.Naming Value.IsAbsolute path

theorem absolute_inFull {written : String} {c : Condition} (h : c.Relative written)
    (full : String) : (c.inFull full).Absolute full := by
  have hlist {cs : List Condition} (hcs : ∀ c ∈ cs, ∀ full, (c.inFull full).Absolute full) (full) :
      ∀ d ∈ allInFull full cs, d.Absolute full := by
    intro d hd
    rw [allInFull_eq_map] at hd
    obtain ⟨c, hc, rfl⟩ := List.mem_map.mp hd
    exact hcs c hc full
  unfold Relative at h
  induction h generalizing full with
  | all => exact .all
  | fault => exact .fault
  | fields names =>
      refine .fields fun t ht => ?_
      obtain ⟨u, -, rfl⟩ := List.mem_map.mp ht
      exact Value.isAbsolute_fullName full u.1
  | anyField names =>
      refine .anyField fun f hf => ?_
      obtain ⟨g, -, rfl⟩ := List.mem_map.mp hf
      exact Value.isAbsolute_fullName full g
  | @present _ f name => exact .present (Value.isAbsolute_fullName full f)
  | @nested _ p c name _ ih => exact .nested (Value.isAbsolute_under full p) (ih _)
  | bool _ _ _ _ ihMust ihFilter ihNot ihShould =>
      exact .bool (hlist ihMust full) (hlist ihFilter full) (hlist ihNot full)
        (hlist ihShould full)

/-! ### Traversals -/

section Traversals

variable {α β : Type} {f : α → β} {p : β → Except Error Bool} {q : α → Except Error Bool}
  {xs : List α}

theorem allM_map_congr (h : ∀ x ∈ xs, p (f x) = q x) : (xs.map f).allM p = xs.allM q := by
  induction xs with
  | nil => rfl
  | cons x xs ih =>
      obtain ⟨hx, hxs⟩ := List.forall_mem_cons.mp h
      rw [List.map_cons, List.allM, List.allM, hx, ih hxs]

theorem anyM_map_congr (h : ∀ x ∈ xs, p (f x) = q x) : (xs.map f).anyM p = xs.anyM q := by
  induction xs with
  | nil => rfl
  | cons x xs ih =>
      obtain ⟨hx, hxs⟩ := List.forall_mem_cons.mp h
      rw [List.map_cons, List.anyM, List.anyM, hx, ih hxs]

variable {doc : Value} {pre pre' : String} {g : Condition → Condition} {cs : List Condition}

theorem allHold_eq_allM (cs : List Condition) : allHold doc pre cs = cs.allM (holds doc pre) := by
  induction cs with
  | nil => rfl
  | cons c cs ih =>
      rw [allHold, List.allM, ih]
      cases holds doc pre c with
      | error e => rfl
      | ok b => cases b <;> rfl

theorem someHolds_eq_anyM (cs : List Condition) :
    someHolds doc pre cs = cs.anyM (holds doc pre) := by
  induction cs with
  | nil => rfl
  | cons c cs ih =>
      rw [someHolds, List.anyM, ih]
      cases holds doc pre c with
      | error e => rfl
      | ok b => cases b <;> rfl

theorem allHold_map_congr (h : ∀ c ∈ cs, (g c).holds doc pre = c.holds doc pre') :
    allHold doc pre (cs.map g) = allHold doc pre' cs := by
  rw [allHold_eq_allM, allHold_eq_allM, allM_map_congr h]

theorem someHolds_map_congr (h : ∀ c ∈ cs, (g c).holds doc pre = c.holds doc pre') :
    someHolds doc pre (cs.map g) = someHolds doc pre' cs := by
  rw [someHolds_eq_anyM, someHolds_eq_anyM, anyM_map_congr h]

theorem countHolding_map_congr (h : ∀ c ∈ cs, (g c).holds doc pre = c.holds doc pre') :
    countHolding doc pre (cs.map g) = countHolding doc pre' cs := by
  induction cs with
  | nil => rfl
  | cons c cs ih =>
      obtain ⟨hc, hcs⟩ := List.forall_mem_cons.mp h
      rw [List.map_cons, countHolding, countHolding, hc, ih hcs]

end Traversals

/-- Inside the path that is written out the names in full ask for what the relative names ask for
inside the path as it was written. -/
theorem holds_inFull {written : String} {c : Condition} (h : c.Relative written) (full : String)
    (doc : Value) : (c.inFull full).holds doc (under full) = c.holds doc (under written) := by
  unfold Relative at h
  induction h generalizing full doc with
  | all | fault => rfl
  | fields names =>
      rw [inFull, holds, holds]
      refine allM_map_congr fun t ht => ?_
      rw [Value.fieldValues_fullName full doc (names t ht)]
  | anyField names =>
      rw [inFull, holds, holds]
      refine anyM_map_congr fun f hf => ?_
      rw [Value.fieldValues_fullName full doc (names f hf)]
  | @present _ f name =>
      rw [inFull, holds, holds, Value.word?_fullName]
      cases hs : f.word? with
      | none => rfl
      | some s =>
          have hrelative := Value.relativeName_of_isRelative fun t ht => name t (hs.trans ht)
          simp only [Option.map_some, relativeName_under, hrelative]
  | nested name _ ih =>
      -- inside, the path as it was written stands against the path in full
      rw [inFull, holds, holds, Value.objectsAt_inFull full doc name]
      simp only [ih]
  | bool _ _ _ _ ihMust ihFilter ihNot ihShould =>
      simp only [inFull, holds, allInFull_eq_map, enough, List.isEmpty_map]
      rw [allHold_map_congr fun c hc => ihMust c hc full doc,
        allHold_map_congr fun c hc => ihFilter c hc full doc,
        someHolds_map_congr fun c hc => ihNot c hc full doc,
        countHolding_map_congr fun c hc => ihShould c hc full doc]

end Condition

/-! ## Query bodies in full -/

namespace Value

/-- The entries with the values under some names changed. -/
def changeUnder (names : List String) (f : Value → Value) (es : List (Value × Value)) :
    List (Value × Value) :=
  es.map fun e => (e.1, if e.1.word?.any names.contains then f e.2 else e.2)

/-- Names that are listed, each written out. -/
def fullNames (path : String) (v : Value) : Value :=
  match v.items with
  | .ok names => .list (names.map (fullName path))
  | .error _ => v

/-- The path of a nested query, written out under a path. -/
def innerPath (path : String) (es : List (Value × Value)) : String :=
  under path ++ ((field? es "path").bind word?).getD ""

def boolParts : List String := ["must", "filter", "must_not", "should"]

mutual

/-- The body of a query inside a path, or a list of them, with every name and every inner path
written out. -/
def inFull (path : String) : Value → Value
  | .map k es => .map k (kindsInFull path es)
  | .seq k xs => .seq k (itemsInFull path xs)
  | v => v

def itemsInFull (path : String) : List Value → List Value
  | [] => []
  | x :: xs => inFull path x :: itemsInFull path xs

def kindsInFull (path : String) : List (Value × Value) → List (Value × Value)
  | [] => []
  | (k, v) :: es => (k, kindInFull path k.word? v) :: kindsInFull path es

/-- What a body has under the name of a kind of query. -/
def kindInFull (path : String) (kind : Option String) : Value → Value
  | .map m es => .map m <|
    match kind with
    | some "term" | some "match" | some "terms" => es.map fun e => (e.1.fullName path, e.2)
    | some "multi_match" => changeUnder ["fields"] (fullNames path) es
    | some "exists" => changeUnder ["field"] (fullName path) es
    | some "nested" =>
      changeUnder ["path"] (fullName path) (partsInFull ["query"] (innerPath path es) es)
    | some "function_score" => partsInFull ["query"] path es
    | some "bool" => partsInFull boolParts path es
    | _ => es
  | v => v

/-- The entries with the bodies under some names written out. -/
def partsInFull (names : List String) (path : String) :
    List (Value × Value) → List (Value × Value)
  | [] => []
  | (k, v) :: es =>
    (k, if k.word?.any names.contains then inFull path v else v) :: partsInFull names path es

end

theorem itemsInFull_eq_map (path : String) (xs : List Value) :
    itemsInFull path xs = xs.map (inFull path) := by
  induction xs with
  | nil => rfl
  | cons x xs ih => rw [itemsInFull, List.map_cons, ih]

theorem kindsInFull_eq_map (path : String) (es : List (Value × Value)) :
    kindsInFull path es = es.map fun e => (e.1, kindInFull path e.1.word? e.2) := by
  induction es with
  | nil => rfl
  | cons e es ih => rw [kindsInFull, List.map_cons, ih]

theorem partsInFull_eq_changeUnder (names : List String) (path : String)
    (es : List (Value × Value)) :
    partsInFull names path es = changeUnder names (inFull path) es := by
  induction es with
  | nil => rfl
  | cons e es ih => rw [partsInFull, ih, changeUnder, changeUnder, List.map_cons]

theorem items_fullNames (path : String) (v : Value) :
    (v.fullNames path).items = v.items.map fun names => names.map (fullName path) := by
  unfold fullNames
  cases h : v.items with
  | ok names => rfl
  | error e => exact h

theorem beq_str_eq (v : Value) (a : String) : (v == .str a) = decide (v.word? = some a) := by
  cases v <;> simp [BEq.beq, eq, eqScalar, number?, word?, isNull]

/-! ### Fields of what is written out -/

/-- What is done to the entries by their names is done to the value that is found under a name. -/
theorem field?_map_keyed (g : Option String → Value → Value) (es : List (Value × Value))
    (name : String) :
    field? (es.map fun e => (e.1, g e.1.word? e.2)) name =
      (field? es name).map (g (some name)) := by
  unfold field?
  induction es with
  | nil => rfl
  | cons e es ih =>
      obtain ⟨k, v⟩ := e
      rw [List.map_cons, Entries.get?_cons, Entries.get?_cons, ih]
      cases hk : k == .str name with
      | false => rfl
      | true => simp [word?_of_beq_str hk]

theorem field?_changeUnder (names : List String) (f : Value → Value) (es : List (Value × Value))
    (name : String) :
    field? (changeUnder names f es) name =
      (field? es name).map fun v => if names.contains name then f v else v :=
  field?_map_keyed (fun w v => if w.any names.contains then f v else v) es name

theorem field?_kindsInFull (path : String) (es : List (Value × Value)) (name : String) :
    field? (kindsInFull path es) name = (field? es name).map (kindInFull path (some name)) := by
  rw [kindsInFull_eq_map]
  exact field?_map_keyed (kindInFull path) es name

theorem sizeOf_field?_lt {es : List (Value × Value)} {name : String} {v : Value}
    (h : field? es name = some v) : sizeOf v < sizeOf es := by
  induction es with
  | nil => cases h
  | cons e es ih =>
      obtain ⟨k, w⟩ := e
      rw [field?, Entries.get?_cons] at h
      simp only [List.cons.sizeOf_spec, Prod.mk.sizeOf_spec]
      split at h
      · obtain rfl := Option.some.inj h
        omega
      · have hes := ih h
        omega

end Value

/-! ## Reading bodies in full -/

namespace Condition

/-- What is asked inside an envelope. -/
def enveloped : Value → Condition
  | .map _ fs => ((Value.field? fs "query").map ofValue).getD .all
  | _ => .fault .noAttribute

def nestedOf : Value → Condition
  | .map _ fs =>
    match (Value.field? fs "path").map Value.word? with
    | some (some path) => .nested path (((Value.field? fs "query").map ofValue).getD .all)
    | some none => .fault .noAttribute
    | none => .fault .noKey
  | _ => .fault .wrongKind

def boolOf : Value → Condition
  | .map _ fs =>
    let listed (name : String) := (Value.fieldD fs name .null).asList.map ofValue
    .bool (listed "must") (listed "filter") (listed "must_not") (listed "should") (required fs)
  | _ => .fault .noAttribute

/-- A search for the first entry under a name finds what the field is read as. -/
theorem eq_field?_map {α : Type} {find : List (Value × Value) → Option α} {read : Value → α}
    {name : String} (hnil : find [] = none)
    (hcons : ∀ k v es, find ((k, v) :: es) = if k == .str name then some (read v) else find es)
    (es : List (Value × Value)) : find es = (Value.field? es name).map read := by
  induction es with
  | nil => exact hnil
  | cons e es ih =>
      obtain ⟨k, v⟩ := e
      unfold Value.field? at ih ⊢
      rw [hcons, ih, Entries.get?_cons]
      split <;> rfl

theorem envelopeIn_eq (es : List (Value × Value)) :
    envelopeIn es = (Value.field? es "function_score").map enveloped := by
  refine eq_field?_map rfl (fun k v es => ?_) es
  cases v with
  | map m fs => rw [envelopeIn, conditionIn_eq, enveloped.eq_def]
  | _ =>
      rw [envelopeIn, enveloped.eq_def]
      intro m fs h
      cases h

theorem nestedIn_eq (es : List (Value × Value)) :
    nestedIn es = (Value.field? es "nested").map nestedOf := by
  refine eq_field?_map rfl (fun k v es => ?_) es
  cases v with
  | map m fs =>
      rw [nestedIn, conditionIn_eq]
      rfl
  | _ =>
      rw [nestedIn, nestedOf.eq_def]
      intro m fs h
      cases h

theorem boolIn_eq (es : List (Value × Value)) :
    boolIn es = (Value.field? es "bool").map boolOf := by
  refine eq_field?_map rfl (fun k v es => ?_) es
  cases v with
  | map m fs =>
      simp only [boolIn, conditionsIn_eq, boolOf.eq_def]
  | _ =>
      rw [boolIn, boolOf.eq_def]
      intro m fs h
      cases h

/-! ### Leaves -/

theorem tests_inFull (make : Value → Test) {kind : String}
    (hkind : kind = "term" ∨ kind = "match" ∨ kind = "terms") (path : String) (v : Value) :
    tests make (v.kindInFull path (some kind)) = (tests make v).inFull path := by
  cases v with
  | map m es => rcases hkind with rfl | rfl | rfl <;> simp [Value.kindInFull, tests, inFull]
  | _ => rfl

theorem multiMatch_inFull (path : String) (v : Value) :
    multiMatch (v.kindInFull path (some "multi_match")) = (multiMatch v).inFull path := by
  cases v with
  | map m es =>
      have hquery : Value.fieldD (Value.changeUnder ["fields"] (Value.fullNames path) es) "query"
          (.str "") = Value.fieldD es "query" (.str "") := by
        simp [Value.fieldD, Value.field?_changeUnder]
      simp only [Value.kindInFull, multiMatch, hquery]
      simp only [Value.fieldD, Value.field?_changeUnder]
      cases hwritten : ((Value.field? es "query").getD (.str "")).written with
      | error e => cases Value.field? es "fields" <;> simp [inFull]
      | ok needle =>
          cases Value.field? es "fields" with
          | none => rfl
          | some names =>
              have hitems := Value.items_fullNames path names
              cases hnames : names.items <;> simp [hitems, hnames, inFull, Except.map]
  | _ => rfl

theorem existence_inFull (path : String) (v : Value) :
    existence (v.kindInFull path (some "exists")) = (existence v).inFull path := by
  cases v with
  | map m es =>
      simp only [Value.kindInFull, existence, Value.part, Value.field?_changeUnder]
      cases Value.field? es "field" <;> simp [inFull]
  | _ => rfl

theorem leaf?_inFull (path : String) (es : List (Value × Value)) :
    leaf? (Value.kindsInFull path es) = (leaf? es).map (inFull path) := by
  have htests (make : Value → Test) (kind : String)
      (hkind : kind = "term" ∨ kind = "match" ∨ kind = "terms") :
      tests make ∘ Value.kindInFull path (some kind) = inFull path ∘ tests make :=
    funext (tests_inFull make hkind path)
  have hmulti : multiMatch ∘ Value.kindInFull path (some "multi_match") =
      inFull path ∘ multiMatch := funext (multiMatch_inFull path)
  have hexists : existence ∘ Value.kindInFull path (some "exists") =
      inFull path ∘ existence := funext (existence_inFull path)
  simp only [leaf?, Value.field?_kindsInFull, Option.map_or, Option.map_map, hmulti, hexists,
    htests _ "term" (.inl rfl), htests _ "match" (.inr (.inl rfl)),
    htests _ "terms" (.inr (.inr rfl))]

/-! ### Bodies with parts -/

theorem sizeOf_asList_le {v x : Value} (h : x ∈ v.asList) : sizeOf x ≤ sizeOf v := by
  cases v with
  | null => cases h
  | seq k xs =>
      cases k with
      | list | tuple =>
          have hx : x ∈ xs := h
          have hsize := List.sizeOf_lt_of_mem hx
          simp only [Value.seq.sizeOf_spec]
          omega
      | set | frozenset => exact List.mem_singleton.mp h ▸ Nat.le_refl _
  | _ => exact List.mem_singleton.mp h ▸ Nat.le_refl _

theorem asList_inFull (path : String) (v : Value) :
    (v.inFull path).asList = v.asList.map (Value.inFull path) := by
  cases v with
  | seq k xs => cases k <;> simp [Value.inFull, Value.asList, Value.itemsInFull_eq_map]
  | _ => simp [Value.inFull, Value.asList]

theorem truthy_inFull (path : String) (v : Value) : (v.inFull path).truthy = v.truthy := by
  cases v with
  | seq k xs => simp [Value.inFull, Value.truthy, Value.itemsInFull_eq_map]
  | map k es => simp [Value.inFull, Value.truthy, Value.kindsInFull_eq_map]
  | _ => rfl

theorem required_inFull (path : String) (es : List (Value × Value)) :
    required (Value.changeUnder Value.boolParts (Value.inFull path) es) = required es := by
  have hminimum : Value.fieldD (Value.changeUnder Value.boolParts
      (Value.inFull path) es) "minimum_should_match" .null =
        Value.fieldD es "minimum_should_match" .null := by
    simp [Value.fieldD, Value.field?_changeUnder, Value.boolParts]
  have htruthy (name : String)
      (hname : Value.boolParts.contains name = true) :
      (Value.fieldD (Value.changeUnder Value.boolParts
        (Value.inFull path) es) name .null).truthy = (Value.fieldD es name .null).truthy := by
    rw [Value.fieldD, Value.fieldD, Value.field?_changeUnder]
    cases Value.field? es name with
    | none => rfl
    | some v => simp only [Option.map_some, Option.getD_some, hname, if_true, truthy_inFull]
  rw [required, required, hminimum, htruthy "must" rfl, htruthy "filter" rfl]

section Parts

variable {v : Value} (ih : ∀ w, sizeOf w < sizeOf v → ∀ path,
  ofValue (w.inFull path) = (ofValue w).inFull path) (path : String)

include ih

theorem enveloped_inFull :
    enveloped (v.kindInFull path (some "function_score")) = (enveloped v).inFull path := by
  cases v with
  | map m es =>
      simp only [Value.kindInFull, enveloped, Value.partsInFull_eq_changeUnder,
        Value.field?_changeUnder]
      cases hquery : Value.field? es "query" with
      | none => rfl
      | some q =>
          have hsize := Value.sizeOf_field?_lt hquery
          simp [ih q (by simp; omega)]
  | _ => rfl

theorem nestedOf_inFull :
    nestedOf (v.kindInFull path (some "nested")) = (nestedOf v).inFull path := by
  cases v with
  | map m es =>
      simp only [Value.kindInFull, nestedOf, Value.partsInFull_eq_changeUnder,
        Value.field?_changeUnder, Value.innerPath]
      cases hpath : Value.field? es "path" with
      | none => rfl
      | some p =>
          cases hs : p.word? with
          | none => simp [Value.word?_fullName, hs, inFull]
          | some s =>
              cases hquery : Value.field? es "query" with
              | none => simp [Value.word?_fullName, hs, inFull]
              | some q =>
                  have hsize := Value.sizeOf_field?_lt hquery
                  simp [Value.word?_fullName, hs, inFull, ih q (by simp; omega)]
  | _ => rfl

theorem boolOf_inFull :
    boolOf (v.kindInFull path (some "bool")) = (boolOf v).inFull path := by
  cases v with
  | map m es =>
      have hlisted (name : String)
          (hname : Value.boolParts.contains name = true) :
          (Value.fieldD (Value.changeUnder Value.boolParts
            (Value.inFull path) es) name .null).asList.map ofValue =
              allInFull path ((Value.fieldD es name .null).asList.map ofValue) := by
        rw [Value.fieldD, Value.fieldD, Value.field?_changeUnder, allInFull_eq_map]
        cases hfield : Value.field? es name with
        | none => rfl
        | some w =>
            simp only [Option.map_some, Option.getD_some, hname, if_true, asList_inFull,
              List.map_map]
            refine List.map_congr_left fun x hx => ih x ?_ path
            have hw := Value.sizeOf_field?_lt hfield
            have hx := sizeOf_asList_le hx
            simp only [Value.map.sizeOf_spec]
            omega
      simp only [Value.kindInFull, boolOf, Value.partsInFull_eq_changeUnder, required_inFull,
        hlisted "must" rfl, hlisted "filter" rfl, hlisted "must_not" rfl, hlisted "should" rfl,
        inFull]
  | _ => rfl

end Parts

theorem nameless_inFull (path : String) (named : String → Bool) :
    (nameless named).inFull path = nameless named := by
  unfold nameless
  split
  · rfl
  · split <;> rfl

/-- No part of a body that is written out becomes or ceases to be a word. -/
theorem beq_inFull (path : String) (v : Value) (name : String) :
    (v.inFull path == .str name) = (v == .str name) := by
  have hword : (v.inFull path).word? = v.word? := by
    cases v <;> rfl
  rw [Value.beq_str_eq, Value.beq_str_eq, hword]

theorem map_or_four {α β : Type} (f : α → β) (a b c d : Option α) (z : α) :
    ((a.map f).or ((b.map f).or ((c.map f).or (d.map f)))).getD (f z) =
      f ((a.or (b.or (c.or d))).getD z) := by
  cases a <;> cases b <;> cases c <;> cases d <;> rfl

/-- A body in full asks for what the body asks for, in full. -/
theorem ofValue_inFull (v : Value) (path : String) :
    ofValue (v.inFull path) = (ofValue v).inFull path := by
  match v with
  | .map k es =>
      have hall : Value.hasField (Value.kindsInFull path es) "match_all" =
          Value.hasField es "match_all" := by
        rw [Value.hasField, Value.field?_kindsInFull, Option.isSome_map]
        rfl
      have hread {name : String} {read : Value → Condition}
          (h : ∀ v, Value.field? es name = some v →
            read (v.kindInFull path (some name)) = (read v).inFull path) :
          (Value.field? (Value.kindsInFull path es) name).map read =
            ((Value.field? es name).map read).map (inFull path) := by
        rw [Value.field?_kindsInFull]
        cases hfield : Value.field? es name with
        | none => rfl
        | some v => exact congrArg some (h v hfield)
      have hpart {name : String} {v : Value} (h : Value.field? es name = some v) (w : Value)
          (hw : sizeOf w < sizeOf v) (path : String) :
          ofValue (w.inFull path) = (ofValue w).inFull path := by
        have hv := Value.sizeOf_field?_lt h
        have hsize : sizeOf w < sizeOf (Value.map k es) := by
          simp only [Value.map.sizeOf_spec]
          omega
        exact ofValue_inFull w path
      rw [Value.inFull, ofValue, ofValue, hall]
      simp only [envelopeIn_eq, nestedIn_eq, boolIn_eq, leaf?_inFull]
      rw [hread fun v h => enveloped_inFull (hpart h) path,
        hread fun v h => nestedOf_inFull (hpart h) path,
        hread fun v h => boolOf_inFull (hpart h) path]
      split
      · rfl
      · exact map_or_four (inFull path) _ _ _ _ .all
  | .seq k xs =>
      rw [Value.inFull, ofValue, ofValue, nameless_inFull, Value.itemsInFull_eq_map]
      simp only [List.any_map, Function.comp_def, beq_inFull]
  | .str s =>
      have hself : Value.inFull path (.str s) = .str s := rfl
      rw [hself, ofValue, nameless_inFull]
  | .symbol s =>
      have hself : Value.inFull path (.symbol s) = .symbol s := rfl
      rw [hself, ofValue, nameless_inFull]
  | .null | .bool _ | .int _ | .float _ | .record _ _ => rfl
termination_by sizeOf v

open Call (nestedBody)

/-- A nested query asks the same of every document when each name and each inner path in it is
written out in full. -/
theorem holds_nested_inFull {path : String} {query : Value}
    (h : (ofValue query).Relative path) :
    (ofValue (query.inFull path)).Absolute path ∧
      ∀ doc pre, (ofValue (nestedBody (.str path) (query.inFull path))).holds doc pre =
        (ofValue (nestedBody (.str path) query)).holds doc pre := by
  rw [ofValue_inFull]
  refine ⟨absolute_inFull h path, fun doc pre => ?_⟩
  rw [ofValue_nestedBody, ofValue_nestedBody, ofValue_inFull, holds, holds]
  simp only [holds_inFull h]

/-- Two nested levels, the inner one among other clauses. -/
theorem holds_nested_inFull_of_replies :
    let query (author replies text : String) : Value := .object [("bool", .object
      [("must", .object [("term", .object [(author, .str "ann")])]),
        ("filter", .list [nestedBody (.str replies)
          (.object [("match", .object [(text, .str "yes")])])])])]
    let doc : Value := .object [("comments", .list [.object [("author", .str "ann"),
      ("replies", .list [.object [("text", .str "Oh yes")]])]])]
    let short := query "author" "replies" "text"
    let long := query "comments.author" "comments.replies" "comments.replies.text"
    short.inFull "comments" = long ∧
      (ofValue (nestedBody (.str "comments") short)).holds doc "" = .ok true ∧
      (ofValue (nestedBody (.str "comments") long)).holds doc "" = .ok true := by
  intro query doc short long
  have hlong : short.inFull "comments" = long := by
    simp [short, long, query, nestedBody, Value.object, Value.inFull, Value.kindsInFull,
      Value.kindInFull, Value.partsInFull, Value.itemsInFull, Value.changeUnder, Value.boolParts,
      Value.fullName, Value.innerPath, Value.word?, Value.field?_word_cons, under]
  have hread : ofValue short = .bool [.fields [(.str "author", .equals (.str "ann"))]]
      [.nested "replies" (.fields [(.str "text", .resembles (.str "yes"))])] [] [] (.ok 0) := by
    simp [short, query, nestedBody, Value.object, ofValue, envelopeIn_eq, nestedIn_eq, boolIn_eq,
      boolOf, nestedOf, leaf?, tests, expected, Value.hasField, Value.fieldD, Value.asList,
      Value.field?_word_cons, Value.word?, Value.truthy, required]
  have hrelative : (ofValue short).Relative "comments" := by
    have hnames (path name : String) (h : ¬ (under path).toList <+: name.toList) :
        (Value.str name).IsRelative path := fun s hs => Option.some.inj hs ▸ h
    have hauthor := hnames "comments" "author" (by decide +kernel)
    have hreplies := hnames "comments" "replies" (by decide +kernel)
    have htext := hnames "replies" "text" (by decide +kernel)
    rw [hread]
    refine .bool (List.forall_mem_singleton.mpr ?_) (List.forall_mem_singleton.mpr ?_)
      (List.forall_mem_nil _) (List.forall_mem_nil _)
    · exact .fields (List.forall_mem_singleton.mpr hauthor)
    · exact .nested hreplies (.fields (List.forall_mem_singleton.mpr htext))
  have hholds : (ofValue (nestedBody (.str "comments") short)).holds doc "" = .ok true :=
    Except.toOption_eq_some_iff.mp (by decide +kernel)
  refine ⟨hlong, hholds, ?_⟩
  rw [← hlong, (holds_nested_inFull hrelative).2, hholds]

end Condition

end DocSearch
