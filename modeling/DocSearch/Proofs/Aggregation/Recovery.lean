import DocSearch.Proofs.Aggregation.Acceptance

/-!
# Forests read back from their documents

A document shows its forest level by level: the entry of a node is a nested bucket under the key of
the node, and below it stands either the field aggregation of the node or the document of its
children, which otherwise stands below the field aggregation. The two are told apart by what they say
about themselves, a path or a field, so that the forest is read back from the document. Only a type
that is spelled like the word for what stands below would be overwritten by the children.
-/

namespace DocSearch

namespace Branch

/-- The type, if there is one that is not empty. -/
def type? (b : Branch) : Option String :=
  b.fieldType.filter (· ≠ "")

mutual

/-- The tree with empty types left out. -/
def plain : Branch → Branch
  | node k p t cs => node k p (t.filter (· ≠ "")) (plainAll cs)

def plainAll : List Branch → List Branch
  | [] => []
  | b :: bs => plain b :: plainAll bs

end

mutual

/-- The nodes of a tree, every node in front of those below it. -/
def nodes : Branch → List Branch
  | node k p t cs => node k p t cs :: nodesAll cs

def nodesAll : List Branch → List Branch
  | [] => []
  | b :: bs => nodes b ++ nodesAll bs

end

/-- No type is spelled like the word for what stands below a bucket. -/
def Legible (bs : List Branch) : Prop := ∀ b ∈ nodesAll bs, b.fieldType ≠ some "aggs"

instance (bs : List Branch) : Decidable (Legible bs) :=
  inferInstanceAs (Decidable (∀ b ∈ nodesAll bs, b.fieldType ≠ some "aggs"))

theorem nodesAll_cons (b : Branch) (bs : List Branch) :
    nodesAll (b :: bs) = b :: (nodesAll b.children ++ nodesAll bs) := by
  cases b
  rfl

theorem plainAll_cons (b : Branch) (bs : List Branch) :
    plainAll (b :: bs) = node b.key b.path b.type? (plainAll b.children) :: plainAll bs := by
  cases b
  rfl

theorem legible_cons {b : Branch} {bs : List Branch} :
    Legible (b :: bs) ↔ b.fieldType ≠ some "aggs" ∧ Legible b.children ∧ Legible bs := by
  simp only [Legible, nodesAll_cons, List.forall_mem_cons, List.forall_mem_append]

theorem Legible.children {b : Branch} {bs : List Branch} (h : Legible bs) (hb : b ∈ bs) :
    Legible b.children := by
  induction bs with
  | nil => cases hb
  | cons c bs ih =>
      obtain ⟨-, hc, hbs⟩ := legible_cons.mp h
      rcases List.mem_cons.mp hb with rfl | hb
      · exact hc
      · exact ih hbs hb

/-! ## The entry of a node -/

/-- What stands below a bucket, as entries of the bucket. -/
def lowerEntries (es : List (Value × Value)) : List (Value × Value) :=
  if es.isEmpty then [] else [(.str "aggs", .dict es)]

/-- The body of a field aggregation of the node around the document of its children. -/
def fieldBody (b : Branch) (t : String) (cs : List (Value × Value)) : List (Value × Value) :=
  (.str t, .object [("field", .str (b.path ++ "." ++ b.key))]) :: lowerEntries cs

/-- The body of the bucket of a node around the document of its children. -/
def body (b : Branch) (cs : List (Value × Value)) : List (Value × Value) :=
  (.str "nested", .object [("path", .str b.path)]) :: lowerEntries (match b.type? with
    | none => cs
    | some t => [(.str b.key, .dict (b.fieldBody t cs))])

/-- The entry is the bucket of the node around the document of its children. -/
def Shows (b : Branch) (e : Value × Value) : Prop :=
  ∃ cs, Aggregation.documentOf (.list (toValues b.children)) = .ok cs ∧
    e = (.str b.key, .dict (b.body cs))

/-! ## Reading -/

section

variable {β : Type} (nil : β) (cons : Value → List (Value × Value) → β → β → β)

mutual

/-- Goes over a level of a document and everything below it: every entry is met with its name, its
body, what comes of the level below it and what comes of the entries behind it. -/
def walk : List (Value × Value) → β
  | [] => nil
  | (n, v) :: es => cons n (v.entries.toOption.getD []) (walkBody v) (walk es)

def walkBody : Value → β
  | .map _ es => walkBelow es
  | _ => nil

def walkBelow : List (Value × Value) → β
  | [] => nil
  | (w, v) :: es => if w == .str "aggs" then walkLevel v else walkBelow es

def walkLevel : Value → β
  | .map _ es => walk es
  | _ => nil

end

theorem walkBelow_lowerEntries (es : List (Value × Value)) :
    walkBelow nil cons (lowerEntries es) = walk nil cons es := by
  cases es with
  | nil => rfl
  | cons e es => simp [lowerEntries, walkBelow, walkLevel]

theorem walk_cons {w : String} (hw : w ≠ "aggs") (n v : Value) (cs es : List (Value × Value)) :
    walk nil cons ((n, .dict ((.str w, v) :: lowerEntries cs)) :: es) =
      cons n ((.str w, v) :: lowerEntries cs) (walk nil cons cs) (walk nil cons es) := by
  rw [walk, walkBody, walkBelow, ← walkBelow_lowerEntries nil cons cs, if_neg (by simpa using hw)]
  rfl

/-- A walk meets a node, then its field aggregation if there is one, then its children. -/
theorem walk_bucket {b : Branch} (hword : b.fieldType ≠ some "aggs") (cs es : List (Value × Value)) :
    walk nil cons ((.str b.key, .dict (b.body cs)) :: es) =
      cons (.str b.key) (b.body cs)
        (match b.type? with
          | none => walk nil cons cs
          | some t => cons (.str b.key) (b.fieldBody t cs) (walk nil cons cs) nil)
        (walk nil cons es) := by
  unfold body
  rw [walk_cons nil cons (by decide)]
  cases ht : b.type? with
  | none => rfl
  | some t =>
      have ht : t ≠ "aggs" := by
        rintro rfl
        exact hword (Option.filter_eq_some_iff.mp ht).1
      simp only [fieldBody, walk_cons nil cons ht]
      rfl

end

/-- What the body of a bucket is about, by its first entry: its word, and the path or field with the
name of this part. -/
def subject? : List (Value × Value) → Option (String × String × String)
  | (.str w, .map _ [(.str part, .str x)]) :: _ => some (w, part, x)
  | _ => none

/-- What stands on a level of a document: the field aggregation of the node above, as its type with
the children below it, or a family of nodes. -/
def readLevel : List (Value × Value) → Option (Option String × List Branch) :=
  walk (some (none, [])) fun n body below behind => do
    let (w, part, x) ← subject? body
    let (t, cs) ← below
    if part = "field" then return (some w, cs)
    let (_, bs) ← behind
    return (none, node n.text x t cs :: bs)

def ofDocument? (es : List (Value × Value)) : Option (List Branch) :=
  (readLevel es).map (·.2)

/-- The path of a nested bucket, if the entries are those of one. -/
def pathIn (es : List (Value × Value)) : Option Value :=
  match Value.field? es "nested" with
  | some (.map _ parts) => Value.field? parts "path"
  | _ => none

theorem pathIn_body (b : Branch) (cs : List (Value × Value)) :
    pathIn (b.body cs) = some (.str b.path) := by
  simp [pathIn, body, Value.object, Value.field?_word_cons]

theorem pathIn_fieldBody (b : Branch) (t : String) (cs : List (Value × Value)) :
    pathIn (b.fieldBody t cs) = none := by
  have hlower : Value.field? (lowerEntries cs) "nested" = none := by
    unfold lowerEntries
    split
    · rfl
    · exact Value.field?_singleton_of_ne (by decide) _
  unfold pathIn fieldBody
  rw [Value.field?_word_cons]
  by_cases ht : t = "nested"
  · simp [ht, Value.object, Value.field?_word_cons]
  · rw [if_neg ht, hlower]

/-- The nested buckets of a document with their names and paths, at every depth. -/
def bucketsIn : List (Value × Value) → List (Value × Value) :=
  walk [] fun n body below behind => ((pathIn body).map (n, ·)).toList ++ below ++ behind

end Branch

namespace Aggregation

open Branch

variable {as : List Aggregation} {b : Branch} {bs : List Branch} {e : Value × Value}
  {es body : List (Value × Value)} {k p t : String}

theorem isEmpty_of_mergeInto (h : mergeInto [] as = .ok es) : es.isEmpty = as.isEmpty := by
  obtain ⟨fs, hfs, -, -, rfl⟩ := mergeInto_eq_ok_iff.mp h
  have hlength := (Except.mapM_eq_ok_iff.mp hfs).length_eq
  cases as <;> cases fs <;> simp_all

theorem mergeInto_singleton {a : Aggregation} (h : mergeInto [] [a] = .ok es) :
    ∃ e, a.entry = .ok e ∧ es = [e] := by
  obtain ⟨fs, hfs, -, -, rfl⟩ := mergeInto_eq_ok_iff.mp h
  obtain ⟨e, he, hfs⟩ := Except.bind_eq_ok_iff.mp hfs
  obtain rfl := Except.ok.inj hfs
  exact ⟨e, he, rfl⟩

/-- A body whose first entry does not stand under the word for what is below it. -/
theorem eq_of_withChildren {w : String} {v : Value} (hw : w ≠ "aggs")
    (h : (if as.isEmpty then pure [(.str w, v)]
      else do return Entries.put [(.str w, v)] (.str "aggs") (.dict (← mergeInto [] as))) =
        (Except.ok body : Except Error _)) :
    ∃ cs, mergeInto [] as = .ok cs ∧ body = (.str w, v) :: lowerEntries cs := by
  split at h
  · rename_i hnone
    obtain rfl := List.isEmpty_iff.mp hnone
    exact ⟨[], rfl, (Except.ok.inj h).symm⟩
  · rename_i hsome
    obtain ⟨cs, hcs, h⟩ := Except.bind_eq_ok_iff.mp h
    refine ⟨cs, hcs, ?_⟩
    rw [← isEmpty_of_mergeInto hcs] at hsome
    rw [lowerEntries, if_neg hsome, ← Except.ok.inj h]
    simp [Entries.put, hw]

/-- A node with a type gets its field aggregation between its bucket and its children. -/
theorem eq_of_assemble {t : Option String} {a : Aggregation}
    (h : assemble (.str k) (.str p) (t.elim .null .str) as = .ok a) :
    a = .nested (.str k) (.str p) (match t.filter (· ≠ "") with
      | none => as
      | some w => [.field (.str k) (.str w) (p ++ "." ++ k) as]) := by
  cases t with
  | none => exact (Except.ok.inj h).symm
  | some w =>
      rcases cases_of_assemble h with ⟨htype, -, f, hf, rfl⟩ | ⟨htype, rfl⟩
      · have hw : w ≠ "" := (truthy_str w).mp htype
        have hfilter : (some w).filter (· ≠ "") = some w := by simp [hw]
        obtain rfl := Except.ok.inj hf
        rw [hfilter]
        rfl
      · obtain rfl : w = "" := not_not.mp fun hne => htype ((truthy_str w).mpr hne)
        rfl

/-- A node shows its entry, with the document of its children inside. -/
theorem shows_of_entryOf (h : entryOf b.declared = .ok e) (hword : b.fieldType ≠ some "aggs") :
    b.Shows e := by
  obtain ⟨k, p, t, cs⟩ := b
  obtain ⟨a, ha, he⟩ := Except.bind_eq_ok_iff.mp h
  obtain ⟨-, body, hbody, rfl⟩ := entry_eq_ok_iff.mp he
  obtain ⟨-, -, ha⟩ := Except.bind_eq_ok_iff.mp ha
  obtain ⟨as, has, ha⟩ := Except.bind_eq_ok_iff.mp ha
  have hdocument (ds : List (Value × Value)) (hds : mergeInto [] as = .ok ds) :
      documentOf (.list (toValues cs)) = .ok ds := by
    rw [documentOf_toValues, document]
    exact Except.bind_eq_ok_iff.mpr ⟨as, has, hds⟩
  obtain rfl := eq_of_assemble ha
  rw [render] at hbody
  obtain ⟨inner, hinner, rfl⟩ := eq_of_withChildren (by decide) hbody
  cases ht : t.filter (· ≠ "") with
  | none =>
      rw [ht] at hinner
      refine ⟨inner, hdocument inner hinner, ?_⟩
      simp only [Branch.body, type?, fieldType, ht]
      rfl
  | some w =>
      rw [ht] at hinner
      obtain ⟨f, hf, rfl⟩ := mergeInto_singleton hinner
      obtain ⟨-, fbody, hfbody, rfl⟩ := entry_eq_ok_iff.mp hf
      have hw : w ≠ "aggs" := by
        rintro rfl
        exact hword (Option.filter_eq_some_iff.mp ht).1
      rw [render] at hfbody
      obtain ⟨ds, hds, rfl⟩ := eq_of_withChildren hw hfbody
      refine ⟨ds, hdocument ds hds, ?_⟩
      simp only [Branch.body, type?, fieldType, ht]
      rfl

theorem document_cons (h : document (declaredAll (b :: bs)) = .ok es)
    (hword : b.fieldType ≠ some "aggs") :
    ∃ e fs, b.Shows e ∧ document (declaredAll bs) = .ok fs ∧ es = e :: fs := by
  obtain ⟨hes, hdistinct⟩ := document_eq_ok_iff.mp h
  rw [declaredAll, List.mapM_cons] at hes
  obtain ⟨e, he, hes⟩ := Except.bind_eq_ok_iff.mp hes
  obtain ⟨fs, hfs, hes⟩ := Except.bind_eq_ok_iff.mp hes
  obtain rfl := Except.ok.inj hes
  have hrest := (distinct_cons.mp hdistinct).2
  exact ⟨e, fs, shows_of_entryOf he hword, document_eq_ok_iff.mpr ⟨hfs, hrest⟩, rfl⟩

theorem readLevel_document (h : document (declaredAll bs) = .ok es) (hwords : Legible bs) :
    readLevel es = some (none, plainAll bs) := by
  induction bs using forest_induction generalizing es with
  | nil =>
      obtain rfl := Except.ok.inj h
      rfl
  | cons b bs ihcs ihbs =>
      obtain ⟨hword, hcs, hbs⟩ := legible_cons.mp hwords
      obtain ⟨e, fs, ⟨ds, hds, rfl⟩, hfs, rfl⟩ := document_cons h hword
      rw [documentOf_toValues] at hds
      have hinside := ihcs hds hcs
      have hbehind := ihbs hfs hbs
      unfold readLevel at hinside hbehind ⊢
      rw [walk_bucket _ _ hword, hinside, hbehind, plainAll_cons]
      cases b.type? <;> rfl

theorem bucketsIn_document (h : document (declaredAll bs) = .ok es) (hwords : Legible bs) :
    bucketsIn es = (nodesAll bs).map fun b => (.str b.key, .str b.path) := by
  induction bs using forest_induction generalizing es with
  | nil =>
      obtain rfl := Except.ok.inj h
      rfl
  | cons b bs ihcs ihbs =>
      obtain ⟨hword, hcs, hbs⟩ := legible_cons.mp hwords
      obtain ⟨e, fs, ⟨ds, hds, rfl⟩, hfs, rfl⟩ := document_cons h hword
      rw [documentOf_toValues] at hds
      have hinside := ihcs hds hcs
      have hbehind := ihbs hfs hbs
      unfold bucketsIn at hinside hbehind ⊢
      rw [walk_bucket _ _ hword, hinside, hbehind, nodesAll_cons, pathIn_body]
      cases b.type? with
      | none => simp
      | some w => simp [pathIn_fieldBody]

theorem shows_of_document (h : document (declaredAll bs) = .ok es) (hwords : Legible bs) :
    List.Forall₂ Shows bs es := by
  induction bs generalizing es with
  | nil =>
      obtain rfl := Except.ok.inj h
      exact .nil
  | cons b bs ih =>
      obtain ⟨hword, -, hbs⟩ := legible_cons.mp hwords
      obtain ⟨e, fs, he, hfs, rfl⟩ := document_cons h hword
      exact .cons he (ih hfs hbs)

/-- Every family of an accepted forest, at whatever depth, is accepted and shows its nodes. -/
theorem exists_document_of_family (h : document (declaredAll bs) = .ok es) (hwords : Legible bs)
    {fs : List Branch} (hfs : Family bs fs) :
    ∃ ds, documentOf (.list (toValues fs)) = .ok ds ∧ List.Forall₂ Shows fs ds := by
  induction hfs generalizing es with
  | top bs => exact ⟨es, (documentOf_toValues bs).trans h, shows_of_document h hwords⟩
  | inside hb _ ih =>
      have hshown := (shows_of_document h hwords).imp fun c e he => And.intro (Exists.intro e he) he
      obtain ⟨e, ds, hds, -⟩ := ((List.forall₂_and_left _ _).mp hshown).1 _ hb
      rw [documentOf_toValues] at hds
      exact ih hds (hwords.children hb)

/-- An accepted forest is read back from its document, up to types that are empty. So no other
accepted forest has the same document, which holds every node once as a nested bucket, in front of
those below it; and at every depth the document of the children of a node stands in its field
aggregation if it has one, and in its nested bucket otherwise. -/
theorem recovered_of_document (h : documentOf (.list (toValues bs)) = .ok es)
    (hwords : Legible bs) :
    ofDocument? es = some (plainAll bs) ∧
      (∀ cs, Legible cs → documentOf (.list (toValues cs)) = .ok es → plainAll cs = plainAll bs) ∧
      (bucketsIn es = (nodesAll bs).map fun b => (.str b.key, .str b.path)) ∧
      ∀ fs, Family bs fs →
        ∃ ds, documentOf (.list (toValues fs)) = .ok ds ∧ List.Forall₂ Shows fs ds := by
  have hread (cs : List Branch) (hcs : Legible cs)
      (h : documentOf (.list (toValues cs)) = .ok es) : ofDocument? es = some (plainAll cs) := by
    rw [documentOf_toValues] at h
    rw [ofDocument?, readLevel_document h hcs]
    rfl
  refine ⟨hread bs hwords h, fun cs hcs hsame => ?_, ?_, fun fs hfs => ?_⟩
  · exact Option.some.inj ((hread cs hcs hsame).symm.trans (hread bs hwords h))
  · rw [documentOf_toValues] at h
    exact bucketsIn_document h hwords
  · rw [documentOf_toValues] at h
    exact exists_document_of_family h hwords hfs

/-- A child with the name of its parent, and a type spelled like the word of a bucket. -/
theorem recovered_of_equal_names :
    let bs : List Branch := [.node "a" "p" none [.node "a" "q" (some "") []],
      .node "b" "p" (some "nested") [.node "b" "q" none []]]
    let es : List (Value × Value) :=
      [(.str "a", .object [("nested", .object [("path", .str "p")]),
        ("aggs", .object [("a", .object [("nested", .object [("path", .str "q")])])])]),
      (.str "b", .object [("nested", .object [("path", .str "p")]),
        ("aggs", .object [("b", .object [("nested", .object [("field", .str "p.b")]),
          ("aggs", .object [("b", .object [("nested", .object [("path", .str "q")])])])])])])]
    documentOf (.list (toValues bs)) = .ok es ∧ Legible bs ∧
      ofDocument? es = some [.node "a" "p" none [.node "a" "q" none []],
        .node "b" "p" (some "nested") [.node "b" "q" none []]] ∧
      bucketsIn es = [(.str "a", .str "p"), (.str "a", .str "q"), (.str "b", .str "p"),
        (.str "b", .str "q")] := by
  intro bs es
  have h : documentOf (.list (toValues bs)) = .ok es := by
    simp [documentOf_toValues, bs, es, document, declaredAll, declared, expandAll, expand,
      expandChildren, requireNames, assemble, truthy_str, isMetric_str, metrics, fieldNameOf_str,
      mergeInto, render, Value.asKey, Value.isKey, Entries.has, name, Entries.put, Value.object]
  have hwords : Legible bs := by decide
  obtain ⟨hread, -, hbuckets, -⟩ := recovered_of_document h hwords
  exact ⟨h, hwords, hread, hbuckets⟩

end Aggregation

end DocSearch
