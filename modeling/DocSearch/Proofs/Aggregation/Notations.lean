import DocSearch.Proofs.Aggregation.Acceptance
import DocSearch.Proofs.Aggregation.Coercion

/-!
# Notations of a forest

A node can be written as a record or as a mapping, with its type under one of two names, and every
node of a forest in its own way. A mapping is made into a node with everything below it, a record
only when it is expanded, but in both ways a node expands like the record of the same parts.
-/

namespace DocSearch

namespace Branch

/-- The entries name the type under one of the two names, and nothing under the other one. -/
def NamesType (es : List (Value × Value)) (t : Option String) : Prop :=
  (Value.hasField es "type" = false ∧ Value.fieldD es "field_type" .null = t.elim .null .str) ∨
    (Value.hasField es "field_type" = false ∧ Value.fieldD es "type" .null = t.elim .null .str)

mutual

/-- The value is a way to write the node and all of its descendants. -/
inductive Writes : Value → Branch → Prop
  | record {k p : String} {t : Option String} {kind : SeqKind} {vs : List Value} {cs : List Branch}
      (hcs : WritesAll vs cs) :
      Writes (.record .node [.str k, .str p, t.elim .null .str, .seq kind vs]) (node k p t cs)
  | leaf {k p : String} {t : Option String} {kind : MapKind} {es : List (Value × Value)}
      (hkey : Value.field? es "key" = some (.str k)) (hpath : Value.field? es "path" = some (.str p))
      (htype : NamesType es t) (hcs : (Value.fieldD es "children" .null).truthy = false) :
      Writes (.map kind es) (node k p t [])
  | mapping {k p : String} {t : Option String} {kind : MapKind} {es : List (Value × Value)}
      {s : SeqKind} {vs : List Value} {cs : List Branch}
      (hkey : Value.field? es "key" = some (.str k)) (hpath : Value.field? es "path" = some (.str p))
      (htype : NamesType es t) (hchildren : Value.field? es "children" = some (.seq s vs))
      (hcs : WritesAll vs cs) :
      Writes (.map kind es) (node k p t cs)

inductive WritesAll : List Value → List Branch → Prop
  | nil : WritesAll [] []
  | cons {v : Value} {b : Branch} {vs : List Value} {bs : List Branch} (hv : Writes v b)
      (hvs : WritesAll vs bs) : WritesAll (v :: vs) (b :: bs)

end

end Branch

namespace Aggregation

open Branch Declared

variable {vs ws : List Value} {bs : List Branch} {es : List (Value × Value)} {k p : String}
  {t : Option String}

theorem childrenIn_eq (es : List (Value × Value)) :
    childrenIn es = childrenGiven (Value.fieldD es "children" .null) := by
  induction es with
  | nil => rfl
  | cons e es ih =>
      obtain ⟨j, v⟩ := e
      rw [childrenIn, ih]
      unfold Value.fieldD Value.field?
      rw [Entries.get?_cons]
      split <;> rfl

theorem typeIn_of_namesType (h : NamesType es t) : typeIn es = t.elim .null .str := by
  unfold typeIn
  rcases h with ⟨hnone, htype⟩ | ⟨hnone, htype⟩
  · rw [Value.hasField_eq_false_iff] at hnone
    rw [← htype, Value.fieldD, Value.fieldD, Value.fieldD, hnone]
    rfl
  · rw [Value.hasField_eq_false_iff] at hnone
    rw [← htype, Value.fieldD, hnone]
    rfl

/-- A mapping whose children are nodes expands like the record of the parts it names. -/
theorem expand_written {cs : List Declared} (hkey : Value.field? es "key" = some (.str k))
    (hpath : Value.field? es "path" = some (.str p)) (htype : NamesType es t)
    (hgiven : childrenGiven (Value.fieldD es "children" .null) = some cs)
    (hcs : firstProblem? cs = none) (kind : MapKind) :
    (ofValue (.map kind es)).problem? = none ∧
      expand (ofValue (.map kind es)) =
        expand (.node (.str k) (.str p) (t.elim .null .str) (some cs)) := by
  have hproblem : (Declared.mapping es (some cs)).problem? = none :=
    mapping_problem?_eq_none_iff.mpr ⟨by simp [Value.hasField, hkey],
      by simp [Value.hasField, hpath], hcs⟩
  rw [ofValue, childrenIn_eq, hgiven, expand_mapping hproblem, typeIn_of_namesType htype]
  refine ⟨hproblem, ?_⟩
  rw [Value.fieldD, Value.fieldD, hkey, hpath]
  rfl

/-- The parts of a node expand like the node if its children do. -/
theorem expand_parts (h : expandAll (ofValues vs) = expandAll (declaredAll bs)) :
    expand (.node (.str k) (.str p) (t.elim .null .str) (some (ofValues vs))) =
      expand (declared (node k p t bs)) := by
  rw [declared, expand, expand, expandChildren, h]
  rfl

/-- However the nodes of a forest are written, they expand alike. -/
theorem expandAll_written (h : WritesAll vs bs) :
    firstProblem? (ofValues vs) = none ∧ expandAll (ofValues vs) = expandAll (declaredAll bs) := by
  induction bs using forest_induction generalizing vs with
  | nil =>
      cases h
      exact ⟨rfl, rfl⟩
  | cons b bs ihcs ihbs =>
      obtain _ | @⟨v, _, vs, _, hv, hvs⟩ := h
      have hfirst : (ofValue v).problem? = none ∧ expand (ofValue v) = expand b.declared := by
        cases hv with
        | record hcs =>
            rw [ofValue, childrenOf]
            exact ⟨rfl, expand_parts (ihcs hcs).2⟩
        | leaf hkey hpath htype hcs =>
            rw [declared]
            exact expand_written hkey hpath htype (by rw [childrenGiven, hcs]; rfl) rfl _
        | @mapping k p t kind es s us cs hkey hpath htype hchildren hcs =>
            obtain ⟨hnodes, hinside⟩ := ihcs hcs
            have hgiven : childrenGiven (Value.fieldD es "children" .null) = some (ofValues us) := by
              rw [Value.fieldD, hchildren, Option.getD_some, childrenGiven_seq]
            obtain ⟨hproblem, hexpand⟩ := expand_written hkey hpath htype hgiven hnodes kind
            exact ⟨hproblem, hexpand.trans (expand_parts hinside)⟩
      obtain ⟨hbehind, hrest⟩ := ihbs hvs
      rw [ofValues, expandAll, declaredAll, expandAll, hfirst.2, hrest]
      exact ⟨firstProblem?_cons.mpr ⟨hfirst.1, hbehind⟩, rfl⟩

mutual

theorem writes_toValue (b : Branch) : Writes b.toValue b := by
  match b with
  | .node k p t cs => exact .record (writesAll_toValues cs)

/-- The records that declare a forest are one of its notations. -/
theorem writesAll_toValues (bs : List Branch) : WritesAll (toValues bs) bs := by
  match bs with
  | [] => exact .nil
  | b :: bs => exact .cons (writes_toValue b) (writesAll_toValues bs)

end

/-- All ways to write a forest have the same document, or are refused as an argument in the same
words. -/
theorem document_of_notations (hvs : WritesAll vs bs) (hws : WritesAll ws bs)
    (kind other : SeqKind) :
    documentOf (.seq kind vs) = documentOf (.seq other ws) ∧
      ((∃ es, documentOf (.seq kind vs) = .ok es) ∨
        ∃ cause, documentOf (.seq kind vs) = .error (.argument cause)) := by
  have hwritten (kind : SeqKind) {us : List Value} (hus : WritesAll us bs) :
      documentOf (.seq kind us) = document (declaredAll bs) := by
    rw [documentOf_seq, document, document, (expandAll_written hus).2]
  rw [hwritten kind hvs, hwritten other hws]
  refine ⟨rfl, ?_⟩
  cases h : document (declaredAll bs) with
  | ok es => exact Or.inl ⟨es, rfl⟩
  | error e =>
      obtain ⟨cause, rfl⟩ := failsOnly_document bs e h
      exact Or.inr ⟨cause, rfl⟩

/-- A record that holds a mapping, and a mapping that holds a record. -/
theorem document_of_mixed_notations :
    let child : Value := .object [("path", .str "q"), ("key", .str "b"), ("field_type", .str "avg")]
    let outer : Value := .record .node [.str "a", .str "p", .null, .list [child]]
    let inner : Value := .record .node [.str "b", .str "q", .str "avg", .list []]
    let parent : Value := .object [("key", .str "a"), ("path", .str "p"), ("type", .null),
      ("children", .tuple [inner])]
    let es : List (Value × Value) := [(.str "a", .object [("nested", .object [("path", .str "p")]),
      ("aggs", .object [("b", .object [("nested", .object [("path", .str "q")]),
        ("aggs", .object [("b", .object [("avg", .object [("field", .str "q.b")])])])])])])]
    documentOf (.list [outer]) = .ok es ∧ documentOf (.tuple [parent]) = .ok es := by
  intro child outer inner parent es
  let bs : List Branch := [.node "a" "p" none [.node "b" "q" (some "avg") []]]
  have hinner : WritesAll [inner] [.node "b" "q" (some "avg") []] :=
    writesAll_toValues [.node "b" "q" (some "avg") []]
  have hchild : Writes child (.node "b" "q" (some "avg") []) := by
    refine .leaf ?_ ?_ (Or.inl ⟨?_, ?_⟩) ?_ <;>
      simp [Value.hasField, Value.fieldD, Value.field?_word_cons]
  have houter : WritesAll [outer] bs := .cons (.record (t := none) (.cons hchild .nil)) .nil
  have hparent : WritesAll [parent] bs := by
    refine .cons (.mapping (s := .tuple) ?_ ?_ (Or.inr ⟨?_, ?_⟩) ?_ hinner) .nil <;>
      simp [Value.hasField, Value.fieldD, Value.field?_word_cons]
  have hbuilt : documentOf (.list (toValues bs)) = .ok es := by
    simp [documentOf_toValues, bs, es, document, declaredAll, declared, expandAll, expand,
      expandChildren, requireNames, assemble, truthy_str, isMetric_str, metrics, fieldNameOf_str,
      mergeInto, render, Value.asKey, Value.isKey, Entries.has, name, Entries.put, Value.object]
  have hplain := writesAll_toValues bs
  exact ⟨(document_of_notations houter hplain .list .list).1.trans hbuilt,
    (document_of_notations hparent hplain .tuple .list).1.trans hbuilt⟩

end Aggregation

end DocSearch
