import DocSearch.Proofs.Aggregation.Families

/-!
# Coerced nodes

A mapping that declares a node is made into a node record with its whole subtree, which expands like
the mapping itself. A collection coerces the values it is given one after the other and keeps each
node as soon as it has it, so a value that declares no node ends the call after the nodes in front of
it have been collected.
-/

namespace DocSearch

open DocSearch.Action

namespace Value

variable {v n : Value} {e : Error}

theorem asNode_eq_ok_iff : v.asNode = .ok n ↔ (Declared.ofValue v).problem? = none ∧ v.toNode = n := by
  unfold asNode
  cases (Declared.ofValue v).problem? <;> simp

end Value

namespace Aggregation

open Declared

variable {es : List (Value × Value)} {cs : Option (List Declared)} {d : Declared}
  {ds : List Declared}

theorem mapping_problem?_eq_none_iff :
    (Declared.mapping es cs).problem? = none ↔
      Value.hasField es "key" = true ∧ Value.hasField es "path" = true ∧ problemIn? cs = none := by
  rw [problem?]
  cases Value.hasField es "key" <;> cases Value.hasField es "path" <;> simp

theorem firstProblem?_cons :
    firstProblem? (d :: ds) = none ↔ d.problem? = none ∧ firstProblem? ds = none := by
  rw [firstProblem?]
  cases d.problem? <;> simp

theorem eq_nil_of_others {α : Type} {xs : List α} {kind : α → String}
    (h : firstProblem? (xs.map fun x => .other (kind x)) = none) : xs = [] := by
  cases xs with
  | nil => rfl
  | cons x xs => cases h

/-- A mapping that declares a node expands like the record of its parts. -/
theorem expand_mapping (h : (Declared.mapping es cs).problem? = none) :
    expand (.mapping es cs) = expand (.node (Value.fieldD es "key" .null)
      (Value.fieldD es "path" .null) (typeIn es) cs) := by
  simp only [expand, h]

/-- The declarations that a value gives as children; what does not count as given is no children. -/
def childrenGiven (v : Value) : Option (List Declared) :=
  if v.truthy then childrenOf v else some []

theorem childrenGiven_seq (kind : SeqKind) (vs : List Value) :
    childrenGiven (.seq kind vs) = some (ofValues vs) := by
  cases vs <;> rfl

/-- Letters and keys are no nodes, so only sequences give children. -/
theorem childrenGiven_of_not_seq {v : Value} (hv : ∀ kind vs, v ≠ .seq kind vs)
    (h : problemIn? (childrenGiven v) = none) : childrenGiven v = some [] := by
  unfold childrenGiven at h ⊢
  split at h
  · cases v with
    | seq kind vs => exact absurd rfl (hv kind vs)
    | map kind es =>
        have hnil := eq_nil_of_others h
        simp_all [childrenOf]
    | str s =>
        have hnil := eq_nil_of_others h
        simp_all [childrenOf]
    | symbol s =>
        have hnil := eq_nil_of_others h
        simp_all [childrenOf]
    | null | bool _ | int _ | float _ | record _ _ => cases h
  · rename_i hfalse
    rw [if_neg hfalse]

mutual

/-- The node that a value declares expands like the value. -/
theorem expand_toNode (v : Value) (h : (ofValue v).problem? = none) :
    expand (ofValue v.toNode) = expand (ofValue v) := by
  match v with
  | .map kind es =>
      rw [ofValue] at h
      have hchildren := (mapping_problem?_eq_none_iff.mp h).2.2
      rw [ofValue, expand_mapping h, Value.toNode, ofValue, childrenOf, expand, expand,
        expandChildren, expandAll_nodesIn es hchildren]
  | .null | .bool _ | .int _ | .float _ | .str _ | .symbol _ | .seq _ _ | .record _ _ => rfl

theorem expandAll_toNodes (vs : List Value) (h : firstProblem? (ofValues vs) = none) :
    expandAll (ofValues (Value.toNodes vs)) = expandAll (ofValues vs) := by
  match vs with
  | [] => rfl
  | v :: vs =>
      obtain ⟨hv, hvs⟩ := firstProblem?_cons.mp h
      rw [Value.toNodes, ofValues, ofValues, expandAll, expandAll, expand_toNode v hv,
        expandAll_toNodes vs hvs]

theorem expandAll_nodesIn (es : List (Value × Value)) (h : problemIn? (childrenIn es) = none) :
    expandAll (ofValues (Value.nodesIn es)) = expandChildren (childrenIn es) := by
  match es with
  | [] => rfl
  | (k, v) :: es =>
      rw [childrenIn] at h ⊢
      rw [Value.nodesIn]
      split
      · rename_i hk
        rw [if_pos hk] at h
        exact expandAll_nodesOf v h
      · rename_i hk
        rw [if_neg hk] at h
        exact expandAll_nodesIn es h

theorem expandAll_nodesOf (v : Value) (h : problemIn? (childrenGiven v) = none) :
    expandAll (ofValues v.nodesOf) = expandChildren (childrenGiven v) := by
  match v with
  | .seq kind vs =>
      rw [childrenGiven_seq] at h ⊢
      exact expandAll_toNodes vs h
  | .null | .bool _ | .int _ | .float _ | .str _ | .symbol _ | .map _ _ | .record _ _ =>
      rw [childrenGiven_of_not_seq (by simp) h]
      rfl

end

end Aggregation

namespace Forest

open Aggregation

variable {f g : Forest} {vs : List Value} {e : Error}

theorem returns_collect_iff {v : Value} :
    (collect v).Returns f () g ↔ ∃ n, v.asNode = .ok n ∧ f ++ [n] = g := by
  simp [collect]

theorem fails_collect_iff {v : Value} :
    (collect v).Fails f e g ↔ v.asNode = .error e ∧ f = g := by
  simp [collect]

/-- A call that returns has collected the nodes of all values. -/
theorem returns_add_iff :
    (add vs).Returns f () g ↔ ∃ ns, vs.mapM Value.asNode = .ok ns ∧ f ++ ns = g := by
  induction vs generalizing f with
  | nil => simp [add]
  | cons v vs ih =>
      simp only [add, returns_bind_iff, List.mapM_cons, Except.bind_eq_ok_iff]
      constructor
      · rintro ⟨⟨⟩, u, hv, hvs⟩
        obtain ⟨n, hn, rfl⟩ := returns_collect_iff.mp hv
        obtain ⟨ns, hns, rfl⟩ := ih.mp hvs
        exact ⟨n :: ns, ⟨n, hn, ns, hns, rfl⟩, by simp⟩
      · rintro ⟨_, ⟨n, hn, ns, hns, hcons⟩, rfl⟩
        obtain rfl := Except.ok.inj hcons
        exact ⟨(), f ++ [n], returns_collect_iff.mpr ⟨n, hn, rfl⟩, ih.mpr ⟨ns, hns, by simp⟩⟩

/-- A call that fails has collected the nodes in front of the first value that declares none. -/
theorem fails_add_iff :
    (add vs).Fails f e g ↔ ∃ front v back ns, vs = front ++ v :: back ∧
      front.mapM Value.asNode = .ok ns ∧ v.asNode = .error e ∧ f ++ ns = g := by
  induction vs generalizing f with
  | nil => simp [add]
  | cons v vs ih =>
      simp only [add, fails_bind_iff]
      constructor
      · rintro (hv | ⟨⟨⟩, u, hv, hvs⟩)
        · obtain ⟨he, rfl⟩ := fails_collect_iff.mp hv
          exact ⟨[], v, vs, [], rfl, rfl, he, List.append_nil f⟩
        · obtain ⟨n, hn, rfl⟩ := returns_collect_iff.mp hv
          obtain ⟨front, w, back, ns, rfl, hns, he, rfl⟩ := ih.mp hvs
          refine ⟨v :: front, w, back, n :: ns, rfl, ?_, he, by simp⟩
          rw [List.mapM_cons, hn, Except.ok_bind, hns]
          rfl
      · rintro ⟨front, w, back, ns, hvs, hns, he, rfl⟩
        rcases List.cons_eq_append_iff.mp hvs with ⟨rfl, hback⟩ | ⟨rest, rfl, rfl⟩
        · obtain ⟨rfl, rfl⟩ := List.cons_eq_cons.mp hback
          obtain rfl := Except.ok.inj hns
          exact Or.inl (fails_collect_iff.mpr ⟨he, (List.append_nil f).symm⟩)
        · rw [List.mapM_cons] at hns
          obtain ⟨n, hn, hns⟩ := Except.bind_eq_ok_iff.mp hns
          obtain ⟨us, hus, hns⟩ := Except.bind_eq_ok_iff.mp hns
          obtain rfl := Except.ok.inj hns
          have hv : (collect v).Returns f () (f ++ [n]) := returns_collect_iff.mpr ⟨n, hn, rfl⟩
          exact Or.inr ⟨(), f ++ [n], hv, ih.mpr ⟨rest, w, back, us, rfl, hus, he, by simp⟩⟩

theorem returns_node_iff {k p t c : Value} :
    (node k p t c).Returns f () g ↔ Declared.problemIn? (childrenGiven c) = none ∧
      (add [.record .node [k, p, t, .list c.nodesOf]]).Returns f () g := by
  have hgiven : (if c.truthy then Declared.childrenOf c else some []) = childrenGiven c := rfl
  simp only [node, hgiven]
  cases Declared.problemIn? (childrenGiven c) <;> simp

/-- The call collects the nodes of all values in their order, or it fails and leaves the collection as
it was. -/
def AllOrNothing (f : Forest) (vs : List Value) : Prop :=
  (∃ ns, vs.mapM Value.asNode = .ok ns ∧ (add vs).Returns f () (f ++ ns)) ∨
    ∃ e, (add vs).Fails f e f

theorem allOrNothing_iff :
    AllOrNothing f vs ↔ ∀ front v back ns e, vs = front ++ v :: back →
      front.mapM Value.asNode = .ok ns → v.asNode = .error e → ns = [] := by
  constructor
  · rintro h front v back ns e rfl hns he
    have hfails : (add (front ++ v :: back)).Fails f e (f ++ ns) :=
      fails_add_iff.mpr ⟨front, v, back, ns, rfl, hns, he, rfl⟩
    rcases h with ⟨us, -, hreturns⟩ | ⟨d, h⟩
    · exact absurd hreturns hfails.not_returns
    · exact List.append_right_eq_self.mp (hfails.state_eq h)
  · intro h
    cases hr : ((add vs).run f).result with
    | ok x =>
        have hreturns : (add vs).Returns f () _ := ⟨hr, rfl⟩
        obtain ⟨ns, hns, hstate⟩ := returns_add_iff.mp hreturns
        exact Or.inl ⟨ns, hns, hstate ▸ hreturns⟩
    | error e =>
        have hfails : (add vs).Fails f e _ := ⟨hr, rfl⟩
        obtain ⟨front, v, back, ns, hvs, hns, he, hstate⟩ := fails_add_iff.mp hfails
        obtain rfl := h front v back ns e hvs hns he
        rw [List.append_nil] at hstate
        exact Or.inr ⟨e, hfails.1, hstate.symm⟩

/-- A call that returns has collected the nodes of all values, coerced and in their order. One that
fails has collected those in front of the first value that declares no node, so it is all or nothing
exactly if no node stands in front of such a value. -/
theorem failed_add_keeps_front (f : Forest) (vs : List Value) :
    (∀ g, (add vs).Returns f () g ↔ ∃ ns, vs.mapM Value.asNode = .ok ns ∧ f ++ ns = g) ∧
      (∀ e g, (add vs).Fails f e g ↔ ∃ front v back ns, vs = front ++ v :: back ∧
        front.mapM Value.asNode = .ok ns ∧ v.asNode = .error e ∧ f ++ ns = g) ∧
      (AllOrNothing f vs ↔ ∀ front v back ns e, vs = front ++ v :: back →
        front.mapM Value.asNode = .ok ns → v.asNode = .error e → ns = []) :=
  ⟨fun _ => returns_add_iff, fun _ _ => fails_add_iff, allOrNothing_iff⟩

/-- A node in front of a number stays collected, and is built, although the number is refused. -/
theorem first_node_stays_collected :
    let v : Value := .object [("key", .str "a"), ("path", .str "p")]
    ¬ AllOrNothing [] [v, .int 5] ∧ build [] = .ok (.dict []) ∧
      ∃ e g, (add [v, .int 5]).Fails [] e g ∧
        build g = .ok (.object [("a", .object [("nested", .object [("path", .str "p")])])]) := by
  intro v
  let n : Value := .record .node [.str "a", .str "p", .null, .list []]
  have hv : v.asNode = .ok n := by
    refine Value.asNode_eq_ok_iff.mpr ⟨mapping_problem?_eq_none_iff.mpr ⟨?_, ?_, ?_⟩, ?_⟩
    · simp [Value.hasField, Value.field?_word_cons]
    · simp [Value.hasField, Value.field?_word_cons]
    · simp [Declared.childrenIn, Declared.problemIn?, Declared.firstProblem?]
    · simp [v, n, Value.object, Value.toNode, Value.nodesIn, Declared.typeIn, Value.fieldD,
        Value.field?_word_cons]
  have hfront : [v].mapM Value.asNode = .ok [n] := by
    rw [List.mapM_cons, hv]
    rfl
  have h5 : (Value.int 5).asNode = .error (.argument (.notANode "int")) := rfl
  refine ⟨fun h => ?_, rfl, _, [n], fails_add_iff.mpr ⟨[v], .int 5, [], _, rfl, hfront, h5, rfl⟩,
    rfl⟩
  exact List.cons_ne_nil _ _ (allOrNothing_iff.mp h [v] (.int 5) [] _ _ rfl hfront h5)

end Forest

end DocSearch
