import DocSearch.Proofs.Action.Outcomes
import DocSearch.Proofs.Builder.History
import DocSearch.Proofs.Value.Fields
import DocSearch.Search.Matching

/-!
# Nested predicates

A value occurs under a path if some object of the path has it among the values of a field. That is
what a nested predicate on one value asks for, however the value is written, and a nested predicate
on a list of values asks for the occurrence of one of them.
-/

namespace DocSearch

namespace Value

/-- Texts, numbers, truth values and null; what is no number equals nothing and does not count. -/
def IsScalar : Value → Prop
  | null | bool _ | int _ | str _ => True
  | float x => x.isNaN = false
  | symbol _ | seq _ _ | map _ _ | record _ _ => False

theorem copyable_of_isScalar {v : Value} (h : v.IsScalar) : v.copyable = true := by
  cases v <;> first | rfl | exact h.elim

/-- The values that a field has in an object of a path; its name may repeat the path. -/
def valuesIn (object : Value) (path field : String) : List Value :=
  (object.lookup (relativeName (Condition.under path) field)).asList

/-- Whether a value occurs in the field of some object of a path. -/
def occurs (doc : Value) (path field : String) (v : Value) : Bool :=
  (doc.objectsAt "" path).any fun o => (o.valuesIn path field).any (· == v)

theorem beq_comm_of_isScalar {v : Value} (hv : v.IsScalar) (x : Value) : (v == x) = (x == v) := by
  have hleft : (v == x) = eqScalar v x := by
    change eq v x = eqScalar v x
    cases v with
    | null | bool _ | int _ | float _ | str _ => cases x <;> simp [eq]
    | symbol _ | seq _ _ | map _ _ | record _ _ => exact hv.elim
  have hright : (x == v) = eqScalar x v := by
    change eq x v = eqScalar x v
    cases v with
    | null | bool _ | int _ | float _ | str _ => cases x <;> simp [eq]
    | symbol _ | seq _ _ | map _ _ | record _ _ => exact hv.elim
  rw [hleft, hright, eqScalar_comm]

end Value

namespace Condition

variable {doc : Value} {path field : String}

theorem anyM_eq_ok {α : Type} {xs : List α} {f : α → Except Error Bool} {p : α → Bool}
    (h : ∀ x ∈ xs, f x = .ok (p x)) : xs.anyM f = .ok (xs.any p) := by
  induction xs with
  | nil => rfl
  | cons x xs ih =>
      have hx := h x List.mem_cons_self
      have hxs := ih fun y hy => h y (List.mem_cons_of_mem x hy)
      cases hp : p x <;> simp [List.anyM, hx, hxs, hp]

/-- The test of a field is made of the objects of the path one by one. -/
theorem holds_nested_field {t : Test} {p : List Value → Bool} (ht : ∀ vs, t.passes vs = .ok (p vs)) :
    (nested path (.fields [(.str field, t)])).holds doc "" =
      .ok ((doc.objectsAt "" path).any fun o => p (o.valuesIn path field)) := by
  rw [holds]
  refine anyM_eq_ok fun o _ => ?_
  have hvalues : o.fieldValues (under path) (.str field) = .ok (o.valuesIn path field) := rfl
  cases hp : p (o.valuesIn path field) <;> simp [holds, hvalues, ht, hp]

open Call (nestedBody termBody)

theorem ofValue_nestedBody (path : String) (inner : Value) :
    ofValue (nestedBody (.str path) inner) = .nested path (ofValue inner) := by
  simp [nestedBody, Value.object, ofValue, envelopeIn, leaf?, nestedIn, conditionIn_eq,
    Value.hasField, Value.field?_word_cons, Value.word?]

theorem holds_term {v : Value} (hv : v.IsScalar) :
    (ofValue (nestedBody (.str path) (termBody (.str field) v (.str "term")))).holds doc "" =
      .ok (doc.occurs path field v) := by
  have hexpected : expected v = v := by
    cases v <;> first | rfl | exact hv.elim
  have hread : ofValue (nestedBody (.str path) (termBody (.str field) v (.str "term"))) =
      .nested path (.fields [(.str field, .equals v)]) := by
    simp [nestedBody, termBody, Value.object, ofValue, envelopeIn, leaf?, nestedIn, boolIn,
      conditionIn_eq, Value.hasField, Value.field?_word_cons, tests, hexpected, Value.word?]
  rw [hread]
  exact holds_nested_field (p := fun xs => xs.any (· == v)) fun _ => rfl

/-- A predicate that takes a list asks for the occurrence of one of its values. -/
theorem holds_terms {kind : SeqKind} (hkind : kind = .list ∨ kind = .tuple) {vs : List Value}
    (hvs : ∀ v ∈ vs, v.IsScalar) :
    (ofValue (nestedBody (.str path)
        (termBody (.str field) (.seq kind vs) (.str "terms")))).holds doc "" =
      .ok (vs.any (doc.occurs path field)) := by
  have hread : ofValue (nestedBody (.str path)
      (termBody (.str field) (.seq kind vs) (.str "terms"))) =
        .nested path (.fields [(.str field, .among (.seq kind vs))]) := by
    simp [nestedBody, termBody, Value.object, ofValue, envelopeIn, leaf?, nestedIn, boolIn,
      conditionIn_eq, Value.hasField, Value.field?_word_cons, tests, Value.word?]
  have hset : kind.isSet = false := by rcases hkind with rfl | rfl <;> rfl
  have hpool (xs : List Value) : (Test.among (.seq kind vs)).passes xs =
      .ok (xs.any fun x => vs.any (· == x)) := by
    refine anyM_eq_ok fun x _ => ?_
    simp [Value.holds, hset]
  rw [hread, holds_nested_field hpool, Except.ok.injEq, Bool.eq_iff_iff]
  simp only [List.any_eq_true, Value.occurs]
  constructor
  · rintro ⟨o, ho, x, hx, v, hv, h⟩
    exact ⟨v, hv, o, ho, x, hx, Value.beq_comm_of_isScalar (hvs v hv) x ▸ h⟩
  · rintro ⟨v, hv, o, ho, x, hx, h⟩
    exact ⟨o, ho, x, hx, v, hv, (Value.beq_comm_of_isScalar (hvs v hv) x).symm ▸ h⟩

/-- A predicate on one value, as it is written for a query type: a list of one for the type that
takes lists. -/
def itemBody (path field queryType : String) (v : Value) : Value :=
  nestedBody (.str path) (termBody (.str field)
    (if Value.str queryType == .str "terms" then .list [v] else v) (.str queryType))

/-- Both query types ask for the occurrence of the value. -/
theorem holds_itemBody {queryType : String} (ht : queryType = "term" ∨ queryType = "terms")
    {v : Value} (hv : v.IsScalar) :
    (ofValue (itemBody path field queryType v)).holds doc "" = .ok (doc.occurs path field v) := by
  unfold itemBody
  rcases ht with rfl | rfl
  · simpa using holds_term hv
  · have h := @holds_terms doc path field .list (.inl rfl) [v] (List.forall_mem_singleton.mpr hv)
    simpa using h

end Condition

end DocSearch
