import DocSearch.Value.Access

/-!
# Fields under words

Keys that are words compare like their texts, so a field is found by its name alone: among entries
that stand one after the other it is the first that has it, and entries under other names do not
matter.
-/

namespace DocSearch

namespace Entries

variable {κ α : Type} [BEq κ]

theorem get?_append (es fs : List (κ × α)) (k : κ) :
    get? (es ++ fs) k = (get? es k).or (get? fs k) := by
  induction es with
  | nil => rfl
  | cons e es ih =>
      obtain ⟨j, a⟩ := e
      rw [List.cons_append, get?_cons, get?_cons, ih]
      split <;> rfl

theorem put_of_not_has {es : List (κ × α)} {k : κ} (h : has es k = false) (a : α) :
    put es k a = es ++ [(k, a)] := by
  induction es with
  | nil => rfl
  | cons e es ih =>
      obtain ⟨j, b⟩ := e
      by_cases hjk : (j == k) = true
      · simp [has, hjk] at h
      · simp only [has, get?_cons, hjk, Bool.false_eq_true, if_false] at h
        simp [put, hjk, ih h]

end Entries

namespace Value

@[simp] theorem str_beq_str (s t : String) : (Value.str s == Value.str t) = (s == t) := by
  simp [BEq.beq, eq, eqScalar, number?, word?]

theorem int_beq_int (a b : Int) : (Value.int a == Value.int b) = decide (a = b) := by
  simp [BEq.beq, eq, eqScalar, number?, Number.eq, Number.place?]

theorem eqScalar_comm (a b : Value) : eqScalar a b = eqScalar b a := by
  have hnumber (m n : Number) : m.eq n = n.eq m := by
    unfold Number.eq
    cases m.place? <;> cases n.place? <;> simp [eq_comm]
  unfold eqScalar
  cases a.number? <;> cases b.number? <;> cases a.word? <;> cases b.word? <;>
    simp [hnumber, Bool.and_comm, BEq.comm]

/-- A text compares alike from both sides. -/
theorem beq_comm_of_word {v : Value} (hv : v.word?.isSome = true) (x : Value) :
    (v == x) = (x == v) := by
  change eq v x = eq x v
  cases v with
  | str | symbol => cases x <;> simp [eq, eqScalar_comm]
  | _ => cases hv

@[simp] theorem field?_nil (name : String) : field? [] name = none := rfl

theorem hasField_eq_false_iff {es : List (Value × Value)} {name : String} :
    hasField es name = false ↔ field? es name = none := by
  simp [hasField]

theorem field?_append (es fs : List (Value × Value)) (name : String) :
    field? (es ++ fs) name = (field? es name).or (field? fs name) :=
  Entries.get?_append es fs (.str name)

theorem field?_word_cons (k : String) (v : Value) (es : List (Value × Value)) (name : String) :
    field? ((.str k, v) :: es) name = if k = name then some v else field? es name := by
  unfold field?
  rw [Entries.get?_cons, str_beq_str]
  by_cases h : k = name <;> simp [h]

@[simp] theorem part_object_cons (k : String) (v : Value) (es : List (String × Value))
    (name : String) :
    (object ((k, v) :: es)).part name = if k = name then .ok v else (object es).part name := by
  simp only [object, part, List.map_cons, field?_word_cons]
  by_cases h : k = name <;> simp [h]

/-- Parts under other names in front do not matter. -/
theorem part_object_append {es fs : List (String × Value)} {name : String}
    (h : ∀ e ∈ es, e.1 ≠ name) : (object (es ++ fs)).part name = (object fs).part name := by
  induction es with
  | nil => rfl
  | cons e es ih =>
      obtain ⟨hhead, htail⟩ := List.forall_mem_cons.mp h
      rw [List.cons_append, part_object_cons, if_neg hhead, ih htail]

theorem field?_singleton_of_ne {k name : String} (h : k ≠ name) (v : Value) :
    field? [(.str k, v)] name = none := by
  rw [field?_word_cons, if_neg h]
  rfl

/-- Entries under other names between two parts do not matter. -/
theorem field?_insert {es fs gs : List (Value × Value)} {name : String}
    (h : field? fs name = none) : field? (es ++ fs ++ gs) name = field? (es ++ gs) name := by
  rw [field?_append, field?_append, field?_append, h, Option.or_none]

/-- Entries between two parts that do not have a name are the ones that are found under it. -/
theorem field?_inserted {es fs gs : List (Value × Value)} {name : String}
    (h : field? (es ++ gs) name = none) : field? (es ++ fs ++ gs) name = field? fs name := by
  rw [field?_append, Option.or_eq_none_iff] at h
  rw [field?_append, field?_append, h.1, h.2, Option.none_or, Option.or_none]

/-- Keys that equal a text read as that text. -/
theorem word?_of_beq_str {v : Value} {a : String} (h : (v == .str a) = true) :
    v.word? = some a := by
  have heq : v.eq (.str a) = true := h
  cases v <;> simp_all [eq, eqScalar, number?, word?, isNull]

end Value

end DocSearch
