import DocSearch.Proofs.Value.Fields

/-!
# Entries under texts

Where all keys are texts and no text occurs twice, storing and removing entries is what it is for
texts as keys, and looking up a text tells the entries apart.
-/

namespace DocSearch

namespace Entries

variable {κ α : Type} [BEq κ]

theorem erase_of_not_has {es : List (κ × α)} {k : κ} (h : has es k = false) : erase es k = es := by
  induction es with
  | nil => rfl
  | cons e es ih =>
      obtain ⟨j, b⟩ := e
      by_cases hjk : (j == k) = true
      · simp [has, hjk] at h
      · simp only [has, get?_cons, hjk, Bool.false_eq_true, if_false] at h
        simp [erase, hjk, ih h]

/-- Keys are looked up by equality, which need not be that of the values. -/
theorem has_iff_exists_key {es : List (κ × α)} {k : κ} :
    has es k = true ↔ ∃ j ∈ keys es, (j == k) = true := by
  induction es with
  | nil => simp [has, keys]
  | cons e es ih =>
      obtain ⟨j, a⟩ := e
      by_cases hj : (j == k) = true
      · simp [has, keys, hj]
      · simpa [has, keys, hj] using ih

theorem get?_put_self {k : κ} (h : (k == k) = true) (es : List (κ × α)) (a : α) :
    get? (put es k a) k = some a := by
  induction es with
  | nil => simp [put, h]
  | cons e es ih =>
      obtain ⟨j, b⟩ := e
      cases hj : j == k <;> simp [put, hj, ih]

theorem put_put {k : κ} (h : (k == k) = true) (es : List (κ × α)) (a b : α) :
    put (put es k a) k b = put es k b := by
  induction es with
  | nil => simp [put, h]
  | cons e es ih =>
      obtain ⟨j, c⟩ := e
      cases hj : j == k <;> simp [put, hj, ih]

variable [LawfulBEq κ]

theorem mem_keys_iff {es : List (κ × α)} {k : κ} : k ∈ keys es ↔ has es k = true := by
  induction es with
  | nil => simp [keys, has]
  | cons e es ih =>
      obtain ⟨j, a⟩ := e
      by_cases h : j = k
      · simp [keys, has, h]
      · have hne : k ≠ j := fun hk => h hk.symm
        simpa [keys, has, h, hne] using ih

theorem get?_eq_none_iff {es : List (κ × α)} {k : κ} : get? es k = none ↔ k ∉ keys es := by
  rw [mem_keys_iff, has]
  cases get? es k <;> simp

/-- Removing a key that occurs at most once leaves no entry under it. -/
theorem get?_erase {es : List (κ × α)} (h : (keys es).Nodup) (j k : κ) :
    get? (erase es j) k = if j == k then none else get? es k := by
  cases hjk : j == k with
  | false => rw [get?_erase_ne es (ne_of_beq_false hjk)]; rfl
  | true =>
      obtain rfl := eq_of_beq hjk
      rw [if_pos rfl, get?_eq_none_iff, keys_erase]
      exact h.not_mem_erase

theorem nodup_keys_put {es : List (κ × α)} (h : (keys es).Nodup) (k : κ) (a : α) :
    (keys (put es k a)).Nodup := by
  rw [keys_put]
  split
  · exact h
  · rename_i hk
    rw [← mem_keys_iff] at hk
    have hne : ∀ j ∈ keys es, j ≠ k := fun j hj hjk => hk (hjk ▸ hj)
    simpa [List.nodup_append, h] using hne

theorem nodup_keys_erase {es : List (κ × α)} (h : (keys es).Nodup) (k : κ) :
    (keys (erase es k)).Nodup := by
  rw [keys_erase]
  exact h.erase k

theorem putAll_of_nodup {es fs : List (κ × α)} (h : (keys (es ++ fs)).Nodup) :
    putAll es fs = es ++ fs := by
  induction fs generalizing es with
  | nil => exact (List.append_nil es).symm
  | cons f fs ih =>
      have hnew : has es f.1 = false := by
        rw [keys, List.map_append, List.nodup_append] at h
        rw [← Bool.not_eq_true, ← mem_keys_iff]
        exact fun hf => h.2.2 f.1 hf f.1 List.mem_cons_self rfl
      rw [List.append_cons] at h ⊢
      rw [putAll_cons, put_of_not_has hnew]
      exact ih h

theorem mem_of_get? {es : List (κ × α)} {k : κ} {a : α} (h : get? es k = some a) :
    (k, a) ∈ es := by
  induction es with
  | nil => cases h
  | cons e es ih =>
      obtain ⟨j, b⟩ := e
      rw [get?_cons] at h
      split at h
      case isTrue hjk =>
          rw [← eq_of_beq hjk, ← Option.some.inj h]
          exact List.mem_cons_self ..
      case isFalse => exact List.mem_cons_of_mem _ (ih h)

theorem mem_iff_get? {es : List (κ × α)} (h : (keys es).Nodup) {k : κ} {a : α} :
    (k, a) ∈ es ↔ get? es k = some a := by
  induction es with
  | nil => simp
  | cons e es ih =>
      obtain ⟨j, b⟩ := e
      obtain ⟨hj, h⟩ := List.nodup_cons.mp h
      rw [List.mem_cons, ih h, get?_cons]
      by_cases hjk : j = k
      · subst hjk
        rw [get?_eq_none_iff.mpr hj]
        simp [eq_comm]
      · have hne : k ≠ j := fun hk => hjk hk.symm
        simp [hjk, hne]

end Entries

namespace Value

variable {α : Type}

def named (es : List (String × α)) : List (Value × α) := es.map fun e => (.str e.1, e.2)

theorem get?_named (es : List (String × α)) (k : String) :
    Entries.get? (named es) (.str k) = Entries.get? es k := by
  induction es with
  | nil => rfl
  | cons e es ih =>
      rw [named, List.map_cons, Entries.get?_cons, str_beq_str]
      exact ite_congr rfl (fun _ => rfl) fun _ => ih

theorem has_named (es : List (String × α)) (k : String) :
    Entries.has (named es) (.str k) = Entries.has es k :=
  congrArg Option.isSome (get?_named es k)

theorem put_named (es : List (String × α)) (k : String) (a : α) :
    Entries.put (named es) (.str k) a = named (Entries.put es k a) := by
  induction es with
  | nil => rfl
  | cons e es ih =>
      simp only [named, List.map_cons, Entries.put, str_beq_str] at ih ⊢
      rw [ih]
      split <;> rfl

theorem erase_named (es : List (String × α)) (k : String) :
    Entries.erase (named es) (.str k) = named (Entries.erase es k) := by
  induction es with
  | nil => rfl
  | cons e es ih =>
      simp only [named, List.map_cons, Entries.erase, str_beq_str] at ih ⊢
      rw [ih]
      split <;> rfl

theorem putAll_named (es fs : List (String × α)) :
    Entries.putAll (named es) (named fs) = named (Entries.putAll es fs) := by
  induction fs generalizing es with
  | nil => rfl
  | cons f fs ih =>
      rw [Entries.putAll_cons, ← ih, ← put_named]
      rfl

/-- All keys are texts, and none occurs twice. -/
def IsNamed (es : List (Value × α)) : Prop :=
  ∃ ns : List (String × α), es = named ns ∧ (Entries.keys ns).Nodup

namespace IsNamed

variable {es : List (Value × α)}

theorem nil : IsNamed ([] : List (Value × α)) := ⟨[], rfl, List.nodup_nil⟩

theorem put (h : IsNamed es) (k : String) (a : α) : IsNamed (Entries.put es (.str k) a) := by
  obtain ⟨ns, rfl, hns⟩ := h
  exact ⟨_, put_named ns k a, Entries.nodup_keys_put hns k a⟩

theorem erase (h : IsNamed es) (k : String) : IsNamed (Entries.erase es (.str k)) := by
  obtain ⟨ns, rfl, hns⟩ := h
  exact ⟨_, erase_named ns k, Entries.nodup_keys_erase hns k⟩

theorem get?_put (h : IsNamed es) (j k : String) (a : α) :
    Entries.get? (Entries.put es (.str j) a) (.str k) =
      if j == k then some a else Entries.get? es (.str k) := by
  obtain ⟨ns, rfl, -⟩ := h
  rw [put_named, get?_named, Entries.get?_put, get?_named]

theorem get?_erase (h : IsNamed es) (j k : String) :
    Entries.get? (Entries.erase es (.str j)) (.str k) =
      if j == k then none else Entries.get? es (.str k) := by
  obtain ⟨ns, rfl, hns⟩ := h
  rw [erase_named, get?_named, Entries.get?_erase hns, get?_named]

theorem has_put (h : IsNamed es) (j k : String) (a : α) :
    Entries.has (Entries.put es (.str j) a) (.str k) = (j == k || Entries.has es (.str k)) := by
  rw [Entries.has, h.get?_put, Entries.has]
  cases j == k <;> rfl

theorem has_erase (h : IsNamed es) (j k : String) :
    Entries.has (Entries.erase es (.str j)) (.str k) = (!(j == k) && Entries.has es (.str k)) := by
  rw [Entries.has, h.get?_erase, Entries.has]
  cases j == k <;> rfl

theorem putAll_eq_append {es fs : List (Value × α)} (h : IsNamed (es ++ fs)) :
    Entries.putAll es fs = es ++ fs := by
  obtain ⟨ns, hns, hnodup⟩ := h
  obtain ⟨ms, ks, rfl, rfl, rfl⟩ := List.append_eq_map_iff.mp hns
  change Entries.putAll (named ms) (named ks) = named ms ++ named ks
  rw [putAll_named, Entries.putAll_of_nodup hnodup, named, List.map_append]
  rfl

end IsNamed

end Value

end DocSearch
