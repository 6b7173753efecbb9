import DocSearch.Proofs.Value.Named

/-!
# Entries under words

A text, or a member of a table, equals the values that read the same and no others. So what is
stored under a word is found under the values that read like it, however the other keys compare, and
the entries under words are a map with texts as keys.
-/

namespace DocSearch.Value

variable {α : Type} {es : List (Value × α)} {i j : Value} {a : String}

theorem beq_of_word (h : i.word? = some a) (x : Value) : (i == x) = (x.word? == some a) := by
  change eq i x = _
  cases i with
  | str | symbol =>
      obtain rfl := Option.some.inj h
      cases x <;> simp [eq, eqScalar, number?, word?, isNull, BEq.comm]
  | _ => cases h

theorem beq_word (h : j.word? = some a) (x : Value) : (x == j) = (x.word? == some a) := by
  rw [← beq_of_word h, beq_comm_of_word (Option.isSome_iff_exists.mpr ⟨a, h⟩)]

/-! ## Lookups under other keys -/

/-- Two keys that no entry can belong to both. -/
structure Apart (i j : Value) : Prop where
  beq : (i == j) = false
  skip : ∀ k : Value, (k == i) = true → (k == j) = false

/-- Keys that equal a word do not equal what reads otherwise. -/
theorem apart_of_word_ne (hi : i.word? = some a) (hj : j.word? ≠ some a) : i.Apart j where
  beq := by
    rw [beq_of_word hi]
    exact beq_eq_false_iff_ne.mpr hj
  skip k hk := by
    rw [beq_word hi, beq_iff_eq] at hk
    rw [beq_of_word hk]
    exact beq_eq_false_iff_ne.mpr hj

theorem Apart.get?_put (h : i.Apart j) (es : List (Value × α)) (x : α) :
    Entries.get? (Entries.put es i x) j = Entries.get? es j := by
  induction es with
  | nil =>
      rw [Entries.put, Entries.get?_cons, h.beq]
      rfl
  | cons e es ih =>
      obtain ⟨k, y⟩ := e
      rw [Entries.put]
      split
      · rename_i hk
        rw [Entries.get?_cons, Entries.get?_cons, h.skip k hk]
        rfl
      · rw [Entries.get?_cons, Entries.get?_cons, ih]

theorem Apart.get?_erase (h : i.Apart j) (es : List (Value × α)) :
    Entries.get? (Entries.erase es i) j = Entries.get? es j := by
  induction es with
  | nil => rfl
  | cons e es ih =>
      obtain ⟨k, y⟩ := e
      rw [Entries.erase]
      split
      · rename_i hk
        rw [Entries.get?_cons, h.skip k hk]
        rfl
      · rw [Entries.get?_cons, Entries.get?_cons, ih]

/-! ## The entries under words as a map -/

def worded (es : List (Value × α)) : List (String × α) :=
  es.filterMap fun e => e.1.word?.map (·, e.2)

theorem worded_cons (k : Value) (x : α) (es : List (Value × α)) :
    worded ((k, x) :: es) = (k.word?.map (·, x)).toList ++ worded es := by
  unfold worded
  rw [List.filterMap_cons]
  cases k.word? <;> rfl

theorem get?_worded (h : j.word? = some a) (es : List (Value × α)) :
    Entries.get? (worded es) a = Entries.get? es j := by
  induction es with
  | nil => rfl
  | cons e es ih =>
      obtain ⟨k, x⟩ := e
      rw [worded_cons, Entries.get?_cons, beq_word h]
      cases hk : k.word? with
      | none => simpa using ih
      | some b => by_cases hab : b = a <;> simp [hab, ih]

theorem worded_put (hi : i.word? = some a) (es : List (Value × α)) (x : α) :
    worded (Entries.put es i x) = Entries.put (worded es) a x := by
  induction es with
  | nil => simp [Entries.put, worded, hi]
  | cons e es ih =>
      obtain ⟨k, y⟩ := e
      rw [Entries.put, beq_word hi, worded_cons]
      cases hk : k.word? with
      | none => simpa [worded_cons, hk] using ih
      | some b => by_cases hab : b = a <;> simp [worded_cons, Entries.put, hk, hab, ih]

theorem worded_put_of_none (hi : i.word? = none) (es : List (Value × α)) (x : α) :
    worded (Entries.put es i x) = worded es := by
  induction es with
  | nil => simp [Entries.put, worded, hi]
  | cons e es ih =>
      obtain ⟨k, y⟩ := e
      rw [Entries.put, worded_cons]
      cases hk : k.word? with
      | none => split <;> simp [worded_cons, hk, ih]
      | some b => simp [worded_cons, beq_of_word hk, hi, hk, ih]

theorem worded_erase (hi : i.word? = some a) (es : List (Value × α)) :
    worded (Entries.erase es i) = Entries.erase (worded es) a := by
  induction es with
  | nil => rfl
  | cons e es ih =>
      obtain ⟨k, y⟩ := e
      rw [Entries.erase, beq_word hi, worded_cons]
      cases hk : k.word? with
      | none => simpa [worded_cons, hk] using ih
      | some b => by_cases hab : b = a <;> simp [worded_cons, Entries.erase, hk, hab, ih]

theorem worded_erase_of_none (hi : i.word? = none) (es : List (Value × α)) :
    worded (Entries.erase es i) = worded es := by
  induction es with
  | nil => rfl
  | cons e es ih =>
      obtain ⟨k, y⟩ := e
      rw [Entries.erase, worded_cons]
      cases hk : k.word? with
      | none => split <;> simp [worded_cons, hk, ih]
      | some b => simp [worded_cons, beq_of_word hk, hi, hk, ih]

theorem get?_put_str (i : Value) (x : α) (es : List (Value × α)) (a : String) :
    Entries.get? (Entries.put es i x) (.str a) =
      if i.word? = some a then some x else Entries.get? es (.str a) := by
  have hget (es : List (Value × α)) : Entries.get? es (.str a) = Entries.get? (worded es) a :=
    (get?_worded rfl es).symm
  rw [hget, hget]
  cases hi : i.word? with
  | none => rw [worded_put_of_none hi, if_neg nofun]
  | some b => by_cases hab : b = a <;> simp [worded_put hi, Entries.get?_put, hab]

/-- The last definition of a text counts. -/
theorem get?_putAll_str (es fs : List (Value × α)) (a : String) :
    Entries.get? (Entries.putAll es fs) (.str a) =
      (Entries.get? fs.reverse (.str a)).or (Entries.get? es (.str a)) := by
  induction fs generalizing es with
  | nil => rfl
  | cons f fs ih =>
      rw [Entries.putAll_cons, ih, get?_put_str, List.reverse_cons, Entries.get?_append,
        Option.or_assoc, Entries.get?_cons, beq_word (j := .str a) rfl]
      by_cases hf : f.1.word? = some a <;> simp [hf]

end DocSearch.Value
