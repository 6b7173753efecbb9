import DocSearch.Proofs.Action.Outcomes
import DocSearch.Query.Draft

/-!
# What can be copied

A value can be copied unless it holds a read-only view somewhere. Items of sequences, entries of
mappings and the results of storing entries can be copied together with what they are made from.
-/

namespace DocSearch

namespace Value

theorem copyableItems_iff {xs : List Value} :
    copyableItems xs = true ↔ ∀ x ∈ xs, x.copyable = true := by
  induction xs with
  | nil => simp [copyableItems]
  | cons x xs ih => simp [copyableItems, ih]

theorem copyableEntries_iff {es : List (Value × Value)} :
    copyableEntries es = true ↔ ∀ e ∈ es, e.1.copyable = true ∧ e.2.copyable = true := by
  induction es with
  | nil => simp [copyableEntries]
  | cons e es ih => simp [copyableEntries, ih]

theorem copyableEntries_append (es fs : List (Value × Value)) :
    copyableEntries (es ++ fs) = (copyableEntries es && copyableEntries fs) := by
  induction es with
  | nil => rfl
  | cons e es ih => simp [copyableEntries, ih, Bool.and_assoc]

theorem copyableEntries_insert {es fs gs : List (Value × Value)}
    (h : copyableEntries (es ++ gs) = true) (hfs : copyableEntries fs = true) :
    copyableEntries (es ++ fs ++ gs) = true := by
  rw [copyableEntries_append, Bool.and_eq_true] at h
  rw [copyableEntries_append, copyableEntries_append, h.1, hfs, h.2]
  rfl

theorem copyable_seq {k : SeqKind} {xs : List Value} :
    (Value.seq k xs).copyable = true ↔ ∀ x ∈ xs, x.copyable = true := by
  exact copyableItems_iff

theorem copyable_dict {es : List (Value × Value)} :
    (Value.dict es).copyable = true ↔ copyableEntries es = true := by
  simp [copyable]

theorem copyable_object {es : List (String × Value)} (h : ∀ e ∈ es, e.2.copyable = true) :
    (Value.object es).copyable = true := by
  refine copyable_dict.mpr (copyableEntries_iff.mpr ?_)
  intro e he
  obtain ⟨d, hd, rfl⟩ := List.mem_map.mp he
  exact ⟨rfl, h d hd⟩

theorem copy_eq_ok_iff {v w : Value} : v.copy = .ok w ↔ v.copyable = true ∧ v = w := by
  cases h : v.copyable <;> simp [copy, h]

theorem asKey_eq_ok_iff {v k : Value} : v.asKey = .ok k ↔ v.isKey = true ∧ v = k := by
  cases h : v.isKey <;> simp [asKey, h]

theorem copy_eq_ok {v : Value} (h : v.copyable = true) : v.copy = .ok v :=
  copy_eq_ok_iff.mpr ⟨h, rfl⟩

theorem entry_eq_ok {k : Value} (h : k.isKey = true) (v : Value) :
    entry k v = .ok (.dict [(k, v)]) := by
  simp [entry, asKey, h, Except.map]

theorem copyable_unroll {v x : Value} (h : v.copyable = true) (hx : x ∈ v.unroll) :
    x.copyable = true := by
  cases v with
  | seq k xs => exact copyable_seq.mp h x hx
  | _ =>
      have hxv := List.mem_singleton.mp hx
      exact hxv ▸ h

theorem copyable_items {v : Value} {xs : List Value} (hv : v.copyable = true)
    (h : v.items = .ok xs) : ∀ x ∈ xs, x.copyable = true := by
  have hletters (s : String) : ∀ x ∈ letters s, x.copyable = true := by
    intro x hx
    obtain ⟨c, -, rfl⟩ := List.mem_map.mp hx
    rfl
  cases v with
  | seq k ys =>
      obtain rfl := Except.ok.inj h
      exact copyable_seq.mp hv
  | map k es =>
      obtain rfl := Except.ok.inj h
      rw [copyable, Bool.and_eq_true, copyableEntries_iff] at hv
      intro x hx
      obtain ⟨e, he, rfl⟩ := List.mem_map.mp hx
      exact (hv.2 e he).1
  | str s =>
      obtain rfl := Except.ok.inj h
      exact hletters s
  | symbol s =>
      obtain rfl := Except.ok.inj h
      exact hletters s.sign
  | _ => cases h

theorem copyable_entry {k v w : Value} (hk : k.copyable = true) (hv : v.copyable = true)
    (h : entry k v = .ok w) : w.copyable = true := by
  obtain ⟨j, hj, rfl⟩ := Except.map_eq_ok_iff.mp h
  obtain ⟨-, rfl⟩ := asKey_eq_ok_iff.mp hj
  simp [copyable, copyableEntries, hk, hv]

end Value

namespace Entries

open Value

theorem copyableEntries_put {es : List (Value × Value)} {k v : Value}
    (hes : copyableEntries es = true) (hk : k.copyable = true) (hv : v.copyable = true) :
    copyableEntries (put es k v) = true := by
  induction es with
  | nil => simp [put, copyableEntries, hk, hv]
  | cons e es ih =>
      obtain ⟨j, w⟩ := e
      simp only [copyableEntries, Bool.and_eq_true] at hes
      unfold put
      split
      · simp [copyableEntries, hes.1.1, hes.2, hv]
      · simp [copyableEntries, hes.1.1, hes.1.2, ih hes.2]

theorem copyableEntries_putAll {es fs : List (Value × Value)}
    (hes : copyableEntries es = true) (hfs : copyableEntries fs = true) :
    copyableEntries (putAll es fs) = true := by
  induction fs generalizing es with
  | nil => exact hes
  | cons f fs ih =>
      simp only [copyableEntries, Bool.and_eq_true] at hfs
      exact ih (copyableEntries_put hes hfs.1.1 hfs.1.2) hfs.2

theorem copyable_get? {es : List (Value × Value)} {k v : Value}
    (hes : copyableEntries es = true) (hv : get? es k = some v) : v.copyable = true := by
  induction es with
  | nil => simp at hv
  | cons e es ih =>
      obtain ⟨j, w⟩ := e
      simp only [copyableEntries, Bool.and_eq_true] at hes
      rw [get?_cons] at hv
      split at hv
      · exact Option.some.inj hv ▸ hes.1.2
      · exact ih hes.2 hv

end Entries

theorem Value.copyable_fieldD {es : List (Value × Value)} {absent : Value} (name : String)
    (hes : copyableEntries es = true) (ha : absent.copyable = true) :
    (fieldD es name absent).copyable = true := by
  unfold fieldD field?
  cases h : Entries.get? es (.str name) with
  | none => exact ha
  | some v => exact Entries.copyable_get? hes h

end DocSearch
