import DocSearch.Proofs.Gateway.Invariants
import DocSearch.Proofs.Value.Worded

/-!
# Stores that are reached

Whatever requests a store has been given since it was empty, and however they ended, no index has
two mappings, and every index that has a mapping is there.
-/

namespace DocSearch

open DocSearch.Action

namespace Value

variable {α : Type} {es : List (Value × α)} {a : String}

theorem mem_keys_worded_put {i : Value} {x : α} :
    a ∈ Entries.keys (worded (Entries.put es i x)) ↔
      i.word? = some a ∨ a ∈ Entries.keys (worded es) := by
  cases hi : i.word? with
  | none => simp [worded_put_of_none hi]
  | some b =>
      rw [worded_put hi, Entries.mem_keys_iff, Entries.mem_keys_iff, Entries.has, Entries.get?_put]
      by_cases hb : b = a <;> simp [hb, Entries.has]

theorem nodup_keys_worded_put (h : (Entries.keys (worded es)).Nodup) (i : Value) (x : α) :
    (Entries.keys (worded (Entries.put es i x))).Nodup := by
  cases hi : i.word? with
  | none => rwa [worded_put_of_none hi]
  | some b =>
      rw [worded_put hi]
      exact Entries.nodup_keys_put h b x

end Value

namespace Store

/-- No text names two mappings, and every text that names one names an index. -/
structure Tidy (s : Store) : Prop where
  once : (Entries.keys (Value.worded s.mappings)).Nodup
  mapped : ∀ a ∈ Entries.keys (Value.worded s.mappings), a ∈ Entries.keys (Value.worded s.indices)

/-- The store is tidy and has an index of that name. -/
structure Ready (i : Value) (s : Store) : Prop where
  tidy : s.Tidy
  there : ∀ a, i.word? = some a → a ∈ Entries.keys (Value.worded s.indices)

variable {s : Store} {i : Value}

theorem Tidy.putIndex (h : s.Tidy) (i : Value) (ds : List (Value × Value)) :
    Tidy { s with indices := Entries.put s.indices i ds } where
  once := h.once
  mapped a ha := Value.mem_keys_worded_put.mpr (Or.inr (h.mapped a ha))

theorem Tidy.ensureIndex (h : s.Tidy) (i : Value) : (s.ensureIndex i).Ready i := by
  unfold Store.ensureIndex
  split
  · rename_i hthere
    refine ⟨h, fun a ha => ?_⟩
    rw [Entries.mem_keys_iff, Entries.has, Value.get?_worded ha]
    exact hthere
  · exact ⟨h.putIndex i [], fun a ha => Value.mem_keys_worded_put.mpr (Or.inl ha)⟩

theorem Ready.putMapping (h : s.Ready i) (m : Value) : (s.putMapping i m).Ready i where
  tidy := {
    once := Value.nodup_keys_worded_put h.tidy.once i m
    mapped := fun a ha => by
      rcases Value.mem_keys_worded_put.mp ha with ha | ha
      · exact h.there a ha
      · exact h.tidy.mapped a ha }
  there := h.there

theorem Tidy.deleteIndex (h : s.Tidy) (i : Value) :
    Tidy { s with
      indices := Entries.erase s.indices i, mappings := Entries.erase s.mappings i } := by
  -- a key that is no word takes no entry away that a text could find
  cases hi : i.word? with
  | none =>
      constructor
      · rw [Value.worded_erase_of_none hi]
        exact h.once
      · rw [Value.worded_erase_of_none hi, Value.worded_erase_of_none hi]
        exact h.mapped
  | some b =>
      constructor
      · rw [Value.worded_erase hi]
        exact Entries.nodup_keys_erase h.once b
      · rw [Value.worded_erase hi, Value.worded_erase hi, Entries.keys_erase, Entries.keys_erase]
        intro a ha
        obtain ⟨hne, ha⟩ := h.once.mem_erase_iff.mp ha
        exact (List.mem_erase_of_ne hne).mpr (h.mapped a ha)

theorem stable_tidy (i : Value) : Stable i Tidy (Ready i) where
  ensure _ hs := hs.ensureIndex i
  relax _ hs := hs.tidy
  documents _ ds hs := hs.putIndex i ds
  mapping _ m hs := hs.putMapping m
  erase _ hs := hs.deleteIndex i

theorem keeps_search (params : Value) : (search params).Keeps Tidy := by
  have hrecord (v : Value) : (modify fun s : Store => { s with searches := s.searches ++ [v] } :
      Action Store Unit).Keeps Tidy := keeps_modify fun s hs => ⟨hs.once, hs.mapped⟩
  refine (keeps_lift _).bind fun recorded => (hrecord recorded).bind fun _ => ?_
  refine (keeps_lift _).bind fun index => (keeps_lift _).bind fun body => ?_
  refine (keeps_lift _).bind fun _ => keeps_get.bind fun s => (keeps_lift _).bind fun i => ?_
  exact (keeps_lift _).bind fun answer => keeps_pure _

theorem keeps_onStore (r : Request) : r.onStore.Keeps Tidy := by
  cases r with
  | search params timeout => exact keeps_search params
  | indexDocument i k d refresh => exact (stable_tidy i).keeps_indexDocument k d
  | deleteDocument i k refresh => exact (stable_tidy i).keeps_deleteDocument k
  | bulkIndex i ds refresh => exact (stable_tidy i).keeps_bulkIndex ds
  | createIndex i body => exact (stable_tidy i).keeps_createIndex body
  | deleteIndex i => exact (stable_tidy i).keeps_deleteIndex
  | indexExists i => exact keeps_indexExists i
  | putMapping i properties => exact (stable_tidy i).keeps_addFields properties
  | close =>
      refine Keeps.bind ?_ fun _ => keeps_pure _
      exact keeps_modify fun s hs => ⟨List.nodup_nil, nofun⟩

/-- Some run of requests makes the store of the empty one; some of them may have failed. -/
def Reached (s : Store) : Prop :=
  ∃ rs : List Request, ((attempts (rs.map Request.onStore)).run .empty).state = s

theorem Reached.tidy (h : s.Reached) : s.Tidy := by
  obtain ⟨rs, rfl⟩ := h
  have hrun : (attempts (rs.map Request.onStore)).Keeps Tidy := by
    refine keeps_attempts fun a ha => ?_
    obtain ⟨r, -, rfl⟩ := List.mem_map.mp ha
    exact keeps_onStore r
  exact hrun .empty ⟨List.nodup_nil, nofun⟩

theorem Reached.unmapped (h : s.Reached) {i : String}
    (habsent : Entries.has s.indices (.str i) = false) :
    Entries.get? s.mappings (.str i) = none := by
  have hword : (Value.str i).word? = some i := rfl
  rw [← Value.get?_worded hword, Entries.get?_eq_none_iff]
  intro hi
  have hthere := h.tidy.mapped i hi
  rw [Entries.mem_keys_iff, Entries.has, Value.get?_worded hword, ← Entries.has, habsent] at hthere
  cases hthere

end Store

end DocSearch
