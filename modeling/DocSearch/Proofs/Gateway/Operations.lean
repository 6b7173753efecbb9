import DocSearch.Gateway.Basic
import DocSearch.Proofs.Gateway.Journal
import DocSearch.Proofs.Value.Copies

/-!
# What the operations of a store change

Every operation that succeeds on indices and documents named by texts makes the changes that it is
asked for, one after the other. `Change.apply` is what one of them does to a store.
-/

namespace DocSearch

open DocSearch.Action

def Change.apply : Change → Store → Store
  | .write i k d, s => (s.ensureIndex (.str i)).putDocument (.str i) (.str k) d
  | .remove i k, s =>
    if Entries.has (s.documents (.str i)) (.str k) then
      { s with indices :=
          Entries.put s.indices (.str i) (Entries.erase (s.documents (.str i)) (.str k)) }
    else s
  | .make i, s => s.ensureIndex (.str i)
  | .drop i, s =>
    { s with
      indices := Entries.erase s.indices (.str i)
      mappings := Entries.erase s.mappings (.str i) }
  | .clear, s => { s with indices := [], mappings := [] }

namespace Request

/-- The writes that pairs of a text and a document ask for. -/
def writes? (i : String) (pairs : List Value) : Option (List Change) :=
  pairs.mapM fun p =>
    match p.toPair with
    | .ok (.str k, d) => some (.write i k d)
    | _ => none

/-- The changes that a request asks for, if it names indices and documents by texts. -/
def changes? : Request → Option (List Change)
  | indexDocument (.str i) (.str k) d _ => some [.write i k d]
  | deleteDocument (.str i) (.str k) _ => some [.remove i k]
  | bulkIndex (.str i) ds _ => ds.handOut.toOption.bind fun handed => writes? i handed.1
  | createIndex (.str i) _ => some [.make i]
  | deleteIndex (.str i) => some [.drop i]
  | putMapping (.str i) _ => some [.make i]
  | search _ _ | indexExists _ => some []
  | close => some [.clear]
  | _ => none

end Request

namespace Store

def changed (s : Store) (cs : List Change) : Store :=
  cs.foldl (fun s c => c.apply s) s

variable {s s' : Store} {i k : String} {d a : Value}

theorem str_beq_self (i : String) : (Value.str i == Value.str i) = true := by simp

theorem documents_ensureIndex (index : Value) (h : (index == index) = true) (s : Store) :
    (s.ensureIndex index).documents index = s.documents index := by
  unfold ensureIndex
  split
  · rfl
  · rename_i hnone
    have hget : Entries.get? s.indices index = none := by
      simpa [Entries.has] using hnone
    simp [documents, Entries.get?_put_self h, hget]

/-- Documents are in indices that are there. -/
theorem documents_of_not_has {index : Value} (h : Entries.has s.indices index = false) :
    s.documents index = [] := by
  have hget : Entries.get? s.indices index = none := by
    simpa [Entries.has] using h
  rw [documents, hget]
  rfl

/-- A write puts the documents of the index with the new one in place of those before. -/
theorem apply_write (i k : String) (d : Value) (s : Store) :
    (Change.write i k d).apply s =
      { s with indices :=
          Entries.put s.indices (.str i) (Entries.put (s.documents (.str i)) (.str k) d) } := by
  have hput (a b : List (Value × Value)) :
      Entries.put (Entries.put s.indices (.str i) a) (.str i) b = Entries.put s.indices (.str i) b :=
    Entries.put_put (str_beq_self i) s.indices a b
  rw [Change.apply, putDocument, documents_ensureIndex _ (str_beq_self i)]
  unfold ensureIndex
  split
  · rfl
  · rw [hput]

theorem returns_indexDocument_iff :
    (indexDocument (.str i) (.str k) d).Returns s a s' ↔
      d.copyable = true ∧
        documentReport (.str i) (.str k)
          (if Entries.has (s.documents (.str i)) (.str k) then "updated" else "created") = a ∧
        (Change.write i k d).apply s = s' := by
  unfold indexDocument
  cases hk : Entries.has (s.documents (.str i)) (.str k) <;>
    simp [returns_bind_iff, Value.asKey_eq_ok_iff, Value.isKey, Value.copy_eq_ok_iff,
      documents_ensureIndex, Change.apply, hk, and_comm]

theorem returns_deleteDocument_iff :
    (deleteDocument (.str i) (.str k)).Returns s a s' ↔
      documentReport (.str i) (.str k)
          (if Entries.has (s.documents (.str i)) (.str k) then "deleted" else "not_found") = a ∧
        (Change.remove i k).apply s = s' := by
  unfold deleteDocument
  cases hi : Entries.has s.indices (.str i) with
  | false =>
      have hk : Entries.has (s.documents (.str i)) (.str k) = false := by
        rw [documents_of_not_has hi]
        rfl
      simp [returns_bind_iff, Value.asKey_eq_ok_iff, Value.isKey, Change.apply, hi, hk]
  | true =>
      cases hk : Entries.has (s.documents (.str i)) (.str k) <;>
        simp [returns_bind_iff, Value.asKey_eq_ok_iff, Value.isKey, Change.apply, hi, hk, and_comm]

theorem asKey_str (i : String) : (Value.str i).asKey = .ok (.str i) := rfl

theorem returns_indexAll {pairs : List Value} {cs : List Change}
    (hcs : Request.writes? i pairs = some cs) (h : (indexAll (.str i) pairs).Returns s () s') :
    s.changed cs = s' := by
  induction pairs generalizing s cs with
  | nil =>
      obtain rfl := Option.some.inj hcs
      obtain ⟨-, rfl⟩ := returns_pure_iff.mp h
      rfl
  | cons p pairs ih =>
      rw [indexAll] at h
      obtain ⟨⟨id, d⟩, hpair, h⟩ := returns_lift_bind_iff.mp h
      obtain ⟨a, u, hwrite, h⟩ := returns_bind_iff.mp h
      rw [Request.writes?, List.mapM_cons] at hcs
      obtain ⟨c, hc, hcs⟩ := Option.bind_eq_some_iff.mp hcs
      obtain ⟨rest, hrest, hcs⟩ := Option.bind_eq_some_iff.mp hcs
      obtain rfl := Option.some.inj hcs
      rw [hpair] at hc
      cases id with
      | str k =>
          obtain rfl := Option.some.inj hc
          obtain ⟨-, -, rfl⟩ := returns_indexDocument_iff.mp hwrite
          rw [changed, List.foldl_cons]
          exact ih hrest h
      | _ => cases hc

/-- An index that is made may be given a mapping. -/
theorem returns_createIndex {body : Value} (h : (createIndex (.str i) body).Returns s a s') :
    s' = (Change.make i).apply s ∨
      ∃ m, s' = ((Change.make i).apply s).putMapping (.str i) m := by
  unfold createIndex at h
  obtain ⟨j, hj, h⟩ := returns_lift_bind_iff.mp h
  obtain rfl := Except.ok.inj hj
  replace h := returns_modify_bind_iff.mp h
  split at h
  · obtain ⟨given, -, h⟩ := returns_lift_bind_iff.mp h
    split at h
    · obtain ⟨v, -, h⟩ := returns_lift_bind_iff.mp h
      obtain ⟨m, -, h⟩ := returns_lift_bind_iff.mp h
      replace h := returns_modify_bind_iff.mp h
      obtain ⟨-, rfl⟩ := returns_pure_iff.mp h
      exact Or.inr ⟨m, rfl⟩
    · obtain ⟨-, rfl⟩ := returns_pure_iff.mp h
      exact Or.inl rfl
  · obtain ⟨-, rfl⟩ := returns_pure_iff.mp h
    exact Or.inl rfl

/-- Fields are added to the mapping of an index, and the index is made if it is not there. -/
theorem returns_addFields {properties : Value}
    (h : (addFields (.str i) properties).Returns s a s') :
    ∃ m, s' = ((Change.make i).apply s).putMapping (.str i) m := by
  have hput (s : Store) (m n : Value) :
      (s.putMapping (.str i) m).putMapping (.str i) n = s.putMapping (.str i) n := by
    simp [putMapping, Entries.put_put]
  unfold addFields at h
  obtain ⟨j, hj, h⟩ := returns_lift_bind_iff.mp h
  obtain rfl := Except.ok.inj hj
  replace h := returns_get_bind_iff.mp (returns_modify_bind_iff.mp h)
  replace h := returns_modify_bind_iff.mp h
  obtain ⟨fields, -, h⟩ := returns_lift_bind_iff.mp h
  obtain ⟨es, -, h⟩ := returns_lift_bind_iff.mp h
  replace h := returns_modify_bind_iff.mp h
  obtain ⟨merged, -, h⟩ := returns_lift_bind_iff.mp h
  replace h := returns_modify_bind_iff.mp h
  obtain ⟨-, rfl⟩ := returns_pure_iff.mp h
  rw [hput, hput]
  exact ⟨_, rfl⟩

theorem returns_deleteIndex_iff :
    (deleteIndex (.str i)).Returns s a s' ↔
      acknowledged [] = a ∧ (Change.drop i).apply s = s' := by
  unfold deleteIndex
  cases he : s.isEmpty with
  | true =>
      obtain ⟨indices, mappings, searches⟩ := s
      obtain ⟨hindices, hmappings⟩ := Bool.and_eq_true_iff.mp he
      obtain rfl := List.isEmpty_iff.mp hindices
      obtain rfl := List.isEmpty_iff.mp hmappings
      simp [he, Change.apply, Entries.erase]
  | false => simp [he, Change.apply, returns_bind_iff, asKey_str, and_comm]

theorem returns_indexExists_iff {index : Value} :
    (indexExists index).Returns s a s' ↔
      index.isKey = true ∧ s = s' ∧ .bool (Entries.has s.indices index) = a := by
  unfold indexExists
  simp [returns_bind_iff, Value.asKey_eq_ok_iff, and_assoc]

theorem returns_close_iff : close.Returns s a s' ↔ .null = a ∧ Change.clear.apply s = s' := by
  unfold close
  simp [Change.apply, and_comm]

/-- A search changes nothing but the record of searches. -/
theorem returns_search {params : Value} (h : (search params).Returns s a s') :
    s'.indices = s.indices ∧ s'.mappings = s.mappings := by
  unfold search at h
  obtain ⟨recorded, -, h⟩ := returns_lift_bind_iff.mp h
  obtain ⟨index, -, h⟩ := returns_lift_bind_iff.mp (returns_modify_bind_iff.mp h)
  obtain ⟨body, -, h⟩ := returns_lift_bind_iff.mp h
  obtain ⟨es, -, h⟩ := returns_lift_bind_iff.mp h
  obtain ⟨i, -, h⟩ := returns_lift_bind_iff.mp (returns_get_bind_iff.mp h)
  obtain ⟨answer, -, h⟩ := returns_lift_bind_iff.mp h
  obtain ⟨-, rfl⟩ := returns_pure_iff.mp h
  exact ⟨rfl, rfl⟩

/-- What a request can do to a store when it succeeds: the changes that it asks for, and where it
makes an index it may give it a mapping. -/
theorem returns_onStore {r : Request} {cs : List Change} (hcs : r.changes? = some cs)
    (h : r.onStore.Returns s a s') :
    s'.indices = (s.changed cs).indices ∧
      (s'.mappings = (s.changed cs).mappings ∨
        ∃ i m, cs = [.make i] ∧
          s'.mappings = Entries.put (s.changed cs).mappings (.str i) m) := by
  have hmade {i : String} (hs : s' = (Change.make i).apply s ∨
      ∃ m, s' = ((Change.make i).apply s).putMapping (.str i) m) :
      s'.indices = (s.changed [.make i]).indices ∧
        (s'.mappings = (s.changed [.make i]).mappings ∨
          ∃ j m, [Change.make i] = [.make j] ∧
            s'.mappings = Entries.put (s.changed [.make i]).mappings (.str j) m) := by
    rcases hs with rfl | ⟨m, rfl⟩
    · exact ⟨rfl, Or.inl rfl⟩
    · exact ⟨rfl, Or.inr ⟨i, m, rfl, rfl⟩⟩
  unfold Request.changes? at hcs
  split at hcs
  · obtain rfl := Option.some.inj hcs
    obtain ⟨-, -, rfl⟩ := returns_indexDocument_iff.mp h
    exact ⟨rfl, Or.inl rfl⟩
  · obtain rfl := Option.some.inj hcs
    obtain ⟨-, rfl⟩ := returns_deleteDocument_iff.mp h
    exact ⟨rfl, Or.inl rfl⟩
  · obtain ⟨pairs, hpairs, hcs⟩ := Option.bind_eq_some_iff.mp hcs
    obtain ⟨ps, hps, h⟩ := returns_lift_bind_iff.mp h
    obtain ⟨⟨⟩, u, hall, h⟩ := returns_bind_iff.mp h
    obtain ⟨⟨⟩, -, h⟩ := returns_lift_bind_iff.mp h
    obtain ⟨n, -, h⟩ := returns_lift_bind_iff.mp h
    obtain ⟨-, rfl⟩ := returns_pure_iff.mp h
    rw [hps] at hpairs
    obtain rfl := Option.some.inj hpairs
    obtain rfl := returns_indexAll hcs hall
    exact ⟨rfl, Or.inl rfl⟩
  · obtain rfl := Option.some.inj hcs
    exact hmade (returns_createIndex h)
  · obtain rfl := Option.some.inj hcs
    obtain ⟨-, rfl⟩ := returns_deleteIndex_iff.mp h
    exact ⟨rfl, Or.inl rfl⟩
  · obtain rfl := Option.some.inj hcs
    exact hmade (Or.inr (returns_addFields h))
  · obtain rfl := Option.some.inj hcs
    obtain ⟨hindices, hmappings⟩ := returns_search h
    exact ⟨hindices, Or.inl hmappings⟩
  · obtain rfl := Option.some.inj hcs
    obtain ⟨-, rfl, -⟩ := returns_indexExists_iff.mp h
    exact ⟨rfl, Or.inl rfl⟩
  · obtain rfl := Option.some.inj hcs
    obtain ⟨-, rfl⟩ := returns_close_iff.mp h
    exact ⟨rfl, Or.inl rfl⟩
  · cases hcs

end Store

end DocSearch
