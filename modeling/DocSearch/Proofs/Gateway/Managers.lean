import DocSearch.Gateway.Manager
import DocSearch.Proofs.Gateway.Operations
import DocSearch.Proofs.Mapping.Schemas

/-!
# Managers of a store

What a manager does through a gateway in memory: an index that is there already may be left as it
is, otherwise it is made with the mapping that is given.
-/

namespace DocSearch

open DocSearch.Action

theorem IndexManager.fullName_str (p n : String) :
    (⟨.str p⟩ : IndexManager).fullName (.str n) = .ok (.str (p ++ n)) := by
  unfold fullName
  cases hp : p.isEmpty with
  | true =>
      obtain rfl := String.isEmpty_iff.mp hp
      simp [Value.truthy]
  | false => simp [Value.truthy, hp]

def Exchange.inMemory (s : Store) (w : Wire) : Exchange := ⟨some (.memory s), w⟩

theorem Exchange.run_perform (r : Request) (s : Store) (w : Wire) :
    (perform r).run (inMemory s w) =
      ⟨(r.onStore.run s).result, inMemory (r.onStore.run s).state w, (r.onStore.run s).events⟩ :=
  rfl

theorem Exchange.returns_perform_iff {r : Request} {s : Store} {w : Wire} {a : Value}
    {x : Exchange} :
    (perform r).Returns (inMemory s w) a x ↔
      ∃ t, r.onStore.Returns s a t ∧ inMemory t w = x := by
  simp only [Returns, run_perform]
  constructor
  · rintro ⟨ha, rfl⟩
    exact ⟨_, ⟨ha, rfl⟩, rfl⟩
  · rintro ⟨t, ⟨ha, rfl⟩, rfl⟩
    exact ⟨ha, rfl⟩

/-! ## Making indices -/

namespace Store

variable {s : Store} {i : String}

theorem has_ensureIndex (i : String) (s : Store) :
    Entries.has (s.ensureIndex (.str i)).indices (.str i) = true := by
  unfold ensureIndex
  split
  · assumption
  · rw [Entries.has, Entries.get?_put_self (str_beq_self i)]
    rfl

theorem returns_createIndex_null :
    (createIndex (.str i) .null).Returns s (acknowledged [("index", .str i)])
      (s.ensureIndex (.str i)) :=
  ⟨rfl, rfl⟩

theorem returns_createIndex_mappings {v : Value} (hv : v.copyable = true)
    (more : List (String × Value)) :
    (createIndex (.str i) (.object (("mappings", v) :: more))).Returns s
      (acknowledged [("index", .str i)]) ((s.ensureIndex (.str i)).putMapping (.str i) v) := by
  have hholds : (Value.object (("mappings", v) :: more)).holds (.str "mappings") = .ok true := by
    simp [Value.object, Value.holds, Value.isKey, Entries.has]
  have htruthy : (Value.object (("mappings", v) :: more)).truthy = true := rfl
  simp [createIndex, returns_bind_iff, asKey_str, htruthy, hholds, Value.copy_eq_ok hv]

end Store

/-- No mapping, or one whose types are all in the vocabulary. -/
def MappingArgument.IsTyped : MappingArgument → Prop
  | .mapping m => m.IsTyped
  | .value v => v.truthy = false

namespace IndexManager

variable {m : IndexManager} {n e body a : Value} {b : MappingArgument} {i : String}
  {s t : Store} {w : Wire}

theorem run_indexExists (i : String) (s : Store) (w : Wire) :
    (Exchange.perform (.indexExists (.str i))).run (Exchange.inMemory s w) =
      ⟨.ok (.bool (Entries.has s.indices (.str i))), Exchange.inMemory s w, []⟩ := rfl

theorem run_createIndex_of_there (hi : m.fullName n = .ok (.str i)) (he : e.truthy = true)
    (hthere : Entries.has s.indices (.str i) = true) (b : MappingArgument) :
    ∃ events, (m.createIndex n b e).run (Exchange.inMemory s w) =
      ⟨.ok (.bool false), Exchange.inMemory s w, events⟩ := by
  have hexists := run_indexExists i s w
  rw [hthere] at hexists
  simp only [createIndex, hi, lift_ok_bind, he, if_true, run_bind, hexists, Value.truthy_bool]
  exact ⟨_, rfl⟩

theorem run_createIndex_of_absent (hi : m.fullName n = .ok (.str i))
    (habsent : e.truthy = false ∨ Entries.has s.indices (.str i) = false) (b : MappingArgument) :
    (m.createIndex n b e).run (Exchange.inMemory s w) =
      (do let body ← bodyOf b
          let _ ← Exchange.perform (.createIndex (.str i) body)
          return Value.bool true : Action Exchange Value).run (Exchange.inMemory s w) := by
  cases he : e.truthy with
  | false =>
      simp only [createIndex, hi, lift_ok_bind, he]
      rfl
  | true =>
      have hexists := run_indexExists i s w
      rw [habsent.resolve_left (by simp [he])] at hexists
      simp only [createIndex, hi, lift_ok_bind, he, if_true]
      rw [run_bind, hexists]
      simp only [Value.truthy_bool, List.nil_append]
      rfl

theorem returns_createIndex (hi : m.fullName n = .ok (.str i))
    (habsent : e.truthy = false ∨ Entries.has s.indices (.str i) = false)
    (hbody : bodyOf b = .ok body) (h : (Store.createIndex (.str i) body).Returns s a t) :
    (m.createIndex n b e).Returns (Exchange.inMemory s w) (.bool true) (Exchange.inMemory t w) := by
  unfold Returns
  rw [run_createIndex_of_absent hi habsent]
  refine returns_lift_bind_iff.mpr ⟨body, hbody, returns_bind_iff.mpr ⟨a, _, ?_, rfl, rfl⟩⟩
  exact Exchange.returns_perform_iff.mpr ⟨t, h, rfl⟩

theorem returns_createIndex_mapping {b : IndexMapping} (hi : m.fullName n = .ok (.str i))
    (habsent : e.truthy = false ∨ Entries.has s.indices (.str i) = false) (hb : b.IsTyped) :
    (m.createIndex n (.mapping b) e).Returns (Exchange.inMemory s w) (.bool true)
      (Exchange.inMemory ((s.ensureIndex (.str i)).putMapping (.str i) b.created) w) := by
  obtain ⟨more, hbody⟩ := IndexMapping.render_eq hb.typed
  exact returns_createIndex hi habsent hbody
    (Store.returns_createIndex_mappings hb.sound_created.1 more)

theorem exists_created (hi : m.fullName n = .ok (.str i))
    (habsent : e.truthy = false ∨ Entries.has s.indices (.str i) = false) (hb : b.IsTyped) :
    ∃ t, (m.createIndex n b e).Returns (Exchange.inMemory s w) (.bool true)
        (Exchange.inMemory t w) ∧ Entries.has t.indices (.str i) = true := by
  cases b with
  | value v =>
      have hbody : bodyOf (.value v) = .ok .null := if_neg (Bool.eq_false_iff.mp hb)
      refine ⟨_, returns_createIndex hi habsent hbody Store.returns_createIndex_null, ?_⟩
      exact Store.has_ensureIndex i s
  | mapping m =>
      exact ⟨_, returns_createIndex_mapping hi habsent hb, Store.has_ensureIndex i s⟩

theorem run_createIndex_of_unreadable {err : Error} (hi : m.fullName n = .ok (.str i))
    (habsent : e.truthy = false ∨ Entries.has s.indices (.str i) = false)
    (hbody : bodyOf b = .error err) :
    (m.createIndex n b e).run (Exchange.inMemory s w) =
      ⟨.error err, Exchange.inMemory s w, []⟩ := by
  rw [run_createIndex_of_absent hi habsent, hbody]
  rfl

end IndexManager

end DocSearch
