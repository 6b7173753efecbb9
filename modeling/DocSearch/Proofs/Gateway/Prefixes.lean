import DocSearch.Proofs.Gateway.Invariants
import DocSearch.Proofs.Gateway.Managers
import DocSearch.Proofs.Value.Worded

/-!
# Prefixes

A manager with a prefix does what one without does under longer names. Whatever it is asked for, and
however that ends, it leaves all other indices of the store alone.
-/

namespace DocSearch

open DocSearch.Action

/-! ## Full names -/

namespace ManagerCall

def name : ManagerCall → Value
  | createIndex n _ _ | deleteIndex n | indexExists n | putMapping n _ => n
  | upsert n _ _ _ | delete n _ _ | bulkUpsert n _ _ => n

/-- The same call about another index. -/
def rename (n : Value) : ManagerCall → ManagerCall
  | createIndex _ m e => createIndex n m e
  | deleteIndex _ => deleteIndex n
  | indexExists _ => indexExists n
  | putMapping _ fs => putMapping n fs
  | upsert _ i d r => upsert n i d r
  | delete _ i r => delete n i r
  | bulkUpsert _ ds r => bulkUpsert n ds r

/-- A manager does what one without a prefix does with the full name. -/
theorem apply_eq_rename {m : IndexManager} {c : ManagerCall} {i : Value}
    (h : m.fullName c.name = .ok i) : c.apply m = (c.rename i).apply ⟨.str ""⟩ := by
  have hbare : (⟨.str ""⟩ : IndexManager).fullName i = .ok i := rfl
  cases c <;> simp only [name] at h <;>
    simp only [apply, rename, IndexManager.createIndex, IndexManager.deleteIndex,
      IndexManager.indexExists, IndexManager.putMapping, IndexManager.upsert, IndexManager.delete,
      IndexManager.bulkUpsert, IndexManager.onIndex, h, hbare]

end ManagerCall

/-! ## What a request leaves alone -/

namespace Exchange

/-- What a gateway in memory has under a key; the rest of the exchange is seen as well. -/
def glimpse (j : Value) (x : Exchange) :
    Option ((Option (List (Value × Value)) × Option Value × List Value) × Wire) :=
  x.gateway.bind fun
    | .memory s => some (s.glimpse j, x.wire)
    | .cluster _ => none

abbrev Spares (j : Value) {α : Type} (a : Action Exchange α) : Prop :=
  a.Steady (glimpse j) fun _ => True

theorem spares_perform {r : Request} {j : Value}
    (h : ∀ seen, r.onStore.Keeps fun s => s.glimpse j = seen) : Spares j (perform r) := by
  rintro ⟨g, w⟩
  refine ⟨?_, fun _ _ => trivial⟩
  cases g with
  | none => rfl
  | some g =>
      cases g with
      | cluster c => rfl
      | memory s =>
          have hs : Store.glimpse j (r.onStore.run s).state = Store.glimpse j s := h _ s rfl
          change some (Store.glimpse j (r.onStore.run s).state, w) = some (Store.glimpse j s, w)
          rw [hs]

theorem spares_requireGateway {j : Value} : Spares j requireGateway :=
  steady_get.bind fun _ => steady_ite (steady_throw _) (steady_pure _)

end Exchange

theorem IndexManager.spares_onIndex {m : IndexManager} {n i j : Value} {request : Value → Request}
    (hi : m.fullName n = .ok i) (h : Exchange.Spares j (Exchange.perform (request i))) :
    Exchange.Spares j (m.onIndex n request) := by
  refine Exchange.spares_requireGateway.bind fun _ => ?_
  rw [hi, lift_ok_bind]
  exact h

theorem ManagerCall.spares_apply {c : ManagerCall} {m : IndexManager} {i : String} {j : Value}
    (hi : m.fullName c.name = .ok (.str i)) (hj : j.word? ≠ some i) :
    Exchange.Spares j (c.apply m) := by
  have hindex := Store.stable_glimpse (Value.apart_of_word_ne (i := .str i) rfl hj)
  have hbare : (⟨.str ""⟩ : IndexManager).fullName (.str i) = .ok (.str i) := rfl
  rw [apply_eq_rename hi]
  cases c with
  | createIndex n b e =>
      have hcreate : Exchange.Spares j (do
          Exchange.requireGateway
          let _ ← Exchange.perform (.createIndex (.str i) (← IndexManager.bodyOf b))
          return Value.bool true) := by
        refine Exchange.spares_requireGateway.bind fun _ => (steady_lift _).bind fun body => ?_
        refine Steady.bind ?_ fun _ => steady_pure _
        exact Exchange.spares_perform fun seen => (hindex seen).keeps_createIndex body
      refine steady_ite ?_ hcreate
      refine Steady.bind ?_ fun there => ?_
      · exact Exchange.spares_perform fun _ => Store.keeps_indexExists _
      · exact steady_ite ((steady_log (fun _ => trivial) _ _ _).bind fun _ => steady_pure _) hcreate
  | putMapping n fs =>
      refine (steady_lift _).bind fun mapping => Exchange.spares_requireGateway.bind fun _ => ?_
      rw [hbare, lift_ok_bind]
      refine (steady_lift _).bind fun properties => ?_
      exact Exchange.spares_perform fun seen => (hindex seen).keeps_addFields properties
  | deleteIndex n =>
      exact IndexManager.spares_onIndex hbare <|
        Exchange.spares_perform fun seen => (hindex seen).keeps_deleteIndex
  | indexExists n =>
      exact IndexManager.spares_onIndex hbare <|
        Exchange.spares_perform fun _ => Store.keeps_indexExists _
  | upsert n id d r =>
      exact IndexManager.spares_onIndex hbare <|
        Exchange.spares_perform fun seen => (hindex seen).keeps_indexDocument id d
  | delete n id r =>
      exact IndexManager.spares_onIndex hbare <|
        Exchange.spares_perform fun seen => (hindex seen).keeps_deleteDocument id
  | bulkUpsert n ds r =>
      exact IndexManager.spares_onIndex hbare <|
        Exchange.spares_perform fun seen => (hindex seen).keeps_bulkIndex ds

namespace IndexManager

/-- The calls of a run leave a gateway in memory, and in it all indices of other names. -/
theorem exists_store_of_attempts {m : IndexManager} {cs : List ManagerCall}
    {full : ManagerCall → String} (hcs : ∀ c ∈ cs, m.fullName c.name = .ok (.str (full c)))
    (s : Store) (w : Wire) :
    ∃ t, ((attempts (cs.map (·.apply m))).run (.inMemory s w)).state = .inMemory t w ∧
      t.searches = s.searches ∧ ∀ j : Value, (∀ c ∈ cs, j.word? ≠ some (full c)) →
        t.glimpse j = s.glimpse j := by
  have hspared (j : Value) (hj : ∀ c ∈ cs, j.word? ≠ some (full c)) :
      Exchange.glimpse j ((attempts (cs.map (·.apply m))).run (.inMemory s w)).state =
        some (s.glimpse j, w) := by
    have hrun : Exchange.Spares j (attempts (cs.map (·.apply m))) := by
      refine steady_attempts fun a ha => ?_
      obtain ⟨c, hc, rfl⟩ := List.mem_map.mp ha
      exact ManagerCall.spares_apply (hcs c hc) (hj c hc)
    exact (hrun _).1
  -- null names no index, so what is seen under it shows that the gateway stays in memory
  have hnull := hspared .null fun _ _ => nofun
  cases hx : ((attempts (cs.map (·.apply m))).run (.inMemory s w)).state with
  | mk g w' =>
      rw [hx] at hspared hnull
      obtain ⟨g, rfl, hg⟩ := Option.bind_eq_some_iff.mp hnull
      cases g with
      | cluster c => cases hg
      | memory t =>
          obtain ⟨hglimpse, rfl⟩ := Prod.mk.inj (Option.some.inj hg)
          refine ⟨t, rfl, (Prod.mk.inj (Prod.mk.inj hglimpse).2).2, fun j hj => ?_⟩
          exact (Prod.mk.inj (Option.some.inj (hspared j hj))).1

/-- A manager with a prefix answers and works as one without that is given the names behind the
prefix, through any run of calls, failing ones included. Indices of other names keep their documents
and mappings, so two names never share an index. An index that is there and may be there is left as
it is, whatever mapping is given; otherwise it is there afterwards, unless the mapping that is given
cannot be written. -/
theorem prefix_isolates {p : String} {cs : List ManagerCall}
    (hcs : ∀ c ∈ cs, ∃ n, c.name = .str n) (s : Store) (w : Wire) :
    let m : IndexManager := ⟨.str p⟩
    let o := (attempts (cs.map (·.apply m))).run (.inMemory s w)
    o = (attempts (cs.map fun c =>
        (c.rename (.str (p ++ c.name.text))).apply ⟨.str ""⟩)).run (.inMemory s w) ∧
    (∃ t, o.state = .inMemory t w ∧ t.searches = s.searches ∧
      (∀ j : Value, (∀ c ∈ cs, j.word? ≠ some (p ++ c.name.text)) →
        Entries.get? t.indices j = Entries.get? s.indices j ∧
          Entries.get? t.mappings j = Entries.get? s.mappings j) ∧
      ∀ n, (∀ c ∈ cs, c.name ≠ .str n) →
        Entries.get? t.indices (.str (p ++ n)) = Entries.get? s.indices (.str (p ++ n)) ∧
          Entries.get? t.mappings (.str (p ++ n)) = Entries.get? s.mappings (.str (p ++ n))) ∧
    ∀ (n : String) (b : MappingArgument) (e : Value) (s : Store),
      let there := Entries.has s.indices (.str (p ++ n))
      (e.truthy = true → there = true → ∃ events,
        (m.createIndex (.str n) b e).run (.inMemory s w) =
          ⟨.ok (.bool false), .inMemory s w, events⟩) ∧
      (e.truthy = false ∨ there = false →
        (b.IsTyped → ∃ t, (m.createIndex (.str n) b e).Returns (.inMemory s w) (.bool true)
            (.inMemory t w) ∧ Entries.has t.indices (.str (p ++ n)) = true) ∧
        ∀ err, bodyOf b = .error err → (m.createIndex (.str n) b e).run (.inMemory s w) =
          ⟨.error err, .inMemory s w, []⟩) := by
  intro m o
  have hname : ∀ c ∈ cs, m.fullName c.name = .ok (.str (p ++ c.name.text)) := by
    intro c hc
    obtain ⟨n, hn⟩ := hcs c hc
    rw [hn, fullName_str, Value.text_str]
  refine ⟨?_, ?_, fun n b e s =>
    ⟨fun he hthere => ?_, fun habsent => ⟨fun hb => ?_, fun err herr => ?_⟩⟩⟩
  · have hcalls : cs.map (·.apply m) =
        cs.map fun c => (c.rename (.str (p ++ c.name.text))).apply ⟨.str ""⟩ := by
      refine List.map_congr_left fun c hc => ?_
      exact ManagerCall.apply_eq_rename (hname c hc)
    rw [← hcalls]
  · obtain ⟨t, hstate, hsearches, hspared⟩ :=
      exists_store_of_attempts hname s w
    have hother : ∀ j : Value, (∀ c ∈ cs, j.word? ≠ some (p ++ c.name.text)) →
        Entries.get? t.indices j = Entries.get? s.indices j ∧
          Entries.get? t.mappings j = Entries.get? s.mappings j := by
      intro j hj
      have hglimpse := hspared j hj
      exact ⟨congrArg Prod.fst hglimpse, congrArg (·.2.1) hglimpse⟩
    refine ⟨t, hstate, hsearches, hother, fun n hn => hother _ fun c hc h => ?_⟩
    obtain ⟨k, hk⟩ := hcs c hc
    rw [hk, Value.text_str] at h
    rw [(String.append_right_inj p).mp (Option.some.inj h)] at hn
    exact hn c hc hk
  · exact run_createIndex_of_there (fullName_str p n) he hthere b
  · exact exists_created (fullName_str p n) habsent hb
  · exact run_createIndex_of_unreadable (fullName_str p n) habsent herr

/-- Calls on `x` and `z` behind a prefix leave the plain `x` and a sibling alone. -/
theorem prefix_isolates_of_two_names :
    let m : IndexManager := ⟨.str "a-"⟩
    let cs : List ManagerCall := [.createIndex (.str "x") (.value .null) (.bool true),
      .upsert (.str "x") (.list []) .null (.bool false), .deleteIndex (.str "z")]
    let s : Store := ⟨[(.str "x", [(.str "1", .null)]), (.str "a-y", []), (.str "a-z", [])], [], []⟩
    ∃ t, ((attempts (cs.map (·.apply m))).run (.inMemory s ⟨[], 0⟩)).state =
        .inMemory t ⟨[], 0⟩ ∧
      Entries.get? t.indices (.str "x") = some [(.str "1", .null)] ∧
      Entries.get? t.indices (.str "a-y") = some [] := by
  intro m cs s
  have hcs : ∀ c ∈ cs, ∃ n, c.name = .str n := by
    simp [cs, ManagerCall.name]
  obtain ⟨-, ⟨t, hstate, -, hother, hnames⟩, -⟩ := prefix_isolates (p := "a-") hcs s ⟨[], 0⟩
  have hplain : ∀ c ∈ cs, (Value.str "x").word? ≠ some ("a-" ++ c.name.text) := by
    simp [cs, ManagerCall.name, Value.word?]
  have hsibling : ∀ c ∈ cs, c.name ≠ .str "y" := by simp [cs, ManagerCall.name]
  refine ⟨t, hstate, (hother (.str "x") hplain).1.trans ?_, (hnames "y" hsibling).1.trans ?_⟩
  · simp [s]
  · simp [s]

end IndexManager

end DocSearch
