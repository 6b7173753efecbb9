import DocSearch.Proofs.Gateway.Managers
import DocSearch.Proofs.Gateway.Reached

/-!
# The mapping of an index

Creating an index with a mapping and adding the fields of the mapping to an index that has none
agree, also where the fields are added in parts. Fields that are added are merged with those that are
there: the last definition of a field counts, and no field is lost.
-/

namespace DocSearch

open DocSearch.Action

/-! ## Adding fields to a store -/

namespace Store

/-- The mapping of an index that fields were added to. -/
def merged (es : List (Value × Value)) : Value :=
  .object [("properties", .dict es), ("_source", IndexMapping.sourceEnabled)]

/-- The index has these fields, all of which were added; without any it need not have a mapping. -/
def HasAdded (s : Store) (i : String) (es : List (Value × Value)) : Prop :=
  Entries.get? s.mappings (.str i) = some (merged es) ∨
    Entries.get? s.mappings (.str i) = none ∧ es = []

variable {s t : Store} {i : String} {es : List (Value × Value)} {ps a : Value}
  {pss answers : List Value}

theorem putMapping_putMapping (i : String) (v x : Value) (s : Store) :
    putMapping (.str i) x (putMapping (.str i) v s) = putMapping (.str i) x s := by
  simp only [putMapping, Entries.put_put (str_beq_self i)]

theorem mappings_ensureIndex (i : Value) (s : Store) : (s.ensureIndex i).mappings = s.mappings := by
  unfold ensureIndex
  split <;> rfl

theorem get?_putMapping (i : String) (v : Value) (s : Store) :
    Entries.get? (putMapping (.str i) v s).mappings (.str i) = some v :=
  Entries.get?_put_self (str_beq_self i) _ _

theorem returns_addFields_iff (h : s.HasAdded i es) :
    (addFields (.str i) ps).Returns s a t ↔ ∃ fs, Mapping.bodyFields ps = .ok fs ∧
      putMapping (.str i) (merged (Entries.putAll es fs)) (s.ensureIndex (.str i)) = t ∧
        acknowledged [] = a := by
  let both : List (String × Value) :=
    [("properties", .dict es), ("_source", IndexMapping.sourceEnabled)]
  -- with the second entry put in place, it does not matter whether there is a mapping already
  obtain ⟨cs, hcurrent, hsource⟩ : ∃ cs, (Entries.get? s.mappings (.str i)).getD
      (.object [("properties", .dict [])]) = .dict cs ∧
        Entries.put cs (.str "_source") IndexMapping.sourceEnabled = Value.named both := by
    rcases h with h | ⟨h, rfl⟩
    · exact ⟨Value.named both, by rw [h]; rfl, by simp [both, Value.put_named, Entries.put]⟩
    · refine ⟨Value.named [("properties", .dict [])], by rw [h]; rfl, ?_⟩
      simp [both, Value.put_named, Entries.put]
  have hfield : Value.hasField (Value.named both) "properties" = true := by
    simp [Value.hasField, Value.field?, Value.get?_named, both]
  have hget : Value.fieldD (Value.named both) "properties" .null = .dict es := by
    simp [Value.fieldD, Value.field?, Value.get?_named, both]
  have hmerged (v : Value) : Value.dict (Entries.put (Value.named both) (.str "properties") v) =
      .object [("properties", v), ("_source", IndexMapping.sourceEnabled)] := by
    simp [both, Value.put_named, Entries.put]
    rfl
  simp [addFields, asKey_str, mappings_ensureIndex, hcurrent, hsource, hfield, hget, mergeFields,
    mappingEntries, hmerged, putMapping_putMapping, merged]

/-- A run that is not empty leaves the fields that were there, with all that it added. -/
theorem get?_of_added (h : s.HasAdded i es)
    (hrun : (pss.mapM (addFields (.str i))).Returns s answers t) :
    ∃ fss, pss.mapM Mapping.bodyFields = .ok fss ∧
      (Entries.get? t.mappings (.str i) = some (merged (Entries.putAll es fss.flatten)) ∨
        pss = [] ∧ s = t) := by
  -- after the first call the mapping is there, so the two cases of what was added before meet
  induction pss generalizing s es answers with
  | nil =>
      rw [List.mapM_nil, returns_pure_iff] at hrun
      exact ⟨[], rfl, Or.inr ⟨rfl, hrun.2⟩⟩
  | cons ps pss ih =>
      simp only [List.mapM_cons, returns_bind_iff] at hrun
      obtain ⟨a, u, hstep, as, v, hrest, hpure⟩ := hrun
      obtain ⟨-, rfl⟩ := returns_pure_iff.mp hpure
      obtain ⟨fs, hfs, hu, -⟩ := (returns_addFields_iff h).mp hstep
      have hadded := get?_putMapping i (merged (Entries.putAll es fs)) (s.ensureIndex (.str i))
      rw [hu] at hadded
      obtain ⟨fss, hfss, hlast⟩ := ih (Or.inl hadded) hrest
      refine ⟨fs :: fss, by rw [List.mapM_cons, hfs, hfss]; rfl, Or.inl ?_⟩
      rw [List.flatten_cons, Entries.putAll_append]
      rcases hlast with hlast | ⟨rfl, rfl⟩
      · exact hlast
      · obtain rfl := Except.ok.inj hfss
        exact hadded

theorem exists_added (h : s.HasAdded i es)
    (hpss : ∀ ps ∈ pss, ∃ fs, Mapping.bodyFields ps = .ok fs) :
    ∃ answers t, (pss.mapM (addFields (.str i))).Returns s answers t := by
  induction pss generalizing s es with
  | nil => exact ⟨[], s, rfl, rfl⟩
  | cons ps pss ih =>
      obtain ⟨⟨fs, hfs⟩, hpss⟩ := List.forall_mem_cons.mp hpss
      have hstep := (returns_addFields_iff h).mpr ⟨fs, hfs, rfl, rfl⟩
      obtain ⟨as, t, hrun⟩ := ih (Or.inl (get?_putMapping ..)) hpss
      refine ⟨acknowledged [] :: as, t, ?_⟩
      rw [List.mapM_cons]
      exact returns_bind_iff.mpr ⟨_, _, hstep, returns_bind_iff.mpr
        ⟨as, t, hrun, returns_pure_iff.mpr ⟨rfl, rfl⟩⟩⟩

/-- The last definition of a field counts, and no field is lost. -/
theorem exists_merged (hnone : Entries.get? s.mappings (.str i) = none) (hpss : pss ≠ [])
    (hrun : (pss.mapM (addFields (.str i))).Returns s answers t) :
    ∃ fss es, pss.mapM Mapping.bodyFields = .ok fss ∧
      Entries.get? t.mappings (.str i) = some (merged es) ∧ ∀ f : String,
        Entries.get? es (.str f) = Entries.get? fss.flatten.reverse (.str f) ∧
          (Entries.has es (.str f) = true ↔ ∃ fs ∈ fss, Entries.has fs (.str f) = true) := by
  obtain ⟨fss, hfss, hlast⟩ := get?_of_added (Or.inr ⟨hnone, rfl⟩) hrun
  refine ⟨fss, _, hfss, hlast.resolve_right fun h => hpss h.1, fun f => ?_⟩
  have hget : Entries.get? (Entries.putAll [] fss.flatten) (.str f) =
      Entries.get? fss.flatten.reverse (.str f) := by
    rw [Value.get?_putAll_str, Entries.get?_nil, Option.or_none]
  refine ⟨hget, ?_⟩
  rw [Entries.has, hget, ← Entries.has, Entries.has_iff_exists_key]
  simp only [Entries.has_iff_exists_key, Entries.keys, List.mem_map, List.mem_reverse,
    List.mem_flatten]
  constructor
  · rintro ⟨_, ⟨e, ⟨fs, hfs, he⟩, rfl⟩, hf⟩
    exact ⟨fs, hfs, e.1, ⟨e, he, rfl⟩, hf⟩
  · rintro ⟨fs, hfs, _, ⟨e, he, rfl⟩, hf⟩
    exact ⟨e.1, ⟨e, ⟨fs, hfs, he⟩, rfl⟩, hf⟩

end Store

/-! ## Adding fields through a manager -/

/-- The gateway tells this mapping of an index. -/
def Exchange.HasMapping (x : Exchange) (i v : Value) : Prop := (Exchange.mapping i).Returns x v x

theorem Exchange.hasMapping_of_get? {s : Store} {i : String} {v : Value} (w : Wire)
    (h : Entries.get? s.mappings (.str i) = some v) (hv : v.copyable = true) :
    (inMemory s w).HasMapping (.str i) v := by
  have hmapping : (Store.mapping (.str i)).Returns s v s := by
    simp [Store.mapping, Store.asKey_str, h, Value.copy_eq_ok hv]
  exact ⟨hmapping.1, congrArg (inMemory · w) hmapping.2⟩

namespace IndexManager

variable {k : IndexManager} {n a : Value} {i : String} {s t : Store} {w : Wire}
  {m : IndexMapping} {ms : List IndexMapping} {answers : List Value}

theorem returns_putMapping (hi : k.fullName n = .ok (.str i)) (hm : ∀ p ∈ m.fields, p.2.IsTyped)
    (h : (Store.addFields (.str i) (.dict m.written)).Returns s a t) :
    (k.putMapping n (.mapping m)).Returns (.inMemory s w) a (.inMemory t w) := by
  refine returns_lift_bind_iff.mpr ⟨m, rfl, returns_bind_iff.mpr ⟨(), _, ⟨rfl, rfl⟩, ?_⟩⟩
  refine returns_lift_bind_iff.mpr ⟨_, hi, ?_⟩
  refine returns_lift_bind_iff.mpr ⟨_, IndexMapping.properties_eq hm, ?_⟩
  exact Exchange.returns_perform_iff.mpr ⟨t, h, rfl⟩

theorem run_putMapping_of_unreadable {err : Error} (hi : k.fullName n = .ok (.str i))
    (h : m.properties = .error err) :
    (k.putMapping n (.mapping m)).run (.inMemory s w) = ⟨.error err, .inMemory s w, []⟩ := by
  change (do let index ← liftM (k.fullName n)
             let ps ← liftM m.properties
             Exchange.perform (.putMapping index ps) :
    Action Exchange Value).run (.inMemory s w) = _
  rw [hi, h]
  rfl

theorem returns_putMappings (hi : k.fullName n = .ok (.str i))
    (hms : ∀ m ∈ ms, ∀ p ∈ m.fields, p.2.IsTyped)
    (h : ((ms.map fun m => .dict m.written).mapM (Store.addFields (.str i))).Returns s answers t) :
    (ms.mapM fun m => k.putMapping n (.mapping m)).Returns (.inMemory s w) answers
      (.inMemory t w) := by
  induction ms generalizing s answers with
  | nil =>
      obtain ⟨rfl, rfl⟩ := returns_pure_iff.mp h
      exact ⟨rfl, rfl⟩
  | cons m ms ih =>
      obtain ⟨hm, hms⟩ := List.forall_mem_cons.mp hms
      simp only [List.map_cons, List.mapM_cons, returns_bind_iff, returns_pure_iff] at h ⊢
      obtain ⟨a, u, hstep, as, v, hrest, rfl, rfl⟩ := h
      exact ⟨a, _, returns_putMapping hi hm hstep, as, _, ih hms hrest, rfl, rfl⟩

theorem mapM_bodyFields (hms : ∀ m ∈ ms, ∀ p ∈ m.fields, p.2.IsTyped) :
    (ms.map fun m => Value.dict m.written).mapM Mapping.bodyFields =
      .ok (ms.map IndexMapping.written) := by
  refine Except.mapM_eq_ok_iff.mpr ?_
  rw [List.forall₂_map_left_iff, List.forall₂_map_right_iff]
  exact List.forall₂_same.mpr fun m hm => Mapping.bodyFields_written (hms m hm)

/-- Adding the fields of a mapping in parts makes the mapping that an index is created with. -/
theorem exists_put_in_parts (hi : k.fullName n = .ok (.str i)) (hm : m.IsTyped)
    (hnone : Entries.get? s.mappings (.str i) = none) (hms : ms ≠ [])
    (hperm : (ms.flatMap IndexMapping.fields).Perm m.fields) (w : Wire) :
    ∃ answers t v, (ms.mapM fun m => k.putMapping n (.mapping m)).Returns (.inMemory s w) answers
        (.inMemory t w) ∧
      (Exchange.inMemory t w).HasMapping (.str i) v ∧ (v == m.created) = true := by
  have htyped : ∀ l ∈ ms, ∀ p ∈ l.fields, p.2.IsTyped := fun l hl p hp =>
    hm.typed p (hperm.mem_iff.mp (List.mem_flatMap.mpr ⟨l, hl, hp⟩))
  have hadded : s.HasAdded i [] := Or.inr ⟨hnone, rfl⟩
  have hread := mapM_bodyFields htyped
  obtain ⟨answers, t, hrun⟩ := Store.exists_added hadded (Except.exists_mapM_iff.mp ⟨_, hread⟩)
  obtain ⟨fss, hfss, hlast⟩ := Store.get?_of_added hadded hrun
  obtain rfl := Except.ok.inj (hread.symm.trans hfss)
  -- all of the parts as one mapping
  let whole : IndexMapping := ⟨ms.flatMap IndexMapping.fields, .null, .null⟩
  have hwhole : whole.IsTyped := hm.of_perm hperm _ _
  have hfields : Entries.putAll [] (ms.map IndexMapping.written).flatten = whole.written := by
    rw [← List.flatMap_def, IndexMapping.written_flatMap ms .null .null]
    exact Value.IsNamed.putAll_eq_append (FieldMapping.isNamed_writtenAll hwhole.named)
  rw [hfields] at hlast
  have hstored := hlast.resolve_right fun h => hms (List.map_eq_nil_iff.mp h.1)
  have hsound : (Store.merged whole.written).Sound := by
    refine Value.sound_object (List.forall_mem_cons.mpr ⟨Value.sound_dict hwhole.sound_written, ?_⟩)
    exact List.forall_mem_singleton.mpr IndexMapping.sound_sourceEnabled
  refine ⟨answers, t, _, returns_putMappings hi htyped hrun,
    Exchange.hasMapping_of_get? w hstored hsound.1, IndexMapping.beq_created (List.Perm.swap ..) ?_⟩
  refine Value.dict_beq_of_perm (hperm.map _) fun e he => ?_
  obtain ⟨hkey, hvalue⟩ := hwhole.sound_written e he
  exact ⟨hkey.2, hvalue.2⟩

/-- Creating an index that is not there with a mapping and adding the fields of the mapping make
equal mappings, also where the fields are added in parts; a mapping that cannot be written is refused
alike. On an index without a mapping, any run of additions that returns leaves the union of the
fields, where the last definition of each counts. The mapping body of a table of types equals the
mapping that the table makes. -/
theorem mappings_agree {m : IndexMapping} (hm : m.IsTyped) {s : Store} (hs : s.Reached)
    {p n : String} (habsent : Entries.has s.indices (.str (p ++ n)) = false) (e : Value)
    (w : Wire) :
    let k : IndexManager := ⟨.str p⟩
    (∃ t u a v,
      (k.createIndex (.str n) (.mapping m) e).Returns (.inMemory s w) (.bool true)
        (.inMemory t w) ∧ (Exchange.inMemory t w).HasMapping (.str (p ++ n)) m.created ∧
      (k.putMapping (.str n) (.mapping m)).Returns (.inMemory s w) a (.inMemory u w) ∧
        (Exchange.inMemory u w).HasMapping (.str (p ++ n)) v ∧ (v == m.created) = true) ∧
    (∀ ms : List IndexMapping, ms ≠ [] → (ms.flatMap IndexMapping.fields).Perm m.fields →
      ∃ answers t v, (ms.mapM fun m => k.putMapping (.str n) (.mapping m)).Returns
          (.inMemory s w) answers (.inMemory t w) ∧
        (Exchange.inMemory t w).HasMapping (.str (p ++ n)) v ∧ (v == m.created) = true) ∧
    (∀ (m : IndexMapping) (err : Error), m.properties = .error err →
      (k.createIndex (.str n) (.mapping m) e).run (.inMemory s w) =
          ⟨.error err, .inMemory s w, []⟩ ∧
        (k.putMapping (.str n) (.mapping m)).run (.inMemory s w) =
          ⟨.error err, .inMemory s w, []⟩) ∧
    (∀ (s t : Store) (i : String) (pss answers : List Value),
      Entries.get? s.mappings (.str i) = none → pss ≠ [] →
      (pss.mapM fun ps => (Request.putMapping (.str i) ps).onStore).Returns s answers t →
      ∃ fss es, pss.mapM Mapping.bodyFields = .ok fss ∧
        Entries.get? t.mappings (.str i) = some (Store.merged es) ∧ ∀ f : String,
          Entries.get? es (.str f) = Entries.get? fss.flatten.reverse (.str f) ∧
            (Entries.has es (.str f) = true ↔ ∃ fs ∈ fss, Entries.has fs (.str f) = true)) ∧
    ∀ (k : MapKind) (ns : List (String × Value)), Mapping.IsSchema ns →
      ∃ b m r v, Mapping.body (.map k (Value.named ns)) = .ok b ∧
        IndexMapping.ofTypes (.map k (Value.named ns)) = .ok m ∧ m.render = .ok r ∧
          r.part "mappings" = .ok v ∧ (b == v) = true := by
  intro k
  have hi : k.fullName (.str n) = .ok (.str (p ++ n)) := fullName_str p n
  have hnone := hs.unmapped habsent
  refine ⟨?_, fun ms hms hperm => exists_put_in_parts hi hm hnone hms hperm w, ?_, ?_, ?_⟩
  · have hcreate := returns_createIndex_mapping (e := e) (w := w) hi (Or.inr habsent) hm
    have hstored := Store.get?_putMapping (p ++ n) m.created (s.ensureIndex (.str (p ++ n)))
    have htold := Exchange.hasMapping_of_get? w hstored hm.sound_created.1
    have hone : ([m].flatMap IndexMapping.fields).Perm m.fields := by simp
    obtain ⟨answers, u, v, hput, hv⟩ := exists_put_in_parts hi hm hnone (List.cons_ne_nil m []) hone w
    simp only [List.mapM_cons, List.mapM_nil, pure_bind, returns_bind_iff, returns_pure_iff] at hput
    obtain ⟨a, x, hput, -, rfl⟩ := hput
    exact ⟨_, u, a, v, hcreate, htold, hput, hv⟩
  · intro m err herr
    refine ⟨run_createIndex_of_unreadable hi (Or.inr habsent) ?_, ?_⟩
    · rw [bodyOf, IndexMapping.render, herr]
      rfl
    · exact run_putMapping_of_unreadable hi herr
  · intro s t i pss answers hnone hpss hrun
    exact Store.exists_merged hnone hpss hrun
  · exact fun k ns hns => Mapping.body_schema k hns

/-- A nested field and one with an analyzer, added the other way round beside another index. -/
theorem mappings_agree_of_nested :
    let tags : Value × FieldMapping := (.str "tags",
      .mk (.str "nested") .null [(.str "name", .mk (.str "keyword") .null [])])
    let title : Value × FieldMapping := (.str "title", .mk (.str "text") (.str "english") [])
    let m : IndexMapping := ⟨[tags, title], .int 1, .null⟩
    let s : Store := ⟨[(.str "a-x", [])], [], []⟩
    let k : IndexManager := ⟨.str "a-"⟩
    ∃ answers t v, ([⟨[title], .null, .null⟩, ⟨[tags], .null, .null⟩].mapM fun m =>
        k.putMapping (.str "y") (.mapping m)).Returns (.inMemory s ⟨[], 0⟩) answers
          (.inMemory t ⟨[], 0⟩) ∧
      (Exchange.inMemory t ⟨[], 0⟩).HasMapping (.str "a-y") v ∧ (v == m.created) = true := by
  intro tags title m s k
  have hword (t : FieldType) : ∃ w, FieldType.ofValue (.str t.word) = .ok w :=
    ⟨t, Mapping.ofValue_word t⟩
  have hname : (FieldMapping.mk (.str "keyword") .null []).IsTyped :=
    .mk (hword .keyword) (Or.inl rfl) .nil (List.forall_mem_nil _)
  have hm : m.IsTyped := {
    named := ⟨[("tags", tags.2), ("title", title.2)], rfl, by decide⟩
    typed := by
      refine List.forall_mem_cons.mpr ⟨?_, List.forall_mem_singleton.mpr ?_⟩
      · refine .mk (hword .nested) (Or.inl rfl) ⟨[("name", _)], rfl, by decide⟩ ?_
        exact List.forall_mem_singleton.mpr hname
      · exact .mk (hword .text) (Or.inr ⟨"english", rfl⟩) .nil (List.forall_mem_nil _) }
  have hs : s.Reached := ⟨[.createIndex (.str "a-x") .null], rfl⟩
  have habsent : Entries.has s.indices (.str ("a-" ++ "y")) = false := by simp [s, Entries.has]
  obtain ⟨-, hparts, -⟩ := mappings_agree hm hs habsent .null ⟨[], 0⟩
  exact hparts _ (List.cons_ne_nil _ _) (List.Perm.swap ..)

end IndexManager

end DocSearch
