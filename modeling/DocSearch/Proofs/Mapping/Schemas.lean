import DocSearch.Mapping.Basic
import DocSearch.Proofs.Action.Refusals
import DocSearch.Proofs.Value.Copies
import DocSearch.Proofs.Value.Worded
import Mathlib.Data.List.Perm.Basic

/-!
# Mappings that can be written

A mapping whose types are all in the vocabulary can be written in full. What is written can be
copied, equals itself, and is a dictionary for every field, so a mapping body takes it over as it
is.
-/

namespace DocSearch

/-! ## Dictionaries that are equal -/

namespace Value

theorem eqEntries_iff {es fs : List (Value × Value)} :
    eqEntries es fs = true ↔
      ∀ e ∈ es, ∃ f ∈ fs, (e.1 == f.1) = true ∧ (e.2 == f.2) = true := by
  induction es with
  | nil => simp [eqEntries]
  | cons e es ih =>
      rw [eqEntries, Bool.and_eq_true, ih, List.forall_mem_cons]
      simp [BEq.beq]

theorem dict_beq_of_forall {es fs : List (Value × Value)} (hlength : es.length = fs.length)
    (h : ∀ e ∈ es, ∃ f ∈ fs, (e.1 == f.1) = true ∧ (e.2 == f.2) = true) :
    (Value.dict es == Value.dict fs) = true := by
  change Value.eq (.dict es) (.dict fs) = true
  rw [eq, eqEntries_iff.mpr h, hlength, Bool.and_true, beq_self_eq_true]

theorem dict_beq_of_perm {es fs : List (Value × Value)} (h : es.Perm fs)
    (hes : ∀ e ∈ es, (e.1 == e.1) = true ∧ (e.2 == e.2) = true) :
    (Value.dict es == Value.dict fs) = true :=
  dict_beq_of_forall h.length_eq fun e he => ⟨e, h.mem_iff.mp he, hes e he⟩

/-- The value can be copied and equals itself. -/
def Sound (v : Value) : Prop := v.copyable = true ∧ (v == v) = true

theorem sound_null : Value.null.Sound := by
  simp [Sound, copyable, BEq.beq, eq, eqScalar, number?, word?, isNull]

theorem sound_str (a : String) : (Value.str a).Sound := ⟨rfl, by simp⟩

theorem sound_bool (b : Bool) : (Value.bool b).Sound := by
  cases b <;> simp [Sound, copyable, BEq.beq, eq, eqScalar, number?, Number.eq, Number.place?]

theorem sound_dict {es : List (Value × Value)} (h : ∀ e ∈ es, e.1.Sound ∧ e.2.Sound) :
    (Value.dict es).Sound := by
  constructor
  · exact copyable_dict.mpr (copyableEntries_iff.mpr fun e he => ⟨(h e he).1.1, (h e he).2.1⟩)
  · exact dict_beq_of_perm (List.Perm.refl es) fun e he => ⟨(h e he).1.2, (h e he).2.2⟩

theorem sound_object {es : List (String × Value)} (h : ∀ e ∈ es, e.2.Sound) :
    (Value.object es).Sound := by
  refine sound_dict fun e he => ?_
  obtain ⟨d, hd, rfl⟩ := List.mem_map.mp he
  exact ⟨sound_str d.1, h d hd⟩

end Value

/-! ## Fields in full -/

namespace FieldMapping

/-- The types are in the vocabulary; analyzers and the names of inner fields are texts. -/
inductive IsTyped : FieldMapping → Prop
  | mk {t a : Value} {ps : List (Value × FieldMapping)}
      (known : ∃ w, FieldType.ofValue t = .ok w) (analyzer : a = .null ∨ ∃ s, a = .str s)
      (named : Value.IsNamed ps) (inner : ∀ p ∈ ps, p.2.IsTyped) : IsTyped (.mk t a ps)

/-- A field in full, if it can be written. -/
def written (f : FieldMapping) : Value := f.render.toOption.getD .null

def writtenAll (ps : List (Value × FieldMapping)) : List (Value × Value) :=
  ps.map fun p => (p.1, p.2.written)

theorem written_of_render {f : FieldMapping} {v : Value} (h : f.render = .ok v) :
    f.written = v := by
  rw [written, h]
  rfl

theorem isNamed_writtenAll {ps : List (Value × FieldMapping)} (h : Value.IsNamed ps) :
    Value.IsNamed (writtenAll ps) := by
  obtain ⟨ns, rfl, hnodup⟩ := h
  refine ⟨ns.map fun e => (e.1, e.2.written), ?_, ?_⟩
  · simp [writtenAll, Value.named]
  · simpa [Entries.keys, Function.comp_def] using hnodup

theorem renderAll_eq_ok {ps : List (Value × FieldMapping)}
    (h : ∀ p ∈ ps, p.2.render = .ok p.2.written) : renderAll ps = .ok (writtenAll ps) := by
  induction ps with
  | nil => rfl
  | cons p ps ih =>
      obtain ⟨hp, hps⟩ := List.forall_mem_cons.mp h
      rw [renderAll, hp, ih hps]
      rfl

theorem sound_writtenAll {ps : List (Value × FieldMapping)} (h : Value.IsNamed ps)
    (hps : ∀ p ∈ ps, p.2.written.Sound) : ∀ e ∈ writtenAll ps, e.1.Sound ∧ e.2.Sound := by
  obtain ⟨ns, rfl, -⟩ := h
  intro e he
  obtain ⟨p, hp, rfl⟩ := List.mem_map.mp he
  obtain ⟨n, -, rfl⟩ := List.mem_map.mp hp
  exact ⟨Value.sound_str n.1, hps _ hp⟩

/-- A typed field is written as a dictionary. -/
theorem IsTyped.render_eq {f : FieldMapping} (h : f.IsTyped) :
    f.render = .ok f.written ∧ (∃ es, f.written = .dict es) ∧ f.written.Sound := by
  induction h with
  | @mk t a ps known analyzer named inner ih =>
      obtain ⟨w, hw⟩ := known
      have hinner : renderAll ps = .ok (writtenAll ps) := renderAll_eq_ok fun p hp => (ih p hp).1
      let parts := [("type", Value.str w.word)] ++ (if a.truthy then [("analyzer", a)] else [])
        ++ if (writtenAll ps).isEmpty then [] else [("properties", .dict (writtenAll ps))]
      have hrender : (FieldMapping.mk t a ps).render = .ok (.object parts) := by
        rw [render, hw, Except.ok_bind, hinner]
        rfl
      rw [written_of_render hrender]
      refine ⟨hrender, ⟨_, rfl⟩, Value.sound_object ?_⟩
      have hanalyzer : a.Sound := by
        rcases analyzer with rfl | ⟨s, rfl⟩
        · exact Value.sound_null
        · exact Value.sound_str s
      have hproperties : (Value.dict (writtenAll ps)).Sound :=
        Value.sound_dict (sound_writtenAll named fun p hp => (ih p hp).2.2)
      intro e he
      rcases List.mem_append.mp he with he | he
      · rcases List.mem_append.mp he with he | he
        · exact List.mem_singleton.mp he ▸ Value.sound_str w.word
        · split at he
          · exact List.mem_singleton.mp he ▸ hanalyzer
          · cases he
      · split at he
        · cases he
        · exact List.mem_singleton.mp he ▸ hproperties

end FieldMapping

theorem Value.IsNamed.perm {α : Type} {es fs : List (Value × α)} (h : IsNamed es)
    (hperm : fs.Perm es) : IsNamed fs := by
  obtain ⟨ns, rfl, hnodup⟩ := h
  obtain ⟨ms, rfl, hms⟩ :=
    (congrFun (congrFun (List.eq_map_comp_perm fun e : String × α => (Value.str e.1, e.2)) fs)
      ns).mpr hperm
  exact ⟨ms, rfl, (hms.map Prod.fst).nodup_iff.mpr hnodup⟩

/-! ## Whole mappings -/

namespace IndexMapping

/-- The names of the fields are different texts, and their types are in the vocabulary. -/
structure IsTyped (m : IndexMapping) : Prop where
  named : Value.IsNamed m.fields
  typed : ∀ p ∈ m.fields, p.2.IsTyped

def written (m : IndexMapping) : List (Value × Value) := FieldMapping.writtenAll m.fields

variable {m : IndexMapping}

theorem properties_eq (h : ∀ p ∈ m.fields, p.2.IsTyped) :
    m.properties = .ok (.dict m.written) := by
  rw [properties, FieldMapping.renderAll_eq_ok fun p hp => (h p hp).render_eq.1]
  rfl

theorem IsTyped.sound_written (h : m.IsTyped) : ∀ e ∈ m.written, e.1.Sound ∧ e.2.Sound :=
  FieldMapping.sound_writtenAll h.named fun p hp => (h.typed p hp).render_eq.2.2

theorem written_flatMap (ms : List IndexMapping) (a b : Value) :
    ms.flatMap written = written ⟨ms.flatMap fields, a, b⟩ :=
  (List.map_flatMap ..).symm

theorem IsTyped.of_perm (h : m.IsTyped) {ps : List (Value × FieldMapping)}
    (hperm : ps.Perm m.fields) (a b : Value) : IsTyped ⟨ps, a, b⟩ where
  named := h.named.perm hperm
  typed p hp := h.typed p (hperm.mem_iff.mp hp)

/-- The mapping of an index that is created with the fields. -/
def created (m : IndexMapping) : Value :=
  .object [("_source", sourceEnabled), ("properties", .dict m.written)]

theorem sound_sourceEnabled : sourceEnabled.Sound :=
  Value.sound_object (List.forall_mem_singleton.mpr (Value.sound_bool true))

theorem IsTyped.sound_created (h : m.IsTyped) : m.created.Sound := by
  refine Value.sound_object (List.forall_mem_cons.mpr ⟨sound_sourceEnabled, ?_⟩)
  exact List.forall_mem_singleton.mpr (Value.sound_dict h.sound_written)

theorem render_eq (h : ∀ p ∈ m.fields, p.2.IsTyped) :
    ∃ more, m.render = .ok (.object (("mappings", m.created) :: more)) := by
  refine ⟨if m.settings.isEmpty then []
    else [("settings", .object [("index", .object m.settings)])], ?_⟩
  rw [render, properties_eq h]
  rfl

theorem beq_created {es : List (String × Value)} {v : Value}
    (hes : es.Perm [("_source", sourceEnabled), ("properties", v)])
    (hv : (v == .dict m.written) = true) : (Value.object es == m.created) = true := by
  refine Value.dict_beq_of_forall (by simpa using hes.length_eq) fun e he => ?_
  obtain ⟨d, hd, rfl⟩ := List.mem_map.mp he
  rcases List.mem_cons.mp (hes.mem_iff.mp hd) with rfl | hd
  · exact ⟨_, List.mem_cons_self, (Value.sound_str _).2, sound_sourceEnabled.2⟩
  · obtain rfl := List.mem_singleton.mp hd
    exact ⟨_, List.mem_cons_of_mem _ List.mem_cons_self, (Value.sound_str _).2, hv⟩

end IndexMapping

/-! ## Mapping bodies -/

namespace Mapping

theorem bodyFields_dict {es : List (Value × Value)} (h : ∀ e ∈ es, ∃ fs, e.2 = .dict fs) :
    bodyFields (.dict es) = .ok es := by
  refine Except.mapM_eq_ok_iff.mpr (List.forall₂_same.mpr fun e he => ?_)
  obtain ⟨fs, hfs⟩ := h e he
  rw [hfs]
  exact congrArg (fun v => Except.ok (e.1, v)) hfs.symm

theorem bodyFields_written {ps : List (Value × FieldMapping)} (h : ∀ p ∈ ps, p.2.IsTyped) :
    bodyFields (.dict (FieldMapping.writtenAll ps)) = .ok (FieldMapping.writtenAll ps) := by
  refine bodyFields_dict fun e he => ?_
  obtain ⟨p, hp, rfl⟩ := List.mem_map.mp he
  exact (h p hp).render_eq.2.1

theorem ofValue_word (t : FieldType) : FieldType.ofValue (.str t.word) = .ok t := by
  simp [FieldType.ofValue, Value.toWord, Value.word?]

theorem word?_of_ofValue {v : Value} {t : FieldType} (h : FieldType.ofValue v = .ok t) :
    v.word? = some t.word := by
  unfold FieldType.ofValue Value.toWord at h
  split at h
  · rename_i u hu
    obtain rfl := Except.ok.inj h
    obtain ⟨a, ha, hfind⟩ := Option.bind_eq_some_iff.mp hu
    have hword : u.word = a := by simpa using List.find?_some hfind
    rw [ha, hword]
  · cases h

/-- A table that gives texts a type each, by its name or as such. -/
def IsSchema (ns : List (String × Value)) : Prop :=
  (Entries.keys ns).Nodup ∧ ∀ e ∈ ns, ∃ t, FieldType.ofValue e.2 = .ok t

/-- The fields that such a table describes. -/
def schemaFields (ns : List (String × Value)) : List (Value × FieldMapping) :=
  Value.named (ns.map fun e => (e.1, .mk (.str (e.2.word?.getD "")) .null []))

variable {ns : List (String × Value)}

theorem addField_ofType {v : Value} {t : FieldType} (h : FieldType.ofValue v = .ok t)
    (m : IndexMapping) (name : String) :
    m.addField (.str name) v .null [] = .ok { m with
      fields := Entries.put m.fields (.str name) (.mk (.str (v.word?.getD "")) .null []) } := by
  rw [IndexMapping.addField, h, word?_of_ofValue h]
  rfl

theorem foldlM_schema (h : ∀ e ∈ ns, ∃ t, FieldType.ofValue e.2 = .ok t) (m : IndexMapping) :
    (Value.named ns).foldlM (fun m e => m.addField e.1 e.2 .null []) m =
      .ok { m with fields := Entries.putAll m.fields (schemaFields ns) } := by
  induction ns generalizing m with
  | nil => rfl
  | cons e ns ih =>
      obtain ⟨⟨t, ht⟩, hns⟩ := List.forall_mem_cons.mp h
      change (m.addField (.str e.1) e.2 .null [] >>= fun m =>
        (Value.named ns).foldlM (fun m e => m.addField e.1 e.2 .null []) m) = _
      rw [addField_ofType ht, Except.ok_bind, ih hns]
      rfl

theorem ofTypes_schema (k : MapKind) (h : IsSchema ns) :
    IndexMapping.ofTypes (.map k (Value.named ns)) = .ok ⟨schemaFields ns, .null, .null⟩ := by
  have hnamed : Value.IsNamed (schemaFields ns) :=
    ⟨_, rfl, by simpa [Entries.keys, Function.comp_def] using h.1⟩
  have hput : Entries.putAll [] (schemaFields ns) = schemaFields ns :=
    Value.IsNamed.putAll_eq_append hnamed
  exact (foldlM_schema h.2 .empty).trans (by rw [IndexMapping.empty, hput])

theorem isTyped_schemaFields (h : IsSchema ns) : ∀ p ∈ schemaFields ns, p.2.IsTyped := by
  intro p hp
  obtain ⟨n, hn, rfl⟩ := List.mem_map.mp hp
  obtain ⟨e, he, rfl⟩ := List.mem_map.mp hn
  obtain ⟨t, ht⟩ := h.2 e he
  exact .mk ⟨t, by rw [word?_of_ofValue ht]; exact ofValue_word t⟩ (Or.inl rfl) .nil nofun

theorem written_schemaFields (h : IsSchema ns) :
    FieldMapping.writtenAll (schemaFields ns) =
      Value.named (ns.map fun e => (e.1, .object [("type", .str (e.2.word?.getD ""))])) := by
  rw [FieldMapping.writtenAll, schemaFields, Value.named, Value.named, List.map_map, List.map_map,
    List.map_map]
  refine List.map_congr_left fun e he => Prod.ext rfl (FieldMapping.written_of_render ?_)
  obtain ⟨t, ht⟩ := h.2 e he
  change (FieldMapping.mk (.str (e.2.word?.getD "")) .null []).render = _
  rw [word?_of_ofValue ht, Option.getD_some, FieldMapping.render, ofValue_word]
  rw [Function.comp_apply, word?_of_ofValue ht]
  rfl

theorem bodyFields_schema (k : MapKind) (h : IsSchema ns) :
    bodyFields (.map k (Value.named ns)) =
      .ok (Value.named (ns.map fun e => (e.1, .object [("type", e.2)]))) := by
  refine Except.mapM_eq_ok_iff.mpr ?_
  rw [Value.named, Value.named, List.map_map, List.forall₂_map_left_iff,
    List.forall₂_map_right_iff]
  refine List.forall₂_same.mpr fun e he => ?_
  obtain ⟨t, ht⟩ := h.2 e he
  simp [fieldBody, word?_of_ofValue ht]

/-- The mapping of a table of types equals the one that its mapping body has. -/
theorem body_schema (k : MapKind) (h : IsSchema ns) :
    ∃ b m r v, body (.map k (Value.named ns)) = .ok b ∧
      IndexMapping.ofTypes (.map k (Value.named ns)) = .ok m ∧ m.render = .ok r ∧
        r.part "mappings" = .ok v ∧ (b == v) = true := by
  have hbody : body (.map k (Value.named ns)) = .ok (.object [
      ("_source", IndexMapping.sourceEnabled),
      ("properties", .dict (Value.named (ns.map fun e => (e.1, .object [("type", e.2)]))))]) := by
    rw [body, bodyFields_schema k h]
    rfl
  let m : IndexMapping := ⟨schemaFields ns, .null, .null⟩
  obtain ⟨more, hrender⟩ := IndexMapping.render_eq (m := m) (isTyped_schemaFields h)
  refine ⟨_, m, _, m.created, hbody, ofTypes_schema k h, hrender, ?_, ?_⟩
  · rw [Value.part_object_cons, if_pos rfl]
  · refine IndexMapping.beq_created (List.Perm.refl _) ?_
    have hwritten : m.written = _ := written_schemaFields h
    rw [hwritten]
    refine Value.dict_beq_of_forall (by simp [Value.named]) fun e he => ?_
    obtain ⟨n, hn, rfl⟩ := List.mem_map.mp he
    obtain ⟨d, hd, rfl⟩ := List.mem_map.mp hn
    obtain ⟨t, ht⟩ := h.2 d hd
    refine ⟨_, List.mem_map_of_mem (List.mem_map_of_mem hd), (Value.sound_str d.1).2, ?_⟩
    -- a type equals its name
    have htype : (d.2 == Value.str (d.2.word?.getD "")) = true := by
      rw [Value.beq_word rfl, word?_of_ofValue ht]
      exact BEq.rfl
    refine Value.dict_beq_of_forall rfl fun e he => ?_
    obtain rfl := List.mem_singleton.mp he
    exact ⟨_, List.mem_cons_self, (Value.sound_str "type").2, htype⟩

end Mapping

end DocSearch
