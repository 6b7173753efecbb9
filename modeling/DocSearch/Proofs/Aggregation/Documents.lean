import DocSearch.Aggregation.Expansion
import DocSearch.Proofs.Action.Refusals
import DocSearch.Proofs.Value.Copies
import DocSearch.Proofs.Value.Named

/-!
# Documents of siblings

Declarations that stand side by side have a document exactly if each of them makes an entry and no two
of the entries have equal keys; the document is then the list of the entries. So the document of two
lists put together is that of the first followed by that of the second.
-/

namespace DocSearch

namespace Aggregation

/-- No key of the first list equals one of the second. -/
def Apart (js ks : List Value) : Prop := ∀ j ∈ js, ∀ k ∈ ks, (j == k) = false

def Distinct (ks : List Value) : Prop := ks.Pairwise fun j k => (j == k) = false

variable {js ks ls : List Value} {k : Value} {merged es fs : List (Value × Value)}
  {as : List Aggregation} {ds : List Declared}

theorem apart_nil_left : Apart [] ks := nofun

theorem apart_nil_right : Apart js [] := fun _ _ => nofun

theorem apart_append_left : Apart (js ++ ks) ls ↔ Apart js ls ∧ Apart ks ls :=
  List.forall_mem_append

theorem apart_cons_right : Apart js (k :: ks) ↔ (∀ j ∈ js, (j == k) = false) ∧ Apart js ks := by
  simp only [Apart, List.forall_mem_cons]
  exact forall₂_and

theorem distinct_cons : Distinct (k :: ks) ↔ Apart [k] ks ∧ Distinct ks := by
  rw [Distinct, List.pairwise_cons, Apart, List.forall_mem_singleton]
  rfl

theorem distinct_append : Distinct (js ++ ks) ↔ Distinct js ∧ Distinct ks ∧ Apart js ks :=
  List.pairwise_append

theorem keys_append (es fs : List (Value × Value)) :
    Entries.keys (es ++ fs) = Entries.keys es ++ Entries.keys fs :=
  List.map_append

theorem not_has_iff : ¬ Entries.has es k = true ↔ ∀ j ∈ Entries.keys es, (j == k) = false := by
  rw [Entries.has_iff_exists_key]
  simp

theorem put_of_new (h : ∀ j ∈ Entries.keys es, (j == k) = false) (v : Value) :
    Entries.put es k v = es ++ [(k, v)] :=
  Entries.put_of_not_has (Bool.not_eq_true _ ▸ not_has_iff.mpr h) v

/-! ## Entries of siblings -/

/-- The entry that an aggregation makes in the document of its siblings. -/
def entry (a : Aggregation) : Except Error (Value × Value) := do
  let n ← a.name.asKey
  let body ← a.render
  return (n, .dict body)

theorem entry_eq_ok_iff {a : Aggregation} {e : Value × Value} :
    a.entry = .ok e ↔
      a.name.isKey = true ∧ ∃ body, a.render = .ok body ∧ (a.name, Value.dict body) = e := by
  simp only [entry, Except.bind_eq_ok_iff, Value.asKey_eq_ok_iff]
  constructor
  · rintro ⟨n, ⟨hkey, rfl⟩, body, hbody, h⟩
    exact ⟨hkey, body, hbody, Except.ok.inj h⟩
  · rintro ⟨hkey, body, hbody, rfl⟩
    exact ⟨a.name, ⟨hkey, rfl⟩, body, hbody, rfl⟩

/-- Siblings have their entries under their names. -/
theorem keys_of_entries (h : as.mapM entry = .ok es) : Entries.keys es = as.map name := by
  have hname (a : Aggregation) (e : Value × Value) (he : a.entry = .ok e) : e.1 = a.name := by
    obtain ⟨-, body, -, rfl⟩ := entry_eq_ok_iff.mp he
    rfl
  have hentries := Except.mapM_eq_ok_iff.mp h
  clear h
  induction hentries with
  | nil => rfl
  | cons he _ ih =>
      rw [Entries.keys] at ih
      rw [Entries.keys, List.map_cons, List.map_cons, ih, hname _ _ he]

/-- The entries of siblings are put behind what is there, under keys that are not there yet. -/
theorem mergeInto_eq_ok_iff :
    mergeInto merged as = .ok es ↔ ∃ fs, as.mapM entry = .ok fs ∧
      Apart (Entries.keys merged) (Entries.keys fs) ∧ Distinct (Entries.keys fs) ∧
        merged ++ fs = es := by
  induction as generalizing merged with
  | nil =>
      rw [mergeInto, List.mapM_nil, Except.ok.injEq]
      constructor
      · rintro rfl
        exact ⟨[], rfl, apart_nil_right, List.Pairwise.nil, List.append_nil _⟩
      · rintro ⟨fs, hfs, -, -, rfl⟩
        obtain rfl := Except.ok.inj hfs
        rw [List.append_nil]
  | cons a as ih =>
      simp only [mergeInto, List.mapM_cons, Except.bind_eq_ok_iff, Value.asKey_eq_ok_iff,
        entry_eq_ok_iff]
      constructor
      · rintro ⟨n, ⟨hkey, rfl⟩, h⟩
        split at h
        · cases h
        · rename_i hhas
          have hnew := not_has_iff.mp hhas
          obtain ⟨body, hbody, h⟩ := Except.bind_eq_ok_iff.mp h
          obtain ⟨fs, hfs, hapart, hdistinct, rfl⟩ := ih.mp h
          rw [put_of_new hnew, keys_append, apart_append_left] at hapart
          refine ⟨(a.name, .dict body) :: fs, ⟨_, ⟨hkey, body, hbody, rfl⟩, fs, hfs, rfl⟩, ?_, ?_, ?_⟩
          · exact apart_cons_right.mpr ⟨hnew, hapart.1⟩
          · exact distinct_cons.mpr ⟨hapart.2, hdistinct⟩
          · rw [put_of_new hnew, List.append_assoc, List.singleton_append]
      · rintro ⟨_, ⟨e, ⟨hkey, body, hbody, rfl⟩, fs, hfs, hcons⟩, hapart, hdistinct, rfl⟩
        obtain rfl := Except.ok.inj hcons
        obtain ⟨hnew, hapart⟩ := apart_cons_right.mp hapart
        obtain ⟨hhead, hdistinct⟩ := distinct_cons.mp hdistinct
        refine ⟨a.name, ⟨hkey, rfl⟩, ?_⟩
        rw [if_neg (not_has_iff.mpr hnew), hbody]
        refine ih.mpr ⟨fs, hfs, ?_, hdistinct, ?_⟩
        · rw [put_of_new hnew, keys_append, apart_append_left]
          exact ⟨hapart, hhead⟩
        · rw [put_of_new hnew, List.append_assoc, List.singleton_append]

/-- A node with a type gets its field aggregation between its bucket and its children; a type that
yields a single value is left without children. -/
theorem cases_of_assemble {key path kind : Value} {a : Aggregation}
    (h : assemble key path kind as = .ok a) :
    (kind.truthy = true ∧ (isMetric kind = .ok true → as = []) ∧
        ∃ f, fieldNameOf key path = .ok f ∧ a = .nested key path [.field key kind f as]) ∨
      (¬ kind.truthy = true ∧ a = .nested key path as) := by
  unfold assemble at h
  split at h
  case isTrue ht =>
      obtain ⟨f, hf, h⟩ := Except.bind_eq_ok_iff.mp h
      simp only [Bool.not_eq_true'] at h
      split at h
      case isTrue hsome =>
          obtain ⟨metric, hmetric, h⟩ := Except.bind_eq_ok_iff.mp h
          cases metric with
          | true => cases h
          | false =>
              refine Or.inl ⟨ht, fun htrue => ?_, f, hf, (Except.ok.inj h).symm⟩
              rw [hmetric] at htrue
              cases htrue
      case isFalse hnone =>
          rw [Bool.not_eq_false, List.isEmpty_iff] at hnone
          exact Or.inl ⟨ht, fun _ => hnone, f, hf, (Except.ok.inj h).symm⟩
  case isFalse ht => exact Or.inr ⟨ht, (Except.ok.inj h).symm⟩

theorem expandAll_eq_mapM (ds : List Declared) : expandAll ds = ds.mapM expand := by
  induction ds with
  | nil => rfl
  | cons d ds ih => rw [expandAll, List.mapM_cons, ih]

/-- The entry that a declaration makes in the document of its siblings. -/
def entryOf (d : Declared) : Except Error (Value × Value) := do
  (← expand d).entry

theorem document_eq_ok_iff :
    document ds = .ok es ↔ ds.mapM entryOf = .ok es ∧ Distinct (Entries.keys es) := by
  unfold entryOf
  rw [document, Except.bind_eq_ok_iff, Except.mapM_bind_eq_ok_iff, expandAll_eq_mapM]
  simp only [mergeInto_eq_ok_iff]
  constructor
  · rintro ⟨as, has, fs, hfs, -, hdistinct, rfl⟩
    exact ⟨⟨as, has, hfs⟩, hdistinct⟩
  · rintro ⟨⟨as, has, hes⟩, hdistinct⟩
    exact ⟨as, has, es, hes, apart_nil_left, hdistinct, rfl⟩

theorem documentOf_seq (kind : SeqKind) (vs : List Value) :
    documentOf (.seq kind vs) = document (Declared.ofValues vs) := rfl

/-- Two lists of declarations together have a document exactly if each of them has one and no key
stands in both. -/
theorem document_append_eq_ok_iff {cs : List Declared} :
    document (cs ++ ds) = .ok es ↔ ∃ fs gs, document cs = .ok fs ∧ document ds = .ok gs ∧
      Apart (Entries.keys fs) (Entries.keys gs) ∧ fs ++ gs = es := by
  simp only [document_eq_ok_iff, Except.mapM_append_eq_ok_iff]
  constructor
  · rintro ⟨⟨fs, gs, hfs, hgs, rfl⟩, hdistinct⟩
    rw [keys_append, distinct_append] at hdistinct
    exact ⟨fs, gs, ⟨hfs, hdistinct.1⟩, ⟨hgs, hdistinct.2.1⟩, hdistinct.2.2, rfl⟩
  · rintro ⟨fs, gs, ⟨hfs, hdfs⟩, ⟨hgs, hdgs⟩, hapart, rfl⟩
    refine ⟨⟨fs, gs, hfs, hgs, rfl⟩, ?_⟩
    rw [keys_append, distinct_append]
    exact ⟨hdfs, hdgs, hapart⟩

end Aggregation

end DocSearch
