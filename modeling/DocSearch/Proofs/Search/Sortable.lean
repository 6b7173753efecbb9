import DocSearch.Proofs.Action.Refusals
import DocSearch.Proofs.Search.Positions
import DocSearch.Proofs.Value.Worded

/-!
# What can be sorted

Null and numbers are sorted as they are and everything else by its text, so a search cannot sort by a
field under which one of its hits holds a value without a text. Next to that only a direction without
a text, or a field that no text names, keeps a search from sorting.
-/

namespace DocSearch

namespace Value

/-- The value is null or a number, or it has a text. -/
def IsSortable (v : Value) : Prop :=
  v.number? = none → v.isNull = false → v.isWritable = true

theorem isSortable_of_number {v : Value} {n : Number} (h : v.number? = some n) : v.IsSortable :=
  fun hnone _ => by
    rw [h] at hnone
    cases hnone

/-- The name stands for the score, or for a field under which the document holds what can be
sorted. -/
def SortsBy (doc name : Value) : Prop :=
  (name == .str "_score") = true ∨ ∃ field, name.word? = some field ∧ (doc.lookup field).IsSortable

theorem sortsBy_str {doc : Value} {field : String} :
    doc.SortsBy (.str field) ↔ field = "_score" ∨ (doc.lookup field).IsSortable := by
  simp [SortsBy, word?]

theorem sortsBy_of_word {doc name : Value} {w : String} (h : name.word? = some w) :
    doc.SortsBy name ↔ doc.SortsBy (.str w) := by
  rw [SortsBy, SortsBy, beq_word rfl, beq_word rfl, h]
  rfl

end Value

namespace SortKey

variable {v : Value}

/-- Where a value stands among others, if it can be sorted. -/
def standing (v : Value) : SortKey :=
  match v.number? with
  | some n => number n.place?
  | none => if v.isNull then missing else text v.text

theorem ofValue_eq_ok (h : v.IsSortable) : ofValue v = .ok (standing v) := by
  unfold Value.IsSortable at h
  unfold ofValue standing
  cases hnumber : v.number? with
  | some n => rfl
  | none =>
      cases hnull : v.isNull with
      | true => rfl
      | false => simp [Value.written_of_isWritable (h hnumber hnull), Except.map]

theorem exists_ofValue_iff : (∃ k, ofValue v = .ok k) ↔ v.IsSortable := by
  unfold ofValue Value.IsSortable Value.written
  cases v.number? with
  | some n => simp
  | none => cases v.isNull <;> cases v.isWritable <;> simp [Except.map]

theorem failsOnly_ofValue : Except.FailsOnly (· = .badContent) (ofValue v) := by
  unfold ofValue Value.written
  split
  · exact Except.failsOnly_ok _
  · split
    · exact Except.failsOnly_ok _
    · split
      · exact Except.failsOnly_ok _
      · exact Except.failsOnly_error rfl

end SortKey

namespace Hit

variable {σ : Type} [Arithmetic σ]

theorem exists_descends_iff {direction : Value} :
    (∃ b, descends direction = .ok b) ↔ direction.isWritable = true := by
  simp [descends, Except.map_eq_ok_iff, Value.written_eq_ok_iff]

/-- The text of a direction asks for the greatest keys first. -/
def falls (direction : Value) : Bool := Text.lower direction.text == "desc"

theorem descends_eq_ok {direction : Value} (h : direction.isWritable = true) :
    descends direction = .ok (falls direction) := by
  rw [descends, Value.written_of_isWritable h]
  rfl

theorem failsOnly_descends {direction : Value} :
    Except.FailsOnly (· = .badContent) (descends direction) := by
  unfold descends Value.written
  split
  · exact Except.failsOnly_ok _
  · exact Except.failsOnly_error rfl

theorem exists_key_iff {name : Value} {h : Hit σ} :
    (∃ k, h.key name = .ok k) ↔ h.document.SortsBy name := by
  unfold key Value.SortsBy
  split
  case isTrue hscore => simp [hscore]
  case isFalse hscore => cases name.word? <;> simp [hscore, SortKey.exists_ofValue_iff]

theorem failsOnly_key {field : String} {h : Hit σ} :
    Except.FailsOnly (· = .badContent) (h.key (.str field)) := by
  unfold key
  split
  · exact Except.failsOnly_ok _
  · exact SortKey.failsOnly_ofValue

theorem sortByClause_dict (o : Value × Value) (hs : List (Hit σ)) :
    sortByClause (.dict [o]) hs = sortByField o.1 o.2 hs := by
  rw [sortByClause, Value.entries, Except.ok_bind, List.foldlM_cons]
  exact bind_pure _

/-- Clauses with one field each sort by the last one first. -/
theorem sortBy_cons (o : Value × Value) (os : List (Value × Value)) (hs : List (Hit σ)) :
    sortBy (.list ((o :: os).map fun o => .dict [o])) hs =
      sortBy (.list (os.map fun o => .dict [o])) hs >>= sortByField o.1 o.2 := by
  simp only [sortBy, Value.itemsReversed, SeqKind.isSet, Bool.false_eq_true, if_false,
    Except.ok_bind, List.foldlM_reverse, List.map_cons, List.foldrM_cons, sortByClause_dict]

/-! ## Fields in their directions -/

variable {hs : List (Hit σ)}

/-- A direction with a text and documents that can be sorted are all that a pass needs. -/
theorem exists_sortByField_iff {name direction : Value} :
    (∃ out, sortByField name direction hs = .ok out) ↔
      direction.isWritable = true ∧ ∀ h ∈ hs, h.document.SortsBy name := by
  have hkeyed : (∃ keyed, (hs.mapM fun h => do return (← h.key name, h)) =
      (.ok keyed : Except Error (List (SortKey × Hit σ)))) ↔
        ∀ h ∈ hs, h.document.SortsBy name := by
    rw [Except.exists_mapM_iff]
    refine forall₂_congr fun h _ => ?_
    rw [← exists_key_iff]
    simp [Except.bind_eq_ok_iff]
  rw [← exists_descends_iff, ← hkeyed]
  simp only [sortByField, Except.bind_eq_ok_iff]
  constructor
  · rintro ⟨out, b, hb, keyed, hk, -⟩
    exact ⟨⟨b, hb⟩, keyed, hk⟩
  · rintro ⟨⟨b, hb⟩, keyed, hk⟩
    exact ⟨_, b, hb, keyed, hk, rfl⟩

theorem failsOnly_sortByField {field : String} {direction : Value} :
    Except.FailsOnly (· = .badContent) (sortByField (.str field) direction hs) := by
  refine failsOnly_descends.bind fun b _ => ?_
  refine Except.FailsOnly.bind (fun e he => ?_) fun keyed _ => Except.failsOnly_ok _
  obtain ⟨-, h, -, -, -, hkey⟩ := Except.mapM_eq_error_iff.mp he
  exact (failsOnly_key.bind fun k _ => Except.failsOnly_ok _) e hkey

variable {os : List (Value × Value)}

/-- A search can sort exactly if it can sort by each field in its direction. -/
theorem exists_sortBy_iff :
    (∃ out, sortBy (.list (os.map fun o => .dict [o])) hs = .ok out) ↔
      ∀ o ∈ os, o.2.isWritable = true ∧ ∀ h ∈ hs, h.document.SortsBy o.1 := by
  induction os with
  | nil => exact iff_of_true ⟨hs, rfl⟩ nofun
  | cons o os ih =>
      rw [List.forall_mem_cons, ← ih, sortBy_cons]
      simp only [Except.bind_eq_ok_iff]
      constructor
      · rintro ⟨out, mid, hmid, hout⟩
        have hpass := exists_sortByField_iff.mp ⟨out, hout⟩
        have hperm := sortBy_perm hmid
        exact ⟨⟨hpass.1, fun h hh => hpass.2 h (hperm.mem_iff.mpr hh)⟩, mid, hmid⟩
      · rintro ⟨⟨hwritable, hsorts⟩, mid, hmid⟩
        have hperm := sortBy_perm hmid
        obtain ⟨out, hout⟩ := exists_sortByField_iff.mpr
          ⟨hwritable, fun h hh => hsorts h (hperm.mem_iff.mp hh)⟩
        exact ⟨out, mid, hmid, hout⟩

theorem failsOnly_sortBy (hnames : ∀ o ∈ os, ∃ field, o.1 = .str field) :
    Except.FailsOnly (· = .badContent) (sortBy (.list (os.map fun o => .dict [o])) hs) := by
  induction os with
  | nil => exact Except.failsOnly_ok hs
  | cons o os ih =>
      obtain ⟨⟨field, hfield⟩, hrest⟩ := List.forall_mem_cons.mp hnames
      rw [sortBy_cons, hfield]
      exact (ih hrest).bind fun mid _ => failsOnly_sortByField

end Hit

end DocSearch
