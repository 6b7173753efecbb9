import DocSearch.Proofs.Search.Listings
import DocSearch.Proofs.Search.Sortable
import DocSearch.Proofs.Text.Digits

/-!
# The order of sorted hits

Sorting by one field after the other, the least significant one first, orders hits by the first
field in which they differ, because each pass keeps the order that the passes before it have made
wherever it finds no difference. Where all fields agree the order of the documents in the index
decides.
-/

namespace DocSearch

/-- A stable sort orders by what it compares, and by the order before where that makes no
difference. -/
theorem pairwise_mergeSort_stable {α : Type} {le : α → α → Bool} {r : α → α → Prop} {xs : List α}
    (trans : ∀ a b c, le a b = true → le b c = true → le a c = true)
    (total : ∀ a b, (le a b || le b a) = true) (hr : xs.Pairwise r) :
    (xs.mergeSort le).Pairwise fun a b => le a b = true ∧ (le b a = true → r a b) := by
  have hsorted := List.pairwise_mergeSort (List.zipIdxLE_trans trans) (List.zipIdxLE_total total)
    xs.zipIdx
  have hperm := List.mergeSort_perm xs.zipIdx (List.zipIdxLE le)
  have hnodup : ((xs.zipIdx.mergeSort (List.zipIdxLE le)).map Prod.snd).Nodup := by
    rw [(hperm.map Prod.snd).nodup_iff, List.zipIdx_map_snd]
    exact List.nodup_range'
  rw [List.nodup_iff_pairwise_ne, List.pairwise_map] at hnodup
  rw [← List.mergeSort_zipIdx, List.pairwise_map]
  refine (hsorted.and hnodup).imp_of_mem ?_
  rintro ⟨a, i⟩ ⟨b, j⟩ ha hb ⟨hle, hne⟩
  have hai : xs[i]? = some a := List.mem_zipIdx_iff_getElem?.mp (hperm.mem_iff.mp ha)
  have hbj : xs[j]? = some b := List.mem_zipIdx_iff_getElem?.mp (hperm.mem_iff.mp hb)
  obtain ⟨hi, rfl⟩ := List.getElem?_eq_some_iff.mp hai
  obtain ⟨hj, rfl⟩ := List.getElem?_eq_some_iff.mp hbj
  simp only [List.zipIdxLE] at hle
  split at hle
  · rename_i hab
    refine ⟨hab, fun hba => ?_⟩
    rw [if_pos hba] at hle
    have hij : i < j := Nat.lt_of_le_of_ne (of_decide_eq_true hle) hne
    exact List.pairwise_iff_getElem.mp hr i j hi hj hij
  · cases hle

/-- It is enough that the items of the list compare in an order. -/
theorem pairwise_mergeSort_of_mem {α : Type} {le : α → α → Bool} {r : α → α → Prop} {xs : List α}
    (trans : ∀ a ∈ xs, ∀ b ∈ xs, ∀ c ∈ xs, le a b = true → le b c = true → le a c = true)
    (total : ∀ a ∈ xs, ∀ b ∈ xs, (le a b || le b a) = true) (hr : xs.Pairwise r) :
    (xs.mergeSort le).Pairwise fun a b => le a b = true ∧ (le b a = true → r a b) := by
  let leOn (a b : { x // x ∈ xs }) : Bool := le a.1 b.1
  have hmap : (xs.attach.mergeSort leOn).map Subtype.val = xs.mergeSort le := by
    have hle (a b : { x // x ∈ xs }) : leOn a b = le a.1 b.1 := rfl
    rw [List.map_mergeSort fun a _ b _ => hle a b, List.attach_map_subtype_val]
  have hrOn : xs.attach.Pairwise fun a b => r a.1 b.1 := by
    rw [← List.pairwise_map, List.attach_map_subtype_val]
    exact hr
  rw [← hmap, List.pairwise_map]
  exact pairwise_mergeSort_stable (fun a b c => trans a.1 a.2 b.1 b.2 c.1 c.2)
    (fun a b => total a.1 a.2 b.1 b.2) hrOn

/-- Where the items of a list are in a strict order, their places tell which one comes first. -/
theorem lt_iff_of_pairwise {α : Type} {r : α → α → Prop} {xs : List α}
    (hasymm : ∀ a b, r a b → ¬ r b a) (h : xs.Pairwise r) {i j : Nat} (hi : i < xs.length)
    (hj : j < xs.length) : i < j ↔ r xs[i] xs[j] := by
  rw [List.pairwise_iff_getElem] at h
  constructor
  · exact h i j hi hj
  · intro hij
    rcases Nat.lt_trichotomy i j with hlt | rfl | hlt
    · exact hlt
    · exact absurd hij (hasymm _ _ hij)
    · exact absurd hij (hasymm _ _ (h j i hj hi hlt))

/-! ## Keys -/

/-- Null stands before numbers and numbers before everything else; numbers stand in the order of
numbers and everything else in the order of its texts. -/
def Value.sortsBefore (a b : Value) : Bool :=
  match a.number?, b.number? with
  | some m, some n => m.lt n
  | some _, none => !b.isNull
  | none, some _ => a.isNull
  | none, none => !b.isNull && (a.isNull || a.text < b.text)

namespace SortKey

attribute [simp] lt rank

theorem lt_standing (a b : Value) : (standing a).lt (standing b) = a.sortsBefore b := by
  unfold standing Value.sortsBefore
  cases ha : a.number? with
  | some m =>
      cases hb : b.number? with
      | some n => cases hm : m.place? <;> cases hn : n.place? <;> simp [Number.lt, hm, hn]
      | none => cases b.isNull <;> simp
  | none =>
      cases hb : b.number? with
      | some n => cases a.isNull <;> simp
      | none => cases a.isNull <;> cases b.isNull <;> simp

theorem lt_asymm {a b : SortKey} (h : a.lt b = true) : b.lt a = false := by
  rw [← Bool.not_eq_true]
  intro h'
  cases a with
  | number p =>
      cases b with
      | number q =>
          cases p with
          | none => cases q <;> simp at h
          | some p =>
              cases q with
              | none => simp at h
              | some q =>
                  have hp := Place.lt_trans h h'
                  rw [Place.lt_irrefl] at hp
                  cases hp
      | _ => simp at h h'
  | text s =>
      cases b with
      | text t =>
          simp only [lt, decide_eq_true_eq] at h h'
          exact String.lt_irrefl s (String.lt_trans h h')
      | _ => simp at h h'
  | missing => cases b <;> simp at h h'

theorem place_not_lt_trans {p q r : Place} (hpq : p.lt q = false) (hqr : q.lt r = false) :
    p.lt r = false := by
  rw [← Bool.not_eq_true] at hqr ⊢
  intro hpr
  apply hqr
  cases hqp : q.lt p with
  | true => exact Place.lt_trans hqp hpr
  | false => exact Place.eq_of_not_lt hpq hqp ▸ hpr

/-- Among keys that have places, what does not stand before has everything before it. -/
theorem not_lt_trans {a b c : SortKey} (ha : a.isPlaced = true) (hb : b.isPlaced = true)
    (hc : c.isPlaced = true) (hab : a.lt b = false) (hbc : b.lt c = false) : a.lt c = false := by
  cases a with
  | number p =>
      obtain ⟨p, rfl⟩ := Option.isSome_iff_exists.mp ha
      cases b with
      | number q =>
          obtain ⟨q, rfl⟩ := Option.isSome_iff_exists.mp hb
          cases c with
          | number r =>
              obtain ⟨r, rfl⟩ := Option.isSome_iff_exists.mp hc
              exact place_not_lt_trans hab hbc
          | _ => simp_all
      | _ => cases c <;> simp_all
  | text s =>
      cases b with
      | text t =>
          cases c with
          | text u =>
              simp only [lt, decide_eq_false_iff_not, String.not_lt] at hab hbc ⊢
              exact String.le_trans hbc hab
          | _ => simp_all
      | _ => cases c <;> simp_all
  | missing => cases b <;> cases c <;> simp_all

end SortKey

def Value.IsNaN (v : Value) : Prop := ∃ x : Float, v = .float x ∧ x.isNaN = true

theorem Number.floatPlace?_isSome {x : Float} (h : x.isNaN = false) :
    (Number.floatPlace? x).isSome = true := by
  unfold Number.floatPlace?
  split
  · rename_i hx
    have hnan : x.isNaN = x.toModel.unpack.isNaN := rfl
    rw [hnan, hx] at h
    cases h
  · rfl
  · rfl
  · rfl

theorem SortKey.isPlaced_standing {v : Value} (h : ¬ v.IsNaN) :
    (standing v).isPlaced = true := by
  cases v with
  | float x =>
      have hx : x.isNaN = false := by
        rw [← Bool.not_eq_true]
        exact fun hx => h ⟨x, rfl, hx⟩
      exact Number.floatPlace?_isSome hx
  | _ => rfl

/-! ## One pass -/

namespace Hit

/-- What a hit is sorted by under a field name. -/
def sortValue (field : String) (h : Hit Float) : Value :=
  if field = "_score" then .float h.score else h.document.lookup field

/-- Whether the field of an order, in its direction, puts the first hit before the second one. -/
def ahead (o : String × String) (a b : Hit Float) : Bool :=
  if Text.lower o.2 = "desc" then (b.sortValue o.1).sortsBefore (a.sortValue o.1)
  else (a.sortValue o.1).sortsBefore (b.sortValue o.1)

def Ties (field : String) (a b : Hit Float) : Prop :=
  (a.sortValue field).sortsBefore (b.sortValue field) = false ∧
    (b.sortValue field).sortsBefore (a.sortValue field) = false

/-- The first field in which two hits differ puts the first one before, or they differ in none and
the document of the first one stands before that of the second one in the index. -/
def Precedes (orders : List (String × String)) (d e : Hit Float × Nat) : Prop :=
  (∃ before o after, orders = before ++ o :: after ∧ (∀ p ∈ before, Ties p.1 d.1 e.1) ∧
      ahead o d.1 e.1 = true) ∨
    ((∀ o ∈ orders, Ties o.1 d.1 e.1) ∧ d.2 < e.2)

theorem key_str {field : String} {h : Hit Float} (hsorts : h.document.SortsBy (.str field)) :
    h.key (.str field) = .ok (.standing (h.sortValue field)) := by
  by_cases hf : field = "_score"
  · simp only [key, sortValue, hf, Value.str_beq_str, beq_self_eq_true, if_true]
    rfl
  · have hvalue := (Value.sortsBy_str.mp hsorts).resolve_left hf
    simp [key, sortValue, hf, Value.word?, SortKey.ofValue_eq_ok hvalue]

/-- Sorting by keys that all have places is a stable sort. -/
theorem sortByField_of_keys {σ : Type} [Arithmetic σ] {name direction : Value}
    {key : Hit σ → SortKey} {marked : List (Hit σ × Nat)} {le : Hit σ × Nat → Hit σ × Nat → Bool}
    (hdirection : direction.isWritable = true)
    (hkey : ∀ e ∈ marked, e.1.key name = .ok (key e.1))
    (hplaced : ∀ e ∈ marked, (key e.1).isPlaced = true)
    (hle : ∀ d ∈ marked, ∀ e ∈ marked, le d e =
      if falls direction then !(key d.1).lt (key e.1) else !(key e.1).lt (key d.1)) :
    sortByField name direction (marked.map Prod.fst) =
      .ok ((marked.mergeSort le).map Prod.fst) := by
  let keyed (e : Hit σ × Nat) : SortKey × Hit σ := (key e.1, e.1)
  have hkeyed : ((marked.map Prod.fst).mapM fun h => do return (← h.key name, h)) =
      (.ok (marked.map keyed) : Except Error (List (SortKey × Hit σ))) := by
    refine Except.mapM_eq_ok_iff.mpr ?_
    rw [List.forall₂_map_left_iff, List.forall₂_map_right_iff, List.forall₂_same]
    exact fun e he => by rw [hkey e he]; rfl
  have hall : (marked.map keyed).all (·.1.isPlaced) = true := by
    rw [List.all_map, List.all_eq_true]
    exact hplaced
  have hsort : (marked.map keyed).mergeSort
      (fun a b => if falls direction then !a.1.lt b.1 else !b.1.lt a.1) =
        (marked.mergeSort le).map keyed :=
    (List.map_mergeSort hle).symm
  unfold sortByField arrange
  rw [descends_eq_ok hdirection, Except.ok_bind, hkeyed, Except.ok_bind, if_pos hall, hsort,
    List.map_map]
  rfl

theorem ahead_asymm {o : String × String} {a b : Hit Float} (h : ahead o a b = true) :
    ahead o b a = false := by
  unfold ahead at *
  simp only [← SortKey.lt_standing] at *
  split at h
  · rename_i hd
    rw [if_pos hd]
    exact SortKey.lt_asymm h
  · rename_i hd
    rw [if_neg hd]
    exact SortKey.lt_asymm h

theorem ties_iff {o : String × String} {a b : Hit Float} :
    Ties o.1 a b ↔ ahead o a b = false ∧ ahead o b a = false := by
  unfold Ties ahead
  split
  · exact and_comm
  · exact Iff.rfl

theorem precedes_nil {d e : Hit Float × Nat} : Precedes [] d e ↔ d.2 < e.2 := by
  simp [Precedes]

theorem precedes_cons {o : String × String} {os : List (String × String)} {d e : Hit Float × Nat} :
    Precedes (o :: os) d e ↔ ahead o d.1 e.1 = true ∨ (Ties o.1 d.1 e.1 ∧ Precedes os d e) := by
  constructor
  · rintro (⟨before, p, after, horders, hties, hahead⟩ | ⟨hties, hpos⟩)
    · cases before with
      | nil =>
          obtain ⟨rfl, rfl⟩ := List.cons.inj horders
          exact Or.inl hahead
      | cons q before =>
          obtain ⟨rfl, rfl⟩ := List.cons.inj horders
          refine Or.inr ⟨hties _ List.mem_cons_self, Or.inl ⟨before, p, after, rfl, ?_, hahead⟩⟩
          exact fun p hp => hties p (List.mem_cons_of_mem _ hp)
    · refine Or.inr ⟨hties o List.mem_cons_self, Or.inr ⟨?_, hpos⟩⟩
      exact fun p hp => hties p (List.mem_cons_of_mem o hp)
  · rintro (hahead | ⟨htie, ⟨before, p, after, rfl, hties, hahead⟩ | ⟨hties, hpos⟩⟩)
    · exact Or.inl ⟨[], o, os, rfl, nofun, hahead⟩
    · exact Or.inl ⟨o :: before, p, after, rfl, List.forall_mem_cons.mpr ⟨htie, hties⟩, hahead⟩
    · exact Or.inr ⟨List.forall_mem_cons.mpr ⟨htie, hties⟩, hpos⟩

theorem precedes_asymm {orders : List (String × String)} {d e : Hit Float × Nat}
    (h : Precedes orders d e) : ¬ Precedes orders e d := by
  induction orders with
  | nil =>
      rw [precedes_nil] at *
      exact Nat.lt_asymm h
  | cons o os ih =>
      rw [precedes_cons] at *
      rintro (hahead' | ⟨htie', hrest'⟩)
      · rcases h with hahead | ⟨htie, -⟩
        · rw [ahead_asymm hahead] at hahead'
          cases hahead'
        · rw [(ties_iff.mp htie).2] at hahead'
          cases hahead'
      · rcases h with hahead | ⟨-, hrest⟩
        · rw [(ties_iff.mp htie').2] at hahead
          cases hahead
        · exact ih hrest hrest'

/-- Hits with the positions of their documents, sorted by one field. -/
def pass (o : String × String) (marked : List (Hit Float × Nat)) : List (Hit Float × Nat) :=
  marked.mergeSort fun d e => !ahead o e.1 d.1

theorem sortByField_str {o : String × String} {marked : List (Hit Float × Nat)}
    (hsorts : ∀ e ∈ marked, e.1.document.SortsBy (.str o.1))
    (hnan : ∀ e ∈ marked, ¬ (e.1.sortValue o.1).IsNaN) :
    sortByField (.str o.1) (.str o.2) (marked.map Prod.fst) =
      .ok ((pass o marked).map Prod.fst) := by
  refine @sortByField_of_keys Float _ _ _ (fun h => .standing (h.sortValue o.1)) marked _ rfl
    (fun e he => key_str (hsorts e he)) (fun e he => SortKey.isPlaced_standing (hnan e he))
    fun d _ e _ => ?_
  simp only [SortKey.lt_standing, ahead, falls, Value.text_str, beq_iff_eq]
  split <;> rfl

theorem not_ahead_trans {o : String × String} {a b c : Hit Float}
    (ha : ¬ (a.sortValue o.1).IsNaN) (hb : ¬ (b.sortValue o.1).IsNaN)
    (hc : ¬ (c.sortValue o.1).IsNaN) (hab : ahead o a b = false) (hbc : ahead o b c = false) :
    ahead o a c = false := by
  have ha' := SortKey.isPlaced_standing ha
  have hb' := SortKey.isPlaced_standing hb
  have hc' := SortKey.isPlaced_standing hc
  unfold ahead at *
  simp only [← SortKey.lt_standing] at *
  split at hab
  · rename_i hd
    rw [if_pos hd] at *
    exact SortKey.not_lt_trans hc' hb' ha' hbc hab
  · rename_i hd
    rw [if_neg hd] at *
    exact SortKey.not_lt_trans ha' hb' hc' hab hbc

/-- A pass puts its field in front of those that the hits were sorted by before. -/
theorem pairwise_pass {o : String × String} {os : List (String × String)}
    {marked : List (Hit Float × Nat)} (hnan : ∀ e ∈ marked, ¬ (e.1.sortValue o.1).IsNaN)
    (h : marked.Pairwise (Precedes os)) : (pass o marked).Pairwise (Precedes (o :: os)) := by
  have htrans : ∀ a ∈ marked, ∀ b ∈ marked, ∀ c ∈ marked, (!ahead o b.1 a.1) = true →
      (!ahead o c.1 b.1) = true → (!ahead o c.1 a.1) = true := by
    intro a ha b hb c hc hab hbc
    rw [Bool.not_eq_true'] at *
    exact not_ahead_trans (hnan c hc) (hnan b hb) (hnan a ha) hbc hab
  have htotal : ∀ a ∈ marked, ∀ b ∈ marked, (!ahead o b.1 a.1 || !ahead o a.1 b.1) = true := by
    intro a _ b _
    cases hba : ahead o b.1 a.1 with
    | true => simp [ahead_asymm hba]
    | false => rfl
  refine (pairwise_mergeSort_of_mem htrans htotal h).imp ?_
  rintro d e ⟨hle, hrest⟩
  rw [precedes_cons]
  rw [Bool.not_eq_true'] at hle hrest
  cases hde : ahead o d.1 e.1 with
  | true => exact Or.inl rfl
  | false => exact Or.inr ⟨ties_iff.mpr ⟨hde, hle⟩, hrest hde⟩

/-! ## All passes -/

/-- Sort clauses as a body holds them, each with one field. -/
def clauses (orders : List (String × String)) : Value :=
  .list (orders.map fun o => .dict [(.str o.1, .str o.2)])

theorem copyable_clauses (orders : List (String × String)) : (clauses orders).copyable = true := by
  refine Value.copyable_seq.mpr fun c hc => ?_
  obtain ⟨o, ho, rfl⟩ := List.mem_map.mp hc
  rfl

/-- Hits with the positions of their documents, sorted by all fields. -/
def ranking (orders : List (String × String)) (marked : List (Hit Float × Nat)) :
    List (Hit Float × Nat) :=
  orders.foldr pass marked

theorem ranking_perm (orders : List (String × String)) (marked : List (Hit Float × Nat)) :
    (ranking orders marked).Perm marked := by
  induction orders with
  | nil => exact List.Perm.refl marked
  | cons o os ih => exact (List.mergeSort_perm _ _).trans ih

theorem pairwise_ranking {orders : List (String × String)} {marked : List (Hit Float × Nat)}
    (hnan : ∀ e ∈ marked, ∀ o ∈ orders, ¬ (e.1.sortValue o.1).IsNaN)
    (h : marked.Pairwise fun d e => d.2 < e.2) :
    (ranking orders marked).Pairwise (Precedes orders) := by
  induction orders with
  | nil => exact h.imp precedes_nil.mpr
  | cons o os ih =>
      have hrest := ih fun e he p hp => hnan e he p (List.mem_cons_of_mem o hp)
      refine pairwise_pass (fun e he => ?_) hrest
      exact hnan e ((ranking_perm os marked).mem_iff.mp he) o List.mem_cons_self

/-- Sort clauses as calls hold their fields and directions. -/
theorem clauses_eq (orders : List (String × String)) :
    clauses orders =
      .list ((orders.map fun o => (Value.str o.1, Value.str o.2)).map fun o => .dict [o]) := by
  rw [clauses, List.map_map]
  rfl

/-- Where the hits can be sorted, sort clauses make a ranking of them. -/
theorem sortBy_clauses {orders : List (String × String)} {marked : List (Hit Float × Nat)}
    (hsorts : ∀ e ∈ marked, ∀ o ∈ orders, e.1.document.SortsBy (.str o.1))
    (hnan : ∀ e ∈ marked, ∀ o ∈ orders, ¬ (e.1.sortValue o.1).IsNaN) :
    sortBy (clauses orders) (marked.map Prod.fst) =
      .ok ((ranking orders marked).map Prod.fst) := by
  rw [clauses_eq]
  induction orders with
  | nil => rfl
  | cons o os ih =>
      have hrest := ih (fun e he p hp => hsorts e he p (List.mem_cons_of_mem o hp))
        fun e he p hp => hnan e he p (List.mem_cons_of_mem o hp)
      have hmem {e : Hit Float × Nat} (he : e ∈ ranking os marked) : e ∈ marked :=
        (ranking_perm os marked).mem_iff.mp he
      rw [List.map_cons, sortBy_cons, hrest, Except.ok_bind]
      exact sortByField_str (fun e he => hsorts e (hmem he) o List.mem_cons_self)
        fun e he => hnan e (hmem he) o List.mem_cons_self

/-- A hit that cannot be sorted keeps all of them from being sorted. -/
theorem sortBy_clauses_of_not_sortsBy {orders : List (String × String)} {hs : List (Hit Float)}
    (h : ∃ h ∈ hs, ∃ o ∈ orders, ¬ h.document.SortsBy (.str o.1)) :
    sortBy (clauses orders) hs = .error .badContent := by
  obtain ⟨hit, hhit, o, ho, hsorts⟩ := h
  rw [clauses_eq]
  cases hresult : sortBy (.list ((orders.map fun o => (Value.str o.1, Value.str o.2)).map
      fun o => .dict [o])) hs with
  | ok out =>
      have hall := exists_sortBy_iff.mp ⟨out, hresult⟩ _ (List.mem_map_of_mem ho)
      exact absurd (hall.2 hit hhit) hsorts
  | error e =>
      have hnames : ∀ o ∈ orders.map fun o => (Value.str o.1, Value.str o.2),
          ∃ field, o.1 = .str field :=
        List.forall_mem_map.mpr fun o _ => ⟨o.1, rfl⟩
      rw [failsOnly_sortBy hnames e hresult]

/-- Two hits change places if the one with the lesser key stands first and the greatest keys are
asked for. -/
theorem sortBy_pair {σ : Type} [Arithmetic σ] {name v : Value} {x y : Hit σ} {k l : SortKey}
    (hx : x.key name = .ok k) (hy : y.key name = .ok l) (hk : k.isPlaced = true)
    (hl : l.isPlaced = true) (hlt : k.lt l = true) (hv : v.isWritable = true) :
    sortBy (.list [.dict [(name, v)]]) [x, y] = .ok (if falls v then [y, x] else [x, y]) := by
  have hpair (le : SortKey × Hit σ → SortKey × Hit σ → Bool) :
      [(k, x), (l, y)].mergeSort le =
        if le (k, x) (l, y) then [(k, x), (l, y)] else [(l, y), (k, x)] := by
    cases hle : le (k, x) (l, y) <;> simp [List.mergeSort, hle]
  have harrange : (arrange (falls v) [(k, x), (l, y)]).map Prod.snd =
      if falls v then [y, x] else [x, y] := by
    have hgt := SortKey.lt_asymm hlt
    cases hfalls : falls v <;> simp [arrange, hk, hl, hpair, hlt, hgt, -SortKey.lt]
  refine (sortBy_cons (name, v) [] [x, y]).trans ?_
  change sortByField name v [x, y] = _
  simp only [sortByField, descends_eq_ok hv, List.mapM_cons, List.mapM_nil, hx, hy, Except.ok_bind,
    Except.pure_eq, harrange]

/-- In a ranking the places of two hits tell which one precedes the other, and the other way round.
-/
theorem lt_iff_precedes {orders : List (String × String)} {ranked : List (Hit Float × Nat)}
    (h : ranked.Pairwise (Precedes orders)) {i j : Nat} (hi : i < ranked.length)
    (hj : j < ranked.length) : i < j ↔ Precedes orders ranked[i] ranked[j] :=
  lt_iff_of_pairwise (fun _ _ => precedes_asymm) h hi hj

end Hit

/-! ## Sorted searches -/

namespace Search

/-- Which stretch of the hits is listed does not depend on the hits. -/
theorem window_eq_slice {σ : Type} {es : List (Value × Value)} {hs w : List (Hit σ)}
    (h : window es hs = .ok w) :
    ∃ start stop : Int, ∀ hs' : List (Hit σ), window es hs' = .ok (slice hs' start stop) := by
  obtain ⟨⟨⟩, hsum, h⟩ := Except.bind_eq_ok_iff.mp h
  obtain ⟨offset, hoffset, h⟩ := Except.bind_eq_ok_iff.mp h
  obtain ⟨size, hsize, h⟩ := Except.bind_eq_ok_iff.mp h
  refine ⟨offset, offset + size, fun hs' => ?_⟩
  simp only [window, hsum, hoffset, hsize, Except.ok_bind]
  rfl

variable {docs pre post : List (Value × Value)} {orders : List (String × String)}

theorem hits_unsorted (hsort : Value.field? (pre ++ post) "sort" = none) :
    (hits docs (.dict (pre ++ post)) : Except Error (List (Hit Float))) =
      matching docs (pre ++ post) := by
  rw [hits_dict, Value.fieldD, hsort]
  exact bind_pure _

theorem hits_sorted (hsort : Value.field? (pre ++ post) "sort" = none) :
    (hits docs (.dict (pre ++ [(.str "sort", Hit.clauses orders)] ++ post)) :
      Except Error (List (Hit Float))) =
        matching docs (pre ++ post) >>= Hit.sortBy (Hit.clauses orders) := by
  have hquery := Value.field?_singleton_of_ne (by decide : "sort" ≠ "query") (Hit.clauses orders)
  have hscore :=
    Value.field?_singleton_of_ne (by decide : "sort" ≠ "min_score") (Hit.clauses orders)
  rw [hits_dict, matching_insert hquery hscore, Value.fieldD, Value.field?_inserted hsort,
    Value.field?_word_cons, if_pos rfl]
  rfl

theorem window_sorted {σ : Type} (hs : List (Hit σ)) :
    window (pre ++ [(.str "sort", Hit.clauses orders)] ++ post) hs = window (pre ++ post) hs :=
  window_insert (Value.field?_singleton_of_ne (by decide) _)
    (Value.field?_singleton_of_ne (by decide) _) hs

end Search

namespace Store

variable {st : Store} {index : Value} {pre post : List (Value × Value)}

/-- A search that sorts by some fields fails exactly if one of the hits cannot be sorted by one of
them. Otherwise it lists what the search that does not sort finds, by the first field that makes a
difference. -/
theorem listing_sorted {orders : List (String × String)} {hs : List (Hit Float)}
    (hsort : Value.hasField (pre ++ post) "sort" = false)
    (hhits : Search.hits (st.documents index) (.dict (pre ++ post)) = .ok hs)
    (hnan : ∀ h ∈ hs, ∀ o ∈ orders, ¬ (h.sortValue o.1).IsNaN) :
    let sorted := pre ++ [(.str "sort", Hit.clauses orders)] ++ post
    let runs := ((search (request index (pre ++ post))).run st).result.isOk = true
    ((∃ h ∈ hs, ∃ o ∈ orders, ¬ h.document.SortsBy (.str o.1)) →
      (Search.hits (st.documents index) (.dict sorted) : Except Error (List (Hit Float))) =
          .error .badContent ∧
        (runs → ((search (request index sorted)).run st).result = .error .badContent)) ∧
    ((∀ h ∈ hs, ∀ o ∈ orders, h.document.SortsBy (.str o.1)) →
      ∃ marked ranked : List (Hit Float × Nat), marked.map Prod.fst = hs ∧
        Search.Placed (st.documents index) marked ∧
        Search.hits (st.documents index) (.dict sorted) = .ok (ranked.map Prod.fst) ∧
        ranked.Perm marked ∧
        (∀ i j (hi : i < ranked.length) (hj : j < ranked.length),
          i < j ↔ Hit.Precedes orders ranked[i] ranked[j]) ∧
        (runs → ∃ start stop : Int,
          st.listing index (pre ++ post) =
            .ok (listed index (slice marked start stop), .int hs.length) ∧
          st.listing index sorted =
            .ok (listed index (slice ranked start stop), .int hs.length))) := by
  intro sorted runs
  have hnone := Value.hasField_eq_false_iff.mp hsort
  have hmatching := hhits
  rw [Search.hits_unsorted hnone] at hmatching
  have hcopyable (h : Value.copyableEntries (pre ++ post) = true) :
      Value.copyableEntries sorted = true := by
    refine Value.copyableEntries_insert h ?_
    rw [Value.copyableEntries_iff, List.forall_mem_singleton]
    exact ⟨rfl, Hit.copyable_clauses orders⟩
  constructor
  · intro hunsortable
    have hfails : (Search.hits (st.documents index) (.dict sorted) :
        Except Error (List (Hit Float))) = .error .badContent := by
      rw [Search.hits_sorted hnone, hmatching, Except.ok_bind,
        Hit.sortBy_clauses_of_not_sortsBy hunsortable]
    refine ⟨hfails, fun hrun => ?_⟩
    obtain ⟨out, hout⟩ := listing_of_isOk hrun
    obtain ⟨⟨hindex, hbody, hkey⟩, -⟩ := listing_eq_ok_iff.mp hout
    exact result_search_of_hits_error hindex (hcopyable hbody) hkey hfails
  · intro hsorts
    obtain ⟨marked, rfl, hplaced⟩ := Search.matching_placed hmatching
    have hnan' : ∀ e ∈ marked, ∀ o ∈ orders, ¬ (e.1.sortValue o.1).IsNaN :=
      fun e he => hnan e.1 (List.mem_map_of_mem he)
    have hsorts' : ∀ e ∈ marked, ∀ o ∈ orders, e.1.document.SortsBy (.str o.1) :=
      fun e he => hsorts e.1 (List.mem_map_of_mem he)
    have hperm := Hit.ranking_perm orders marked
    have hranked : Search.hits (st.documents index) (.dict sorted) =
        .ok ((Hit.ranking orders marked).map Prod.fst) := by
      rw [Search.hits_sorted hnone, hmatching, Except.ok_bind, Hit.sortBy_clauses hsorts' hnan']
    refine ⟨marked, Hit.ranking orders marked, rfl, hplaced, hranked, hperm, fun i j hi hj => ?_, ?_⟩
    · exact Hit.lt_iff_precedes (Hit.pairwise_ranking hnan' hplaced.increasing) hi hj
    · intro hrun
      obtain ⟨out, hout⟩ := listing_of_isOk hrun
      obtain ⟨⟨hindex, hbody, hkey⟩, all, w, -, hwindow, -⟩ := listing_eq_ok_iff.mp hout
      obtain ⟨start, stop, hslice⟩ := Search.window_eq_slice hwindow
      refine ⟨start, stop, ?_, ?_⟩
      · refine listing_eq_ok_iff.mpr ⟨⟨hindex, hbody, hkey⟩, _, _, hhits, hslice _, ?_⟩
        rw [← map_slice, List.map_map]
        rfl
      · refine listing_eq_ok_iff.mpr ⟨⟨hindex, hcopyable hbody, hkey⟩, _, _, hranked,
          (Search.window_sorted _).trans (hslice _), ?_⟩
        rw [← map_slice, List.map_map, List.length_map, List.length_map, hperm.length_eq]
        rfl

theorem listing_sorted_of_three :
    let doc (n : Int) (name : String) : Value := .object [("n", .int n), ("name", .str name)]
    let docs := [(.str "a", doc 1 "x"), (.str "b", doc 2 "y"), (.str "c", doc 1 "w")]
    let shop : Store := ⟨[(.str "shop", docs)], [], []⟩
    let orders := [("n", "DESC"), ("name", "asc")]
    ∃ ranked : List (Hit Float × Nat),
      Search.hits (shop.documents (.str "shop"))
        (.dict [(.str "sort", Hit.clauses orders)]) = .ok (ranked.map Prod.fst) ∧
      ∀ i j (hi : i < ranked.length) (hj : j < ranked.length),
        i < j ↔ Hit.Precedes orders ranked[i] ranked[j] := by
  intro doc docs shop orders
  let hit (id : String) (n : Int) (name : String) : Hit Float :=
    ⟨.str id, doc n name, Arithmetic.one⟩
  have hdocs : shop.documents (.str "shop") = docs := by simp [shop, Store.documents]
  have hhits : Search.hits (shop.documents (.str "shop")) (.dict ([] ++ [])) =
      .ok [hit "a" 1 "x", hit "b" 2 "y", hit "c" 1 "w"] := by
    rw [hdocs]
    exact Search.hits_nil docs
  have hn : nameParts "n" = ["n"] := by decide
  have hname : nameParts "name" = ["name"] := by decide
  have hnan : ∀ h ∈ [hit "a" 1 "x", hit "b" 2 "y", hit "c" 1 "w"], ∀ o ∈ orders,
      ¬ (h.sortValue o.1).IsNaN := by
    simp [orders, hit, doc, Hit.sortValue, Value.IsNaN, Value.lookup, hn, hname, Value.object,
      Value.fieldD, Value.field?_word_cons]
  have hsorts : ∀ h ∈ [hit "a" 1 "x", hit "b" 2 "y", hit "c" 1 "w"], ∀ o ∈ orders,
      h.document.SortsBy (.str o.1) := by
    simp [orders, hit, doc, Value.sortsBy_str, Value.IsSortable, Value.lookup, hn, hname,
      Value.object, Value.fieldD, Value.field?_word_cons, Value.number?]
  obtain ⟨-, hsorted⟩ := @listing_sorted shop (.str "shop") [] [] orders _ rfl hhits hnan
  obtain ⟨marked, ranked, -, -, hranked, -, horder, -⟩ := hsorted hsorts
  exact ⟨ranked, hranked, horder⟩

/-- Sorting fails where a list holds a number with too many digits for a text, and a truth value
stands among the numbers and not by its text. -/
theorem not_sorted_by_texts :
    let doc (v : Value) : Value := .object [("a", v)]
    let body (direction : String) : Value := .dict [(.str "sort", Hit.clauses [("a", direction)])]
    let long := [(.str "1", doc (.list [.int (10 ^ 5000)])), (.str "2", doc (.str "x"))]
    let flags := [(.str "1", doc (.bool true)), (.str "2", doc (.str "A"))]
    (Search.hits long (body "asc") : Except Error (List (Hit Float))) = .error .badContent ∧
      (Value.str "A").text < (Value.bool true).text ∧
      Search.hits flags (body "desc") =
        .ok [⟨.str "2", doc (.str "A"), (Arithmetic.one : Float)⟩,
          ⟨.str "1", doc (.bool true), Arithmetic.one⟩] := by
  intro doc body long flags
  let hit (id : String) (v : Value) : Hit Float := ⟨.str id, doc v, Arithmetic.one⟩
  have hname : nameParts "a" = ["a"] := by decide
  have hlookup (v : Value) : (doc v).lookup "a" = v := by
    simp [doc, Value.lookup, hname, Value.object, Value.fieldD, Value.field?_word_cons]
  have hhits (docs : List (Value × Value)) (direction : String) :
      (Search.hits docs (body direction) : Except Error (List (Hit Float))) =
        Hit.sortBy (Hit.clauses [("a", direction)])
          (docs.map fun d => ⟨d.1, d.2, Arithmetic.one⟩) := by
    have hall : Search.hits docs (.dict ([] ++ [])) =
        .ok (docs.map fun d => (⟨d.1, d.2, Arithmetic.one⟩ : Hit Float)) := Search.hits_nil docs
    have hnone : Value.field? ([] ++ []) "sort" = none := rfl
    rw [Search.hits_unsorted hnone] at hall
    exact (Search.hits_sorted hnone).trans (by rw [hall, Except.ok_bind])
  refine ⟨?_, by decide +kernel, ?_⟩
  · rw [hhits]
    refine Hit.sortBy_clauses_of_not_sortsBy ⟨hit "1" (.list [.int (10 ^ 5000)]),
      List.mem_cons_self, ("a", "asc"), List.mem_cons_self, ?_⟩
    rw [Value.sortsBy_str, hlookup]
    rintro (h | h)
    · exact absurd h (by decide)
    · have hsingle (v : Value) : (Value.list [v]).isWritable = v.isWritable := Bool.and_true _
      exact Value.not_isWritable_pow (k := 5000) (by decide) ((hsingle _).symm.trans (h rfl rfl))
  · have hkey (id : String) (v : Value) (h : v.IsSortable) :
        (hit id v).key (.str "a") = .ok (.standing v) := by
      rw [Hit.key_str (Value.sortsBy_str.mpr (Or.inr ((hlookup v).symm ▸ h)))]
      exact congrArg (fun w => Except.ok (SortKey.standing w)) (hlookup v)
    rw [hhits]
    exact Hit.sortBy_pair (hkey "1" (.bool true) (Value.isSortable_of_number rfl)) (hkey "2" (.str "A") fun _ _ => rfl) rfl rfl
      rfl rfl

end Store

end DocSearch
