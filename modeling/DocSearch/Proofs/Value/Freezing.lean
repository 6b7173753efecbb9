import DocSearch.Proofs.Action.Refusals
import DocSearch.Proofs.Value.Thawing

/-!
# Freezing and thawing data

Data is built from scalars, sequences and mappings. What is frozen holds nothing that can change,
and thawing it leaves lists and dictionaries only; every key and every item stays where it stands.
The items of a set can be keys, so they are frozen already, and a set that is put together from them
anew is the one they came from.
-/

namespace DocSearch.Value

/-- The value has no parts. -/
def isAtom : Value → Bool
  | .seq _ _ | .map _ _ | .record _ _ => false
  | _ => true

/-- The value is built from scalars and from sequences and mappings of some kinds. The keys of
mappings and the items of sets can be keys, and no two items of a set are equal. -/
inductive MadeOf (seqs : SeqKind → Prop) (maps : MapKind → Prop) : Value → Prop
  | atom {v : Value} (h : v.isAtom = true) : MadeOf seqs maps v
  | seq {k : SeqKind} {xs : List Value} (kind : seqs k)
      (unlike : k.isSet = true → areKeys xs = true ∧ xs.Pairwise fun x y => (x == y) = false)
      (items : ∀ x ∈ xs, MadeOf seqs maps x) : MadeOf seqs maps (.seq k xs)
  | map {k : MapKind} {es : List (Value × Value)} (kind : maps k)
      (keys : ∀ e ∈ es, e.1.isKey = true) (values : ∀ e ∈ es, MadeOf seqs maps e.2) :
      MadeOf seqs maps (.map k es)

def IsData (v : Value) : Prop := v.MadeOf (fun _ => True) fun _ => True

/-- Only tuples, frozen sets, views and scalars, at any depth. -/
def IsFrozen (v : Value) : Prop := v.MadeOf (fun k => k = .tuple ∨ k = .frozenset) (· = .view)

/-- Only lists, dictionaries and scalars, at any depth. -/
def IsThawed (v : Value) : Prop := v.MadeOf (· = .list) (· = .dict)

variable {seqs seqs' : SeqKind → Prop} {maps maps' : MapKind → Prop} {v w : Value}
  {xs ys : List Value} {es : List (Value × Value)}

theorem MadeOf.mono (hseqs : ∀ k, seqs k → seqs' k) (hmaps : ∀ k, maps k → maps' k)
    (h : v.MadeOf seqs maps) : v.MadeOf seqs' maps' := by
  induction h with
  | atom h => exact .atom h
  | seq kind unlike _ ih => exact .seq (hseqs _ kind) unlike ih
  | map kind keys _ ih => exact .map (hmaps _ kind) keys ih

theorem IsThawed.isData (h : v.IsThawed) : v.IsData :=
  MadeOf.mono (fun _ _ => trivial) (fun _ _ => trivial) h

/-! ## The recursions as traversals -/

theorem areKeys_iff : areKeys xs = true ↔ ∀ x ∈ xs, x.isKey = true := by
  induction xs with
  | nil => simp [areKeys]
  | cons x xs ih => simp [areKeys, ih]

theorem freezeItems_eq_mapM (xs : List Value) : freezeItems xs = xs.mapM freeze := by
  induction xs with
  | nil => rfl
  | cons x xs ih => rw [freezeItems, List.mapM_cons, ih]

theorem freezeEntries_eq_mapM (es : List (Value × Value)) :
    freezeEntries es = es.mapM fun e => do return (e.1, ← freeze e.2) := by
  induction es with
  | nil => rfl
  | cons e es ih =>
      rw [freezeEntries, List.mapM_cons, ih]
      cases freeze e.2 <;> rfl

theorem thawItems_eq_map (xs : List Value) : thawItems xs = xs.map thaw := by
  induction xs with
  | nil => rfl
  | cons x xs ih => rw [thawItems, List.map_cons, ih]

theorem thawEntries_eq_map (es : List (Value × Value)) :
    thawEntries es = es.map fun e => (e.1, thaw e.2) := by
  induction es with
  | nil => rfl
  | cons e es ih => rw [thawEntries, List.map_cons, ih]

theorem listedItems_eq_map (xs : List Value) : listedItems xs = xs.map listed := by
  induction xs with
  | nil => rfl
  | cons x xs ih => rw [listedItems, List.map_cons, ih]

theorem listedEntries_eq_map (es : List (Value × Value)) :
    listedEntries es = es.map fun e => (e.1, listed e.2) := by
  induction es with
  | nil => rfl
  | cons e es ih => rw [listedEntries, List.map_cons, ih]

theorem freeze_of_isAtom (h : v.isAtom = true) : v.freeze = .ok v := by
  cases v <;> first | rfl | cases h

theorem thaw_of_isAtom (h : v.isAtom = true) : v.thaw = v := by
  cases v <;> first | rfl | cases h

theorem listed_of_isAtom (h : v.isAtom = true) : v.listed = v := by
  cases v <;> first | rfl | cases h

theorem mapM_eq_self {α : Type} {f : α → Except Error α} {xs : List α}
    (h : ∀ x ∈ xs, f x = .ok x) : xs.mapM f = .ok xs :=
  Except.mapM_eq_ok_iff.mpr (List.forall₂_same.mpr h)

/-! ## Freezing -/

theorem MadeOf.exists_freeze (h : v.MadeOf seqs maps) : ∃ w, v.freeze = .ok w := by
  induction h with
  | atom h => exact ⟨_, freeze_of_isAtom h⟩
  | @seq k xs _ _ _ ih =>
      obtain ⟨ys, hys⟩ := Except.exists_mapM_iff.mpr ih
      exact ⟨.seq k.frozen ys, by rw [freeze, freezeItems_eq_mapM, hys]; rfl⟩
  | @map k es _ _ _ ih =>
      have hentries : ∀ e ∈ es, ∃ d,
          (do return (e.1, ← freeze e.2) : Except Error (Value × Value)) = .ok d := by
        intro e he
        obtain ⟨w, hw⟩ := ih e he
        exact ⟨(e.1, w), by rw [hw]; rfl⟩
      obtain ⟨fs, hfs⟩ := Except.exists_mapM_iff.mpr hentries
      exact ⟨.map .view fs, by rw [freeze, freezeEntries_eq_mapM, hfs]; rfl⟩

theorem IsFrozen.freeze_eq (h : v.IsFrozen) : v.freeze = .ok v := by
  induction h with
  | atom h => exact freeze_of_isAtom h
  | @seq k xs kind _ _ ih =>
      have hkind : k.frozen = k := by rcases kind with rfl | rfl <;> rfl
      rw [freeze, freezeItems_eq_mapM, mapM_eq_self ih, hkind]
      rfl
  | @map k es kind _ _ ih =>
      have hentries : ∀ e ∈ es,
          (do return (e.1, ← freeze e.2) : Except Error (Value × Value)) = .ok e := by
        intro e he
        rw [ih e he]
        rfl
      rw [freeze, freezeEntries_eq_mapM, mapM_eq_self hentries, kind]
      rfl

/-- Data that can be a key is frozen. -/
theorem MadeOf.isFrozen (h : v.MadeOf seqs maps) (hkey : v.isKey = true) : v.IsFrozen := by
  induction h with
  | atom h => exact .atom h
  | @seq k xs _ unlike _ ih =>
      rw [isKey, Bool.and_eq_true, areKeys_iff] at hkey
      refine .seq ?_ unlike fun x hx => ih x hx (hkey.2 x hx)
      simpa using hkey.1
  | map => cases hkey

theorem freezeItems_of_areKeys (hitems : ∀ x ∈ xs, x.MadeOf seqs maps)
    (hkeys : areKeys xs = true) : freezeItems xs = .ok xs := by
  rw [freezeItems_eq_mapM]
  exact mapM_eq_self fun x hx => ((hitems x hx).isFrozen (areKeys_iff.mp hkeys x hx)).freeze_eq

theorem MadeOf.isFrozen_of_freeze (h : v.MadeOf seqs maps) (hw : v.freeze = .ok w) :
    w.IsFrozen := by
  induction h generalizing w with
  | atom h =>
      rw [freeze_of_isAtom h] at hw
      obtain rfl := Except.ok.inj hw
      exact .atom h
  | @seq k xs _ unlike items ih =>
      obtain ⟨ys, hys, rfl⟩ := Except.map_eq_ok_iff.mp hw
      refine .seq (by cases k <;> simp [SeqKind.frozen]) (fun hset => ?_) fun y hy => ?_
      · -- the items of a set are frozen already, so they stay keys and stay distinct
        have hset : k.isSet = true := by cases k <;> first | rfl | cases hset
        rw [freezeItems_of_areKeys items (unlike hset).1] at hys
        obtain rfl := Except.ok.inj hys
        exact unlike hset
      · rw [freezeItems_eq_mapM] at hys
        obtain ⟨x, hx, hxy⟩ := Except.exists_of_mem_mapM hys y hy
        exact ih x hx hxy
  | @map k es _ keys _ ih =>
      obtain ⟨fs, hfs, rfl⟩ := Except.map_eq_ok_iff.mp hw
      rw [freezeEntries_eq_mapM] at hfs
      have hentry : ∀ f ∈ fs, ∃ e ∈ es, e.1 = f.1 ∧ e.2.freeze = .ok f.2 := by
        intro f hf
        obtain ⟨e, he, hef⟩ := Except.exists_of_mem_mapM hfs f hf
        obtain ⟨u, hu, hef⟩ := Except.bind_eq_ok_iff.mp hef
        obtain rfl := Except.ok.inj hef
        exact ⟨e, he, rfl, hu⟩
      refine .map rfl (fun f hf => ?_) fun f hf => ?_
      · obtain ⟨e, he, hkey, -⟩ := hentry f hf
        exact hkey ▸ keys e he
      · obtain ⟨e, he, -, hvalue⟩ := hentry f hf
        exact ih e he hvalue

/-! ## Sets that are put together anew -/

theorem distinct_of_pairwise (h : xs.Pairwise fun x y => (x == y) = false) : distinct xs = xs := by
  have hfold (ys seen : List Value) (h : (seen ++ ys).Pairwise fun x y => (x == y) = false) :
      ys.foldl (fun seen y => if seen.any (· == y) then seen else seen ++ [y]) seen =
        seen ++ ys := by
    induction ys generalizing seen with
    | nil => rw [List.foldl_nil, List.append_nil]
    | cons y ys ih =>
        have hnew : seen.any (· == y) = false := by
          rw [List.any_eq_false]
          intro x hx
          rw [(List.pairwise_append.mp h).2.2 x hx y List.mem_cons_self]
          exact Bool.false_ne_true
        rw [List.append_cons] at h ⊢
        rw [List.foldl_cons, hnew]
        exact ih _ h
  exact hfold xs [] h

/-- The frozen sequence of some items. Items of a set have to be keys, and of equal ones only the
first is kept. -/
def assemble (k : SeqKind) (xs : List Value) : Except Error Value :=
  if !k.isSet then .ok (.seq .tuple xs)
  else if areKeys xs then .ok (.seq .frozenset (distinct xs))
  else .error .wrongKind

mutual

/-- Freezing that puts every sequence together from its frozen items. -/
def freezeAnew : Value → Except Error Value
  | .seq k xs => do assemble k (← freezeItemsAnew xs)
  | .map _ es => (freezeEntriesAnew es).map (.map .view)
  | v => v.copy

def freezeItemsAnew : List Value → Except Error (List Value)
  | [] => .ok []
  | x :: xs => do
    let y ← freezeAnew x
    return y :: (← freezeItemsAnew xs)

def freezeEntriesAnew : List (Value × Value) → Except Error (List (Value × Value))
  | [] => .ok []
  | (k, v) :: es => do
    let w ← freezeAnew v
    return (k, w) :: (← freezeEntriesAnew es)

end

theorem freezeItemsAnew_eq (h : ∀ x ∈ xs, x.freezeAnew = x.freeze) :
    freezeItemsAnew xs = freezeItems xs := by
  induction xs with
  | nil => rfl
  | cons x xs ih =>
      obtain ⟨hx, hxs⟩ := List.forall_mem_cons.mp h
      rw [freezeItemsAnew, freezeItems, hx, ih hxs]

theorem freezeEntriesAnew_eq (h : ∀ e ∈ es, e.2.freezeAnew = e.2.freeze) :
    freezeEntriesAnew es = freezeEntries es := by
  induction es with
  | nil => rfl
  | cons e es ih =>
      obtain ⟨he, hes⟩ := List.forall_mem_cons.mp h
      rw [freezeEntriesAnew, freezeEntries, he, ih hes]

/-- No set loses an item. -/
theorem MadeOf.freezeAnew_eq (h : v.MadeOf seqs maps) : v.freezeAnew = v.freeze := by
  induction h with
  | @atom v h => cases v <;> first | rfl | cases h
  | @seq k xs _ unlike items ih =>
      rw [freezeAnew, freeze, freezeItemsAnew_eq ih]
      cases hset : k.isSet with
      | true =>
          obtain ⟨hkeys, hdistinct⟩ := unlike hset
          have hkind : k.frozen = .frozenset := by cases k <;> first | rfl | cases hset
          simp [freezeItems_of_areKeys items hkeys, assemble, hset, hkeys,
            distinct_of_pairwise hdistinct, hkind, Except.map]
      | false =>
          have hkind : k.frozen = .tuple := by cases k <;> first | rfl | cases hset
          cases freezeItems xs <;> simp [assemble, hset, hkind, Except.map]
  | map _ _ _ ih => rw [freezeAnew, freeze, freezeEntriesAnew_eq ih]

/-! ## Thawing -/

theorem IsFrozen.isThawed (h : v.IsFrozen) : v.thaw.IsThawed := by
  induction h with
  | atom h =>
      rw [thaw_of_isAtom h]
      exact .atom h
  | @seq k xs kind _ _ ih =>
      have hlist : thaw (.seq k xs) = .list (xs.map thaw) := by
        rcases kind with rfl | rfl <;> simp [thaw, thawItems_eq_map]
      rw [hlist]
      exact .seq rfl nofun (List.forall_mem_map.mpr ih)
  | @map k es _ keys _ ih =>
      rw [thaw, thawEntries_eq_map]
      exact .map rfl (List.forall_mem_map.mpr keys) (List.forall_mem_map.mpr ih)

theorem IsThawed.listed_eq (h : v.IsThawed) : v.listed = v := by
  induction h with
  | atom h => exact listed_of_isAtom h
  | @seq k xs kind _ _ ih =>
      have hitems : xs.map listed = xs := by
        rw [List.map_congr_left ih, List.map_id']
      rw [listed, listedItems_eq_map, hitems, kind]
  | @map k es kind _ _ ih =>
      have hentries : es.map (fun e => (e.1, listed e.2)) = es := by
        rw [List.map_congr_left fun e he => by rw [ih e he], List.map_id']
      rw [listed, listedEntries_eq_map, hentries, kind]

/-- Freezing data leaves nothing that can change, and freezing it again changes nothing. Thawing
what is frozen leaves every key and every item where it stood, in lists and dictionaries only, and
data that has no other parts comes back as it was. -/
theorem thawed_of_frozen_data (hv : v.IsData) :
    ∃ w, v.freeze = .ok w ∧ v.freezeAnew = .ok w ∧ w.IsFrozen ∧ w.freeze = .ok w ∧
      w.thaw = v.listed ∧ w.thaw.IsThawed ∧ (v.IsThawed → w.thaw = v) ∧
      ∃ u, w.thaw.freeze = .ok u ∧ u.thaw = w.thaw := by
  obtain ⟨w, hw⟩ := hv.exists_freeze
  have hfrozen := hv.isFrozen_of_freeze hw
  have hthaw := thaw_freeze v hw
  have hthawed := hfrozen.isThawed
  obtain ⟨u, hu⟩ := hthawed.isData.exists_freeze
  refine ⟨w, hw, hv.freezeAnew_eq.trans hw, hfrozen, hfrozen.freeze_eq, hthaw, hthawed,
    fun h => hthaw.trans h.listed_eq, u, hu, ?_⟩
  rw [thaw_freeze _ hu, hthawed.listed_eq]

/-- A set of a tuple and of a frozen set in a view, beside a list of tuples. -/
theorem thawed_of_frozen_sets :
    let items : List Value := [.tuple [.str "a", .int 1], .seq .frozenset [.int 2, .null]]
    let v : Value := .dict [(.str "tags", .map .view [(.int 7, .seq .set items)]),
      (.str "rows", .list [.tuple [.float 1.5], .bool true])]
    v.IsData ∧ ∃ w, v.freeze = .ok w ∧ v.freezeAnew = .ok w ∧ w.IsFrozen ∧
      w.thaw = .dict
        [(.str "tags", .dict [(.int 7, .list [.list [.str "a", .int 1], .list [.int 2, .null]])]),
          (.str "rows", .list [.list [.float 1.5], .bool true])] := by
  intro items v
  have hpair {x y : Value} (hx : x.isAtom = true) (hy : y.isAtom = true) :
      ∀ z ∈ [x, y], z.IsData :=
    List.forall_mem_cons.mpr ⟨.atom hx, List.forall_mem_singleton.mpr (.atom hy)⟩
  have htuple : (Value.tuple [.str "a", .int 1]).IsData := .seq trivial nofun (hpair rfl rfl)
  have hset : (Value.seq .frozenset [.int 2, .null]).IsData :=
    .seq trivial (fun _ => ⟨by decide, by decide +kernel⟩) (hpair rfl rfl)
  have htags : (Value.seq .set items).IsData := by
    refine .seq trivial (fun _ => ⟨by decide, by decide +kernel⟩) ?_
    exact List.forall_mem_cons.mpr ⟨htuple, List.forall_mem_singleton.mpr hset⟩
  have hview : (Value.map .view [(.int 7, .seq .set items)]).IsData :=
    .map trivial (List.forall_mem_singleton.mpr rfl) (List.forall_mem_singleton.mpr htags)
  have hrow : (Value.tuple [.float 1.5]).IsData :=
    .seq trivial nofun (List.forall_mem_singleton.mpr (.atom rfl))
  have hrows : (Value.list [.tuple [.float 1.5], .bool true]).IsData :=
    .seq trivial nofun (List.forall_mem_cons.mpr ⟨hrow, List.forall_mem_singleton.mpr (.atom rfl)⟩)
  have hv : v.IsData := by
    refine .map trivial (by simp [isKey]) ?_
    exact List.forall_mem_cons.mpr ⟨hview, List.forall_mem_singleton.mpr hrows⟩
  obtain ⟨w, hfreeze, hanew, hfrozen, -, hthaw, -⟩ := thawed_of_frozen_data hv
  exact ⟨hv, w, hfreeze, hanew, hfrozen, hthaw⟩

end DocSearch.Value
