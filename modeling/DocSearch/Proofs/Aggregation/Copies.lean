import DocSearch.Proofs.Aggregation.Documents

/-!
# Aggregations that can be copied

Declared nodes that can be copied expand into aggregations whose document can be copied. The
property is carried from the value through the declared tree and the expanded tree to the entries of
the document.
-/

namespace DocSearch

open Value

namespace Declared

mutual

/-- Everything that a declaration names can be copied. -/
def copyable : Declared → Bool
  | .node k p t cs => k.copyable && p.copyable && t.copyable && copyableIn cs
  | .mapping es cs => copyableEntries es && copyableIn cs
  | .other _ => true

def copyableIn : Option (List Declared) → Bool
  | none => true
  | some ds => copyableAll ds

def copyableAll : List Declared → Bool
  | [] => true
  | d :: ds => copyable d && copyableAll ds

end

theorem copyableAll_others {α : Type} (xs : List α) (kind : α → String) :
    copyableAll (xs.map fun x => .other (kind x)) = true := by
  induction xs with
  | nil => rfl
  | cons x xs ih => simp [copyableAll, copyable, ih]

mutual

theorem copyable_ofValue (v : Value) (h : v.copyable = true) :
    (ofValue v).copyable = true := by
  unfold ofValue
  split
  · rename_i k p t c
    have hs := copyableItems_iff.mp h
    have hc := copyable_childrenOf c (hs c (by simp))
    simp [copyable, hc, hs k, hs p, hs t]
  · rename_i kind es
    simp only [Value.copyable, Bool.and_eq_true] at h
    simp [copyable, h.2, copyable_childrenIn es h.2]
  · rfl

theorem copyable_ofValues (vs : List Value) (h : copyableItems vs = true) :
    copyableAll (ofValues vs) = true := by
  match vs with
  | [] => rfl
  | v :: vs =>
      simp only [copyableItems, Bool.and_eq_true] at h
      simp [ofValues, copyableAll, copyable_ofValue v h.1, copyable_ofValues vs h.2]

theorem copyable_childrenOf (v : Value) (h : v.copyable = true) :
    copyableIn (childrenOf v) = true := by
  unfold childrenOf
  split
  · rename_i kind xs
    exact copyable_ofValues xs h
  · exact copyableAll_others _ _
  · exact copyableAll_others _ _
  · exact copyableAll_others _ _
  · rfl

theorem copyable_childrenIn (es : List (Value × Value)) (h : copyableEntries es = true) :
    copyableIn (childrenIn es) = true := by
  match es with
  | [] => rfl
  | (k, v) :: es =>
      simp only [copyableEntries, Bool.and_eq_true] at h
      unfold childrenIn
      split
      · split
        · exact copyable_childrenOf v h.1.2
        · rfl
      · exact copyable_childrenIn es h.2

end

theorem copyable_typeIn {es : List (Value × Value)} (h : copyableEntries es = true) :
    (typeIn es).copyable = true :=
  copyable_fieldD _ h (copyable_fieldD _ h rfl)

end Declared

namespace Aggregation

mutual

def copyable : Aggregation → Bool
  | .nested n p cs => n.copyable && p.copyable && copyableAll cs
  | .field n t _ cs => n.copyable && t.copyable && copyableAll cs

def copyableAll : List Aggregation → Bool
  | [] => true
  | a :: as => copyable a && copyableAll as

end

theorem copyable_name {a : Aggregation} (h : a.copyable = true) : a.name.copyable = true := by
  cases a with
  | nested n p cs =>
      simp only [copyable, Bool.and_eq_true] at h
      exact h.1.1
  | field n t f cs =>
      simp only [copyable, Bool.and_eq_true] at h
      exact h.1.1

theorem copyable_assemble {key path kind : Value} {cs : List Aggregation} {a : Aggregation}
    (hk : key.copyable = true) (hp : path.copyable = true) (ht : kind.copyable = true)
    (hcs : copyableAll cs = true) (h : assemble key path kind cs = .ok a) :
    a.copyable = true := by
  rcases cases_of_assemble h with ⟨-, -, f, -, rfl⟩ | ⟨-, rfl⟩
  · simp [copyable, copyableAll, hk, hp, ht, hcs]
  · simp [copyable, hk, hp, hcs]

mutual

theorem copyable_expand (d : Declared) {a : Aggregation} (hd : d.copyable = true)
    (h : expand d = .ok a) : a.copyable = true := by
  match d with
  | .node k p t cs =>
      simp only [Declared.copyable, Bool.and_eq_true] at hd
      obtain ⟨⟨⟨hk, hp⟩, ht⟩, hcs⟩ := hd
      obtain ⟨_, _, h⟩ := Except.bind_eq_ok_iff.mp h
      obtain ⟨as, has, h⟩ := Except.bind_eq_ok_iff.mp h
      exact copyable_assemble hk hp ht (copyable_expandChildren cs hcs has) h
  | .mapping es cs =>
      simp only [Declared.copyable, Bool.and_eq_true] at hd
      obtain ⟨hes, hcs⟩ := hd
      have hk : (fieldD es "key" .null).copyable = true := copyable_fieldD _ hes rfl
      have hp : (fieldD es "path" .null).copyable = true := copyable_fieldD _ hes rfl
      unfold expand at h
      split at h
      · cases h
      · obtain ⟨_, _, h⟩ := Except.bind_eq_ok_iff.mp h
        obtain ⟨as, has, h⟩ := Except.bind_eq_ok_iff.mp h
        exact copyable_assemble hk hp (Declared.copyable_typeIn hes)
          (copyable_expandChildren cs hcs has) h
  | .other kind => cases h

theorem copyable_expandChildren (cs : Option (List Declared)) {as : List Aggregation}
    (hcs : Declared.copyableIn cs = true) (h : expandChildren cs = .ok as) :
    copyableAll as = true := by
  match cs with
  | none => cases h
  | some ds => exact copyable_expandAll ds hcs h

theorem copyable_expandAll (ds : List Declared) {as : List Aggregation}
    (hds : Declared.copyableAll ds = true) (h : expandAll ds = .ok as) :
    copyableAll as = true := by
  match ds with
  | [] => exact Except.ok.inj h ▸ rfl
  | d :: ds =>
      simp only [Declared.copyableAll, Bool.and_eq_true] at hds
      obtain ⟨b, hb, h⟩ := Except.bind_eq_ok_iff.mp h
      obtain ⟨bs, hbs, h⟩ := Except.bind_eq_ok_iff.mp h
      obtain rfl := Except.ok.inj h
      simp [copyableAll, copyable_expand d hds.1 hb, copyable_expandAll ds hds.2 hbs]

end

/-- The entries of an aggregation: its kind, and the document of its children if it has some. -/
theorem copyable_withChildren {head es : List (Value × Value)} {cs : List Aggregation}
    (hhead : copyableEntries head = true)
    (hcs : ∀ {merged}, mergeInto [] cs = .ok merged → copyableEntries merged = true)
    (h : (if cs.isEmpty then pure head
      else do return Entries.put head (.str "aggs") (.dict (← mergeInto [] cs))) = Except.ok es) :
    copyableEntries es = true := by
  split at h
  · exact Except.ok.inj h ▸ hhead
  · obtain ⟨merged, hm, h⟩ := Except.bind_eq_ok_iff.mp h
    obtain rfl := Except.ok.inj h
    exact Entries.copyableEntries_put hhead rfl (copyable_dict.mpr (hcs hm))

mutual

theorem copyableEntries_render (a : Aggregation) {es : List (Value × Value)}
    (ha : a.copyable = true) (h : a.render = .ok es) : copyableEntries es = true := by
  match a with
  | .nested n p cs =>
      simp only [copyable, Bool.and_eq_true] at ha
      refine copyable_withChildren ?_ (fun hm => copyableEntries_mergeInto [] cs rfl ha.2 hm) h
      have hp : (Value.object [("path", p)]).copyable = true :=
        copyable_object (by simp [ha.1.2])
      simp [copyableEntries, hp, Value.copyable]
  | .field n t f cs =>
      simp only [copyable, Bool.and_eq_true] at ha
      obtain ⟨k, hk, h⟩ := Except.bind_eq_ok_iff.mp h
      refine copyable_withChildren ?_ (fun hm => copyableEntries_mergeInto [] cs rfl ha.2 hm) h
      have hkt : k = t := (asKey_eq_ok_iff.mp hk).2.symm
      have hf : (Value.object [("field", .str f)]).copyable = true :=
        copyable_object (by simp [Value.copyable])
      simp [copyableEntries, hf, hkt, ha.1.2]

theorem copyableEntries_mergeInto (merged : List (Value × Value)) (as : List Aggregation)
    {es : List (Value × Value)} (hm : copyableEntries merged = true)
    (has : copyableAll as = true) (h : mergeInto merged as = .ok es) :
    copyableEntries es = true := by
  match as with
  | [] => exact Except.ok.inj h ▸ hm
  | a :: as =>
      simp only [copyableAll, Bool.and_eq_true] at has
      obtain ⟨n, hn, h⟩ := Except.bind_eq_ok_iff.mp h
      have hname : n = a.name := (asKey_eq_ok_iff.mp hn).2.symm
      split at h
      · cases h
      · obtain ⟨fs, hfs, h⟩ := Except.bind_eq_ok_iff.mp h
        refine copyableEntries_mergeInto _ as ?_ has.2 h
        have hbody := copyable_dict.mpr (copyableEntries_render a has.1 hfs)
        exact Entries.copyableEntries_put hm (hname ▸ copyable_name has.1) hbody

end

/-- What copyable declarations build can be copied. -/
theorem copyableEntries_documentOf {nodes : Value} {es : List (Value × Value)}
    (hn : nodes.copyable = true) (h : documentOf nodes = .ok es) :
    copyableEntries es = true := by
  have hd := Declared.copyable_childrenOf nodes hn
  unfold documentOf at h
  cases hc : Declared.childrenOf nodes with
  | none =>
      rw [hc] at h
      cases h
  | some ds =>
      rw [hc] at h hd
      obtain ⟨as, has, h⟩ := Except.bind_eq_ok_iff.mp h
      exact copyableEntries_mergeInto [] as rfl (copyable_expandAll ds hd has) h

end Aggregation

end DocSearch
