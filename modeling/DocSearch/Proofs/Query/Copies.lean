import DocSearch.Proofs.Value.Copies
import DocSearch.Query.Draft

/-!
# Clauses whose bodies can be copied

A clause that is made from values that can be copied has a body that can be copied, if it has a body
at all. Records of clauses that were built before are followed down to the values in them.
-/

namespace DocSearch

namespace Clause

/-- The body of the clause, if it has one, can be copied. -/
def Copyable (c : Clause) : Prop :=
  ∀ v, c.render = .ok v → v.copyable = true

def CopyableWeighted (f : Weighted Clause) : Prop :=
  f.filter.Copyable ∧ f.weight.copyable = true

variable {f v t q fs m p b : Value} {cs : List Clause} {ws : List (Weighted Clause)}
  {vs : List Value} {c : Clause}

theorem copyable_renderAll (h : ∀ c ∈ cs, c.Copyable) (hvs : renderAll cs = .ok vs) :
    (Value.list vs).copyable = true := by
  rw [Value.copyable_seq]
  induction cs generalizing vs with
  | nil =>
      obtain rfl := Except.ok.inj hvs
      nofun
  | cons c cs ih =>
      obtain ⟨v, hv, hvs⟩ := Except.bind_eq_ok_iff.mp hvs
      obtain ⟨us, hus, hvs⟩ := Except.bind_eq_ok_iff.mp hvs
      obtain rfl := Except.ok.inj hvs
      obtain ⟨hc, hcs⟩ := List.forall_mem_cons.mp h
      exact List.forall_mem_cons.mpr ⟨hc v hv, ih hcs hus⟩

theorem copyable_renderWeighted (h : ∀ w ∈ ws, CopyableWeighted w)
    (hvs : renderWeighted ws = .ok vs) : (Value.list vs).copyable = true := by
  rw [Value.copyable_seq]
  induction ws generalizing vs with
  | nil =>
      obtain rfl := Except.ok.inj hvs
      nofun
  | cons w ws ih =>
      obtain ⟨v, hv, hvs⟩ := Except.bind_eq_ok_iff.mp hvs
      obtain ⟨us, hus, hvs⟩ := Except.bind_eq_ok_iff.mp hvs
      obtain rfl := Except.ok.inj hvs
      obtain ⟨⟨hfilter, hweight⟩, hws⟩ := List.forall_mem_cons.mp h
      refine List.forall_mem_cons.mpr ⟨Value.copyable_object ?_, ih hws hus⟩
      simp [hfilter v hv, hweight]

theorem copyable_givenEntry (name : String) (h : v.copyable = true) :
    ∀ e ∈ givenEntry name v, e.2.copyable = true := by
  unfold givenEntry
  split
  · simp [h]
  · nofun

/-! ## One kind after the other -/

theorem copyable_term (hf : f.copyable = true) (ht : t.copyable = true) (v : Value) :
    (term f v t).Copyable := by
  intro w h
  obtain ⟨u, hu, h⟩ := Except.bind_eq_ok_iff.mp h
  obtain ⟨hv, rfl⟩ := Value.copy_eq_ok_iff.mp hu
  obtain ⟨x, hx, hw⟩ := Except.bind_eq_ok_iff.mp h
  exact Value.copyable_entry ht (Value.copyable_entry hf hv hx) hw

theorem copyable_multiMatch (hq : q.copyable = true) (hfs : fs.copyable = true)
    (ht : t.copyable = true) : (multiMatch q fs t).Copyable := by
  intro w h
  obtain ⟨xs, hxs, h⟩ := Except.bind_eq_ok_iff.mp h
  obtain rfl := Except.ok.inj h
  have hfields : (Value.list xs).copyable = true :=
    Value.copyable_seq.mpr (Value.copyable_items hfs hxs)
  refine Value.copyable_object (List.forall_mem_singleton.mpr (Value.copyable_object ?_))
  simpa [hq, hfields] using fun e => copyable_givenEntry "type" ht e

theorem copyable_existence (hf : f.copyable = true) : (existence f).Copyable := by
  intro w h
  obtain rfl := Except.ok.inj h
  refine Value.copyable_object (List.forall_mem_singleton.mpr (Value.copyable_object ?_))
  exact List.forall_mem_singleton.mpr hf

theorem copyable_raw (b : Value) : (raw b).Copyable := by
  intro w h
  obtain ⟨es, -, h⟩ := Except.bind_eq_ok_iff.mp h
  obtain ⟨hes, rfl⟩ := Value.copy_eq_ok_iff.mp h
  exact hes

theorem copyable_nested (hp : p.copyable = true) (hc : c.Copyable) (hm : m.copyable = true) :
    (nested p c m).Copyable := by
  intro w h
  obtain ⟨v, hv, h⟩ := Except.bind_eq_ok_iff.mp h
  obtain rfl := Except.ok.inj h
  refine Value.copyable_object (List.forall_mem_singleton.mpr (Value.copyable_object ?_))
  simpa [hp, hc v hv] using fun e => copyable_givenEntry "score_mode" hm e

theorem copyable_bool {gs : Groups Clause} (hgs : ∀ g, ∀ c ∈ gs.get g, c.Copyable)
    (hm : gs.minimum.copyable = true) : (bool gs).Copyable := by
  intro w h
  obtain ⟨filter, must, mustNot, should, minimum⟩ := gs
  obtain ⟨f, hf, h⟩ := Except.bind_eq_ok_iff.mp h
  obtain ⟨m, hmust, h⟩ := Except.bind_eq_ok_iff.mp h
  obtain ⟨n, hn, h⟩ := Except.bind_eq_ok_iff.mp h
  obtain ⟨s, hs, h⟩ := Except.bind_eq_ok_iff.mp h
  obtain rfl := Except.ok.inj h
  refine Value.copyable_object (List.forall_mem_singleton.mpr (Value.copyable_object ?_))
  have hminimum : ∀ e ∈ (if minimum.isNull then [] else [("minimum_should_match", minimum)] :
      List (String × Value)), e.2.copyable = true := by
    split
    · nofun
    · exact List.forall_mem_singleton.mpr hm
  simpa [copyable_renderAll (hgs .filter) hf, copyable_renderAll (hgs .must) hmust,
    copyable_renderAll (hgs .mustNot) hn, copyable_renderAll (hgs .should) hs] using hminimum

theorem copyable_functionScore (hc : c.Copyable) (hws : ∀ w ∈ ws, CopyableWeighted w)
    (s : ScoreSettings) : (functionScore c ws s).Copyable := by
  intro w h
  obtain ⟨v, hv, h⟩ := Except.bind_eq_ok_iff.mp h
  obtain ⟨us, hus, h⟩ := Except.bind_eq_ok_iff.mp h
  obtain rfl := Except.ok.inj h
  refine Value.copyable_object (List.forall_mem_singleton.mpr (Value.copyable_object ?_))
  have hstr (x : String) : (Value.str x).copyable = true := rfl
  simp [hc v hv, copyable_renderWeighted hws hus, hstr]

theorem copyable_foreign (v : Value) : (foreign v).Copyable := nofun

/-! ## Records -/

mutual

theorem copyable_ofValue (v : Value) (h : v.copyable = true) : (ofValue v).Copyable := by
  unfold ofValue
  split
  · rename_i f v t
    have hs := Value.copyableItems_iff.mp h
    exact copyable_term (hs f (by simp)) (hs t (by simp)) v
  · rename_i q fs t
    have hs := Value.copyableItems_iff.mp h
    exact copyable_multiMatch (hs q (by simp)) (hs fs (by simp)) (hs t (by simp))
  · rename_i f
    exact copyable_existence (Value.copyableItems_iff.mp h f (by simp))
  · exact copyable_raw _
  · rename_i p q m
    have hs := Value.copyableItems_iff.mp h
    exact copyable_nested (hs p (by simp)) (copyable_ofValue q (hs q (by simp)))
      (hs m (by simp))
  · rename_i kf f km m kn n ks s k
    have hs := Value.copyableItems_iff.mp h
    refine copyable_bool (fun g => ?_) (hs k (by simp))
    cases g with
    | filter => exact copyable_ofValues f (hs (.seq kf f) (by simp))
    | must => exact copyable_ofValues m (hs (.seq km m) (by simp))
    | mustNot => exact copyable_ofValues n (hs (.seq kn n) (by simp))
    | should => exact copyable_ofValues s (hs (.seq ks s) (by simp))
  · rename_i q k fs t
    have hs := Value.copyableItems_iff.mp h
    exact copyable_functionScore (copyable_ofValue q (hs q (by simp)))
      (copyable_ofWeighted fs (hs (.seq k fs) (by simp))) _
  · nofun
  · exact copyable_foreign _

theorem copyable_ofValues (vs : List Value) (h : Value.copyableItems vs = true) :
    ∀ c ∈ ofValues vs, c.Copyable := by
  cases vs with
  | nil => nofun
  | cons v vs =>
      rw [Value.copyableItems, Bool.and_eq_true] at h
      exact List.forall_mem_cons.mpr ⟨copyable_ofValue v h.1, copyable_ofValues vs h.2⟩

theorem copyable_ofWeighted (vs : List Value) (h : Value.copyableItems vs = true) :
    ∀ w ∈ ofWeighted vs, CopyableWeighted w := by
  unfold ofWeighted
  split
  · nofun
  · rename_i c w vs
    rw [Value.copyableItems, Bool.and_eq_true] at h
    have hs := Value.copyableItems_iff.mp h.1
    exact List.forall_mem_cons.mpr ⟨⟨copyable_ofValue c (hs c (by simp)), hs w (by simp)⟩,
      copyable_ofWeighted vs h.2⟩
  · rename_i v vs _
    rw [Value.copyableItems, Bool.and_eq_true] at h
    exact List.forall_mem_cons.mpr ⟨⟨copyable_foreign v, rfl⟩, copyable_ofWeighted vs h.2⟩

end

/-- Whatever a caller may give as a clause has a body that can be copied. -/
theorem copyable_asClause (hv : v.copyable = true) (h : v.asClause = .ok c) : c.Copyable := by
  unfold Value.asClause at h
  dsimp only at h
  split at h
  · obtain rfl := Except.ok.inj h
    exact copyable_ofValue _ hv
  · obtain ⟨b, -, rfl⟩ := Except.map_eq_ok_iff.mp h
    exact copyable_raw b
  · cases h

end Clause

namespace Draft

variable {path field value queryType query : Value} {cs : List Clause}

theorem copyable_underPath (hp : path.copyable = true) (h : ∀ c ∈ cs, c.Copyable) :
    ∀ c ∈ underPath path cs, c.Copyable := by
  intro c hc
  obtain ⟨d, hd, rfl⟩ := List.mem_map.mp hc
  exact Clause.copyable_nested hp (h d hd) rfl

theorem copyable_predicates (hf : field.copyable = true) (ht : queryType.copyable = true) :
    ∀ c ∈ predicates field value queryType, c.Copyable := by
  intro c hc
  obtain ⟨v, -, rfl⟩ := List.mem_map.mp hc
  exact Clause.copyable_term hf ht _

theorem copyable_given (hq : query.copyable = true) (h : given query = .ok cs) :
    ∀ c ∈ cs, c.Copyable := by
  intro c hc
  obtain ⟨v, hv, hasClause⟩ := Except.exists_of_mem_mapM h c hc
  exact Clause.copyable_asClause (Value.copyable_unroll hq hv) hasClause

end Draft

end DocSearch
