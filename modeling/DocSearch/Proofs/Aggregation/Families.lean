import DocSearch.Proofs.Aggregation.Documents

/-!
# Forests that are refused

The declarations of a forest stand in families of siblings, one at the top and one below every
declaration. A document is only built if no family is flawed: every declaration is a node with a key
and a path, a type that yields a single value comes without children, and siblings have different
keys.
-/

namespace DocSearch

namespace Declared

def key (d : Declared) : Value := d.parts.1

def path (d : Declared) : Value := d.parts.2.1

def fieldType (d : Declared) : Value := d.parts.2.2

/-- The declarations below one, if they can be listed. -/
def children? : Declared → Option (List Declared)
  | node _ _ _ cs => cs
  | mapping _ cs => cs
  | other _ => some []

/-- A declaration that is no node by itself, whatever its siblings are. -/
inductive Bad : Declared → Prop
  | foreign (kind : String) : Bad (.other kind)
  | incomplete {es : List (Value × Value)} {cs : Option (List Declared)}
      (h : Value.hasField es "key" = false ∨ Value.hasField es "path" = false) :
      Bad (.mapping es cs)
  | blank {d : Declared} (h : d.key.truthy = false ∨ d.path.truthy = false) : Bad d
  | unlisted {d : Declared} (h : d.children? = none) : Bad d
  | metric {d c : Declared} {cs : List Declared} (ht : d.fieldType.truthy = true)
      (hm : Aggregation.isMetric d.fieldType = .ok true) (hcs : d.children? = some (c :: cs)) :
      Bad d

/-- Siblings one of which is bad, or two of which share a key. -/
def Flawed (ds : List Declared) : Prop :=
  (∃ d ∈ ds, d.Bad) ∨ ¬ ds.Pairwise fun c d => (c.key == d.key) = false

/-- The second list is a family of siblings at some depth of the first one. -/
inductive Family : List Declared → List Declared → Prop
  | top (ds : List Declared) : Family ds ds
  | inside {ds cs fs : List Declared} {d : Declared} (hd : d ∈ ds) (hcs : d.children? = some cs)
      (h : Family cs fs) : Family ds fs

end Declared

namespace Aggregation

open Declared

variable {merged es : List (Value × Value)} {as : List Aggregation} {a : Aggregation}
  {ds fs : List Declared} {d : Declared} {key path kind : Value}

theorem requireNames_eq_ok {x : Unit} (h : requireNames key path = .ok x) :
    key.truthy = true ∧ path.truthy = true := by
  unfold requireNames at h
  split at h
  · rename_i hnames
    exact Bool.and_eq_true_iff.mp hnames
  · cases h

/-! ## Documents of siblings -/

/-- Siblings are put together if each of them has a body and a key of its own. -/
theorem mergeInto_eq_ok (h : mergeInto merged as = .ok es) :
    (∀ a ∈ as, ∃ body, a.render = .ok body) ∧
      (∀ k ∈ Entries.keys merged, ∀ a ∈ as, (k == a.name) = false) ∧
      as.Pairwise fun a b => (a.name == b.name) = false := by
  obtain ⟨fs, hfs, hapart, hdistinct, -⟩ := mergeInto_eq_ok_iff.mp h
  rw [keys_of_entries hfs] at hapart hdistinct
  refine ⟨fun a ha => ?_, fun k hk a ha => hapart k hk a.name (List.mem_map_of_mem ha),
    List.pairwise_map.mp hdistinct⟩
  obtain ⟨e, he⟩ := Except.exists_mapM_iff.mp ⟨fs, hfs⟩ a ha
  obtain ⟨-, body, hbody, -⟩ := entry_eq_ok_iff.mp he
  exact ⟨body, hbody⟩

theorem merged_of_withChildren {head : List (Value × Value)}
    (h : (if as.isEmpty then pure head
      else do return Entries.put head (.str "aggs") (.dict (← mergeInto [] as))) = Except.ok es) :
    ∃ cs, mergeInto [] as = .ok cs := by
  split at h
  · rename_i hnone
    obtain rfl := List.isEmpty_iff.mp hnone
    exact ⟨[], rfl⟩
  · obtain ⟨cs, hcs, -⟩ := Except.bind_eq_ok_iff.mp h
    exact ⟨cs, hcs⟩

/-- An assembled aggregation has the name of its node, a type that yields a single value is left
without children, and the body holds the document of the children. -/
theorem assemble_eq_ok (h : assemble key path kind as = .ok a) :
    a.name = key ∧ (kind.truthy = true → isMetric kind = .ok true → as = []) ∧
      ∀ body, a.render = .ok body → ∃ cs, mergeInto [] as = .ok cs := by
  rcases cases_of_assemble h with ⟨-, hleaf, f, -, rfl⟩ | ⟨htype, rfl⟩
  · refine ⟨rfl, fun _ => hleaf, fun body hr => ?_⟩
    rw [render] at hr
    obtain ⟨cs, hcs⟩ := merged_of_withChildren hr
    obtain ⟨inner, hinner⟩ := (mergeInto_eq_ok hcs).1 _ List.mem_cons_self
    rw [render] at hinner
    obtain ⟨k, -, hinner⟩ := Except.bind_eq_ok_iff.mp hinner
    exact merged_of_withChildren hinner
  · refine ⟨rfl, fun htruthy => absurd htruthy htype, fun body hr => ?_⟩
    rw [render] at hr
    exact merged_of_withChildren hr

/-! ## Families -/

theorem not_bad {cs : List Declared} {x : Unit} (hcs : d.children? = some cs)
    (hproblem : d.problem? = none) (hnames : requireNames d.key d.path = .ok x)
    (hmetric : d.fieldType.truthy = true → isMetric d.fieldType = .ok true → cs = []) :
    ¬ d.Bad := by
  obtain ⟨hkey, hpath⟩ := requireNames_eq_ok hnames
  intro hbad
  cases hbad with
  | foreign kind => cases hproblem
  | @incomplete es cs h =>
      cases hk : Value.hasField es "key" with
      | false => simp [problem?, hk] at hproblem
      | true =>
          have hp : Value.hasField es "path" = false := h.resolve_left (by simp [hk])
          simp [problem?, hk, hp] at hproblem
  | blank h => simp [hkey, hpath] at h
  | unlisted h => simp [h] at hcs
  | metric ht hm hc =>
      obtain rfl := hmetric ht hm
      cases hcs.symm.trans hc

theorem eq_nil_of_expandAll {cs : List Declared} (h : expandAll cs = .ok []) : cs = [] := by
  cases cs with
  | nil => rfl
  | cons c cs =>
      obtain ⟨b, -, h⟩ := Except.bind_eq_ok_iff.mp h
      obtain ⟨bs, -, h⟩ := Except.bind_eq_ok_iff.mp h
      cases h

/-- What it takes to expand a declaration: it is a node whose children expand, and its body holds
their document. -/
theorem expand_eq_ok (h : expand d = .ok a) :
    ¬ d.Bad ∧ a.name = d.key ∧ ∃ cs as, d.children? = some cs ∧ expandAll cs = .ok as ∧
      ∀ body, a.render = .ok body → ∃ merged, mergeInto [] as = .ok merged := by
  have hnode {x : Unit} (hproblem : d.problem? = none)
      (hnames : requireNames d.key d.path = .ok x)
      (hbody : (do assemble d.key d.path d.fieldType (← expandChildren d.children?)) =
        Except.ok a) :
      ¬ d.Bad ∧ a.name = d.key ∧ ∃ cs as, d.children? = some cs ∧ expandAll cs = .ok as ∧
        ∀ body, a.render = .ok body → ∃ merged, mergeInto [] as = .ok merged := by
    obtain ⟨as, has, ha⟩ := Except.bind_eq_ok_iff.mp hbody
    obtain ⟨hname, hmetric, hrender⟩ := assemble_eq_ok ha
    cases hcs : d.children? with
    | none =>
        rw [hcs] at has
        cases has
    | some cs =>
        rw [hcs] at has
        refine ⟨not_bad hcs hproblem hnames fun ht hm => ?_, hname, cs, as, rfl, has, hrender⟩
        obtain rfl := hmetric ht hm
        exact eq_nil_of_expandAll has
  cases d with
  | node k p t cs =>
      obtain ⟨x, hx, h⟩ := Except.bind_eq_ok_iff.mp h
      exact hnode rfl hx h
  | mapping es cs =>
      rw [expand] at h
      cases hproblem : (Declared.mapping es cs).problem? with
      | some e =>
          rw [hproblem] at h
          cases h
      | none =>
          rw [hproblem] at h
          obtain ⟨x, hx, h⟩ := Except.bind_eq_ok_iff.mp h
          exact hnode hproblem hx h
  | other kind => cases h

theorem expandAll_eq_ok (h : expandAll ds = .ok as) :
    as.map name = ds.map Declared.key ∧ ∀ d ∈ ds, ∃ a ∈ as, expand d = .ok a := by
  induction ds generalizing as with
  | nil =>
      obtain rfl := Except.ok.inj h
      exact ⟨rfl, nofun⟩
  | cons d ds ih =>
      obtain ⟨a, ha, h⟩ := Except.bind_eq_ok_iff.mp h
      obtain ⟨bs, hbs, h⟩ := Except.bind_eq_ok_iff.mp h
      obtain rfl := Except.ok.inj h
      obtain ⟨hnames, hall⟩ := ih hbs
      refine ⟨?_, List.forall_mem_cons.mpr ⟨⟨a, List.mem_cons_self, ha⟩, fun c hc => ?_⟩⟩
      · rw [List.map_cons, List.map_cons, hnames, (expand_eq_ok ha).2.1]
      · obtain ⟨b, hb, hcb⟩ := hall c hc
        exact ⟨b, List.mem_cons_of_mem a hb, hcb⟩

theorem not_flawed_of_merged (has : expandAll ds = .ok as) (h : mergeInto [] as = .ok es)
    (hfs : Family ds fs) : ¬ Flawed fs := by
  induction hfs generalizing as es with
  | top ds =>
      obtain ⟨hnames, hall⟩ := expandAll_eq_ok has
      rintro (⟨d, hd, hbad⟩ | hkeys)
      · obtain ⟨a, -, ha⟩ := hall d hd
        exact (expand_eq_ok ha).1 hbad
      · have hpair : (as.map name).Pairwise fun j k => (j == k) = false :=
          List.pairwise_map.mpr (mergeInto_eq_ok h).2.2
        rw [hnames] at hpair
        exact hkeys (List.pairwise_map.mp hpair)
  | inside hd hcs _ ih =>
      obtain ⟨a, ha, hexpand⟩ := (expandAll_eq_ok has).2 _ hd
      obtain ⟨-, -, ds, bs, hds, hbs, hmerged⟩ := expand_eq_ok hexpand
      obtain ⟨body, hbody⟩ := (mergeInto_eq_ok h).1 a ha
      obtain ⟨merged, hm⟩ := hmerged body hbody
      obtain rfl := Option.some.inj (hcs.symm.trans hds)
      exact ih hbs hm

theorem not_flawed_of_document (h : document ds = .ok es) (hfs : Family ds fs) : ¬ Flawed fs := by
  obtain ⟨as, has, hmerged⟩ := Except.bind_eq_ok_iff.mp h
  exact not_flawed_of_merged has hmerged hfs

end Aggregation
end DocSearch
