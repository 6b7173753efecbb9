import DocSearch.Proofs.Aggregation.Families

/-!
# Forests that are accepted

A forest whose nodes are declared by texts has a document exactly if it is in order at every level:
all nodes have a key and a path, siblings have different keys, and a node whose type yields a single
value has no children. Names and types are looked at while the nodes are expanded, keys only while
the expanded nodes are put together, so the two passes are taken apart and each is followed down the
tree. A forest that is not in order is refused as an argument.
-/

namespace DocSearch

/-- A node that is declared by texts, and the nodes below it. -/
inductive Branch where
  | node (key path : String) (fieldType : Option String) (children : List Branch)

namespace Branch

def key : Branch → String
  | node k _ _ _ => k

def path : Branch → String
  | node _ p _ _ => p

def fieldType : Branch → Option String
  | node _ _ t _ => t

def children : Branch → List Branch
  | node _ _ _ cs => cs

/-- A forest is taken apart at its first tree, into the children and the trees behind it. -/
@[elab_as_elim]
theorem forest_induction {motive : List Branch → Prop} (nil : motive [])
    (cons : ∀ b rest, motive b.children → motive rest → motive (b :: rest)) : ∀ bs, motive bs
  | [] => nil
  | node k p t cs :: bs =>
      cons (node k p t cs) bs (forest_induction nil cons cs) (forest_induction nil cons bs)

def kind (b : Branch) : Value :=
  b.fieldType.elim .null .str

mutual

def toValue : Branch → Value
  | node k p t cs => .record .node [.str k, .str p, t.elim .null .str, .list (toValues cs)]

def toValues : List Branch → List Value
  | [] => []
  | b :: bs => toValue b :: toValues bs

end

mutual

def declared : Branch → Declared
  | node k p t cs => .node (.str k) (.str p) (t.elim .null .str) (some (declaredAll cs))

def declaredAll : List Branch → List Declared
  | [] => []
  | b :: bs => declared b :: declaredAll bs

end

mutual

theorem ofValue_toValue (b : Branch) : Declared.ofValue b.toValue = b.declared := by
  match b with
  | .node k p t cs =>
      rw [toValue, Declared.ofValue, Declared.childrenOf, ofValues_toValues cs, declared]

theorem ofValues_toValues (bs : List Branch) :
    Declared.ofValues (toValues bs) = declaredAll bs := by
  match bs with
  | [] => rfl
  | b :: bs =>
      rw [toValues, Declared.ofValues, ofValue_toValue b, ofValues_toValues bs, declaredAll]

end

theorem declaredAll_eq_map (bs : List Branch) : declaredAll bs = bs.map declared := by
  induction bs with
  | nil => rfl
  | cons b bs ih => rw [declaredAll, ih, List.map_cons]

theorem key_declared (b : Branch) : b.declared.key = .str b.key := by
  cases b
  rfl

theorem path_declared (b : Branch) : b.declared.path = .str b.path := by
  cases b
  rfl

theorem fieldType_declared (b : Branch) : b.declared.fieldType = b.kind := by
  cases b
  rfl

theorem children?_declared (b : Branch) : b.declared.children? = some (declaredAll b.children) := by
  cases b
  rfl

theorem documentOf_toValues (bs : List Branch) :
    Aggregation.documentOf (.list (toValues bs)) = Aggregation.document (declaredAll bs) := by
  rw [Aggregation.documentOf, Declared.childrenOf, ofValues_toValues]

/-- The second list is a family of siblings at some depth of the first one. -/
inductive Family : List Branch → List Branch → Prop
  | top (bs : List Branch) : Family bs bs
  | inside {bs fs : List Branch} {b : Branch} (hb : b ∈ bs) (h : Family b.children fs) :
      Family bs fs

/-- Siblings that are in order. -/
structure Orderly (fs : List Branch) : Prop where
  named : ∀ b ∈ fs, b.key ≠ "" ∧ b.path ≠ ""
  distinct : (fs.map key).Nodup
  leaf : ∀ b ∈ fs, ∀ t ∈ b.fieldType, t ∈ Aggregation.metrics → b.children = []

/-- A node in order, down to its last descendant, whatever its siblings are. -/
structure Sound (b : Branch) : Prop where
  key : b.key ≠ ""
  path : b.path ≠ ""
  leaf : ∀ t ∈ b.fieldType, t ∈ Aggregation.metrics → b.children = []
  inside : ∀ fs, Family b.children fs → Orderly fs

theorem sound_of_orderly {bs : List Branch} (h : ∀ fs, Family bs fs → Orderly fs) :
    ∀ b ∈ bs, b.Sound := by
  intro b hb
  have htop := h bs (.top bs)
  exact ⟨(htop.named b hb).1, (htop.named b hb).2, htop.leaf b hb, fun fs hfs =>
    h fs (.inside hb hfs)⟩

end Branch

namespace Aggregation

open Branch

variable {merged es : List (Value × Value)} {as : List Aggregation} {bs fs : List Branch}

/-! ## What is refused -/

theorem truthy_str (s : String) : (Value.str s).truthy = true ↔ s ≠ "" := by
  simp [Value.truthy]

theorem isMetric_str (t : String) : isMetric (.str t) = .ok (metrics.contains t) := by
  simp only [isMetric, Value.memberOf, Value.isKey, Value.word?, if_true, Option.bind_some,
    Except.map]
  split <;> simp_all

theorem family_declaredAll (h : Family bs fs) :
    Declared.Family (declaredAll bs) (declaredAll fs) := by
  induction h with
  | top bs => exact .top _
  | inside hb _ ih =>
      refine .inside ?_ (children?_declared _) ih
      rw [declaredAll_eq_map]
      exact List.mem_map_of_mem hb

/-- Siblings none of which is bad and no two of which share a key are in order. -/
theorem orderly_of_not_flawed (h : ¬ Declared.Flawed (declaredAll fs)) : Orderly fs := by
  have hbad (b : Branch) (hb : b ∈ fs) : ¬ b.declared.Bad := by
    intro hbad
    refine h (Or.inl ⟨b.declared, ?_, hbad⟩)
    rw [declaredAll_eq_map]
    exact List.mem_map_of_mem hb
  constructor
  · intro b hb
    by_contra hblank
    refine hbad b hb (.blank ?_)
    rw [key_declared, path_declared, ← Bool.not_eq_true, ← Bool.not_eq_true, truthy_str,
      truthy_str]
    exact not_and_or.mp hblank
  · have hkeys : (declaredAll fs).Pairwise fun c d => (c.key == d.key) = false :=
      not_not.mp fun hnot => h (Or.inr hnot)
    rw [declaredAll_eq_map, List.pairwise_map] at hkeys
    refine List.pairwise_map.mpr (hkeys.imp fun {b c} hbc => ?_)
    simpa [key_declared] using hbc
  · intro b hb t ht hmetric
    by_contra hchildren
    obtain ⟨c, cs, hcs⟩ := List.exists_cons_of_ne_nil hchildren
    have hkind : b.declared.fieldType = .str t := by
      rw [fieldType_declared, kind, Option.mem_def.mp ht, Option.elim_some]
    have hmem : ¬ metrics.contains "" = true := by decide
    have hdeclared : b.declared.children? = some (c.declared :: declaredAll cs) := by
      rw [children?_declared, hcs, declaredAll]
    refine hbad b hb (.metric ?_ ?_ hdeclared)
    · rw [hkind, truthy_str]
      rintro rfl
      exact hmem (List.contains_iff_mem.mpr hmetric)
    · rw [hkind, isMetric_str, List.contains_iff_mem.mpr hmetric]

/-! ## What is accepted -/

theorem exists_mergeInto (hkeys : ∀ a ∈ as, a.name.isKey = true)
    (hbodies : ∀ a ∈ as, ∃ body, a.render = .ok body)
    (hnew : ∀ k ∈ Entries.keys merged, ∀ a ∈ as, (k == a.name) = false)
    (hnames : as.Pairwise fun a b => (a.name == b.name) = false) :
    ∃ es, mergeInto merged as = .ok es := by
  have hentries : ∃ fs, as.mapM entry = .ok fs := by
    refine Except.exists_mapM_iff.mpr fun a ha => ?_
    obtain ⟨body, hbody⟩ := hbodies a ha
    exact ⟨_, entry_eq_ok_iff.mpr ⟨hkeys a ha, body, hbody, rfl⟩⟩
  obtain ⟨fs, hfs⟩ := hentries
  refine ⟨merged ++ fs, mergeInto_eq_ok_iff.mpr ⟨fs, hfs, ?_, ?_, rfl⟩⟩
  · rw [keys_of_entries hfs]
    exact fun k hk => List.forall_mem_map.mpr (hnew k hk)
  · rw [keys_of_entries hfs]
    exact List.pairwise_map.mpr hnames

/-- Bodies of different texts as names are put together. -/
theorem exists_merged (hnames : as.map name = bs.map fun b => .str b.key)
    (hdistinct : (bs.map key).Nodup) (hbodies : ∀ a ∈ as, ∃ body, a.render = .ok body) :
    ∃ es, mergeInto [] as = .ok es := by
  refine exists_mergeInto (fun a ha => ?_) hbodies nofun ?_
  · have hname : a.name ∈ bs.map fun b => Value.str b.key := hnames ▸ List.mem_map_of_mem ha
    obtain ⟨b, -, hb⟩ := List.mem_map.mp hname
    rw [← hb]
    rfl
  · have hpair : (bs.map fun b => Value.str b.key).Pairwise fun j k => (j == k) = false := by
      refine List.pairwise_map.mpr ((List.pairwise_map.mp hdistinct).imp fun {b c} hbc => ?_)
      simpa using hbc
    rw [← hnames] at hpair
    exact List.pairwise_map.mp hpair

theorem exists_withChildren {head : List (Value × Value)} (h : ∃ es, mergeInto [] as = .ok es) :
    ∃ es, (if as.isEmpty then pure head
      else do return Entries.put head (.str "aggs") (.dict (← mergeInto [] as))) =
        (Except.ok es : Except Error _) := by
  obtain ⟨es, hes⟩ := h
  split
  · exact ⟨head, rfl⟩
  · rw [hes]
    exact ⟨_, rfl⟩

/-- A node whose children have a document is assembled and has a body, if its type allows for the
children. -/
theorem exists_assemble (k p : String) (t : Option String)
    (h : ∃ es, mergeInto [] as = .ok es) (hleaf : ∀ w ∈ t, w ∈ metrics → as = []) :
    ∃ a, assemble (.str k) (.str p) (t.elim .null .str) as = .ok a ∧ a.name = .str k ∧
      ∃ body, a.render = .ok body := by
  have hplain : ∃ body, (nested (.str k) (.str p) as).render = .ok body := by
    rw [render]
    exact exists_withChildren h
  have hfield (w : String) :
      ∃ body, (nested (.str k) (.str p) [field (.str k) (.str w) (p ++ "." ++ k) as]).render =
        .ok body := by
    rw [render]
    refine exists_withChildren (exists_mergeInto ?_ ?_ ?_ (List.pairwise_singleton _ _))
    · simp [name, Value.isKey]
    · rw [List.forall_mem_singleton, render]
      exact exists_withChildren h
    · intro k hk
      cases hk
  cases t with
  | none => exact ⟨_, rfl, rfl, hplain⟩
  | some w =>
      by_cases htype : (Value.str w).truthy = true
      · refine ⟨_, ?_, rfl, hfield w⟩
        rw [Option.elim_some, assemble, if_pos htype, fieldNameOf_str, Except.ok_bind]
        cases as with
        | nil => rfl
        | cons a as =>
            have hmetric : metrics.contains w = false := by
              rw [← Bool.not_eq_true]
              intro h
              exact List.cons_ne_nil a as (hleaf w rfl (List.contains_iff_mem.mp h))
            rw [isMetric_str, hmetric]
            rfl
      · exact ⟨_, if_neg htype, rfl, hplain⟩

mutual

/-- A sound node expands, and its body can be rendered. -/
theorem exists_expand (b : Branch) (h : b.Sound) :
    ∃ a, expand b.declared = .ok a ∧ a.name = .str b.key ∧ ∃ body, a.render = .ok body := by
  match b with
  | .node k p t cs =>
      obtain ⟨as, has, hnames, hbodies⟩ := exists_expandAll cs (sound_of_orderly h.inside)
      have hmerged := exists_merged hnames (h.inside cs (.top cs)).distinct hbodies
      have hleaf : ∀ w ∈ t, w ∈ metrics → as = [] := by
        intro w hw hmetric
        obtain rfl : cs = [] := h.leaf w hw hmetric
        exact (Except.ok.inj has).symm
      obtain ⟨a, ha, hname, hbody⟩ :=
        exists_assemble k p t hmerged hleaf
      refine ⟨a, ?_, hname, hbody⟩
      rw [declared, expand, requireNames, (truthy_str k).mpr h.key, (truthy_str p).mpr h.path]
      simp only [expandChildren, has]
      exact ha

theorem exists_expandAll (bs : List Branch) (h : ∀ b ∈ bs, b.Sound) :
    ∃ as, expandAll (declaredAll bs) = .ok as ∧ as.map name = bs.map (fun b => .str b.key) ∧
      ∀ a ∈ as, ∃ body, a.render = .ok body := by
  match bs with
  | [] => exact ⟨[], rfl, rfl, nofun⟩
  | b :: bs =>
      obtain ⟨hb, hbs⟩ := List.forall_mem_cons.mp h
      obtain ⟨a, ha, hname, hbody⟩ := exists_expand b hb
      obtain ⟨as, has, hnames, hbodies⟩ := exists_expandAll bs hbs
      refine ⟨a :: as, ?_, by rw [List.map_cons, List.map_cons, hname, hnames],
        List.forall_mem_cons.mpr ⟨hbody, hbodies⟩⟩
      rw [declaredAll, expandAll, ha, Except.ok_bind, has]
      rfl

end

theorem exists_document (h : ∀ fs, Family bs fs → Orderly fs) :
    ∃ es, document (declaredAll bs) = .ok es := by
  obtain ⟨as, has, hnames, hbodies⟩ := exists_expandAll bs (sound_of_orderly h)
  obtain ⟨es, hes⟩ := exists_merged hnames (h bs (.top bs)).distinct hbodies
  exact ⟨es, by rw [document, has, Except.ok_bind, hes]⟩

/-! ## How it is refused -/

def BlamesArgument (e : Error) : Prop := ∃ cause, e = .argument cause

mutual

/-- Names and types that can be keys, and names that have texts, all the way down. -/
def keyed : Aggregation → Bool
  | .nested n _ cs => (n.isKey && n.isWritable) && keyedAll cs
  | .field n t _ cs => (n.isKey && n.isWritable) && t.isKey && keyedAll cs

def keyedAll : List Aggregation → Bool
  | [] => true
  | a :: as => keyed a && keyedAll as

end

theorem keyed_name {a : Aggregation} (h : a.keyed = true) :
    a.name.isKey = true ∧ a.name.isWritable = true := by
  cases a with
  | nested n p cs =>
      simp only [keyed, Bool.and_eq_true] at h
      exact h.1
  | field n t f cs =>
      simp only [keyed, Bool.and_eq_true] at h
      exact h.1.1

theorem blamesArgument_refusing {cause : ArgumentError} (h : cause.shown.all Value.isWritable = true) :
    BlamesArgument (.refusing cause) :=
  ⟨cause, Error.refusing_of_writable h⟩

theorem failsOnly_requireNames (k p : Value) :
    Except.FailsOnly BlamesArgument (requireNames k p) := by
  unfold requireNames
  split
  · exact Except.failsOnly_ok _
  · exact Except.failsOnly_error ⟨_, rfl⟩

theorem failsOnly_assemble (k p : String) (t : Option String) (as : List Aggregation) :
    Except.FailsOnly BlamesArgument (assemble (.str k) (.str p) (t.elim .null .str) as) := by
  unfold assemble
  split
  · rw [fieldNameOf_str, Except.ok_bind]
    split
    · cases t with
      | none => contradiction
      | some w =>
          rw [Option.elim_some, isMetric_str, Except.ok_bind]
          split
          · exact Except.failsOnly_error (blamesArgument_refusing rfl)
          · exact Except.failsOnly_ok _
    · exact Except.failsOnly_ok _
  · exact Except.failsOnly_ok _

theorem keyed_assemble {k p : String} {t : Option String} {a : Aggregation}
    (has : keyedAll as = true) (h : assemble (.str k) (.str p) (t.elim .null .str) as = .ok a) :
    a.keyed = true := by
  have hkind : (t.elim Value.null Value.str).isKey = true := by cases t <;> rfl
  rcases cases_of_assemble h with ⟨-, -, f, -, rfl⟩ | ⟨-, rfl⟩
  · simp [keyed, keyedAll, Value.isKey, hkind, has]
  · simp [keyed, Value.isKey, has]

mutual

theorem expand_declared (b : Branch) :
    Except.FailsOnly BlamesArgument (expand b.declared) ∧
      ∀ a, expand b.declared = .ok a → a.keyed = true := by
  match b with
  | .node k p t cs =>
      obtain ⟨hfails, hkeyed⟩ := expandAll_declaredAll cs
      rw [declared, expand, expandChildren]
      constructor
      · refine (failsOnly_requireNames _ _).bind fun _ _ => hfails.bind fun as _ => ?_
        exact failsOnly_assemble _ _ t as
      · intro a ha
        obtain ⟨_, -, ha⟩ := Except.bind_eq_ok_iff.mp ha
        obtain ⟨as, has, ha⟩ := Except.bind_eq_ok_iff.mp ha
        exact keyed_assemble (hkeyed as has) ha

theorem expandAll_declaredAll (bs : List Branch) :
    Except.FailsOnly BlamesArgument (expandAll (declaredAll bs)) ∧
      ∀ as, expandAll (declaredAll bs) = .ok as → keyedAll as = true := by
  match bs with
  | [] => exact ⟨Except.failsOnly_ok _, fun as h => Except.ok.inj h ▸ rfl⟩
  | b :: bs =>
      obtain ⟨hfail, hkey⟩ := expand_declared b
      obtain ⟨hfails, hkeyed⟩ := expandAll_declaredAll bs
      rw [declaredAll, expandAll]
      constructor
      · exact hfail.bind fun a _ => hfails.bind fun as _ => Except.failsOnly_ok _
      · intro as has
        obtain ⟨a, ha, has⟩ := Except.bind_eq_ok_iff.mp has
        obtain ⟨cs, hcs, has⟩ := Except.bind_eq_ok_iff.mp has
        obtain rfl := Except.ok.inj has
        rw [keyedAll, hkey a ha, hkeyed cs hcs]
        rfl

end

theorem failsOnly_withChildren {P : Error → Prop} {head : List (Value × Value)}
    (h : Except.FailsOnly P (mergeInto [] as)) :
    Except.FailsOnly P (if as.isEmpty then pure head
      else do return Entries.put head (.str "aggs") (.dict (← mergeInto [] as))) := by
  split
  · exact Except.failsOnly_ok _
  · exact h.bind fun _ _ => Except.failsOnly_ok _

mutual

theorem failsOnly_render (a : Aggregation) (h : a.keyed = true) :
    Except.FailsOnly BlamesArgument a.render := by
  match a with
  | .nested n p cs =>
      simp only [keyed, Bool.and_eq_true] at h
      rw [render]
      exact failsOnly_withChildren (failsOnly_mergeInto [] cs h.2)
  | .field n t f cs =>
      simp only [keyed, Bool.and_eq_true] at h
      rw [render, Value.asKey, if_pos h.1.2, Except.ok_bind]
      exact failsOnly_withChildren (failsOnly_mergeInto [] cs h.2)

theorem failsOnly_mergeInto (merged : List (Value × Value)) (as : List Aggregation)
    (h : keyedAll as = true) : Except.FailsOnly BlamesArgument (mergeInto merged as) := by
  match as with
  | [] => exact Except.failsOnly_ok _
  | a :: as =>
      simp only [keyedAll, Bool.and_eq_true] at h
      obtain ⟨hkey, hwritable⟩ := keyed_name h.1
      rw [mergeInto, Value.asKey, if_pos hkey, Except.ok_bind]
      split
      · exact Except.failsOnly_error (blamesArgument_refusing (by simp [ArgumentError.shown, hwritable]))
      · exact (failsOnly_render a h.1).bind fun body _ => failsOnly_mergeInto _ as h.2

end

theorem failsOnly_document (bs : List Branch) :
    Except.FailsOnly BlamesArgument (document (declaredAll bs)) := by
  obtain ⟨hfails, hkeyed⟩ := expandAll_declaredAll bs
  exact hfails.bind fun as has => failsOnly_mergeInto [] as (hkeyed as has)

/-- A forest has a document exactly if all of its families are in order, and otherwise it is refused
as an argument. -/
theorem accepted_iff_orderly (bs : List Branch) :
    ((∃ es, documentOf (.list (toValues bs)) = .ok es) ↔ ∀ fs, Family bs fs → Orderly fs) ∧
      ((¬ ∀ fs, Family bs fs → Orderly fs) →
        ∃ cause, documentOf (.list (toValues bs)) = .error (.argument cause)) := by
  rw [documentOf_toValues]
  have haccepted : (∃ es, document (declaredAll bs) = .ok es) ↔ ∀ fs, Family bs fs → Orderly fs := by
    constructor
    · rintro ⟨es, hes⟩ fs hfs
      exact orderly_of_not_flawed (not_flawed_of_document hes (family_declaredAll hfs))
    · exact exists_document
  refine ⟨haccepted, fun hnot => ?_⟩
  cases hd : document (declaredAll bs) with
  | ok es => exact absurd (haccepted.mp ⟨es, hd⟩) hnot
  | error e =>
      obtain ⟨cause, rfl⟩ := failsOnly_document bs e hd
      exact ⟨cause, rfl⟩

end Aggregation

end DocSearch
