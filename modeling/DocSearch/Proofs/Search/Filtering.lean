import DocSearch.Proofs.Builder.NestedValues
import DocSearch.Proofs.Search.Ordering
import DocSearch.Proofs.Value.Worded

/-!
# Hits that are left out or scored anew

Sorting is stable, so leaving out hits before it comes to the same as leaving them out after it. It
looks at scores only if it is asked to: hits of the same documents with other scores are sorted
alike by all other fields.
-/

namespace DocSearch

namespace Search

variable {σ : Type} [Arithmetic σ]

/-- Which documents are found does not depend on how they are scored. -/
theorem found_entries {c : Condition} {r r' : ScoreRule} {docs : List (Value × Value)}
    {hs hs' : List (Hit σ)} (h : found c r docs = .ok hs) (h' : found c r' docs = .ok hs') :
    hs.map Hit.entry = hs'.map Hit.entry := by
  induction docs generalizing hs hs' with
  | nil =>
      obtain rfl := Except.ok.inj h
      obtain rfl := Except.ok.inj h'
      rfl
  | cons d docs ih =>
      obtain ⟨holds, hholds, h⟩ := Except.bind_eq_ok_iff.mp h
      rw [found, hholds, Except.ok_bind] at h'
      cases holds with
      | false => exact ih h h'
      | true =>
          obtain ⟨s, -, h⟩ := Except.bind_eq_ok_iff.mp h
          obtain ⟨rest, hrest, h⟩ := Except.bind_eq_ok_iff.mp h
          obtain ⟨s', -, h'⟩ := Except.bind_eq_ok_iff.mp h'
          obtain ⟨rest', hrest', h'⟩ := Except.bind_eq_ok_iff.mp h'
          obtain rfl := Except.ok.inj h
          obtain rfl := Except.ok.inj h'
          exact congrArg ((d.1, d.2) :: ·) (ih hrest hrest')

end Search

namespace Hit

/-! ## The fields of an order -/

/-- The fields of an order by their names, each with the word for its direction. -/
def orders (os : List (Value × Value)) : List (String × String) :=
  os.map fun o => (o.1.word?.getD "", if falls o.2 then "desc" else "asc")

/-- All names of the order are words. -/
def Named (os : List (Value × Value)) : Prop :=
  ∀ o ∈ os, ∃ w, o.1.word? = some w

def Sorts (os : List (Value × Value)) {σ : Type} (hs : List (Hit σ)) : Prop :=
  ∀ o ∈ os, o.2.isWritable = true ∧ ∀ h ∈ hs, h.document.SortsBy o.1

/-- No hit has a value under a name of the order that is no number although it is a double. -/
def Comparable (os : List (Value × Value)) (hs : List (Hit Float)) : Prop :=
  ∀ h ∈ hs, ∀ o ∈ os, ∀ field, o.1.word? = some field → ¬ (h.sortValue field).IsNaN

theorem Comparable.of_perm {os : List (Value × Value)} {hs hs' : List (Hit Float)}
    (h : Comparable os hs) (hperm : hs.Perm hs') : Comparable os hs' :=
  fun hit hhit => h hit (hperm.mem_iff.mpr hhit)

section

variable {σ : Type} [Arithmetic σ]

theorem key_of_word {name : Value} {w : String} (hw : name.word? = some w) (h : Hit σ) :
    h.key name = h.key (.str w) := by
  have hscore : (name == .str "_score") = (Value.str w == .str "_score") := by
    rw [Value.beq_word rfl, Value.beq_word rfl, hw]
    rfl
  rw [key, key, hscore, hw]
  rfl

theorem sorts_of_sortBy {os : List (Value × Value)} {hs out : List (Hit σ)}
    (h : sortBy (.list (os.map fun o => .dict [o])) hs = .ok out) : Sorts os hs :=
  exists_sortBy_iff.mp ⟨out, h⟩

omit [Arithmetic σ] in
/-- What sorts a hit is named by a word. -/
theorem Sorts.named {os : List (Value × Value)} {hs : List (Hit σ)} (h : Sorts os hs)
    (hne : hs ≠ []) : Named os := by
  intro o ho
  obtain ⟨hit, hhit⟩ := List.exists_mem_of_ne_nil hs hne
  rcases (h o ho).2 hit hhit with hscore | ⟨w, hw, -⟩
  · exact ⟨_, Value.word?_of_beq_str hscore⟩
  · exact ⟨w, hw⟩

/-- Where all names are words and all directions have texts, an order sorts like its fields. -/
theorem sortBy_orders {os : List (Value × Value)} (hnamed : Named os)
    (hdirections : ∀ o ∈ os, o.2.isWritable = true) (hs : List (Hit σ)) :
    sortBy (.list (os.map fun o => .dict [o])) hs = sortBy (clauses (orders os)) hs := by
  have hdirection (v : Value) (hv : v.isWritable = true) :
      descends (.str (if falls v then "desc" else "asc")) = descends v := by
    have hfalls : falls (.str (if falls v then "desc" else "asc")) = falls v := by
      cases falls v <;> decide
    rw [descends_eq_ok hv, descends_eq_ok rfl, hfalls]
  rw [clauses_eq]
  induction os with
  | nil => rfl
  | cons o os ih =>
      obtain ⟨⟨w, hw⟩, hnames⟩ := List.forall_mem_cons.mp hnamed
      obtain ⟨hwritable, hrest⟩ := List.forall_mem_cons.mp hdirections
      have hpass : sortByField (σ := σ) o.1 o.2 =
          sortByField (.str (o.1.word?.getD "")) (.str (if falls o.2 then "desc" else "asc")) := by
        funext hs
        rw [sortByField, sortByField, hdirection o.2 hwritable, hw]
        simp only [key_of_word hw, Option.getD_some]
      rw [sortBy_cons, ih hnames hrest, hpass]
      exact (sortBy_cons (.str (o.1.word?.getD ""), .str (if falls o.2 then "desc" else "asc"))
        ((orders os).map fun o => (Value.str o.1, Value.str o.2)) hs).symm

end

/-! ## Leaving hits out -/

section

variable {os : List (Value × Value)} {fields : List (String × String)}
  {marked : List (Hit Float × Nat)}

/-- Leaving out hits commutes with ranking them. -/
theorem ranking_filter (hnan : ∀ e ∈ marked, ∀ o ∈ fields, ¬ (e.1.sortValue o.1).IsNaN)
    (h : marked.Pairwise fun d e => d.2 < e.2) (p : Hit Float × Nat → Bool) :
    (ranking fields marked).filter p = ranking fields (marked.filter p) := by
  have hnan' : ∀ e ∈ marked.filter p, ∀ o ∈ fields, ¬ (e.1.sortValue o.1).IsNaN :=
    fun e he => hnan e (List.mem_filter.mp he).1
  have hperm : ((ranking fields marked).filter p).Perm (ranking fields (marked.filter p)) :=
    ((ranking_perm fields marked).filter p).trans (ranking_perm fields (marked.filter p)).symm
  exact hperm.eq_of_pairwise (fun d e _ _ hde hed => absurd hed (precedes_asymm hde))
    ((pairwise_ranking hnan h).filter p) (pairwise_ranking hnan' (h.filter p))

theorem zipIdx_increasing (hs : List (Hit Float)) :
    hs.zipIdx.Pairwise fun d e => d.2 < e.2 := by
  rw [← List.pairwise_map (f := Prod.snd) (R := (· < ·)), List.zipIdx_map_snd]
  exact List.pairwise_lt_range'

theorem Comparable.orders {hs : List (Hit Float)} (h : Comparable os hs) (hnamed : Named os) :
    ∀ e ∈ hs.zipIdx, ∀ o ∈ orders os, ¬ (e.1.sortValue o.1).IsNaN := by
  intro e he o ho
  obtain ⟨d, hd, rfl⟩ := List.mem_map.mp ho
  obtain ⟨w, hw⟩ := hnamed d hd
  rw [hw]
  exact h e.1 (List.fst_mem_of_mem_zipIdx he) d hd w hw

theorem Sorts.orders {hs : List (Hit Float)} (h : Sorts os hs) (hnamed : Named os) :
    ∀ e ∈ hs.zipIdx, ∀ o ∈ orders os, e.1.document.SortsBy (.str o.1) := by
  intro e he o ho
  obtain ⟨d, hd, rfl⟩ := List.mem_map.mp ho
  obtain ⟨w, hw⟩ := hnamed d hd
  rw [hw]
  exact (Value.sortsBy_of_word hw).mp ((h d hd).2 e.1 (List.fst_mem_of_mem_zipIdx he))

/-- The sorted hits are a ranking of the hits with their places. -/
theorem sortBy_eq_ranking {hs : List (Hit Float)} (hnamed : Named os) (hsorts : Sorts os hs)
    (hnan : Comparable os hs) :
    sortBy (.list (os.map fun o => .dict [o])) hs =
      .ok ((ranking (orders os) hs.zipIdx).map Prod.fst) := by
  rw [sortBy_orders hnamed fun o ho => (hsorts o ho).1,
    ← sortBy_clauses (hsorts.orders hnamed) (hnan.orders hnamed), List.zipIdx_map_fst]

/-- Leaving out hits before sorting comes to the same as leaving them out after it. -/
theorem sortBy_filter {hs out : List (Hit Float)} (hnan : Comparable os hs)
    (h : sortBy (.list (os.map fun o => .dict [o])) hs = .ok out) (p : Hit Float → Bool) :
    sortBy (.list (os.map fun o => .dict [o])) (hs.filter p) = .ok (out.filter p) := by
  by_cases hne : hs = []
  · subst hne
    obtain rfl := (sortBy_perm h).eq_nil
    exact h
  · have hsorts := sorts_of_sortBy h
    have hnamed := hsorts.named hne
    rw [sortBy_eq_ranking hnamed hsorts hnan] at h
    obtain rfl := Except.ok.inj h
    have hkept : hs.filter p = (hs.zipIdx.filter fun e => p e.1).map Prod.fst := by
      rw [← Function.comp_def, ← List.filter_map, List.zipIdx_map_fst]
    have hnan' : ∀ e ∈ hs.zipIdx.filter fun e => p e.1, ∀ o ∈ orders os,
        ¬ (e.1.sortValue o.1).IsNaN :=
      fun e he => hnan.orders hnamed e (List.mem_filter.mp he).1
    have hsorts' : ∀ e ∈ hs.zipIdx.filter fun e => p e.1, ∀ o ∈ orders os,
        e.1.document.SortsBy (.str o.1) :=
      fun e he => hsorts.orders hnamed e (List.mem_filter.mp he).1
    rw [hkept, sortBy_orders hnamed fun o ho => (hsorts o ho).1, sortBy_clauses hsorts' hnan',
      ← ranking_filter (hnan.orders hnamed) (zipIdx_increasing hs), List.filter_map]
    rfl

/-! ## Other scores -/

def unscored (h : Hit Float) : Hit Float := { h with score := 0 }

/-- A hit with its place, without what it scores. -/
def unscoredAt (e : Hit Float × Nat) : Hit Float × Nat := (e.1.unscored, e.2)

theorem ahead_unscored {o : String × String} (ho : o.1 ≠ "_score") (a b : Hit Float) :
    ahead o a.unscored b.unscored = ahead o a b := by
  simp [ahead, sortValue, ho, unscored]

/-- By fields other than the score hits are ranked alike whatever they score. -/
theorem ranking_unscored (h : ∀ o ∈ fields, o.1 ≠ "_score")
    (marked : List (Hit Float × Nat)) :
    (ranking fields marked).map unscoredAt =
      ranking fields (marked.map unscoredAt) := by
  induction fields with
  | nil => rfl
  | cons o fs ih =>
      rw [List.forall_mem_cons] at h
      have hle (d e : Hit Float × Nat) :
          (!ahead o e.1 d.1) = !ahead o (unscoredAt e).1 (unscoredAt d).1 :=
        congrArg not (ahead_unscored h.1 e.1 d.1).symm
      exact (List.map_mergeSort fun d _ e _ => hle d e).trans (congrArg (pass o) (ih h.2))

theorem map_unscored_iff {hs hs' : List (Hit Float)} :
    hs.map unscored = hs'.map unscored ↔ hs.map entry = hs'.map entry := by
  have hentry (h : Hit Float) : h.unscored.entry = h.entry := rfl
  have hunscored (h : Hit Float) : h.unscored = ⟨h.entry.1, h.entry.2, 0⟩ := rfl
  constructor
  · intro h
    simpa [Function.comp_def, hentry] using congrArg (List.map entry) h
  · intro h
    have := congrArg (List.map fun e : Value × Value => (⟨e.1, e.2, 0⟩ : Hit Float)) h
    simpa [Function.comp_def, ← hunscored] using this

theorem Comparable.of_entries {hs hs' : List (Hit Float)}
    (hscore : ∀ o ∈ os, o.1.word? ≠ some "_score") (hentries : hs.map entry = hs'.map entry)
    (h : Comparable os hs) : Comparable os hs' := by
  intro hit' hhit' o ho field hfield
  have hmem : hit'.entry ∈ hs.map entry := hentries ▸ List.mem_map_of_mem hhit'
  obtain ⟨hit, hhit, hentry⟩ := List.mem_map.mp hmem
  have hdocument : hit.document = hit'.document := congrArg Prod.snd hentry
  have hfield' : field ≠ "_score" := fun hs => hscore o ho (hs ▸ hfield)
  have hvalue : hit'.sortValue field = hit.sortValue field := by
    rw [sortValue, sortValue, if_neg hfield', if_neg hfield', hdocument]
  exact hvalue ▸ h hit hhit o ho field hfield

/-- An order by fields other than the score lists the same documents in the same places whatever
they score. -/
theorem entries_of_sortBy {hs hs' out out' : List (Hit Float)}
    (hentries : hs.map entry = hs'.map entry) (hnan : Comparable os hs)
    (hscore : ∀ o ∈ os, o.1.word? ≠ some "_score")
    (h : sortBy (.list (os.map fun o => .dict [o])) hs = .ok out)
    (h' : sortBy (.list (os.map fun o => .dict [o])) hs' = .ok out') :
    out.map entry = out'.map entry := by
  have hnan' := hnan.of_entries hscore hentries
  by_cases hne : hs = []
  · subst hne
    obtain rfl := List.map_eq_nil_iff.mp hentries.symm
    obtain rfl := (sortBy_perm h).eq_nil
    obtain rfl := (sortBy_perm h').eq_nil
    rfl
  · have hsorts := sorts_of_sortBy h
    have hnamed := hsorts.named hne
    rw [sortBy_eq_ranking hnamed hsorts hnan] at h
    rw [sortBy_eq_ranking hnamed (sorts_of_sortBy h') hnan'] at h'
    obtain rfl := Except.ok.inj h
    obtain rfl := Except.ok.inj h'
    have hfields : ∀ o ∈ orders os, o.1 ≠ "_score" := by
      intro o ho
      obtain ⟨d, hd, rfl⟩ := List.mem_map.mp ho
      obtain ⟨w, hw⟩ := hnamed d hd
      have hd' := hscore d hd
      rw [hw] at hd' ⊢
      exact fun hw' => hd' (congrArg some hw')
    have hmarked (xs : List (Hit Float)) : xs.zipIdx.map unscoredAt =
        (xs.map unscored).zipIdx := List.zipIdx_map.symm
    have hrankings := congrArg (fun xs => ranking (orders os) (List.zipIdx xs))
      (map_unscored_iff.mpr hentries)
    rw [← hmarked, ← hmarked] at hrankings
    rw [← ranking_unscored hfields, ← ranking_unscored hfields] at hrankings
    rw [← map_unscored_iff]
    simpa [unscoredAt, Function.comp_def] using congrArg (List.map Prod.fst) hrankings

end

end Hit

end DocSearch
