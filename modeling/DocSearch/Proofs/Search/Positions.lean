import DocSearch.Proofs.Action.Outcomes
import DocSearch.Proofs.Value.Fields
import DocSearch.Search.Basic
import Mathlib.Data.List.Perm.Basic

/-!
# Hits and the positions of their documents

The hits of a search before sorting are some of the documents of the index, in the order of the
index; sorting permutes them. To follow hits through sorting and paging they are paired with the
positions of their documents.
-/

namespace DocSearch

variable {σ : Type}

namespace Search

/-- Hits with the positions of their documents, in the order of the positions. -/
structure Placed (docs : List (Value × Value)) (marked : List (Hit σ × Nat)) : Prop where
  document : ∀ e ∈ marked, docs[e.2]? = some (e.1.id, e.1.document)
  increasing : marked.Pairwise fun d e => d.2 < e.2

theorem Placed.filter {docs : List (Value × Value)} {marked : List (Hit σ × Nat)}
    (h : Placed docs marked) (p : Hit σ × Nat → Bool) : Placed docs (marked.filter p) where
  document e he := h.document e (List.mem_filter.mp he).1
  increasing := h.increasing.filter p

theorem Placed.nodup {docs : List (Value × Value)} {marked : List (Hit σ × Nat)}
    (h : Placed docs marked) : (marked.map Prod.snd).Nodup := by
  rw [List.nodup_iff_pairwise_ne, List.pairwise_map]
  exact h.increasing.imp Nat.ne_of_lt

variable [Arithmetic σ]

/-- The hits of a search before they are sorted. -/
def matching (docs es : List (Value × Value)) : Except Error (List (Hit σ)) := do
  let query := Value.fieldD es "query" ScoreFunction.matchAll
  let hs ← found (.ofValue query) (.ofQuery query) docs
  aboveThreshold (Value.fieldD es "min_score" .null) hs

theorem hits_dict (docs es : List (Value × Value)) :
    (hits docs (.dict es) : Except Error (List (Hit σ))) =
      matching docs es >>= Hit.sortBy (Value.fieldD es "sort" (.list [])) := by
  simp only [hits, matching, Value.entries, Except.ok_bind, bind_assoc]

section Insert

variable {docs pre fs post : List (Value × Value)}

theorem matching_insert (hquery : Value.field? fs "query" = none)
    (hscore : Value.field? fs "min_score" = none) :
    (matching docs (pre ++ fs ++ post) : Except Error (List (Hit σ))) =
      matching docs (pre ++ post) := by
  simp only [matching, Value.fieldD, Value.field?_insert hquery, Value.field?_insert hscore]

omit [Arithmetic σ] in
theorem window_insert (hfrom : Value.field? fs "from" = none)
    (hsize : Value.field? fs "size" = none) (hs : List (Hit σ)) :
    window (pre ++ fs ++ post) hs = window (pre ++ post) hs := by
  simp only [window, Value.fieldD, Value.field?_insert hfrom, Value.field?_insert hsize]

end Insert

omit [Arithmetic σ] in
/-- The first ten hits are listed if nothing else is asked for. -/
theorem window_default {es : List (Value × Value)} (hfrom : Value.field? es "from" = none)
    (hsize : Value.field? es "size" = none) (hs : List (Hit σ)) :
    window es hs = .ok (hs.take 10) := by
  have hslice : slice hs 0 (0 + 10) = hs.take 10 := slice_nat hs 0 10
  simp [window, Value.fieldD, hfrom, hsize, checkSum, position, ← hslice]

/-- A condition that every document meets finds all of them, in the order of the index. -/
theorem found_all {c : Condition} {docs : List (Value × Value)}
    (h : ∀ doc, c.holds doc "" = .ok true) :
    (found c .flat docs : Except Error (List (Hit σ))) =
      .ok (docs.map fun d => ⟨d.1, d.2, Arithmetic.one⟩) := by
  induction docs with
  | nil => rfl
  | cons d docs ih => simp [found, h, ScoreRule.score, ih]

/-- A search that asks for nothing finds all documents, with equal scores. -/
theorem hits_nil (docs : List (Value × Value)) :
    (hits docs (.dict []) : Except Error (List (Hit σ))) =
      .ok (docs.map fun d => ⟨d.1, d.2, Arithmetic.one⟩) := by
  have hall : Condition.ofValue ScoreFunction.matchAll = .all := by
    simp [Value.object, Condition.ofValue, ScoreFunction.matchAll, Value.hasField,
      Value.field?_word_cons]
  have hflat : ScoreRule.ofQuery ScoreFunction.matchAll = .flat := by
    simp [Value.object, ScoreRule.ofQuery, ScoreFunction.matchAll, Value.field?_word_cons]
  have hfound : (found .all .flat docs : Except Error (List (Hit σ))) =
      .ok (docs.map fun d => ⟨d.1, d.2, Arithmetic.one⟩) := found_all fun _ => rfl
  simp only [hits_dict, matching, Value.fieldD, Value.field?_nil, Option.getD_none, hall, hflat,
    hfound, Except.ok_bind]
  rfl

/-- A search with a query alone does not sort what it finds. -/
theorem hits_query (docs : List (Value × Value)) (query : Value) :
    (hits docs (.object [("query", query)]) : Except Error (List (Hit σ))) =
      found (.ofValue query) (.ofQuery query) docs := by
  have hfield (name : String) (default : Value) :
      Value.fieldD [(.str "query", query)] name default =
        if "query" = name then query else default := by
    unfold Value.fieldD
    rw [Value.field?_word_cons]
    split <;> rfl
  rw [Value.object, List.map_cons, List.map_nil, hits_dict, matching, hfield, hfield, hfield]
  exact (bind_pure _).trans (bind_pure _)

theorem hits_matchAll (docs : List (Value × Value)) :
    (hits docs (.object [("query", ScoreFunction.matchAll)]) : Except Error (List (Hit σ))) =
      .ok (docs.map fun d => ⟨d.1, d.2, Arithmetic.one⟩) := by
  rw [← hits_nil docs, hits_query, hits_dict, matching]
  exact ((bind_pure _).trans (bind_pure _)).symm

theorem found_placed {c : Condition} {r : ScoreRule} {docs : List (Value × Value)}
    {hs : List (Hit σ)} (h : found c r docs = .ok hs) :
    ∃ marked, marked.map Prod.fst = hs ∧ Placed docs marked := by
  induction docs generalizing hs with
  | nil =>
      obtain rfl := Except.ok.inj h
      exact ⟨[], rfl, nofun, List.Pairwise.nil⟩
  | cons d docs ih =>
      obtain ⟨id, doc⟩ := d
      -- positions after the first document are one greater than those among the rest
      have hshift {rest : List (Hit σ)} (hrest : found c r docs = .ok rest) :
          ∃ marked : List (Hit σ × Nat), marked.map Prod.fst = rest ∧
            Placed ((id, doc) :: docs) marked ∧ ∀ e ∈ marked, 0 < e.2 := by
        obtain ⟨marked, hfst, hplaced⟩ := ih hrest
        refine ⟨marked.map fun e => (e.1, e.2 + 1), ?_, ⟨?_, ?_⟩, ?_⟩
        · simpa [Function.comp_def] using hfst
        · intro e he
          obtain ⟨d, hd, rfl⟩ := List.mem_map.mp he
          exact hplaced.document d hd
        · simpa [List.pairwise_map] using hplaced.increasing
        · intro e he
          obtain ⟨d, hd, rfl⟩ := List.mem_map.mp he
          exact Nat.succ_pos _
      obtain ⟨holds, hholds, h⟩ := Except.bind_eq_ok_iff.mp h
      cases holds with
      | false =>
          obtain ⟨marked, hfst, hplaced, -⟩ := hshift h
          exact ⟨marked, hfst, hplaced⟩
      | true =>
          obtain ⟨s, hs, h⟩ := Except.bind_eq_ok_iff.mp h
          obtain ⟨rest, hrest, h⟩ := Except.bind_eq_ok_iff.mp h
          obtain rfl := Except.ok.inj h
          obtain ⟨marked, hfst, hplaced, hpos⟩ := hshift hrest
          refine ⟨(⟨id, doc, s⟩, 0) :: marked, by simp [hfst], ?_, ?_⟩
          · intro e he
            rcases List.mem_cons.mp he with rfl | he
            · rfl
            · exact hplaced.document e he
          · exact List.pairwise_cons.mpr ⟨hpos, hplaced.increasing⟩

theorem matching_placed {docs es : List (Value × Value)} {hs : List (Hit σ)}
    (h : matching docs es = .ok hs) : ∃ marked, marked.map Prod.fst = hs ∧ Placed docs marked := by
  obtain ⟨all, hall, h⟩ := Except.bind_eq_ok_iff.mp h
  obtain ⟨marked, hfst, hplaced⟩ := found_placed hall
  unfold aboveThreshold at h
  split at h
  · obtain rfl := Except.ok.inj h
    exact ⟨marked, hfst, hplaced⟩
  · obtain ⟨t, ht, h⟩ := Except.bind_eq_ok_iff.mp h
    obtain rfl := Except.ok.inj h
    refine ⟨marked.filter fun e => Arithmetic.atLeast e.1.score t, ?_, hplaced.filter _⟩
    rw [← hfst, List.filter_map]
    rfl

end Search

/-! ## Sorting permutes -/

namespace Hit

theorem foldlM_perm {α : Type} {step : List (Hit σ) → α → Except Error (List (Hit σ))}
    (hstep : ∀ hs x out, step hs x = .ok out → out.Perm hs) {xs : List α} {hs out : List (Hit σ)}
    (h : xs.foldlM step hs = .ok out) : out.Perm hs := by
  induction xs generalizing hs with
  | nil => exact Except.ok.inj h ▸ List.Perm.refl _
  | cons x xs ih =>
      rw [List.foldlM_cons] at h
      obtain ⟨mid, hmid, h⟩ := Except.bind_eq_ok_iff.mp h
      exact (ih h).trans (hstep _ _ _ hmid)

variable [Arithmetic σ]

theorem arrange_perm {α : Type} (falling : Bool) (keyed : List (SortKey × α)) :
    (arrange falling keyed).Perm keyed := by
  unfold arrange
  split
  · exact List.mergeSort_perm _ _
  · split
    · exact Sorting.sortFalling_perm _ _
    · exact Sorting.sort_perm _ _

theorem keyed_map_snd {name : Value} {hs : List (Hit σ)} {keyed : List (SortKey × Hit σ)}
    (h : (hs.mapM fun h => do return (← h.key name, h)) = .ok keyed) : keyed.map Prod.snd = hs := by
  refine Except.map_of_mapM (fun x p hp => ?_) h
  obtain ⟨k, -, hp⟩ := Except.bind_eq_ok_iff.mp hp
  obtain rfl := Except.ok.inj hp
  rfl

theorem sortByField_perm {name direction : Value} {hs out : List (Hit σ)}
    (h : sortByField name direction hs = .ok out) : out.Perm hs := by
  obtain ⟨falling, -, h⟩ := Except.bind_eq_ok_iff.mp h
  obtain ⟨keyed, hkeyed, h⟩ := Except.bind_eq_ok_iff.mp h
  obtain rfl := Except.ok.inj h
  rw [← keyed_map_snd hkeyed]
  exact (arrange_perm falling keyed).map _

theorem sortBy_perm {clauses : Value} {hs out : List (Hit σ)} (h : sortBy clauses hs = .ok out) :
    out.Perm hs := by
  obtain ⟨cs, hcs, h⟩ := Except.bind_eq_ok_iff.mp h
  refine foldlM_perm (fun hs c out hc => ?_) h
  obtain ⟨os, hos, hc⟩ := Except.bind_eq_ok_iff.mp hc
  exact foldlM_perm (fun hs o out ho => sortByField_perm ho) hc

end Hit

/-- All hits of a search with the positions of their documents; no position occurs twice. -/
theorem Search.hits_placed [Arithmetic σ] {docs es : List (Value × Value)} {hs : List (Hit σ)}
    (h : Search.hits docs (.dict es) = .ok hs) :
    ∃ full : List (Hit σ × Nat), full.map Prod.fst = hs ∧
      (∀ e ∈ full, docs[e.2]? = some (e.1.id, e.1.document)) ∧ (full.map Prod.snd).Nodup := by
  rw [hits_dict] at h
  obtain ⟨ms, hms, h⟩ := Except.bind_eq_ok_iff.mp h
  obtain ⟨marked, rfl, hplaced⟩ := matching_placed hms
  obtain ⟨full, rfl, hperm⟩ :=
    (congrFun (congrFun (List.eq_map_comp_perm Prod.fst) hs) marked).mpr (Hit.sortBy_perm h)
  refine ⟨full, rfl, fun e he => hplaced.document e (hperm.mem_iff.mp he), ?_⟩
  exact (hperm.map Prod.snd).nodup_iff.mpr hplaced.nodup

end DocSearch
