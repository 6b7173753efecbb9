import DocSearch.Proofs.Builder.Wrapping
import DocSearch.Proofs.Search.Permutations
import DocSearch.Proofs.Search.Positions
import Mathlib.Algebra.BigOperators.Group.List.Basic
import Mathlib.Algebra.Field.Rat
import Mathlib.Algebra.Order.Ring.Rat
import Mathlib.Tactic.Linarith

/-!
# What the modes of an envelope make of the weights

The weights of the functions that match a document amount to one number, which the score mode of the
envelope determines. That number is the score: the boost mode, which is to combine it with the score
of the query inside, is not looked at. So the score is what the boost mode asks for in two modes,
and in the others only where the numbers happen to agree.
-/

namespace DocSearch

/-! ## What the modes ask for -/

/-- What some weights are to amount to. -/
def ScoreMode.Combines (m : ScoreMode) (ws : List Rat) (x : Rat) : Prop :=
  match m with
  | .sum => x = ws.sum
  | .avg => x = ws.sum / ws.length
  | .max => x ∈ ws ∧ ∀ w ∈ ws, w ≤ x
  | .min => x ∈ ws ∧ ∀ w ∈ ws, x ≤ w
  | .first => ws.head? = some x
  | .multiply => x = ws.prod

/-- What is to become of the score of a query and of the number that the weights amount to. -/
def BoostMode.boost (m : BoostMode) (score x : Rat) : Rat :=
  match m with
  | .replace => x
  | .multiply => score * x
  | .sum => score + x
  | .avg => (score + x) / 2
  | .max => if score ≤ x then x else score
  | .min => if x ≤ score then x else score

theorem ScoreMode.combines_combine (m : ScoreMode) (w : Rat) (ws : List Rat) :
    m.Combines (w :: ws) (m.combine w ws) := by
  cases m with
  | sum => exact List.sum_eq_foldl.symm
  | avg =>
      change Arithmetic.total (w :: ws) / ((ws.length + 1 : Nat) : Rat) =
        (w :: ws).sum / ((w :: ws).length : Rat)
      rw [List.length_cons, List.sum_eq_foldl]
      rfl
  | max => exact Arithmetic.greatest_mem_and_ge w ws
  | min => exact Arithmetic.least_mem_and_le w ws
  | first => rfl
  | multiply => exact List.prod_eq_foldl.symm

theorem BoostMode.eq_boost_one_iff (m : BoostMode) (x : Rat) :
    x = m.boost 1 x ↔ m = .replace ∨ m = .multiply ∨ (m = .avg ∧ x = 1) ∨
      (m = .max ∧ 1 ≤ x) ∨ (m = .min ∧ x ≤ 1) := by
  cases m with
  | replace => simp [boost]
  | multiply => simp [boost]
  | sum => simp [boost]
  | avg =>
      have hmean : x = (1 + x) / 2 ↔ x = 1 := by constructor <;> intro h <;> linarith
      simpa [boost] using hmean
  | max =>
      have hgreater : x = (if 1 ≤ x then x else 1) ↔ 1 ≤ x := by
        split
        · rename_i h
          exact iff_of_true rfl h
        · rename_i h
          exact iff_of_false (fun hx => h hx.ge) h
      simpa [boost] using hgreater
  | min =>
      have hless : x = (if x ≤ 1 then x else 1) ↔ x ≤ 1 := by
        split
        · rename_i h
          exact iff_of_true rfl h
        · rename_i h
          exact iff_of_false (fun hx => h hx.le) h
      simpa [boost] using hless

/-! ## The weights of the functions that match -/

/-- Whether a document meets the condition of a scoring function. -/
def Weighted.matches (doc : Value) (w : Weighted Clause) : Except Error Bool := do
  (Condition.ofValue (← w.filter.render)).holds doc ""

theorem Clause.ofValue_weightedEntry {w : Weighted Clause} {f : Value}
    (h : weightedEntry w = .ok f) :
    ∃ c : Condition, ScoreFunction.ofValue f = .ok ⟨c, w.weight⟩ ∧
      ∀ doc, w.matches doc = c.holds doc "" := by
  obtain ⟨q, hq, h⟩ := Except.bind_eq_ok_iff.mp h
  obtain rfl := Except.ok.inj h
  refine ⟨.ofValue q, ?_, fun doc => ?_⟩
  · simp [Value.object, ScoreFunction.ofValue, Value.fieldD, Value.field?_word_cons]
  · rw [Weighted.matches, hq, Except.ok_bind]

namespace ScoreRule

variable {doc : Value} {weight : Weighted Clause → Int} {ws : List (Weighted Clause)}
  {fs : List Value}

theorem weights_compiled {p : Weighted Clause → Bool}
    (hfs : ws.mapM Clause.weightedEntry = .ok fs)
    (hweight : ∀ w ∈ ws, w.weight = .int (weight w))
    (hmatch : ∀ w ∈ ws, w.matches doc = .ok (p w)) :
    weights doc (fs.map ScoreFunction.ofValue) =
      .ok ((ws.filter p).map fun w => (weight w : Rat)) := by
  induction ws generalizing fs with
  | nil =>
      obtain rfl := Except.ok.inj hfs
      rfl
  | cons w ws ih =>
      rw [List.mapM_cons] at hfs
      obtain ⟨f, hf, hfs⟩ := Except.bind_eq_ok_iff.mp hfs
      obtain ⟨gs, hgs, hfs⟩ := Except.bind_eq_ok_iff.mp hfs
      obtain rfl := Except.ok.inj hfs
      obtain ⟨c, hread, hholds⟩ := Clause.ofValue_weightedEntry hf
      obtain ⟨hw, hweight⟩ := List.forall_mem_cons.mp hweight
      obtain ⟨hp, hmatch⟩ := List.forall_mem_cons.mp hmatch
      -- the compiled function weighs the document as the registered one does
      have hweigh : ScoreFunction.weigh doc ⟨c, w.weight⟩ =
          .ok (if p w then some (weight w : Rat) else none) := by
        rw [ScoreFunction.weigh, ← hholds, hp, hw]
        cases p w <;> rfl
      rw [List.map_cons, hread, weights, Except.ok_bind, hweigh, Except.ok_bind,
        ih hgs hweight hmatch]
      cases hpw : p w <;> simp [hpw]

theorem matches_of_weights {xs : List Rat} (hfs : ws.mapM Clause.weightedEntry = .ok fs)
    (h : weights doc (fs.map ScoreFunction.ofValue) = .ok xs) :
    ∀ w ∈ ws, ∃ m, w.matches doc = .ok m := by
  induction ws generalizing fs xs with
  | nil => exact List.forall_mem_nil _
  | cons w ws ih =>
      rw [List.mapM_cons] at hfs
      obtain ⟨f, hf, hfs⟩ := Except.bind_eq_ok_iff.mp hfs
      obtain ⟨gs, hgs, hfs⟩ := Except.bind_eq_ok_iff.mp hfs
      obtain rfl := Except.ok.inj hfs
      obtain ⟨c, hread, hholds⟩ := Clause.ofValue_weightedEntry hf
      rw [List.map_cons, hread, weights, Except.ok_bind] at h
      obtain ⟨y, hweigh, h⟩ := Except.bind_eq_ok_iff.mp h
      obtain ⟨ys, hys, -⟩ := Except.bind_eq_ok_iff.mp h
      obtain ⟨m, hm, -⟩ := Except.bind_eq_ok_iff.mp hweigh
      exact List.forall_mem_cons.mpr ⟨⟨m, (hholds doc).trans hm⟩, ih hgs hys⟩

end ScoreRule

theorem Document.rule_compiled {d : Document} {t : ScoreSettings} {params : Value}
    (ht : d.envelope = some t) (hparams : d.params = .ok params) :
    ∃ q fs, params.bodyQuery = .ok q ∧ d.draft.functions.mapM Clause.weightedEntry = .ok fs ∧
      ScoreRule.ofQuery q = .weighted (fs.map ScoreFunction.ofValue) t.scoreMode
        (Value.str t.boostMode.word == .str "replace") := by
  obtain ⟨q, hq, hquery⟩ := bodyQuery_params hparams
  rw [clause, ht] at hq
  obtain ⟨inner, -, hq⟩ := Except.bind_eq_ok_iff.mp hq
  obtain ⟨fs, hfs, hq⟩ := Except.bind_eq_ok_iff.mp hq
  obtain rfl := Except.ok.inj hq
  rw [Clause.renderWeighted_eq_mapM] at hfs
  have hrule : ScoreRule.ofQuery (.enveloped inner fs (.str t.scoreMode.word)
      (.str t.boostMode.word)) = .weighted (fs.map ScoreFunction.ofValue) t.scoreMode
        (Value.str t.boostMode.word == .str "replace") := by
    simp [Value.enveloped, Value.object, ScoreRule.ofQuery, ScoreRule.ofEnvelope, Value.items,
      Value.fieldD, Value.field?_word_cons, ScoreRule.modeOf, Value.word?]
  exact ⟨_, fs, hquery, hfs, hrule⟩

/-! ## The scores that a search lists -/

namespace Search

variable {σ : Type} [Arithmetic σ]

theorem score_of_mem_found {c : Condition} {r : ScoreRule} {docs : List (Value × Value)}
    {hs : List (Hit σ)} (h : found c r docs = .ok hs) :
    ∀ hit ∈ hs, r.score hit.document = .ok hit.score := by
  induction docs generalizing hs with
  | nil =>
      obtain rfl := Except.ok.inj h
      nofun
  | cons d docs ih =>
      obtain ⟨holds, -, h⟩ := Except.bind_eq_ok_iff.mp h
      cases holds with
      | false => exact ih h
      | true =>
          obtain ⟨s, hs, h⟩ := Except.bind_eq_ok_iff.mp h
          obtain ⟨rest, hrest, h⟩ := Except.bind_eq_ok_iff.mp h
          obtain rfl := Except.ok.inj h
          exact List.forall_mem_cons.mpr ⟨hs, ih hrest⟩

theorem score_of_mem_hits {docs : List (Value × Value)} {body q : Value} {hs : List (Hit σ)}
    (hq : body.part "query" = .ok q) (h : hits docs body = .ok hs) :
    ∀ hit ∈ hs, (ScoreRule.ofQuery q).score hit.document = .ok hit.score := by
  obtain ⟨es, hes, h⟩ := Except.bind_eq_ok_iff.mp h
  obtain ⟨all, hall, h⟩ := Except.bind_eq_ok_iff.mp h
  obtain ⟨kept, hkept, h⟩ := Except.bind_eq_ok_iff.mp h
  have hquery : Value.fieldD es "query" ScoreFunction.matchAll = q := by
    cases body with
    | map k fs =>
        obtain rfl := Except.ok.inj hes
        simp only [Value.part] at hq
        cases hw : Value.field? fs "query" with
        | none => simp [hw] at hq
        | some w =>
            rw [Value.fieldD, hw, Option.getD_some]
            simpa [hw] using hq
    | _ => cases hes
  rw [hquery] at hall
  intro hit hhit
  refine score_of_mem_found hall hit ?_
  -- neither the threshold nor the sort clauses change a score
  have hmem : hit ∈ kept := (Hit.sortBy_perm h).mem_iff.mp hhit
  unfold aboveThreshold at hkept
  split at hkept
  · exact Except.ok.inj hkept ▸ hmem
  · obtain ⟨least, -, hkept⟩ := Except.bind_eq_ok_iff.mp hkept
    obtain rfl := Except.ok.inj hkept
    exact (List.mem_filter.mp hmem).1

end Search

/-! ## Scores and boost modes -/

namespace Document

variable {d : Document} {t : ScoreSettings} {params : Value} {weight : Weighted Clause → Int}

/-- In an envelope whose functions weigh whole numbers, a document has a score if every function can
be held against it. Where one matches, the score is what the score mode makes of the weights of
those that match, in the order of their registration, whatever the boost mode is. So it is what the
boost mode asks for with `replace` and `multiply`, never with `sum`, and with the others only on one
side of one; every search that lists the document reports this score. -/
theorem score_of_envelope (ht : d.envelope = some t) (hparams : d.params = .ok params)
    (hweight : ∀ w ∈ d.draft.functions, w.weight = .int (weight w)) (doc : Value) :
    ∃ body q, params.part "body" = .ok body ∧ body.part "query" = .ok q ∧
      let score : Except Error Rat := (ScoreRule.ofQuery q).score doc
      ((∃ x, score = .ok x) ↔ ∀ w ∈ d.draft.functions, ∃ m, w.matches doc = .ok m) ∧
      ∀ p : Weighted Clause → Bool, (∀ w ∈ d.draft.functions, w.matches doc = .ok (p w)) →
        (∃ w ∈ d.draft.functions, p w = true) →
        ∃ x, score = .ok x ∧
          t.scoreMode.Combines ((d.draft.functions.filter p).map fun w => (weight w : Rat)) x ∧
          (x = t.boostMode.boost 1 x ↔ t.boostMode = .replace ∨ t.boostMode = .multiply ∨
            (t.boostMode = .avg ∧ x = 1) ∨ (t.boostMode = .max ∧ 1 ≤ x) ∨
            (t.boostMode = .min ∧ x ≤ 1)) ∧
          ∀ (docs : List (Value × Value)) (hs : List (Hit Rat)),
            Search.hits docs body = .ok hs → ∀ h ∈ hs, h.document = doc → h.score = x := by
  obtain ⟨q, fs, hquery, hfs, hrule⟩ := rule_compiled ht hparams
  obtain ⟨body, hbody, hquery⟩ := Except.bind_eq_ok_iff.mp hquery
  refine ⟨body, q, hbody, hquery, ⟨?_, ?_⟩, fun p hmatch hsome => ?_⟩
  · rintro ⟨x, hx⟩
    rw [hrule] at hx
    obtain ⟨xs, hxs, -⟩ := Except.bind_eq_ok_iff.mp hx
    exact ScoreRule.matches_of_weights hfs hxs
  · intro h
    choose! p hmatch using h
    rw [hrule]
    exact ⟨_, ScoreRule.score_weighted (ScoreRule.weights_compiled hfs hweight hmatch)⟩
  · have hweights := ScoreRule.weights_compiled hfs hweight hmatch
    obtain ⟨w, hw, hpw⟩ := hsome
    cases hws : (d.draft.functions.filter p).map fun w => (weight w : Rat) with
    | nil =>
        have hnone := List.filter_eq_nil_iff.mp (List.map_eq_nil_iff.mp hws)
        exact absurd hpw (hnone w hw)
    | cons x xs =>
        rw [hws] at hweights
        have hscore : (ScoreRule.ofQuery q).score doc = .ok (t.scoreMode.combine x xs) := by
          rw [hrule]
          exact ScoreRule.score_weighted hweights
        refine ⟨_, hscore, t.scoreMode.combines_combine x xs,
          t.boostMode.eq_boost_one_iff _, fun docs hs hhits h hh hdoc => ?_⟩
        have hlisted := Search.score_of_mem_hits hquery hhits h hh
        rw [hdoc, hscore] at hlisted
        exact (Except.ok.inj hlisted).symm

/-- Two functions of three, one of which does not match, in an envelope that averages. -/
theorem score_of_envelope_of_averages :
    let clause (v : String) : Clause :=
      .nested (.str "tags") (.term (.str "tags.name") (.str v) (.str "term")) .null
    let red : Weighted Clause := ⟨clause "red", .int 2⟩
    let blue : Weighted Clause := ⟨clause "blue", .int 7⟩
    let big : Weighted Clause := ⟨clause "big", .int 3⟩
    let d : Document := { empty with
      draft := ⟨.empty, [red, blue, big]⟩, envelope := some ⟨.avg, .avg⟩ }
    let tag (v : String) : Value := .object [("name", .str v)]
    let doc : Value := .object [("tags", .list [tag "big", tag "red"])]
    ∃ params body q x, d.params = .ok params ∧ params.part "body" = .ok body ∧
      body.part "query" = .ok q ∧ (ScoreRule.ofQuery q).score doc = .ok x ∧ x = 5 / 2 ∧
      x ≠ BoostMode.avg.boost 1 x := by
  intro clause red blue big d tag doc
  have hparams : d.params.isOk = true := by decide +kernel
  obtain ⟨params, hparams⟩ := Except.exists_of_isOk hparams
  let p (w : Weighted Clause) : Bool := (w.matches doc).toOption.getD false
  have hwhole : ∀ w ∈ d.draft.functions, ∃ n : Int, w.weight = .int n := by
    simp [d, red, blue, big]
  choose! weight hweight using hwhole
  have htwo : weight red = 2 := (Value.int.inj (hweight red (by simp [d]))).symm
  have hthree : weight big = 3 := (Value.int.inj (hweight big (by simp [d]))).symm
  have hmatch : ∀ w ∈ d.draft.functions, w.matches doc = .ok (p w) := by
    have h : d.draft.functions.all (fun w => (w.matches doc).isOk) = true := by decide +kernel
    intro w hw
    obtain ⟨m, hm⟩ := Except.exists_of_isOk (List.all_eq_true.mp h w hw)
    simp [p, hm]
  have hp : [red, blue, big].map p = [true, false, true] := by decide +kernel
  have hred : p red = true := (List.cons.inj hp).1
  obtain ⟨body, q, hbody, hq, -, hscores⟩ := score_of_envelope rfl hparams hweight doc
  obtain ⟨x, hx, hcombines, hboost, -⟩ := hscores p hmatch ⟨red, List.mem_cons_self, hred⟩
  have hkept : (d.draft.functions.filter p).map (fun w => (weight w : Rat)) = [2, 3] := by
    obtain ⟨-, hp⟩ := List.cons.inj hp
    obtain ⟨hblue, hp⟩ := List.cons.inj hp
    obtain ⟨hbig, -⟩ := List.cons.inj hp
    simp [d, hred, hblue, hbig, htwo, hthree]
  have hmean : x = 5 / 2 := by
    rw [hkept] at hcombines
    refine hcombines.trans ?_
    decide +kernel
  refine ⟨params, body, q, x, hparams, hbody, hq, hx, hmean, fun h => ?_⟩
  rcases hboost.mp h with h | h | ⟨-, h⟩ | ⟨h, -⟩ | ⟨h, -⟩
  · cases h
  · cases h
  · exact absurd (hmean.symm.trans h) (by decide +kernel)
  · cases h
  · cases h

/-- The boost mode `sum` does not add the score of the query to the weights. -/
theorem sum_boost_adds_nothing :
    ¬ ∀ (d : Document) (t : ScoreSettings) (params doc : Value) (p : Weighted Clause → Bool)
      (weight : Weighted Clause → Int), d.envelope = some t → d.params = .ok params →
      (∀ w ∈ d.draft.functions, w.weight = .int (weight w)) →
      (∀ w ∈ d.draft.functions, w.matches doc = .ok (p w)) →
      (∃ w ∈ d.draft.functions, p w = true) →
      ∃ q x, params.bodyQuery = .ok q ∧
        t.scoreMode.Combines ((d.draft.functions.filter p).map fun w => (weight w : Rat)) x ∧
        (ScoreRule.ofQuery q).score doc = .ok (t.boostMode.boost 1 x) := by
  intro h
  let clause : Clause :=
    .nested (.str "tags") (.term (.str "tags.name") (.str "red") (.str "term")) .null
  let d : Document := { empty with
    draft := ⟨.empty, [⟨clause, .int 3⟩]⟩, envelope := some ⟨.sum, .sum⟩ }
  let doc : Value := .object [("tags", .list [.object [("name", .str "red")]])]
  have hparams : d.params.isOk = true := by decide +kernel
  obtain ⟨params, hparams⟩ := Except.exists_of_isOk hparams
  have hmatch : ∀ w ∈ d.draft.functions, w.matches doc = .ok true := by
    exact List.forall_mem_singleton.mpr (Except.toOption_eq_some_iff.mp (by decide +kernel))
  have hweight : ∀ w ∈ d.draft.functions, w.weight = .int 3 := List.forall_mem_singleton.mpr rfl
  obtain ⟨q, fs, hquery, hfs, hrule⟩ := rule_compiled (d := d) rfl hparams
  have hscore : (ScoreRule.ofQuery q).score doc = .ok (3 : Rat) := by
    rw [hrule]
    refine (ScoreRule.score_weighted (ScoreRule.weights_compiled hfs hweight hmatch)).trans ?_
    exact Except.toOption_eq_some_iff.mp (by decide +kernel)
  obtain ⟨q', x, hq', hx, hsum⟩ := h d ⟨.sum, .sum⟩ params doc (fun _ => true) (fun _ => 3)
    rfl hparams hweight hmatch ⟨_, List.mem_singleton_self _, rfl⟩
  obtain rfl := Except.ok.inj (hquery.symm.trans hq')
  obtain rfl : x = 3 := by
    refine Eq.trans hx ?_
    decide +kernel
  exact absurd (Except.ok.inj (hscore.symm.trans hsum)) (by decide +kernel)

end Document

end DocSearch
