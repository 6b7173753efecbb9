import DocSearch.Proofs.Search.Nested
import DocSearch.Search.Basic

/-!
# Scores of the documents found

Where every document can be held against a query and scored, a search finds the documents that
match, each with its score. Functions of equal weight score a document by how many of them match.
-/

namespace DocSearch

variable {σ : Type} [Arithmetic σ]

namespace ScoreRule

/-- The score that some weights amount to. -/
def settle (mode : ScoreMode) (replaces : Bool) : List σ → σ
  | [] => if replaces then Arithmetic.zero else Arithmetic.one
  | w :: ws => mode.combine w ws

theorem score_weighted {doc : Value} {fs : List (Except Error ScoreFunction)} {mode : ScoreMode}
    {replaces : Bool} {ws : List σ} (h : weights doc fs = .ok ws) :
    (weighted fs mode replaces).score doc = .ok (settle mode replaces ws) := by
  rw [score, h]
  cases ws <;> rfl

/-- Functions of one weight contribute it as often as they match. -/
theorem weights_map {α : Type} {doc w : Value} {x : σ} (hw : Arithmetic.ofValue w = .ok x)
    {xs : List α} {c : α → Condition} {p : α → Bool}
    (h : ∀ a ∈ xs, (c a).holds doc "" = .ok (p a)) :
    weights doc (xs.map fun a => .ok ⟨c a, w⟩) = .ok (List.replicate (xs.countP p) x) := by
  induction xs with
  | nil => rfl
  | cons a xs ih =>
      have ha := h a List.mem_cons_self
      have hxs := ih fun b hb => h b (List.mem_cons_of_mem a hb)
      cases hp : p a with
      | true =>
          have hweigh : ScoreFunction.weigh doc ⟨c a, w⟩ = .ok (some x) := by
            simp [ScoreFunction.weigh, ha, hp, hw]
          simp [weights, hweigh, hxs, hp, List.replicate_succ]
      | false =>
          have hweigh : ScoreFunction.weigh doc ⟨c a, w⟩ = .ok (none : Option σ) := by
            simp [ScoreFunction.weigh, ha, hp]
          simp [weights, hweigh, hxs, hp]

end ScoreRule

namespace Search

/-- A search that fails on no document finds those that match, with their scores. -/
theorem found_eq_ok {c : Condition} {r : ScoreRule} {docs : List (Value × Value)}
    {p : Value → Bool} {s : Value → σ} (hc : ∀ d ∈ docs, c.holds d.2 "" = .ok (p d.2))
    (hr : ∀ d ∈ docs, r.score d.2 = .ok (s d.2)) :
    found c r docs =
      .ok ((docs.filter fun d => p d.2).map fun d => ⟨d.1, d.2, s d.2⟩) := by
  induction docs with
  | nil => rfl
  | cons d docs ih =>
      obtain ⟨id, doc⟩ := d
      obtain ⟨hdoc, hdocs⟩ := List.forall_mem_cons.mp hc
      obtain ⟨hscore, hscores⟩ := List.forall_mem_cons.mp hr
      cases hp : p doc <;> simp [found, hdoc, hp, hscore, ih hdocs hscores]

end Search

end DocSearch
