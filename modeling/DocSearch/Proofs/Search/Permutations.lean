import DocSearch.Proofs.Search.Boolean
import DocSearch.Proofs.Search.Scores

/-!
# Clauses and weights in another order

A boolean query selects the same documents whatever the order of the clauses in its groups is, and
all score modes but the one that takes the first weight make the same of weights in another order, as
long as the arithmetic does not round.
-/

namespace DocSearch

/-! ## Groups -/

namespace Groups

variable {α : Type} {g h : Groups α}

/-- The groups hold the same clauses, each as often, and ask for the same number of optional ones. -/
structure Perm (g h : Groups α) : Prop where
  get : ∀ k, (g.get k).Perm (h.get k)
  minimum : g.minimum = h.minimum

theorem Perm.required (hgh : g.Perm h) : g.required = h.required := by
  have hmust : g.must.isEmpty = h.must.isEmpty := (hgh.get .must).isEmpty_eq
  have hfilter : g.filter.isEmpty = h.filter.isEmpty := (hgh.get .filter).isEmpty_eq
  rw [Groups.required, Groups.required, hgh.minimum, hmust, hfilter]

theorem Perm.selects (hgh : g.Perm h) (p : α → Bool) (n : Int) :
    g.selects p n = h.selects p n := by
  have hmust : g.must.all p = h.must.all p := (hgh.get .must).all_eq
  have hfilter : g.filter.all p = h.filter.all p := (hgh.get .filter).all_eq
  have hnot : g.mustNot.any p = h.mustNot.any p := (hgh.get .mustNot).any_eq
  have hempty : g.should.isEmpty = h.should.isEmpty := (hgh.get .should).isEmpty_eq
  have hcount : g.should.countP p = h.should.countP p := (hgh.get .should).countP_eq p
  simp only [Groups.selects, enough, hmust, hfilter, hnot, hempty, hcount]

end Groups

/-! ## Scores -/

namespace Arithmetic

variable {w v : Rat} {ws vs : List Rat}

theorem total_perm (h : ws.Perm vs) : total ws = total vs := by
  refine h.foldl_eq' (fun x _ y _ z => ?_) zero
  change z + x + y = z + y + x
  rw [Rat.add_assoc, Rat.add_assoc, Rat.add_comm x y]

theorem product_perm (h : ws.Perm vs) : product ws = product vs := by
  refine h.foldl_eq' (fun x _ y _ z => ?_) one
  change z * x * y = z * y * x
  rw [Rat.mul_assoc, Rat.mul_assoc, Rat.mul_comm x y]

/-- Going over items and changing to those that come after the one at hand ends with one of them that
none comes after. -/
theorem foldl_choose {α : Type} (after : α → α → Bool)
    (htrans : ∀ a b c, after a b = false → after b c = false → after a c = false)
    (hasymm : ∀ a b, after a b = true → after b a = false) (x : α) (xs : List α) :
    let m := xs.foldl (fun m y => if after m y then y else m) x
    m ∈ x :: xs ∧ ∀ y ∈ x :: xs, after m y = false := by
  have hirrefl (a : α) : after a a = false := by
    cases h : after a a with
    | false => rfl
    | true => exact h.symm.trans (hasymm a a h)
  induction xs generalizing x with
  | nil => simp [hirrefl]
  | cons y ys ih =>
      intro m
      let next := if after x y then y else x
      obtain ⟨hmem, hlast⟩ := ih next
      have hnext : after m next = false := hlast next List.mem_cons_self
      have hx : after next x = false := by
        cases h : after x y with
        | true => simpa [next, h] using hasymm x y h
        | false => simpa [next, h] using hirrefl x
      have hy : after next y = false := by
        cases h : after x y with
        | true => simpa [next, h] using hirrefl y
        | false => simp [next, h]
      constructor
      · rcases List.mem_cons.mp hmem with hm | hm
        · have hm : m = next := hm
          rw [hm]
          cases h : after x y <;> simp [next, h]
        · exact List.mem_cons_of_mem x (List.mem_cons_of_mem y hm)
      · intro z hz
        rcases List.mem_cons.mp hz with rfl | hz
        · exact htrans m next z hnext hx
        · rcases List.mem_cons.mp hz with rfl | hz
          · exact htrans m next z hnext hy
          · exact hlast z (List.mem_cons_of_mem next hz)

theorem less_eq_false_iff {a b : Rat} : less a b = false ↔ b ≤ a := by
  change decide (a < b) = false ↔ b ≤ a
  rw [decide_eq_false_iff_not, Rat.not_lt]

theorem less_trans {a b c : Rat} (hab : less a b = false) (hbc : less b c = false) :
    less a c = false := by
  rw [less_eq_false_iff] at *
  exact Rat.le_trans hbc hab

theorem less_asymm {a b : Rat} (h : less a b = true) : less b a = false := by
  rw [← Bool.not_eq_false, less_eq_false_iff, Rat.not_le] at h
  exact less_eq_false_iff.mpr (Rat.le_of_lt h)

theorem greatest_mem_and_ge (w : Rat) (ws : List Rat) :
    greatest w ws ∈ w :: ws ∧ ∀ x ∈ w :: ws, x ≤ greatest w ws := by
  simp only [← less_eq_false_iff]
  exact foldl_choose less (fun _ _ _ => less_trans) (fun _ _ => less_asymm) w ws

theorem least_mem_and_le (w : Rat) (ws : List Rat) :
    least w ws ∈ w :: ws ∧ ∀ x ∈ w :: ws, least w ws ≤ x := by
  simp only [← less_eq_false_iff]
  exact foldl_choose (fun a b => less b a) (fun _ _ _ hab hbc => less_trans hbc hab)
    (fun _ _ => less_asymm) w ws

theorem greatest_perm (h : (w :: ws).Perm (v :: vs)) : greatest w ws = greatest v vs := by
  obtain ⟨hmem, hge⟩ := greatest_mem_and_ge w ws
  obtain ⟨hmem', hge'⟩ := greatest_mem_and_ge v vs
  exact Rat.le_antisymm (hge' _ (h.mem_iff.mp hmem)) (hge _ (h.mem_iff.mpr hmem'))

theorem least_perm (h : (w :: ws).Perm (v :: vs)) : least w ws = least v vs := by
  obtain ⟨hmem, hle⟩ := least_mem_and_le w ws
  obtain ⟨hmem', hle'⟩ := least_mem_and_le v vs
  exact Rat.le_antisymm (hle _ (h.mem_iff.mpr hmem')) (hle' _ (h.mem_iff.mp hmem))

end Arithmetic

namespace ScoreMode

open Arithmetic

theorem combine_perm {m : ScoreMode} (hm : m ≠ .first) {w v : Rat} {ws vs : List Rat}
    (h : (w :: ws).Perm (v :: vs)) : m.combine w ws = m.combine v vs := by
  cases m with
  | sum => exact total_perm h
  | avg =>
      have hlength : ws.length + 1 = vs.length + 1 := h.length_eq
      rw [combine, combine, total_perm h, hlength]
  | max => exact greatest_perm h
  | min => exact least_perm h
  | first => exact absurd rfl hm
  | multiply => exact product_perm h

end ScoreMode

namespace ScoreRule

theorem settle_perm {m : ScoreMode} (hm : m ≠ .first) (replaces : Bool) {ws vs : List Rat}
    (h : ws.Perm vs) : settle m replaces ws = settle m replaces vs := by
  cases ws with
  | nil => rw [h.nil_eq]
  | cons w ws =>
      cases vs with
      | nil => exact absurd h.length_eq (Nat.succ_ne_zero _)
      | cons v vs => exact ScoreMode.combine_perm hm h

/-- Functions that can all be held against a document weigh it one by one. -/
theorem weights_eq_ok {σ : Type} [Arithmetic σ] {doc : Value}
    {fs : List (Except Error ScoreFunction)} {w : Except Error ScoreFunction → Option σ}
    (h : ∀ f ∈ fs, (f >>= ScoreFunction.weigh doc) = .ok (w f)) :
    weights doc fs = .ok (fs.filterMap w) := by
  induction fs with
  | nil => rfl
  | cons f fs ih =>
      have hf := h f List.mem_cons_self
      have hfs := ih fun g hg => h g (List.mem_cons_of_mem f hg)
      obtain ⟨g, rfl, hg⟩ := Except.bind_eq_ok_iff.mp hf
      cases hw : w (.ok g) <;> simp [weights, hg, hfs, hw]

end ScoreRule

end DocSearch
