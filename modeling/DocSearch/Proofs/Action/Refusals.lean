import DocSearch.Proofs.Action.Outcomes
import Mathlib.Data.List.Forall2

/-!
# How computations fail

What the errors of a composed computation have in common is what those of its parts have in common.
Steps taken over a list fail with the first one that fails.
-/

namespace DocSearch

namespace Except

variable {ε α β : Type} {P : ε → Prop} {x : Except ε α}

/-- All errors that the computation can end with have a property. -/
def FailsOnly (P : ε → Prop) (x : Except ε α) : Prop :=
  ∀ e, x = .error e → P e

theorem failsOnly_ok (v : α) : FailsOnly P (.ok v : Except ε α) := nofun

theorem failsOnly_error {e : ε} (h : P e) : FailsOnly P (.error e : Except ε α) := by
  rintro _ ⟨⟩
  exact h

theorem FailsOnly.mono {Q : ε → Prop} (hx : FailsOnly P x) (h : ∀ e, P e → Q e) :
    FailsOnly Q x :=
  fun e he => h e (hx e he)

theorem FailsOnly.bind {f : α → Except ε β} (hx : FailsOnly P x)
    (hf : ∀ v, x = .ok v → FailsOnly P (f v)) : FailsOnly P (x >>= f) := by
  cases x with
  | error e => exact failsOnly_error (hx e rfl)
  | ok v => exact hf v rfl

theorem FailsOnly.map {f : α → β} (hx : FailsOnly P x) : FailsOnly P (x.map f) := by
  cases x with
  | error e => exact failsOnly_error (hx e rfl)
  | ok v => exact failsOnly_ok _

theorem map_eq_error_iff {f : α → β} {e : ε} : x.map f = .error e ↔ x = .error e := by
  cases x <;> simp [Except.map]

theorem bind_eq_error_iff {f : α → Except ε β} {e : ε} :
    (x >>= f) = .error e ↔ x = .error e ∨ ∃ v, x = .ok v ∧ f v = .error e := by
  cases x <;> simp

variable {f : α → Except ε β} {xs : List α} {ys : List β}

theorem mapM_eq_ok_iff : xs.mapM f = .ok ys ↔ List.Forall₂ (fun x y => f x = .ok y) xs ys := by
  induction xs generalizing ys with
  | nil =>
      rw [List.mapM_nil, pure_eq, List.forall₂_nil_left_iff, Except.ok.injEq]
      exact eq_comm
  | cons x xs ih =>
      simp only [List.mapM_cons, bind_eq_ok_iff, pure_eq, Except.ok.injEq, ih,
        List.forall₂_cons_left_iff]
      constructor
      · rintro ⟨y, hy, zs, hzs, rfl⟩
        exact ⟨y, zs, hy, hzs, rfl⟩
      · rintro ⟨y, zs, hy, hzs, rfl⟩
        exact ⟨y, hy, zs, hzs, rfl⟩

theorem mapM_append_eq_ok_iff {ws : List α} :
    (ws ++ xs).mapM f = .ok ys ↔
      ∃ us vs, ws.mapM f = .ok us ∧ xs.mapM f = .ok vs ∧ us ++ vs = ys := by
  rw [List.mapM_append]
  simp only [bind_eq_ok_iff, pure_eq, Except.ok.injEq]
  constructor
  · rintro ⟨us, hus, vs, hvs, h⟩
    exact ⟨us, vs, hus, hvs, h⟩
  · rintro ⟨us, vs, hus, hvs, h⟩
    exact ⟨us, hus, vs, hvs, h⟩

/-- A traversal in two steps is two traversals. -/
theorem mapM_bind_eq_ok_iff {γ : Type} {g : β → Except ε γ} {zs : List γ} :
    xs.mapM (fun x => f x >>= g) = .ok zs ↔ ∃ ys, xs.mapM f = .ok ys ∧ ys.mapM g = .ok zs := by
  induction xs generalizing zs with
  | nil => simp
  | cons x xs ih =>
      simp only [List.mapM_cons, bind_eq_ok_iff, ih, pure_eq, Except.ok.injEq]
      constructor
      · rintro ⟨z, ⟨y, hy, hz⟩, ws, ⟨ys, hys, hws⟩, rfl⟩
        exact ⟨y :: ys, ⟨y, hy, ys, hys, rfl⟩, by simp [hz, hws]⟩
      · rintro ⟨_, ⟨y, hy, ys, hys, rfl⟩, h⟩
        simp only [List.mapM_cons, bind_eq_ok_iff, pure_eq, Except.ok.injEq] at h
        obtain ⟨z, hz, ws, hws, rfl⟩ := h
        exact ⟨z, ⟨y, hy, hz⟩, ws, ⟨ys, hys, hws⟩, rfl⟩

/-- The steps in front of the one that fails have returned. -/
theorem mapM_eq_error_iff {e : ε} :
    xs.mapM f = .error e ↔ ∃ front x back, xs = front ++ x :: back ∧
      (∀ w ∈ front, ∃ y, f w = .ok y) ∧ f x = .error e := by
  induction xs with
  | nil => simp
  | cons x xs ih =>
      rw [List.mapM_cons, bind_eq_error_iff]
      constructor
      · rintro (hx | ⟨y, hy, h⟩)
        · exact ⟨[], x, xs, rfl, nofun, hx⟩
        · rcases bind_eq_error_iff.mp h with h | ⟨_, -, h⟩
          · obtain ⟨front, w, back, rfl, hfront, hw⟩ := ih.mp h
            exact ⟨x :: front, w, back, rfl, List.forall_mem_cons.mpr ⟨⟨y, hy⟩, hfront⟩, hw⟩
          · cases h
      · rintro ⟨front, w, back, hxs, hfront, hw⟩
        rcases List.cons_eq_append_iff.mp hxs with ⟨rfl, hback⟩ | ⟨rest, rfl, rfl⟩
        · obtain ⟨rfl, rfl⟩ := List.cons_eq_cons.mp hback
          exact Or.inl hw
        · obtain ⟨⟨y, hy⟩, hrest⟩ := List.forall_mem_cons.mp hfront
          refine Or.inr ⟨y, hy, bind_eq_error_iff.mpr (Or.inl (ih.mpr ?_))⟩
          exact ⟨rest, w, back, rfl, hrest, hw⟩

end Except

namespace Action

variable {σ τ α β : Type} {P : Error → Prop}

/-- All errors that the action can fail with, from whatever state, have a property. -/
def FailsOnly (P : Error → Prop) (a : Action σ α) : Prop :=
  ∀ s e t, a.Fails s e t → P e

theorem Certain.failsOnly {a : Action σ α} (ha : a.Certain) : a.FailsOnly P :=
  fun s e t h => absurd h (ha s e t)

theorem failsOnly_throw {e : Error} (h : P e) : (throw e : Action σ α).FailsOnly P := by
  rintro s d t hd
  obtain ⟨rfl, -⟩ := fails_throw_iff.mp hd
  exact h

theorem failsOnly_lift {x : Except Error α} (hx : Except.FailsOnly P x) :
    (liftM x : Action σ α).FailsOnly P :=
  fun _ e _ h => hx e (fails_lift_iff.mp h).1

theorem FailsOnly.bind {a : Action σ α} {f : α → Action σ β} (ha : a.FailsOnly P)
    (hf : ∀ x, (f x).FailsOnly P) : (a >>= f).FailsOnly P := by
  intro s e t h
  rcases fails_bind_iff.mp h with h | ⟨x, u, -, h⟩
  · exact ha s e t h
  · exact hf x u e t h

/-- The steps after a computation may rely on what it returns. -/
theorem FailsOnly.lift_bind {x : Except Error α} {f : α → Action σ β} (hx : Except.FailsOnly P x)
    (hf : ∀ v, x = .ok v → (f v).FailsOnly P) : ((liftM x : Action σ α) >>= f).FailsOnly P := by
  intro s e t h
  rcases fails_lift_bind_iff.mp h with ⟨he, -⟩ | ⟨v, hv, h⟩
  · exact hx e he
  · exact hf v hv s e t h

theorem failsOnly_ite {c : Prop} [Decidable c] {a b : Action σ α} (ha : a.FailsOnly P)
    (hb : b.FailsOnly P) : (if c then a else b).FailsOnly P := by
  split
  · exact ha
  · exact hb

theorem FailsOnly.guarded {a : Action σ α} (ha : a.FailsOnly P) {c : Prop} [Decidable c]
    {e : Error} (he : P e) :
    (if c then (throw e : Action σ PUnit) >>= fun _ => a else a).FailsOnly P :=
  failsOnly_ite ((failsOnly_throw he).bind fun _ => ha) ha

end Action

end DocSearch
