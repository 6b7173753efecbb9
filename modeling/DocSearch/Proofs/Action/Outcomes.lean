import DocSearch.Action.Basic

/-!
# How actions end

An action returns a value in some state or fails in some state, and the two relations `Returns` and
`Fails` take a composed action apart into its steps. `Steady` tells what holds however the action
ends: a part of the state is the one it started with, and every event has a property.
-/

namespace DocSearch

/-! ## Computations without a state -/

namespace Except

variable {ε α β : Type}

@[simp] theorem pure_eq (x : α) : (pure x : Except ε α) = .ok x := rfl

@[simp] theorem ok_bind (x : α) (f : α → Except ε β) : (Except.ok x >>= f) = f x := rfl

@[simp] theorem error_bind (e : ε) (f : α → Except ε β) : (Except.error e >>= f) = .error e := rfl

@[simp] theorem toOption_ok (x : α) : (Except.ok x : Except ε α).toOption = some x := rfl

@[simp] theorem toOption_error (e : ε) : (Except.error e : Except ε α).toOption = none := rfl

theorem toOption_eq_some_iff {x : Except ε α} {v : α} : x.toOption = some v ↔ x = .ok v := by
  cases x <;> simp [Except.toOption]

theorem bind_eq_ok_iff {x : Except ε α} {f : α → Except ε β} {y : β} :
    (x >>= f) = .ok y ↔ ∃ v, x = .ok v ∧ f v = .ok y := by
  cases x <;> simp

theorem exists_of_isOk {x : Except ε α} (h : x.isOk = true) : ∃ v, x = .ok v := by
  cases x with
  | error e => cases h
  | ok v => exact ⟨v, rfl⟩

theorem map_eq_ok_iff {x : Except ε α} {f : α → β} {y : β} :
    x.map f = .ok y ↔ ∃ v, x = .ok v ∧ f v = y := by
  cases x <;> simp [Except.map]

variable {f : α → Except ε β} {xs : List α} {ys : List β}

theorem exists_mapM_iff : (∃ ys, xs.mapM f = .ok ys) ↔ ∀ x ∈ xs, ∃ y, f x = .ok y := by
  induction xs with
  | nil => simp
  | cons x xs ih =>
      rw [List.forall_mem_cons, ← ih]
      simp only [List.mapM_cons, bind_eq_ok_iff]
      constructor
      · rintro ⟨-, y, hy, zs, hzs, -⟩
        exact ⟨⟨y, hy⟩, zs, hzs⟩
      · rintro ⟨⟨y, hy⟩, zs, hzs⟩
        exact ⟨y :: zs, y, hy, zs, hzs, rfl⟩

theorem exists_of_mem_mapM (h : xs.mapM f = .ok ys) : ∀ y ∈ ys, ∃ x ∈ xs, f x = .ok y := by
  induction xs generalizing ys with
  | nil =>
      obtain rfl := Except.ok.inj h
      simp
  | cons x xs ih =>
      rw [List.mapM_cons] at h
      obtain ⟨y, hy, h⟩ := bind_eq_ok_iff.mp h
      obtain ⟨zs, hzs, h⟩ := bind_eq_ok_iff.mp h
      obtain rfl := Except.ok.inj h
      refine List.forall_mem_cons.mpr ⟨⟨x, List.mem_cons_self, hy⟩, fun z hz => ?_⟩
      obtain ⟨w, hw, hfw⟩ := ih hzs z hz
      exact ⟨w, List.mem_cons_of_mem x hw, hfw⟩

/-- What undoes each step undoes all of them. -/
theorem map_of_mapM {g : β → α} (hg : ∀ x y, f x = .ok y → g y = x) (h : xs.mapM f = .ok ys) :
    ys.map g = xs := by
  induction xs generalizing ys with
  | nil => exact Except.ok.inj h ▸ rfl
  | cons x xs ih =>
      rw [List.mapM_cons] at h
      obtain ⟨y, hy, h⟩ := bind_eq_ok_iff.mp h
      obtain ⟨zs, hzs, h⟩ := bind_eq_ok_iff.mp h
      obtain rfl := Except.ok.inj h
      rw [List.map_cons, hg x y hy, ih hzs]

end Except

namespace Action

variable {σ τ ρ α β : Type}

/-- Started in `s`, the action returns `x` and leaves the state `t`. -/
def Returns (a : Action σ α) (s : σ) (x : α) (t : σ) : Prop :=
  (a.run s).result = .ok x ∧ (a.run s).state = t

/-- Started in `s`, the action fails with `e` and leaves the state `t`. -/
def Fails (a : Action σ α) (s : σ) (e : Error) (t : σ) : Prop :=
  (a.run s).result = .error e ∧ (a.run s).state = t

theorem run_within (view : σ → τ) (put : τ → σ → σ) (a : Action τ α) (s : σ) :
    (a.within view put).run s =
      ⟨(a.run (view s)).result, put (a.run (view s)).state s, (a.run (view s)).events⟩ := rfl

@[simp] theorem run_lift (x : Except Error α) (s : σ) :
    (liftM x : Action σ α).run s = ⟨x, s, []⟩ := rfl

theorem lift_ok_bind (x : α) (f : α → Action σ β) :
    ((liftM (Except.ok x : Except Error α) : Action σ α) >>= f) = f x := rfl

@[simp] theorem run_log (l : Level) (c : Channel) (m : String) (s : σ) :
    (log l c m : Action σ Unit).run s = ⟨.ok (), s, [.logged ⟨l.severity, c.name, m⟩]⟩ := rfl

theorem run_recover_of_ok {a : Action σ α} {f : Error → Action σ α} {s : σ} {x : α}
    (h : (a.run s).result = .ok x) :
    (a.recover f).run s = ⟨.ok x, (a.run s).state, (a.run s).events⟩ := by
  unfold run at *
  rw [recover, h]

theorem run_recover_of_error {a : Action σ α} {f : Error → Action σ α} {s : σ} {e : Error}
    (h : (a.run s).result = .error e) :
    (a.recover f).run s =
      let p := (f e).run (a.run s).state
      ⟨p.result, p.state, (a.run s).events ++ p.events⟩ := by
  unfold run at *
  rw [recover, h]

/-! ## Returning -/

@[simp] theorem returns_pure_iff {x y : α} {s t : σ} :
    (pure x : Action σ α).Returns s y t ↔ x = y ∧ s = t := by
  simp [Returns]

@[simp] theorem returns_bind_iff {a : Action σ α} {f : α → Action σ β} {s t : σ} {y : β} :
    (a >>= f).Returns s y t ↔ ∃ x u, a.Returns s x u ∧ (f x).Returns u y t := by
  unfold Returns
  cases h : (a.run s).result with
  | ok x =>
      rw [run_bind_of_ok h]
      constructor
      · intro hy
        exact ⟨x, (a.run s).state, ⟨rfl, rfl⟩, hy⟩
      · rintro ⟨z, u, ⟨hz, rfl⟩, hy⟩
        cases hz
        exact hy
  | error e =>
      rw [run_bind_of_error h]
      simp

@[simp] theorem returns_get_iff {s t u : σ} :
    (get : Action σ σ).Returns s t u ↔ s = t ∧ s = u := by
  simp [Returns]

@[simp] theorem returns_map_iff {f : α → β} {a : Action σ α} {s t : σ} {y : β} :
    (f <$> a).Returns s y t ↔ ∃ x, a.Returns s x t ∧ f x = y := by
  rw [← bind_pure_comp, returns_bind_iff]
  constructor
  · rintro ⟨x, u, hx, hy⟩
    obtain ⟨rfl, rfl⟩ := returns_pure_iff.mp hy
    exact ⟨x, hx, rfl⟩
  · rintro ⟨x, hx, rfl⟩
    exact ⟨x, t, hx, returns_pure_iff.mpr ⟨rfl, rfl⟩⟩

@[simp] theorem returns_get_bind_iff {f : σ → Action σ β} {s t : σ} {y : β} :
    ((get : Action σ σ) >>= f).Returns s y t ↔ (f s).Returns s y t :=
  Iff.rfl

@[simp] theorem returns_modify_iff {f : σ → σ} {s t : σ} {x : Unit} :
    (modify f : Action σ Unit).Returns s x t ↔ f s = t := by
  simp [Returns]

@[simp] theorem returns_modify_bind_iff {f : σ → σ} {g : Unit → Action σ β} {s t : σ} {y : β} :
    ((modify f : Action σ Unit) >>= g).Returns s y t ↔ (g ()).Returns (f s) y t :=
  Iff.rfl

@[simp] theorem not_returns_throw {e : Error} {s t : σ} {x : α} :
    ¬ (throw e : Action σ α).Returns s x t := by
  simp [Returns]

@[simp] theorem returns_lift_iff {x : Except Error α} {s t : σ} {y : α} :
    (liftM x : Action σ α).Returns s y t ↔ x = .ok y ∧ s = t := by
  simp [Returns]

@[simp] theorem returns_lift_bind_iff {x : Except Error α} {f : α → Action σ β} {s t : σ}
    {y : β} :
    ((liftM x : Action σ α) >>= f).Returns s y t ↔ ∃ v, x = .ok v ∧ (f v).Returns s y t := by
  simp [returns_bind_iff, and_assoc]

@[simp] theorem returns_log_iff {l : Level} {c : Channel} {m : String} {s t : σ} {x : Unit} :
    (log l c m : Action σ Unit).Returns s x t ↔ s = t := by
  simp [Returns]

theorem returns_within_iff {view : σ → τ} {put : τ → σ → σ} {a : Action τ α} {s t : σ} {x : α} :
    (a.within view put).Returns s x t ↔ ∃ u, a.Returns (view s) x u ∧ put u s = t := by
  simp only [Returns, run_within]
  constructor
  · rintro ⟨hx, rfl⟩
    exact ⟨_, ⟨hx, rfl⟩, rfl⟩
  · rintro ⟨u, ⟨hx, rfl⟩, rfl⟩
    exact ⟨hx, rfl⟩

/-! ## Failing -/

theorem fails_of_not_returns {a : Action σ α} {s : σ} (h : ∀ x t, ¬ a.Returns s x t) :
    ∃ e t, a.Fails s e t := by
  cases hr : (a.run s).result with
  | ok x => exact absurd ⟨hr, rfl⟩ (h x _)
  | error e => exact ⟨e, _, hr, rfl⟩

theorem Fails.state_eq {a : Action σ α} {s t u : σ} {d e : Error} (h : a.Fails s d t)
    (h' : a.Fails s e u) : t = u :=
  h.2.symm.trans h'.2

theorem Fails.not_returns {a : Action σ α} {s t u : σ} {e : Error} {x : α} (h : a.Fails s e t) :
    ¬ a.Returns s x u := by
  intro h'
  cases h.1.symm.trans h'.1

@[simp] theorem not_fails_pure {x : α} {s t : σ} {e : Error} :
    ¬ (pure x : Action σ α).Fails s e t := by
  simp [Fails]

theorem fails_bind_iff {a : Action σ α} {f : α → Action σ β} {s t : σ} {e : Error} :
    (a >>= f).Fails s e t ↔
      a.Fails s e t ∨ ∃ x u, a.Returns s x u ∧ (f x).Fails u e t := by
  unfold Fails Returns
  cases h : (a.run s).result with
  | ok x =>
      rw [run_bind_of_ok h]
      constructor
      · intro he
        exact Or.inr ⟨x, (a.run s).state, ⟨rfl, rfl⟩, he⟩
      · rintro (⟨hx, -⟩ | ⟨z, u, ⟨hz, rfl⟩, he⟩)
        · cases hx
        · cases hz
          exact he
  | error d =>
      rw [run_bind_of_error h]
      simp

@[simp] theorem not_fails_get {s t : σ} {e : Error} : ¬ (get : Action σ σ).Fails s e t := by
  simp [Fails]

@[simp] theorem fails_get_bind_iff {f : σ → Action σ β} {s t : σ} {e : Error} :
    ((get : Action σ σ) >>= f).Fails s e t ↔ (f s).Fails s e t :=
  Iff.rfl

@[simp] theorem not_fails_modify {f : σ → σ} {s t : σ} {e : Error} :
    ¬ (modify f : Action σ Unit).Fails s e t := by
  simp [Fails]

@[simp] theorem fails_throw_iff {d e : Error} {s t : σ} :
    (throw d : Action σ α).Fails s e t ↔ d = e ∧ s = t := by
  simp [Fails]

@[simp] theorem fails_lift_iff {x : Except Error α} {s t : σ} {e : Error} :
    (liftM x : Action σ α).Fails s e t ↔ x = .error e ∧ s = t := by
  simp [Fails]

@[simp] theorem fails_lift_bind_iff {x : Except Error α} {f : α → Action σ β} {s t : σ}
    {e : Error} :
    ((liftM x : Action σ α) >>= f).Fails s e t ↔
      (x = .error e ∧ s = t) ∨ ∃ v, x = .ok v ∧ (f v).Fails s e t := by
  simp [fails_bind_iff, and_assoc]

@[simp] theorem not_fails_log {l : Level} {c : Channel} {m : String} {s t : σ} {e : Error} :
    ¬ (log l c m : Action σ Unit).Fails s e t := by
  simp [Fails]

theorem fails_within_iff {view : σ → τ} {put : τ → σ → σ} {a : Action τ α} {s t : σ}
    {e : Error} :
    (a.within view put).Fails s e t ↔ ∃ u, a.Fails (view s) e u ∧ put u s = t := by
  simp only [Fails, run_within]
  constructor
  · rintro ⟨he, rfl⟩
    exact ⟨_, ⟨he, rfl⟩, rfl⟩
  · rintro ⟨u, ⟨he, rfl⟩, rfl⟩
    exact ⟨he, rfl⟩

/-! ## What holds however an action ends -/

/-- However the action ends, a part of the state is what it was and every event has the property. -/
def Steady (view : σ → ρ) (p : Event → Prop) (a : Action σ α) : Prop :=
  ∀ s, view (a.run s).state = view s ∧ ∀ e ∈ (a.run s).events, p e

variable {view : σ → ρ} {p : Event → Prop}

theorem steady_pure (x : α) : (pure x : Action σ α).Steady view p := by
  intro s
  simp

theorem steady_get : (get : Action σ σ).Steady view p := by
  intro s
  simp

theorem steady_set {t : σ} (h : ∀ s, view t = view s) : (set t : Action σ Unit).Steady view p := by
  intro s
  simp [h s]

theorem steady_modify {f : σ → σ} (h : ∀ s, view (f s) = view s) :
    (modify f : Action σ Unit).Steady view p := by
  intro s
  simp [h s]

theorem steady_throw (e : Error) : (throw e : Action σ α).Steady view p := by
  intro s
  simp

theorem steady_lift (x : Except Error α) : (liftM x : Action σ α).Steady view p := by
  intro s
  simp

theorem steady_log (h : ∀ r, p (.logged r)) (l : Level) (c : Channel) (m : String) :
    (log l c m : Action σ Unit).Steady view p := by
  intro s
  simp [h]

theorem Steady.bind {a : Action σ α} {f : α → Action σ β} (ha : a.Steady view p)
    (hf : ∀ x, (f x).Steady view p) : (a >>= f).Steady view p := by
  intro s
  obtain ⟨hview, hevents⟩ := ha s
  cases h : (a.run s).result with
  | ok x =>
      obtain ⟨hview', hevents'⟩ := hf x (a.run s).state
      rw [run_bind_of_ok h]
      refine ⟨hview'.trans hview, ?_⟩
      intro e he
      rcases List.mem_append.mp he with he | he
      · exact hevents e he
      · exact hevents' e he
  | error d =>
      rw [run_bind_of_error h]
      exact ⟨hview, hevents⟩

theorem Steady.recover {a : Action σ α} {f : Error → Action σ α} (ha : a.Steady view p)
    (hf : ∀ e, (f e).Steady view p) : (a.recover f).Steady view p := by
  intro s
  obtain ⟨hview, hevents⟩ := ha s
  cases h : (a.run s).result with
  | ok x =>
      rw [run_recover_of_ok h]
      exact ⟨hview, hevents⟩
  | error d =>
      obtain ⟨hview', hevents'⟩ := hf d (a.run s).state
      rw [run_recover_of_error h]
      refine ⟨hview'.trans hview, ?_⟩
      intro e he
      rcases List.mem_append.mp he with he | he
      · exact hevents e he
      · exact hevents' e he

theorem steady_ite {c : Prop} [Decidable c] {a b : Action σ α} (ha : a.Steady view p)
    (hb : b.Steady view p) : (if c then a else b).Steady view p := by
  split
  · exact ha
  · exact hb

theorem Steady.guarded {a : Action σ α} (ha : a.Steady view p) {c : Prop} [Decidable c]
    {e : Error} : (if c then (throw e : Action σ PUnit) >>= fun _ => a else a).Steady view p :=
  steady_ite ((steady_throw e).bind fun _ => ha) ha

/-- An action on a part of the state is steady as far as the whole depends on that part. -/
theorem Steady.within {inner : τ → α} {a : Action τ β} (ha : a.Steady inner p)
    {part : σ → τ} {put : τ → σ → σ}
    (hput : ∀ t s, inner t = inner (part s) → view (put t s) = view s) :
    (a.within part put).Steady view p := by
  intro s
  obtain ⟨hview, hevents⟩ := ha (part s)
  exact ⟨hput _ _ hview, hevents⟩

/-! ## Failing without a trace -/

/-- A run that fails leaves the state as it was. -/
def Atomic (a : Action σ α) : Prop :=
  ∀ s e t, a.Fails s e t → t = s

def Certain (a : Action σ α) : Prop :=
  ∀ s e t, ¬ a.Fails s e t

theorem certain_pure (x : α) : (pure x : Action σ α).Certain := fun _ _ _ => not_fails_pure

theorem certain_get : (get : Action σ σ).Certain := fun _ _ _ => not_fails_get

theorem certain_modify (f : σ → σ) : (modify f : Action σ Unit).Certain :=
  fun _ _ _ => not_fails_modify

theorem certain_log (l : Level) (c : Channel) (m : String) : (log l c m : Action σ Unit).Certain :=
  fun _ _ _ => not_fails_log

theorem Certain.bind {a : Action σ α} {f : α → Action σ β} (ha : a.Certain)
    (hf : ∀ x, (f x).Certain) : (a >>= f).Certain := by
  intro s e t h
  rcases fails_bind_iff.mp h with h | ⟨x, u, -, h⟩
  · exact ha s e t h
  · exact hf x u e t h

theorem Certain.within {a : Action τ α} (ha : a.Certain) (view : σ → τ) (put : τ → σ → σ) :
    (a.within view put).Certain := by
  intro s e t h
  obtain ⟨u, h, -⟩ := fails_within_iff.mp h
  exact ha (view s) e u h

theorem Certain.atomic {a : Action σ α} (ha : a.Certain) : a.Atomic :=
  fun s e t h => absurd h (ha s e t)

/-- An atomic action that does not return fails and leaves its state. -/
theorem Atomic.fails {a : Action σ α} (ha : a.Atomic) {s : σ} (h : ∀ x t, ¬ a.Returns s x t) :
    ∃ e, a.Fails s e s := by
  obtain ⟨e, t, hfails⟩ := fails_of_not_returns h
  obtain rfl := ha s e t hfails
  exact ⟨e, hfails⟩

theorem atomic_ite {c : Prop} [Decidable c] {a b : Action σ α} (ha : a.Atomic) (hb : b.Atomic) :
    (if c then a else b).Atomic := by
  split
  · exact ha
  · exact hb

/-- Steps that only look at the state can come before an atomic action. -/
theorem Steady.bind_atomic {a : Action σ α} {f : α → Action σ β}
    (ha : a.Steady (fun s => s) fun _ => True) (hf : ∀ x, (f x).Atomic) : (a >>= f).Atomic := by
  intro s e t h
  have hstate : (a.run s).state = s := (ha s).1
  rcases fails_bind_iff.mp h with ⟨-, rfl⟩ | ⟨x, u, ⟨-, rfl⟩, h⟩
  · exact hstate
  · rw [hstate] at h
    exact hf x s e t h

theorem Atomic.guarded {a : Action σ α} (ha : a.Atomic) {c : Prop} [Decidable c] {e : Error} :
    (if c then (throw e : Action σ PUnit) >>= fun _ => a else a).Atomic :=
  atomic_ite ((steady_throw e).bind_atomic fun _ => ha) ha

/-! ## What an action does not see -/

/-- The action runs alike before and after a change of the state. -/
def Blind (f : σ → σ) (a : Action σ α) : Prop :=
  ∀ s, a.run (f s) = ⟨(a.run s).result, f (a.run s).state, (a.run s).events⟩

variable {f : σ → σ}

theorem blind_pure (x : α) : (pure x : Action σ α).Blind f := fun _ => rfl

theorem blind_throw (e : Error) : (throw e : Action σ α).Blind f := fun _ => rfl

theorem blind_lift (x : Except Error α) : (liftM x : Action σ α).Blind f := fun _ => rfl

theorem blind_modify {g : σ → σ} (h : ∀ s, g (f s) = f (g s)) :
    (modify g : Action σ Unit).Blind f := by
  intro s
  simp [h s]

theorem Blind.bind {a : Action σ α} {k : α → Action σ β} (ha : a.Blind f)
    (hk : ∀ x, (k x).Blind f) : (a >>= k).Blind f := by
  intro s
  rw [run_bind, run_bind, ha s]
  cases (a.run s).result with
  | error e => rfl
  | ok x => simp only [hk x _]

/-- What is read from the state must not depend on the change. -/
theorem blind_get_bind {k : σ → Action σ β} (h : ∀ s, k (f s) = k s) (hk : ∀ s, (k s).Blind f) :
    (get >>= k).Blind f := by
  intro s
  rw [run_bind, run_bind]
  simp only [run_get, h, hk s s]

theorem blind_ite {c : Prop} [Decidable c] {a b : Action σ α} (ha : a.Blind f) (hb : b.Blind f) :
    (if c then a else b).Blind f := by
  split
  · exact ha
  · exact hb

theorem Blind.guarded {a : Action σ α} (ha : a.Blind f) {c : Prop} [Decidable c] {e : Error} :
    (if c then (throw e : Action σ PUnit) >>= fun _ => a else a).Blind f :=
  blind_ite ((blind_throw e).bind fun _ => ha) ha

theorem blind_emit (e : Event) : (emit e : Action σ Unit).Blind f := fun _ => rfl

theorem blind_log (l : Level) (c : Channel) (m : String) : (log l c m : Action σ Unit).Blind f :=
  fun _ => rfl

theorem blind_id (a : Action σ α) : a.Blind fun s => s := fun _ => rfl

/-- A change of the whole state that is a change `g` of the part an action works on. -/
theorem Blind.within {g : τ → τ} {a : Action τ α} (ha : a.Blind g) {part : σ → τ}
    {put : τ → σ → σ} (hpart : ∀ s, part (f s) = g (part s))
    (hput : ∀ t s, put (g t) (f s) = f (put t s)) :
    (a.within part put).Blind f := by
  intro s
  rw [run_within, run_within, hpart, ha (part s), hput]

end Action

end DocSearch
