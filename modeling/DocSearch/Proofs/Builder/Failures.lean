import DocSearch.Proofs.Aggregation.Families
import DocSearch.Proofs.Builder.Changes

/-!
# Calls that fail

A call looks at the state of the builder and at all of its arguments before it changes anything, so
one that fails leaves the builder as it was. Two calls change the document step by step: `Call.orderBy`
while it checks its directions, and `Call.keywords` while its keywords come from a source of their own,
which may break off. Every other one is atomic.
-/

namespace DocSearch

open DocSearch.Action

namespace Builder

theorem certain_modifyDocument (f : Document → Document) : (modifyDocument f).Certain :=
  certain_modify _

theorem certain_addKeywords (fs ks : List Value) : (addKeywords fs ks).Certain := by
  induction ks with
  | nil => exact certain_pure _
  | cons k ks ih => exact (certain_modifyDocument _).bind fun _ => ih

theorem certain_nest (path : Value) (inner : List Clause) (g : ClauseGroup) (r : Registration) :
    (onDraft (Draft.nest path inner g r)).Certain := by
  have hnest : (Draft.nest path inner g r).Certain :=
    (certain_modify _).bind fun _ => (certain_log _ _ _).bind fun _ => certain_pure _
  exact hnest.within _ _

end Builder

namespace Call

/-- The keywords of the call come from a source that breaks off with an error. -/
def BreaksOff (e : Error) : Call → Prop
  | keywords (.source _ stop _) _ => stop = some e
  | _ => False

/-- The call with keywords that end where they break off. -/
def cut : Call → Call
  | keywords (.source xs _ size) fs => keywords (.source xs none size) fs
  | c => c

open Builder in
/-- Keywords that break off leave the clauses of those in front. -/
theorem fails_keywords {ks : Iterable} {fs : Value} {b b' : Builder} {e : Error}
    (h : (keywords ks fs).apply.Fails b e b') :
    b = b' ∨ (keywords ks fs).BreaksOff e ∧ (keywords ks fs).cut.apply.Returns b () b' := by
  rcases fails_bind_iff.mp h with h | ⟨_, u, hu, h⟩
  · refine Or.inl ?_
    rcases fails_requireClausesOpen_iff.mp h with ⟨-, -, hb⟩ | ⟨-, -, -, hb⟩ <;> exact hb
  obtain ⟨hopen, hclauses, rfl⟩ := returns_requireClausesOpen_iff.mp hu
  rcases fails_lift_bind_iff.mp h with ⟨-, hb⟩ | ⟨names, hnames, h⟩
  · exact Or.inl hb
  rcases fails_lift_bind_iff.mp h with ⟨-, hb⟩ | ⟨⟨xs, stop⟩, hxs, h⟩
  · exact Or.inl hb
  rcases fails_bind_iff.mp h with h | ⟨_, v, hv, h⟩
  · exact absurd h (certain_addKeywords names xs _ _ _)
  obtain rfl := returns_addKeywords_iff.mp hv
  obtain ⟨hstop, rfl⟩ := fails_lift_iff.mp h
  cases ks with
  | value v =>
      rw [Iterable.oneOrMany_value] at hxs
      obtain ⟨ys, -, hys⟩ := Except.map_eq_ok_iff.mp hxs
      obtain ⟨rfl, rfl⟩ := Prod.mk.inj hys
      cases hstop
  | source ys stop size =>
      obtain ⟨rfl, rfl⟩ := Prod.mk.inj (Except.ok.inj hxs)
      cases stop with
      | none => cases hstop
      | some d =>
          obtain rfl := Except.error.inj hstop
          refine Or.inr ⟨rfl, returns_apply_iff.mpr ⟨hopen, fun _ => hclauses, ?_, ?_⟩⟩
          · exact ⟨⟨names, hnames⟩, ys, rfl⟩
          · simp only [cut, change, hnames]
            rfl

end Call

open Builder in
/-- A call that fails leaves the builder as it was, unless it appends to the order or its keywords break
off. -/
theorem Call.atomic_apply {c : Call} (hc : ∀ o g, c ≠ .orderBy o g) (hwhole : ∀ e, ¬ c.BreaksOff e) :
    c.apply.Atomic := by
  have hmodify (f : Document → Document) : (modifyDocument f).Atomic :=
    (certain_modifyDocument f).atomic
  have hgroup (t : Table) (v : Value) : (groupFor t v).Steady (fun b => b) fun _ => True :=
    steady_groupFor (fun _ => trivial) t v
  cases c with
  | setIndex i => exact steady_requireOpen.bind_atomic fun _ => hmodify _
  | limit s =>
      refine steady_requireOpen.bind_atomic fun _ => (steady_lift _).bind_atomic fun _ => ?_
      exact hmodify _
  | paginate s p =>
      refine steady_requireOpen.bind_atomic fun _ => (steady_lift _).bind_atomic fun q => ?_
      exact hmodify _
  | orderBy o g => exact absurd rfl (hc o g)
  | addWhere f v o t =>
      refine steady_requireClausesOpen.bind_atomic fun _ => ?_
      refine (hgroup _ _).bind_atomic fun g => Certain.atomic ?_
      cases g with
      | none => exact certain_pure _
      | some g => exact (certain_modifyDocument _).bind fun _ => certain_log _ _ _
  | whereNull f n => exact steady_requireClausesOpen.bind_atomic fun _ => hmodify _
  | keywords ks fs =>
      intro b e b' h
      exact ((fails_keywords h).resolve_right fun hbroken => hwhole e hbroken.1).symm
  | minShouldMatch n => exact steady_requireClausesOpen.bind_atomic fun _ => hmodify _
  | minScore s =>
      refine steady_requireOpen.bind_atomic fun _ => (steady_lift _).bind_atomic fun x => ?_
      exact hmodify _
  | highlight fs c =>
      refine steady_requireOpen.bind_atomic fun _ => (steady_lift _).bind_atomic fun names => ?_
      exact hmodify _
  | whereNested p f v l t r =>
      refine steady_requireClausesOpen.bind_atomic fun _ => ?_
      refine (hgroup _ _).bind_atomic fun g => Certain.atomic ?_
      cases g with
      | none => exact certain_pure _
      | some g => exact (certain_nest _ _ _ _).bind fun _ => certain_pure _
  | whereNestedRaw p q l r =>
      refine steady_requireClausesOpen.bind_atomic fun _ => ?_
      refine (hgroup _ _).bind_atomic fun g => ?_
      cases g with
      | none => exact (certain_pure _).atomic
      | some g =>
          refine (steady_lift _).bind_atomic fun inner => Certain.atomic ?_
          exact (certain_nest _ _ _ _).bind fun _ => certain_pure _
  | aggregate ns =>
      refine steady_requireOpen.bind_atomic fun _ => (steady_lift _).bind_atomic fun built => ?_
      refine steady_get.bind_atomic fun b => atomic_ite ?_ (hmodify _)
      refine (steady_lift _).bind_atomic fun ks => (steady_throw _).bind_atomic fun _ => ?_
      exact hmodify _
  | functions s m =>
      refine steady_requireOpen.bind_atomic fun _ => steady_get.bind_atomic fun b => ?_
      refine Atomic.guarded ((steady_lift _).bind_atomic fun t => Certain.atomic ?_)
      refine (certain_modifyDocument _).bind fun _ => certain_get.bind fun b => ?_
      exact certain_log _ _ _

/-- A call that fails changes nothing, unless it appends to the order or its keywords break off. -/
theorem Call.unchanged_or_cut {c : Call} (hc : ∀ o g, c ≠ .orderBy o g) {b b' : Builder} {e : Error}
    (h : c.apply.Fails b e b') : b = b' ∨ c.BreaksOff e ∧ c.cut.apply.Returns b () b' := by
  by_cases hks : ∃ ks fs, c = .keywords ks fs
  case pos =>
      obtain ⟨ks, fs, rfl⟩ := hks
      exact Call.fails_keywords h
  case neg =>
      refine Or.inl (Call.atomic_apply hc ?_ b e b' h).symm
      cases c with
      | keywords ks fs => exact absurd ⟨ks, fs, rfl⟩ hks
      | _ => exact fun _ => id

namespace Builder

end Builder

end DocSearch
