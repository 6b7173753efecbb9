import DocSearch.Proofs.Aggregation.Acceptance
import DocSearch.Proofs.Aggregation.Pieces
import DocSearch.Proofs.Builder.Consumption
import DocSearch.Proofs.Builder.Failures
import DocSearch.Proofs.Text.Digits
import DocSearch.Proofs.Value.Worded

/-!
# Errors with a code

Where the arguments of a call are of the kinds that it takes, the errors it fails with are those of the
builder's own family, each with a code. Two kinds of whole numbers are the exception: a least score
that is too large for a double, and a bound of a page that is out of range and too long to be shown.
-/

namespace DocSearch

open DocSearch.Action

/-- The error belongs to the builder's family; its report has a code. -/
def Error.IsReported (e : Error) : Prop :=
  ∃ r, e.report? = some r

theorem Aggregation.BlamesArgument.isReported {e : Error} (h : Aggregation.BlamesArgument e) :
    e.IsReported := by
  obtain ⟨cause, rfl⟩ := h
  exact ⟨_, rfl⟩

theorem Error.isReported_refusing {cause : ArgumentError}
    (h : cause.shown.all Value.isWritable = true) : (refusing cause).IsReported :=
  (Aggregation.blamesArgument_refusing h).isReported

namespace Value

/-- A whole number, or a truth value, which counts as one. -/
def IsWhole (v : Value) : Prop :=
  (∃ n, v = .int n) ∨ ∃ b, v = .bool b

def IsWord (v : Value) : Prop :=
  v.word?.isSome = true

/-- A word, or options for a direction. -/
def IsDirection (v : Value) : Prop :=
  v.IsWord ∨ ∃ k es, v = .map k es

/-- A whole number below a bound that has more digits than can be written. -/
def IsLongBelow (least : Int) (v : Value) : Prop :=
  ∃ n : Int, v = .int n ∧ n < least ∧ Number.Reading.maxDigits < (toString n.natAbs).length

end Value

namespace Call

/-- The arguments are of the kinds that the call takes; calls whose arguments are not restricted in
this way are left out. -/
def IsTyped : Call → Prop
  | limit s => s.IsWhole
  | paginate s p => s.IsWhole ∧ p.IsWhole
  | orderBy o g => g.IsWord ∧ (o = .null ∨ o.IsWord ∨
      ∃ k es, o = .map k es ∧ ∀ e ∈ es, e.1.IsWord ∧ e.2.IsDirection)
  | addWhere f _ o t => f.IsWord ∧ o.IsWord ∧ t.IsWord
  | minScore s => s.number?.isSome = true ∨ s.IsWord
  | whereNested p f _ l t r =>
    p.IsWord ∧ f.IsWord ∧ l.IsWord ∧ t.IsWord ∧ r.weight.number?.isSome = true
  | aggregate ns => ∃ k bs, ns = .seq k (Branch.toValues bs)
  | functions s m => s.IsWord ∧ m.IsWord
  | _ => False

/-- The faults that a call with such arguments lets through. -/
def Escapes : Call → Fault → Prop
  | minScore s, f => f = .tooLarge ∧ ∃ n, s = .int n ∧ Number.toFloat? n = none
  | limit s, f => f = .badContent ∧ s.IsLongBelow 0
  | paginate s p, f =>
    f = .badContent ∧ (p.IsLongBelow 1 ∨ p.isBelow 1 = .ok false ∧ s.IsLongBelow 0)
  | _, _ => False

/-- The errors that a call fails with. -/
def Allows (c : Call) (e : Error) : Prop :=
  e.IsReported ∨ ∃ f, e = .fault f ∧ c.Escapes f

end Call

/-! ## Checks of arguments -/

theorem Value.IsWord.isSome_below? {v w : Value} (hv : v.IsWord) (hw : w.IsWord) :
    (v.below? w).isSome = true := by
  cases v with
  | str s => cases w <;> first | rfl | cases hw
  | symbol s => cases w <;> first | rfl | cases hw
  | _ => cases hv

theorem Value.IsWord.isWritable {v : Value} (h : v.IsWord) : v.isWritable = true := by
  cases v with
  | str s => rfl
  | symbol s => rfl
  | _ => cases h

theorem Value.IsWord.memberOf {v : Value} (h : v.IsWord) {α : Type} (find : String → Option α) :
    v.memberOf find = .ok (v.word?.bind find) := by
  cases v with
  | str s => rfl
  | symbol s => rfl
  | _ => cases h

section

variable {v : Value} {least : Int} {problem : Value → ArgumentError} {e : Error}

theorem Page.failsOnly_requireLeast (hv : v.IsWhole) (least : Int)
    (hshown : (problem v).shown = [v]) :
    Except.FailsOnly (fun e => e.IsReported ∨ e = .badContent ∧ v.IsLongBelow least)
      (Page.requireLeast least problem v) := by
  have hall : (problem v).shown.all Value.isWritable = v.isWritable := by
    rw [hshown, List.all_cons, List.all_nil, Bool.and_true]
  rcases hv with ⟨n, rfl⟩ | ⟨b, rfl⟩
  · rw [Page.requireLeast, Value.isBelow_int, Except.ok_bind]
    split
    case isTrue hbelow =>
        refine Except.failsOnly_error ?_
        by_cases hwritable : (Value.int n).isWritable = true
        case pos => exact Or.inl (Error.isReported_refusing (hall.trans hwritable))
        case neg =>
            refine Or.inr ⟨if_neg (hall ▸ hwritable), n, rfl, of_decide_eq_true hbelow, ?_⟩
            exact Value.not_isWritable_int.mp hwritable
    case isFalse => exact Except.failsOnly_ok _
  · obtain ⟨below, hbelow⟩ : ∃ below, (Value.bool b).isBelow least = .ok below := ⟨_, rfl⟩
    rw [Page.requireLeast, hbelow, Except.ok_bind]
    split
    case isTrue => exact Except.failsOnly_error (Or.inl (Error.isReported_refusing hall))
    case isFalse => exact Except.failsOnly_ok _

theorem Page.requireLeast_of_isLongBelow (h : v.IsLongBelow least)
    (hshown : (problem v).shown = [v]) :
    Page.requireLeast least problem v = .error .badContent := by
  obtain ⟨n, rfl, hbelow, hlong⟩ := h
  have hrefused : Error.refusing (problem (.int n)) = .badContent := by
    refine if_neg ?_
    rw [hshown, List.all_cons, List.all_nil, Bool.and_true]
    exact Value.not_isWritable_int.mpr hlong
  rw [Page.requireLeast, Value.isBelow_int, Except.ok_bind, if_pos (decide_eq_true hbelow),
    hrefused]
  rfl

theorem Page.exists_skipped {s p : Value} (hs : s.IsWhole) (hp : p.IsWhole) :
    ∃ v, Page.skipped s p = .ok v := by
  rcases hs with ⟨n, rfl⟩ | ⟨b, rfl⟩ <;> rcases hp with ⟨m, rfl⟩ | ⟨c, rfl⟩ <;> exact ⟨_, rfl⟩

theorem Page.failsOnly_number {s p : Value} (hs : s.IsWhole) (hp : p.IsWhole) :
    Except.FailsOnly (Call.paginate s p).Allows (Page.number s p) := by
  refine ((Page.failsOnly_requireLeast hp 1 rfl).mono fun e he => ?_).bind fun _ hpage =>
    ((Page.failsOnly_requireLeast hs 0 rfl).mono fun e he => ?_).bind fun _ _ => ?_
  · exact he.imp_right fun ⟨h, hlong⟩ => ⟨.badContent, h, rfl, Or.inl hlong⟩
  · have hleast := Page.requireLeast_eq_ok_iff.mp hpage
    exact he.imp_right fun ⟨h, hlong⟩ => ⟨.badContent, h, rfl, Or.inr ⟨hleast, hlong⟩⟩
  · obtain ⟨v, hv⟩ := Page.exists_skipped hs hp
    rw [hv]
    exact Except.failsOnly_ok _

theorem Page.number_of_isLongBelow {s p : Value}
    (h : p.IsLongBelow 1 ∨ p.isBelow 1 = .ok false ∧ s.IsLongBelow 0) :
    Page.number s p = .error .badContent := by
  rcases h with hlong | ⟨hpage, hlong⟩
  · rw [Page.number, Page.requireLeast_of_isLongBelow hlong rfl, Except.error_bind]
  · have hleast : Page.requireLeast 1 .page p = .ok () := Page.requireLeast_eq_ok_iff.mpr hpage
    rw [Page.number, hleast, Except.ok_bind, Page.requireLeast_of_isLongBelow hlong rfl,
      Except.error_bind]

/-- Without orders, with a word or with a mapping there is a list of fields with directions. -/
theorem Builder.exists_ordersOf {o g : Value} (hg : g.IsWord) (h : o = .null ∨ o.IsWord ∨
      ∃ k es, o = .map k es ∧ ∀ e ∈ es, e.1.IsWord ∧ e.2.IsDirection) :
    ∃ os, Builder.ordersOf o g = .ok os ∧ ∀ e ∈ os, e.2.IsDirection := by
  rcases h with rfl | hword | ⟨k, es, rfl, hes⟩
  · exact ⟨_, rfl, List.forall_mem_singleton.mpr (Or.inl rfl)⟩
  · have hsingle : ∀ e ∈ [(o, g)], e.2.IsDirection := List.forall_mem_singleton.mpr (Or.inl hg)
    cases o with
    | str s => exact ⟨_, rfl, hsingle⟩
    | symbol s => exact ⟨_, rfl, hsingle⟩
    | _ => cases hword
  · exact ⟨es, rfl, fun e he => (hes e he).2⟩

theorem Builder.failsOnly_scoreOf (hv : v.number?.isSome = true ∨ v.IsWord) :
    Except.FailsOnly (Call.minScore v).Allows (Builder.scoreOf v) := by
  have hrefused (hw : v.isWritable = true) : (Call.minScore v).Allows (.refusing (.minScore v)) :=
    Or.inl (Error.isReported_refusing (by simp [ArgumentError.shown, hw]))
  cases v with
  | bool b => exact Except.failsOnly_ok _
  | float x => exact Except.failsOnly_ok _
  | symbol s => exact Except.failsOnly_error (hrefused rfl)
  | int n =>
      cases hn : Number.toFloat? n with
      | some x =>
          rw [Builder.scoreOf, Value.toFloat, hn]
          exact Except.failsOnly_ok _
      | none =>
          rw [Builder.scoreOf, Value.toFloat, hn]
          exact Except.failsOnly_error (Or.inr ⟨.tooLarge, rfl, rfl, n, rfl, hn⟩)
  | str s =>
      rw [Builder.scoreOf, Value.toFloat]
      cases Number.Reading.float? s with
      | some x => exact Except.failsOnly_ok _
      | none => exact Except.failsOnly_error (hrefused rfl)
  | null | seq _ _ | map _ _ | record _ _ => rcases hv with h | h <;> cases h

theorem Builder.failsOnly_direction {given : Value} (hgiven : given.IsDirection) :
    Except.FailsOnly Error.IsReported (Builder.direction given) := by
  unfold Builder.direction
  split
  · exact Except.failsOnly_ok _
  · rename_i hmap
    have hwritable : given.isWritable = true := by
      rcases hgiven with hword | ⟨k, es, h⟩
      · exact hword.isWritable
      · exact absurd h (hmap k es)
    rw [Value.written_of_isWritable hwritable, Except.ok_bind]
    dsimp only
    split
    · exact Except.failsOnly_ok _
    · exact Except.failsOnly_error (Error.isReported_refusing
        (by simp [ArgumentError.shown, hwritable]))

theorem ScoreSettings.failsOnly_ofValues {s m : Value} (hs : s.IsWord) (hm : m.IsWord) :
    Except.FailsOnly Error.IsReported (ScoreSettings.ofValues s m) := by
  rw [ScoreSettings.ofValues, hs.memberOf, Except.ok_bind, hm.memberOf]
  split
  · exact Except.failsOnly_error (Error.isReported_refusing
      (by simp [ArgumentError.shown, hs.isWritable]))
  · rw [Except.ok_bind]
    split
    · exact Except.failsOnly_error (Error.isReported_refusing
        (by simp [ArgumentError.shown, hm.isWritable]))
    · exact Except.failsOnly_ok _

end

namespace Builder

variable {P : Error → Prop}

theorem failsOnly_requireOpen (h : ∀ s, P (.state s)) : requireOpen.FailsOnly P :=
  certain_get.failsOnly.bind fun _ =>
    failsOnly_ite (failsOnly_throw (h _)) (certain_pure _).failsOnly

theorem failsOnly_requireClausesOpen (h : ∀ s, P (.state s)) : requireClausesOpen.FailsOnly P :=
  (failsOnly_requireOpen h).bind fun _ => certain_get.failsOnly.bind fun _ =>
    failsOnly_ite (failsOnly_throw (h _)) (certain_pure _).failsOnly

theorem failsOnly_groupFor {t : Table} {v : Value} (h : ∀ v, P (.unsupported t v))
    (hv : v.IsWord) : (groupFor t v).FailsOnly P := by
  obtain ⟨s, hs⟩ := t.exists_resolve hv.isWritable
  refine FailsOnly.lift_bind (hs ▸ Except.failsOnly_ok s) fun _ _ => ?_
  split
  · exact (certain_pure _).failsOnly
  · refine certain_get.failsOnly.bind fun b => ?_
    split
    · exact (failsOnly_throw (h _)).bind fun _ =>
        ((certain_log _ _ _).bind fun _ => certain_pure _).failsOnly
    · exact ((certain_log _ _ _).bind fun _ => certain_pure _).failsOnly

theorem failsOnly_appendOrders {os : List (Value × Value)} (h : ∀ o ∈ os, o.2.IsDirection) :
    (appendOrders os).FailsOnly Error.IsReported := by
  induction os with
  | nil => exact (certain_pure _).failsOnly
  | cons o os ih =>
      obtain ⟨ho, hos⟩ := List.forall_mem_cons.mp h
      refine (failsOnly_lift (failsOnly_direction ho)).bind fun w => ?_
      exact (certain_modifyDocument _).failsOnly.bind fun _ => ih hos

/-- Words always have an order. -/
theorem sortedKeys_of_words {ks : List Value} (h : ∀ k ∈ ks, k.IsWord) :
    ∃ js, sortedKeys ks = .ok js ∧ ∀ j ∈ js, j.IsWord := by
  have hall : (ks.all fun a => ks.all fun c => a == c || (a.below? c).isSome) = true := by
    simp only [List.all_eq_true, Bool.or_eq_true]
    intro a ha c hc
    exact Or.inr ((h a ha).isSome_below? (h c hc))
  exact ⟨_, if_pos hall, fun j hj => h j (List.mem_mergeSort.mp hj)⟩

end Builder

namespace Aggregation

open Branch

variable {bs : List Branch} {es fs : List (Value × Value)}

/-- Keys that a document shares with other entries are words. -/
theorem isWord_of_mem_sharedKeys (h : document (declaredAll bs) = .ok es) {k : Value}
    (hk : k ∈ Entries.sharedKeys es fs) : k.IsWord := by
  have hword : ∀ j ∈ Entries.keys es, ∃ s, j = .str s := fun j hj => by
    rw [keys_document h, declaredAll_eq_map, List.map_map] at hj
    obtain ⟨b, -, rfl⟩ := List.mem_map.mp hj
    exact ⟨b.key, key_declared b⟩
  unfold Entries.sharedKeys at hk
  split at hk
  · obtain ⟨s, rfl⟩ := hword k (List.mem_filter.mp hk).1
    rfl
  · obtain ⟨j, hj, hjk⟩ := Entries.has_iff_exists_key.mp (List.mem_filter.mp hk).2
    obtain ⟨s, rfl⟩ := hword j hj
    rw [Value.beq_of_word rfl, beq_iff_eq] at hjk
    exact Option.isSome_iff_exists.mpr ⟨s, hjk⟩

end Aggregation

namespace Call

variable {b b' : Builder} {c : Call} {e : Error}

open Builder in
theorem failsOnly_apply (hc : c.IsTyped) : c.apply.FailsOnly c.Allows := by
  have hopen : requireOpen.FailsOnly c.Allows := failsOnly_requireOpen fun s => Or.inl ⟨_, rfl⟩
  have hclauses : requireClausesOpen.FailsOnly c.Allows :=
    failsOnly_requireClausesOpen fun s => Or.inl ⟨_, rfl⟩
  have hgroup (t : Table) {v : Value} (hv : v.IsWord) : (groupFor t v).FailsOnly c.Allows :=
    failsOnly_groupFor (fun w => Or.inl ⟨_, rfl⟩) hv
  have hmodify (f : Document → Document) : (modifyDocument f).FailsOnly c.Allows :=
    (certain_modifyDocument f).failsOnly
  have hreported {e : Error} (he : e.IsReported) : c.Allows e := Or.inl he
  cases c with
  | limit s =>
      refine hopen.bind fun _ => (failsOnly_lift ?_).bind fun _ => hmodify _
      refine (Page.failsOnly_requireLeast hc 0 rfl).mono fun e he => ?_
      exact he.imp_right fun ⟨h, hlong⟩ => ⟨.badContent, h, rfl, hlong⟩
  | paginate s p =>
      refine hopen.bind fun _ => (failsOnly_lift ?_).bind fun _ => hmodify _
      exact Page.failsOnly_number hc.1 hc.2
  | orderBy o g =>
      obtain ⟨os, hos, hdirections⟩ := exists_ordersOf hc.1 hc.2
      refine hopen.bind fun _ => FailsOnly.lift_bind (hos ▸ Except.failsOnly_ok os) fun ws hws => ?_
      obtain rfl := Except.ok.inj (hos.symm.trans hws)
      exact fun b e b' h => hreported (failsOnly_appendOrders hdirections b e b' h)
  | addWhere f v o t =>
      refine hclauses.bind fun _ => (hgroup _ hc.2.1).bind fun g => ?_
      cases g with
      | none => exact (certain_pure _).failsOnly
      | some g => exact (hmodify _).bind fun _ => (certain_log _ _ _).failsOnly
  | minScore s =>
      exact hopen.bind fun _ => (failsOnly_lift (failsOnly_scoreOf hc)).bind fun _ => hmodify _
  | whereNested p f v l t r =>
      refine hclauses.bind fun _ => (hgroup _ hc.2.2.1).bind fun g => ?_
      cases g with
      | none => exact (certain_pure _).failsOnly
      | some g => exact ((certain_nest _ _ _ _).bind fun _ => certain_pure _).failsOnly
  | aggregate ns =>
      obtain ⟨k, bs, rfl⟩ := hc
      have hdocument : Aggregation.documentOf (.seq k (Branch.toValues bs)) =
          Aggregation.document (Branch.declaredAll bs) := by
        rw [Aggregation.documentOf_seq, Branch.ofValues_toValues]
      refine hopen.bind fun _ => FailsOnly.lift_bind ?_ fun es hes =>
        certain_get.failsOnly.bind fun b => failsOnly_ite ?_ (hmodify _)
      · rw [hdocument]
        exact (Aggregation.failsOnly_document bs).mono fun e he => hreported he.isReported
      · rw [hdocument] at hes
        have hwords : ∀ k ∈ Entries.sharedKeys es b.document.aggregations, k.IsWord :=
          fun k hk => Aggregation.isWord_of_mem_sharedKeys hes hk
        obtain ⟨ks, hks, hsorted⟩ := sortedKeys_of_words hwords
        refine FailsOnly.lift_bind (hks ▸ Except.failsOnly_ok ks) fun js hjs => ?_
        obtain rfl := Except.ok.inj (hks.symm.trans hjs)
        have hwritable : (ArgumentError.duplicateKeys ks).shown.all Value.isWritable = true :=
          List.all_eq_true.mpr fun k hk => (hsorted k hk).isWritable
        exact (failsOnly_throw (hreported (Error.isReported_refusing hwritable))).bind
          fun _ => hmodify _
  | functions s m =>
      refine hopen.bind fun _ => certain_get.failsOnly.bind fun b => ?_
      refine FailsOnly.guarded ((failsOnly_lift ?_).bind fun t => ?_) (hreported ⟨_, rfl⟩)
      · exact (ScoreSettings.failsOnly_ofValues hc.1 hc.2).mono fun e he => hreported he
      · exact (hmodify _).bind fun _ =>
          (certain_get.bind fun _ => certain_log _ _ _).failsOnly
  | setIndex _ | whereNull _ _ | keywords _ _ | minShouldMatch _ | highlight _ _
  | whereNestedRaw _ _ _ _ => cases hc

theorem fails_of_escapes {f : Fault} (h : c.Escapes f) (hb : b.consumed = false) :
    c.apply.Fails b (.fault f) b := by
  cases c with
  | limit s =>
      obtain ⟨rfl, hlong⟩ := h
      have hsize : Page.requireLeast 0 .size s = .error .badContent :=
        Page.requireLeast_of_isLongBelow hlong rfl
      simp [Call.apply, Builder.limit, fails_bind_iff, hb, hsize]
  | paginate s p =>
      obtain ⟨rfl, hlong⟩ := h
      have hnumber := Page.number_of_isLongBelow hlong
      simp [Call.apply, Builder.paginate, fails_bind_iff, hb, hnumber]
  | minScore s =>
      obtain ⟨rfl, n, rfl, hn⟩ := h
      have hscore : Builder.scoreOf (.int n) = .error .tooLarge := by
        rw [Builder.scoreOf, Value.toFloat, hn]
        rfl
      simp [Call.apply, Builder.minScore, fails_bind_iff, hb, hscore]
  | _ => cases h

/-- Whatever state a builder is in, a call with arguments of its kinds returns or fails with an error
that has a code, unless the least score is too large for a double, or a bound of a page that is out of
range is too long to be shown. An open builder lets just these faults through, and is left as it was. -/
theorem errors_reported (hc : c.IsTyped) (b : Builder) :
    ((∃ b', c.apply.Returns b () b') ∨ ∃ e b', c.apply.Fails b e b' ∧
      ((∃ r, e.report? = some r) ∨ ∃ f, e = .fault f ∧ b.consumed = false ∧ c.Escapes f)) ∧
      ∀ f, c.Escapes f → b.consumed = false → c.apply.Fails b (.fault f) b := by
  refine ⟨?_, fun f hf hb => fails_of_escapes hf hb⟩
  cases hr : (c.apply.run b).result with
  | ok x => exact Or.inl ⟨_, hr, rfl⟩
  | error e =>
      have hfails : c.apply.Fails b e (c.apply.run b).state := ⟨hr, rfl⟩
      refine Or.inr ⟨e, _, hfails, (failsOnly_apply hc b e _ hfails).imp_right ?_⟩
      rintro ⟨f, rfl, hf⟩
      refine ⟨f, rfl, Bool.eq_false_iff.mpr fun hb => ?_, hf⟩
      rw [Call.run_apply_of_consumed hb c] at hr
      cases hr

theorem toFloat?_beyond : Number.toFloat? (Nat.pow 10 400) = none := by
  decide +kernel

/-- A one with four hundred zeros is a score by its kind, and no double is near it. -/
theorem minScore_escapes :
    ¬ ∀ (c : Call) (b b' : Builder) (e : Error), c.IsTyped → c.apply.Fails b e b' →
      ∃ r, e.report? = some r := by
  intro h
  obtain ⟨r, hr⟩ := h (.minScore (.int (Nat.pow 10 400))) (.new .raw false) _ _ (Or.inl rfl)
    (fails_of_escapes ⟨rfl, _, rfl, toFloat?_beyond⟩ rfl)
  cases hr

/-- A score that is too large, and a negative size. -/
theorem errors_reported_of_two :
    (Call.minScore (.int (Nat.pow 10 400))).apply.Fails (.new .raw false) .tooLarge (.new .raw false) ∧
      ∃ e b', (Call.limit (.int (-1))).apply.Fails (.new .raw false) e b' ∧
        ∃ r, e.report? = some r := by
  obtain ⟨-, hescapes⟩ :=
    errors_reported (c := .minScore (.int (Nat.pow 10 400))) (Or.inl rfl) (.new .raw false)
  obtain ⟨⟨b', hb'⟩ | ⟨e, b', hfails, hreport⟩, -⟩ :=
    errors_reported (c := .limit (.int (-1))) (Or.inl ⟨-1, rfl⟩) (.new .raw false)
  · have haccepted : (Value.int (-1)).isBelow 0 = .ok false := (returns_apply_iff.mp hb').2.2.1
    simp at haccepted
  · have htooLarge := hescapes .tooLarge ⟨rfl, _, rfl, toFloat?_beyond⟩ rfl
    refine ⟨htooLarge, e, b', hfails, hreport.resolve_right ?_⟩
    rintro ⟨f, -, -, -, n, hn, -, hlong⟩
    obtain rfl := Value.int.inj hn
    exact absurd hlong (by decide)

end Call

end DocSearch
