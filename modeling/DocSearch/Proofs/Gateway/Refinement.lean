import DocSearch.Proofs.Gateway.Operations
import DocSearch.Proofs.Search.Paging

/-!
# A store holds what its journal says

`Store.Follows` relates a store to the journal of the changes that it was asked for. Each change
carries the relation over to the longer journal, and so does every run of requests that succeed.
From the journal it can be told what a search lists, what writes and removals report and which
indices there are.
-/

namespace DocSearch

open DocSearch.Action Value Journal

namespace Change

/-- The index that is changed; one change is of all of them. -/
def index? : Change → Option String
  | write i _ _ | remove i _ | make i | drop i => some i
  | clear => none

variable {c : Change} {i j : String}

theorem other_documents (hc : c.index? = some i) (hne : i ≠ j) (k : String) :
    ¬ c.Writes j k ∧ ¬ c.Removes j k := by
  cases c <;> simp_all [index?, Writes, Removes]

theorem other_index (hc : c.index? = some i) (hne : i ≠ j) : ¬ c.Makes j ∧ ¬ c.Drops j := by
  cases c <;> simp_all [index?, Makes, Writes, Drops]

end Change

/-- The index that a request works on; a search only reads, and closing is of all of them. -/
def Request.index? : Request → Option Value
  | indexDocument i _ _ _ | deleteDocument i _ _ | bulkIndex i _ _ => some i
  | createIndex i _ | deleteIndex i | indexExists i | putMapping i _ => some i
  | search _ _ | close => none

namespace Store

variable {s t : Store} {cs : List Change} {c : Change} {i k : String}

/-- Every part of the store is what the journal says. -/
structure Follows (s : Store) (cs : List Change) : Prop where
  indices : IsNamed s.indices
  mappings : IsNamed s.mappings
  made : ∀ i, Entries.has s.indices (.str i) = true ↔ Made cs i
  mapped : ∀ i, Entries.has s.mappings (.str i) = true → Entries.has s.indices (.str i) = true
  documents : ∀ i, ∃ es, s.documents (.str i) = named es ∧ Lists cs i es

namespace Follows

theorem empty : Store.empty.Follows [] where
  indices := .nil
  mappings := .nil
  made i := by simp [Store.empty, Entries.has, Made, not_stands_nil]
  mapped i h := by cases h
  documents i := ⟨[], rfl, .nil⟩

/-- A change of one index has to be accounted for at that index only. -/
theorem step (h : s.Follows cs) (hc : c.index? = some i) (hindices : IsNamed t.indices)
    (hmappings : IsNamed t.mappings)
    (hframe : ∀ j ≠ i, Entries.get? t.indices (.str j) = Entries.get? s.indices (.str j))
    (hmade : Entries.has t.indices (.str i) = true ↔ Made (cs ++ [c]) i)
    (hmapped : ∀ j, Entries.has t.mappings (.str j) = true →
      Entries.has t.indices (.str j) = true)
    (hdocs : ∃ es, t.documents (.str i) = named es ∧ Lists (cs ++ [c]) i es) :
    t.Follows (cs ++ [c]) where
  indices := hindices
  mappings := hmappings
  made j := by
    by_cases hj : j = i
    · exact hj ▸ hmade
    · obtain ⟨hmakes, hdrops⟩ := c.other_index hc (Ne.symm hj)
      have hhas : Entries.has t.indices (.str j) = Entries.has s.indices (.str j) :=
        congrArg Option.isSome (hframe j hj)
      rw [hhas, made_append_singleton, h.made j]
      simp [hmakes, hdrops]
  mapped := hmapped
  documents j := by
    by_cases hj : j = i
    · exact hj ▸ hdocs
    · obtain ⟨es, hes, hlists⟩ := h.documents j
      refine ⟨es, ?_, hlists.frame (c.other_documents hc (Ne.symm hj))⟩
      rw [Store.documents, hframe j hj]
      exact hes

/-- A change that leaves documents in an index makes the index or finds it. -/
theorem put (h : s.Follows cs) (hc : c.index? = some i) {es : List (String × Value)}
    (hmade : Made (cs ++ [c]) i) (hes : Lists (cs ++ [c]) i es) :
    ({ s with indices := Entries.put s.indices (.str i) (named es) } : Store).Follows
      (cs ++ [c]) := by
  refine h.step hc (h.indices.put i _) h.mappings (fun j hj => ?_) ?_ (fun j hj => ?_)
    ⟨es, ?_, hes⟩
  · rw [h.indices.get?_put, beq_eq_false_iff_ne.mpr (Ne.symm hj)]
    rfl
  · simp [h.indices.has_put, hmade]
  · simp [h.indices.has_put, h.mapped j hj]
  · rw [Store.documents, h.indices.get?_put]
    simp

theorem unchanged (h : s.Follows cs) (hc : c.index? = some i)
    (hmade : Entries.has s.indices (.str i) = true ↔ Made (cs ++ [c]) i)
    (hdocs : ∃ es, s.documents (.str i) = named es ∧ Lists (cs ++ [c]) i es) :
    s.Follows (cs ++ [c]) :=
  h.step hc h.indices h.mappings (fun _ _ => rfl) hmade h.mapped hdocs

/-- Every change carries the relation over to the longer journal. -/
theorem apply (h : s.Follows cs) (c : Change) : (c.apply s).Follows (cs ++ [c]) := by
  cases c with
  | write i k d =>
      obtain ⟨es, hes, hlists⟩ := h.documents i
      have hmade : Made (cs ++ [.write i k d]) i :=
        made_append_singleton.mpr (Or.inl (Or.inr ⟨k, d, rfl⟩))
      have happly : (Change.write i k d).apply s =
          { s with indices := Entries.put s.indices (.str i) (named (Entries.put es k d)) } := by
        rw [← put_named, ← hes]
        exact apply_write i k d s
      rw [happly]
      exact h.put rfl hmade (hlists.write k d)
  | remove i k =>
      obtain ⟨es, hes, hlists⟩ := h.documents i
      have hmade : Entries.has s.indices (.str i) = true ↔ Made (cs ++ [.remove i k]) i := by
        rw [made_append_singleton, h.made]
        simp [Change.Makes, Change.Writes, Change.Drops]
      rw [Change.apply]
      split
      · rename_i hk
        have hindex : Entries.has s.indices (.str i) = true := by
          by_contra hnot
          rw [documents_of_not_has (Bool.eq_false_iff.mpr hnot)] at hk
          cases hk
        rw [hes, erase_named]
        exact h.put rfl (hmade.mp hindex) (hlists.remove k)
      · rename_i hk
        refine h.unchanged rfl hmade ⟨es, hes, ?_⟩
        rw [hes, has_named, Bool.not_eq_true] at hk
        exact Entries.erase_of_not_has hk ▸ hlists.remove k
  | make i =>
      obtain ⟨es, hes, hlists⟩ := h.documents i
      have hmade : Made (cs ++ [.make i]) i := made_append_singleton.mpr (Or.inl (Or.inl rfl))
      have hkeep : Lists (cs ++ [.make i]) i es :=
        hlists.frame fun k => by simp [Change.Writes, Change.Removes]
      rw [Change.apply, ensureIndex]
      split
      · rename_i hi
        exact h.unchanged rfl (by simp [hi, hmade]) ⟨es, hes, hkeep⟩
      · rename_i hi
        have hnone : es = [] := by
          rw [documents_of_not_has (Bool.eq_false_iff.mpr hi)] at hes
          exact (List.map_eq_nil_iff.mp hes.symm)
        exact h.put rfl hmade (hnone ▸ hkeep)
  | drop i =>
      have hnot : ¬ Made (cs ++ [.drop i]) i := by
        rw [made_append_singleton]
        simp [Change.Makes, Change.Writes, Change.Drops]
      have hindex (j : String) : Entries.has (Entries.erase s.indices (.str i)) (.str j) =
          (!(i == j) && Entries.has s.indices (.str j)) := h.indices.has_erase i j
      have hmapping (j : String) : Entries.has (Entries.erase s.mappings (.str i)) (.str j) =
          (!(i == j) && Entries.has s.mappings (.str j)) := h.mappings.has_erase i j
      refine h.step rfl (h.indices.erase i) (h.mappings.erase i) (fun j hj => ?_) ?_
        (fun j hj => ?_) ⟨[], ?_, .emptied fun k => Or.inr (Or.inl rfl)⟩
      · rw [Change.apply, h.indices.get?_erase, beq_eq_false_iff_ne.mpr (Ne.symm hj)]
        rfl
      · simp [Change.apply, hindex, hnot]
      · simp only [Change.apply, hmapping, hindex, Bool.and_eq_true] at hj ⊢
        exact ⟨hj.1, h.mapped j hj.2⟩
      · rw [Change.apply, Store.documents, h.indices.get?_erase]
        simp [named]
  | clear =>
      refine ⟨.nil, .nil, fun i => ?_, fun i hi => ?_, fun i => ⟨[], rfl, .emptied fun k => ?_⟩⟩
      · rw [made_append_singleton]
        simp [Change.apply, Entries.has, Change.Makes, Change.Writes, Change.Drops]
      · cases hi
      · exact Or.inr (Or.inr rfl)

theorem changed (h : s.Follows cs) (ds : List Change) : (s.changed ds).Follows (cs ++ ds) := by
  induction ds generalizing s cs with
  | nil => rwa [List.append_nil]
  | cons d ds ih =>
      have hrest := ih (h.apply d)
      rwa [List.append_assoc] at hrest

theorem congr (h : s.Follows cs) (hindices : t.indices = s.indices)
    (hmappings : t.mappings = s.mappings) : t.Follows cs where
  indices := hindices ▸ h.indices
  mappings := hmappings ▸ h.mappings
  made i := hindices ▸ h.made i
  mapped i := hindices ▸ hmappings ▸ h.mapped i
  documents i := by
    rw [Store.documents, hindices]
    exact h.documents i

theorem putMapping (h : s.Follows cs) (hi : Entries.has s.indices (.str i) = true) (m : Value) :
    (s.putMapping (.str i) m).Follows cs where
  indices := h.indices
  mappings := h.mappings.put i m
  made := h.made
  mapped j hj := by
    rw [Store.putMapping, h.mappings.has_put, Bool.or_eq_true, beq_iff_eq] at hj
    rcases hj with rfl | hj
    · exact hi
    · exact h.mapped j hj
  documents := h.documents

/-- Every request that succeeds carries the relation over to the longer journal. -/
theorem request {r : Request} {ds : List Change} {a : Value} (h : s.Follows cs)
    (hr : r.changes? = some ds) (hrun : r.onStore.Returns s a t) : t.Follows (cs ++ ds) := by
  have hchanged := h.changed ds
  obtain ⟨hindices, hmappings | ⟨i, m, rfl, hmappings⟩⟩ := returns_onStore hr hrun
  · exact hchanged.congr hindices hmappings
  · have hmade : Made (cs ++ [.make i]) i := made_append_singleton.mpr (Or.inl (Or.inl rfl))
    have hput := hchanged.putMapping ((hchanged.made i).mpr hmade) m
    exact hput.congr hindices hmappings

/-- So does every run of requests. -/
theorem run {rs : List Request} {ds : List (List Change)} {answers : List Value}
    (h : s.Follows cs) (hrs : rs.mapM Request.changes? = some ds)
    (hrun : (rs.mapM Request.onStore).Returns s answers t) : t.Follows (cs ++ ds.flatten) := by
  -- The journal grows with each request, so it is arbitrary in the induction.
  induction rs generalizing s cs ds answers with
  | nil =>
      rw [List.mapM_nil] at hrs hrun
      obtain rfl := Option.some.inj hrs
      obtain ⟨-, rfl⟩ := returns_pure_iff.mp hrun
      rwa [List.flatten_nil, List.append_nil]
  | cons r rs ih =>
      rw [List.mapM_cons] at hrs hrun
      obtain ⟨d, hd, hrs⟩ := Option.bind_eq_some_iff.mp hrs
      obtain ⟨rest, hrest, hrs⟩ := Option.bind_eq_some_iff.mp hrs
      obtain rfl := Option.some.inj hrs
      obtain ⟨a, u, hr, hrun⟩ := returns_bind_iff.mp hrun
      obtain ⟨as, v, has, hrun⟩ := returns_bind_iff.mp hrun
      obtain ⟨-, rfl⟩ := returns_pure_iff.mp hrun
      have hlater := ih (h.request hd hr) hrest has
      rwa [List.append_assoc] at hlater

end Follows

/-! ## What can be told from the journal -/

variable {ds : List Change} {r : Request} {a : Value}

/-- A search for everything lists the documents of the index. -/
theorem listing_matchAll {es : List (String × Value)} (hes : s.documents (.str i) = named es)
    (offset size : Nat) :
    s.listing (.str i) [(.str "query", ScoreFunction.matchAll), (.str "from", .int offset),
        (.str "size", .int size)] =
      .ok (.list (((es.drop offset).take size).map fun e =>
        Hit.toValue (.str i) ⟨.str e.1, e.2, Arithmetic.one⟩), .int es.length) := by
  let hit (e : String × Value) : Hit Float := ⟨.str e.1, e.2, Arithmetic.one⟩
  have hhits : Search.hits (s.documents (.str i))
      (.dict ([(.str "query", ScoreFunction.matchAll)] ++ [])) = .ok (es.map hit) := by
    rw [hes]
    have hall := Search.hits_matchAll (σ := Float) (named es)
    rw [named, List.map_map] at hall
    exact hall
  have hfrom := field?_singleton_of_ne (by decide : "query" ≠ "from") ScoreFunction.matchAll
  have hsize := field?_singleton_of_ne (by decide : "query" ≠ "size") ScoreFunction.matchAll
  have hlist := listing_fields offset size ⟨rfl, rfl⟩ rfl hfrom hsize hhits
  rw [← List.map_drop, ← List.map_take, List.map_map, List.length_map] at hlist
  exact hlist

theorem index_of_writes {pairs : List Value} (h : Request.writes? i pairs = some ds) :
    ∀ c ∈ ds, c.index? = some i := by
  induction pairs generalizing ds with
  | nil =>
      obtain rfl := Option.some.inj h
      nofun
  | cons p pairs ih =>
      rw [Request.writes?, List.mapM_cons] at h
      obtain ⟨c, hc, h⟩ := Option.bind_eq_some_iff.mp h
      obtain ⟨rest, hrest, h⟩ := Option.bind_eq_some_iff.mp h
      obtain rfl := Option.some.inj h
      refine List.forall_mem_cons.mpr ⟨?_, ih hrest⟩
      split at hc
      · obtain rfl := Option.some.inj hc
        rfl
      · cases hc

/-- A request asks for changes of the index that it works on. -/
theorem index_of_changes (hr : r.changes? = some ds) (hi : r.index? = some (.str i)) :
    ∀ c ∈ ds, c.index? = some i := by
  unfold Request.changes? at hr
  split at hr
  case h_3 =>
      obtain ⟨pairs, -, hr⟩ := Option.bind_eq_some_iff.mp hr
      cases hi
      exact index_of_writes hr
  all_goals cases hr <;> simp_all [Request.index?, Change.index?]

/-- A change of one index leaves the others as they are. -/
theorem Follows.frame_apply (h : s.Follows cs) (hc : c.index? = some i) {j : String}
    (hj : i ≠ j) :
    Entries.get? (c.apply s).indices (.str j) = Entries.get? s.indices (.str j) ∧
      Entries.get? (c.apply s).mappings (.str j) = Entries.get? s.mappings (.str j) := by
  have hne : (i == j) = false := beq_eq_false_iff_ne.mpr hj
  have hput (docs : List (Value × Value)) :
      Entries.get? (Entries.put s.indices (.str i) docs) (.str j) =
        Entries.get? s.indices (.str j) := by
    rw [h.indices.get?_put, hne]
    rfl
  cases c with
  | write k l d =>
      obtain rfl := Option.some.inj hc
      rw [apply_write]
      exact ⟨hput _, rfl⟩
  | remove k l =>
      obtain rfl := Option.some.inj hc
      rw [Change.apply]
      split
      · exact ⟨hput _, rfl⟩
      · exact ⟨rfl, rfl⟩
  | make k =>
      obtain rfl := Option.some.inj hc
      rw [Change.apply, ensureIndex]
      split
      · exact ⟨rfl, rfl⟩
      · exact ⟨hput _, rfl⟩
  | drop k =>
      obtain rfl := Option.some.inj hc
      rw [Change.apply, h.indices.get?_erase, h.mappings.get?_erase, hne]
      exact ⟨rfl, rfl⟩
  | clear => cases hc

theorem Follows.frame (h : s.Follows cs) (hds : ∀ c ∈ ds, c.index? = some i) {j : String}
    (hj : i ≠ j) :
    Entries.get? (s.changed ds).indices (.str j) = Entries.get? s.indices (.str j) ∧
      Entries.get? (s.changed ds).mappings (.str j) = Entries.get? s.mappings (.str j) := by
  induction ds generalizing s cs with
  | nil => exact ⟨rfl, rfl⟩
  | cons c ds ih =>
      obtain ⟨hc, hds⟩ := List.forall_mem_cons.mp hds
      obtain ⟨hindices, hmappings⟩ := h.frame_apply hc hj
      obtain ⟨hindices', hmappings'⟩ := ih (h.apply c) hds
      exact ⟨hindices'.trans hindices, hmappings'.trans hmappings⟩

theorem Follows.live_iff (h : s.Follows cs) (i k : String) :
    Live cs i k ↔ Entries.has (s.documents (.str i)) (.str k) = true := by
  obtain ⟨es, hes, hlists⟩ := h.documents i
  rw [hlists.live_iff, Entries.mem_keys_iff, hes, has_named]

/-- A request leaves the indices that it does not work on as they are. -/
theorem Follows.frame_request (h : s.Follows cs) (hr : r.changes? = some ds)
    (hi : r.index? = some (.str i)) (hrun : r.onStore.Returns s a t) {j : String} (hj : i ≠ j) :
    Entries.get? t.indices (.str j) = Entries.get? s.indices (.str j) ∧
      Entries.get? t.mappings (.str j) = Entries.get? s.mappings (.str j) := by
  have hds := index_of_changes hr hi
  obtain ⟨hindices, hmappings⟩ := h.frame hds hj
  obtain ⟨hi', hm | ⟨k, m, rfl, hm⟩⟩ := returns_onStore hr hrun
  · exact ⟨hi' ▸ hindices, hm ▸ hmappings⟩
  · obtain rfl := Option.some.inj (hds _ List.mem_cons_self)
    refine ⟨hi' ▸ hindices, ?_⟩
    rw [hm, (h.changed _).mappings.get?_put, beq_eq_false_iff_ne.mpr hj]
    exact hmappings

/-- After any run of requests that succeed, a search for everything lists for each index the
documents that are there, each once, as it was written last and in the order of their arrival; a
write and a removal report whether the document was there; an index is there if it was made and not
dropped since, and it is if it has a mapping; and a request changes no index but its own, except
that closing forgets them all. -/
theorem refines_journal {rs : List Request} {css : List (List Change)} {answers : List Value}
    (hrs : rs.mapM Request.changes? = some css)
    (hrun : (rs.mapM Request.onStore).Returns .empty answers s) :
    let cs := css.flatten
    (∀ i, ∃ es : List (String × Value), (Entries.keys es).Nodup ∧
      (∀ k d, (k, d) ∈ es ↔ Holds cs i k d) ∧
      ((Entries.keys es).Pairwise fun k l =>
        ∃ p q, ArrivesAt cs i k p ∧ ArrivesAt cs i l q ∧ p < q) ∧
      ∀ offset size : Nat,
        s.listing (.str i) [(.str "query", ScoreFunction.matchAll), (.str "from", .int offset),
            (.str "size", .int size)] =
          .ok (.list (((es.drop offset).take size).map fun e =>
            Hit.toValue (.str i) ⟨.str e.1, e.2, Arithmetic.one⟩), .int es.length)) ∧
    (∀ i k d refresh a t,
      (Request.indexDocument (.str i) (.str k) d refresh).onStore.Returns s a t →
        (Live cs i k ∧ a = documentReport (.str i) (.str k) "updated") ∨
          (¬ Live cs i k ∧ a = documentReport (.str i) (.str k) "created")) ∧
    (∀ i k refresh a t, (Request.deleteDocument (.str i) (.str k) refresh).onStore.Returns s a t →
      (Live cs i k ∧ a = documentReport (.str i) (.str k) "deleted") ∨
        (¬ Live cs i k ∧ a = documentReport (.str i) (.str k) "not_found")) ∧
    (∀ i, ∃ there, (Request.indexExists (.str i)).onStore.Returns s (.bool there) s ∧
      (there = true ↔ Made cs i)) ∧
    (∀ i, Entries.has s.mappings (.str i) = true → Entries.has s.indices (.str i) = true) ∧
    ∀ (r : Request) (ds : List Change) (a : Value) (t : Store), r.changes? = some ds →
      r.onStore.Returns s a t →
      (∀ i j, r.index? = some (.str i) → i ≠ j →
        Entries.get? t.indices (.str j) = Entries.get? s.indices (.str j) ∧
          Entries.get? t.mappings (.str j) = Entries.get? s.mappings (.str j)) ∧
      (∀ params timeout, r = .search params timeout →
        t.indices = s.indices ∧ t.mappings = s.mappings) ∧
      (r = .close → t.indices = [] ∧ t.mappings = []) := by
  intro cs
  have h : s.Follows cs := Follows.empty.run hrs hrun
  refine ⟨fun i => ?_, fun i k d refresh a t hindex => ?_, fun i k refresh a t hdelete => ?_,
    fun i => ?_, h.mapped, fun r ds a t hr hrequest => ⟨fun i j hi hj => ?_, ?_, ?_⟩⟩
  · obtain ⟨es, hes, hlists⟩ := h.documents i
    refine ⟨es, hlists.nodup, fun k d => ?_, hlists.order, listing_matchAll hes⟩
    rw [Entries.mem_iff_get? hlists.nodup, hlists.holds]
  · obtain ⟨-, rfl, -⟩ := returns_indexDocument_iff.mp hindex
    rw [h.live_iff]
    cases Entries.has (s.documents (.str i)) (.str k) <;> simp
  · obtain ⟨rfl, -⟩ := returns_deleteDocument_iff.mp hdelete
    rw [h.live_iff]
    cases Entries.has (s.documents (.str i)) (.str k) <;> simp
  · exact ⟨_, returns_indexExists_iff.mpr ⟨rfl, rfl, rfl⟩, h.made i⟩
  · exact h.frame_request hr hi hrequest hj
  · rintro params timeout rfl
    exact returns_search hrequest
  · rintro rfl
    obtain ⟨-, rfl⟩ := returns_close_iff.mp hrequest
    exact ⟨rfl, rfl⟩

theorem refines_journal_of_update :
    let doc (n : Int) : Value := .object [("n", .int n)]
    let write (k : String) (n : Int) : Request :=
      .indexDocument (.str "shop") (.str k) (doc n) (.bool false)
    let rs : List Request := [write "a" 1, write "b" 2, write "a" 3,
      .deleteDocument (.str "shop") (.str "b") (.bool false)]
    ∃ (answers : List Value) (s : Store) (es : List (String × Value)),
      (rs.mapM Request.onStore).Returns .empty answers s ∧ (Entries.keys es).Nodup ∧
      ("a", doc 3) ∈ es ∧ (∀ d, ("b", d) ∉ es) ∧
      s.listing (.str "shop") [(.str "query", ScoreFunction.matchAll), (.str "from", .int 0),
          (.str "size", .int 1)] =
        .ok (.list ((es.take 1).map fun e =>
          Hit.toValue (.str "shop") ⟨.str e.1, e.2, Arithmetic.one⟩), .int es.length) := by
  intro doc write rs
  have hok : ((rs.mapM Request.onStore).run .empty).result.isOk = true := by decide +kernel
  cases hresult : ((rs.mapM Request.onStore).run .empty).result with
  | error e =>
      rw [hresult] at hok
      cases hok
  | ok answers =>
      have hrun : (rs.mapM Request.onStore).Returns .empty answers
          ((rs.mapM Request.onStore).run .empty).state := ⟨hresult, rfl⟩
      let before : List Change :=
        [.write "shop" "a" (doc 1), .write "shop" "b" (doc 2)]
      obtain ⟨hlists, -⟩ := @refines_journal _ rs [[.write "shop" "a" (doc 1)],
        [.write "shop" "b" (doc 2)], [.write "shop" "a" (doc 3)], [.remove "shop" "b"]] _ rfl hrun
      obtain ⟨es, hnodup, hholds, -, hlisting⟩ := hlists "shop"
      refine ⟨answers, _, es, hrun, hnodup, (hholds "a" (doc 3)).mpr ?_, fun d hd => ?_,
        hlisting 0 1⟩
      · have hlast : Holds (before ++ [.write "shop" "a" (doc 3)]) "shop" "a" (doc 3) :=
          stands_append_singleton.mpr (Or.inl rfl)
        exact stands_append_singleton.mpr (Or.inr ⟨hlast, by simp [Change.Writes, Change.Removes]⟩)
      · have hgone : ¬ Holds ((before ++ [.write "shop" "a" (doc 3)]) ++ [.remove "shop" "b"])
            "shop" "b" d := by
          rw [Holds, stands_append_singleton]
          simp [Change.Removes]
        exact hgone ((hholds "b" d).mp hd)

end Store

end DocSearch
