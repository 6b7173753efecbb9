import DocSearch.Gateway.Store
import DocSearch.Proofs.Search.Positions
import DocSearch.Proofs.Value.Copies
import DocSearch.Proofs.Value.Fields

/-!
# What a search in a store lists

The response of a store tells how many hits there are and lists a window of them. `Store.listing`
reads both from the response, and `Store.listing_eq_ok_iff` says what they are and when there is a
response.
-/

namespace DocSearch

open DocSearch.Action

def Hit.toValue (index : Value) (h : Hit Float) : Value :=
  .object [("_index", index), ("_id", h.id), ("_score", .float h.score), ("_source", h.document)]

/-- The list of hits in a response, and the number of all hits. -/
def Value.listing (response : Value) : Except Error (Value × Value) := do
  let hits ← response.part "hits"
  let total ← hits.part "total"
  return (← hits.part "hits", ← total.part "value")

theorem Search.Answer.listing_toValue (index : Value) (a : Search.Answer Float) :
    (a.toValue index).listing = .ok (.list (a.listed.map (Hit.toValue index)), .int a.total) := by
  unfold toValue Value.listing
  simp [Hit.toValue]

namespace Store

/-- The list of hits as a response has it. -/
def listed (index : Value) (marked : List (Hit Float × Nat)) : Value :=
  .list (marked.map fun e => e.1.toValue index)

def request (index : Value) (es : List (Value × Value)) : Value :=
  .object [("index", index), ("body", .dict es)]

/-- What the response to a search lists. -/
def listing (s : Store) (index : Value) (es : List (Value × Value)) :
    Except Error (Value × Value) := do
  (← ((search (request index es)).run s).result).listing

theorem copyable_request {index : Value} {es : List (Value × Value)} :
    (request index es).copyable = true ↔
      index.copyable = true ∧ Value.copyableEntries es = true := by
  simp [request, Value.object, Value.copyable, Value.copyableEntries]

theorem result_search {s : Store} {index : Value} {es : List (Value × Value)} :
    ((search (request index es)).run s).result = do
      let _ ← (request index es).copy
      let i ← index.asKey
      let a : Search.Answer Float ← Search.run (s.documents i) (.dict es)
      return a.toValue index := by
  have hindex : (request index es).part "index" = .ok index := by simp [request]
  have hbody : (request index es).partD "body" (.dict []) = .ok (.dict es) := by
    simp [request, Value.object, Value.partD, Value.entries, Value.fieldD,
      Value.field?_word_cons, Except.map]
  unfold search
  cases hc : (request index es).copy with
  | error e => simp [run_bind]
  | ok v =>
      cases hk : index.asKey with
      | error e => simp [run_bind, hindex, hbody, Value.entries, hk]
      | ok i =>
          have hdocs : documents { s with searches := s.searches ++ [v] } i = s.documents i := rfl
          cases hr : (Search.run (s.documents i) (.dict es) :
              Except Error (Search.Answer Float)) <;>
            simp [run_bind, hindex, hbody, Value.entries, hk, hdocs, hr, -bind_pure_comp]

theorem listing_eq_ok_iff {s : Store} {index : Value} {es : List (Value × Value)}
    {out : Value × Value} :
    s.listing index es = .ok out ↔
      (index.copyable = true ∧ Value.copyableEntries es = true ∧ index.isKey = true) ∧
        ∃ hs w : List (Hit Float), Search.hits (s.documents index) (.dict es) = .ok hs ∧
          Search.window es hs = .ok w ∧
            (.list (w.map (Hit.toValue index)), .int hs.length) = out := by
  unfold listing
  rw [result_search]
  constructor
  · intro h
    obtain ⟨r, hr, h⟩ := Except.bind_eq_ok_iff.mp h
    obtain ⟨v, hcopy, hr⟩ := Except.bind_eq_ok_iff.mp hr
    obtain ⟨i, hkey, hr⟩ := Except.bind_eq_ok_iff.mp hr
    obtain ⟨a, ha, hanswer⟩ := Except.bind_eq_ok_iff.mp hr
    obtain ⟨hs, hhits, ha⟩ := Except.bind_eq_ok_iff.mp ha
    obtain ⟨fs, hfs, ha⟩ := Except.bind_eq_ok_iff.mp ha
    obtain ⟨w, hw, hrun⟩ := Except.bind_eq_ok_iff.mp ha
    obtain rfl := Except.ok.inj hfs
    obtain ⟨hc, -⟩ := Value.copy_eq_ok_iff.mp hcopy
    obtain ⟨hk, rfl⟩ := Value.asKey_eq_ok_iff.mp hkey
    obtain rfl := Except.ok.inj hanswer
    obtain rfl := Except.ok.inj hrun
    rw [Search.Answer.listing_toValue] at h
    obtain ⟨hci, hce⟩ := copyable_request.mp hc
    exact ⟨⟨hci, hce, hk⟩, hs, w, hhits, hw, Except.ok.inj h⟩
  · rintro ⟨⟨hci, hce, hk⟩, hs, w, hhits, hw, rfl⟩
    rw [Value.copy_eq_ok (copyable_request.mpr ⟨hci, hce⟩), Value.asKey_eq_ok_iff.mpr ⟨hk, rfl⟩]
    simp [Search.run, hhits, Value.entries, hw, Search.Answer.listing_toValue]

theorem result_search_of_hits_error {s : Store} {index : Value} {es : List (Value × Value)}
    {e : Error} (hindex : index.copyable = true) (hes : Value.copyableEntries es = true)
    (hkey : index.isKey = true)
    (hhits : (Search.hits (s.documents index) (.dict es) : Except Error (List (Hit Float))) =
      .error e) :
    ((search (request index es)).run s).result = .error e := by
  rw [result_search, Value.copy_eq_ok (copyable_request.mpr ⟨hindex, hes⟩),
    Value.asKey_eq_ok_iff.mpr ⟨hkey, rfl⟩]
  simp [Search.run, hhits]

/-- A search that does not fail lists something. -/
theorem listing_of_isOk {s : Store} {index : Value} {es : List (Value × Value)}
    (h : ((search (request index es)).run s).result.isOk = true) :
    ∃ out, s.listing index es = .ok out := by
  cases hr : ((search (request index es)).run s).result with
  | error e =>
      rw [hr] at h
      cases h
  | ok r =>
      have hanswer := hr
      rw [result_search] at hanswer
      obtain ⟨v, -, hanswer⟩ := Except.bind_eq_ok_iff.mp hanswer
      obtain ⟨i, -, hanswer⟩ := Except.bind_eq_ok_iff.mp hanswer
      obtain ⟨a, -, hanswer⟩ := Except.bind_eq_ok_iff.mp hanswer
      refine ⟨(.list (a.listed.map (Hit.toValue index)), .int a.total), ?_⟩
      unfold listing
      rw [hr, Except.ok_bind, ← Except.ok.inj hanswer, Search.Answer.listing_toValue]

end Store

end DocSearch
