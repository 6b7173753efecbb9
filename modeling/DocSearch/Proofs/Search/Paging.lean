import DocSearch.Builder.Page
import DocSearch.Proofs.Search.Listings

/-!
# Paging

A page lists one stretch of all hits. The stretches of the pages lie one after the other without
gaps or overlaps, so the pages together list every hit once, and each of them reports how many there
are.
-/

namespace DocSearch

open DocSearch.Action

namespace Page

variable {α : Type}

/-- The entries of a page as a body holds them. -/
def fields (p : Page) : List (Value × Value) :=
  p.entries.map fun e => (.str e.1, e.2)

theorem field?_fields {w : Page} {name : String} (hfrom : name ≠ "from") (hsize : name ≠ "size") :
    Value.field? w.fields name = none := by
  obtain ⟨offset, size⟩ := w
  cases offset <;> cases size <;>
    simp [fields, entries, bound, Value.field?_word_cons, hfrom.symm, hsize.symm]

/-- The items on a page, counted from one. -/
def stretch (size page : Nat) (xs : List α) : List α :=
  (xs.take (page * size)).drop ((page - 1) * size)

/-- How many pages it takes to list a number of items. -/
def count (size total : Nat) : Nat :=
  (total + size - 1) / size

theorem stretch_succ (size page : Nat) (xs : List α) :
    stretch size (page + 1) xs = (xs.drop (page * size)).take size := by
  have hlen : (page + 1) * size - page * size = size := by
    rw [Nat.succ_mul, Nat.add_sub_cancel_left]
  rw [stretch, Nat.add_sub_cancel, List.drop_take, hlen]

theorem flatMap_stretch (size pages : Nat) (xs : List α) :
    ((List.range pages).flatMap fun k => stretch size (k + 1) xs) = xs.take (pages * size) := by
  induction pages with
  | zero => simp
  | succ pages ih =>
      rw [List.range_succ, List.flatMap_append, List.flatMap_singleton, ih, stretch_succ,
        Nat.succ_mul, List.take_add]

theorem le_count_mul {size : Nat} (hsize : 1 ≤ size) (total : Nat) :
    total ≤ count size total * size := by
  have hdiv := Nat.div_add_mod (total + size - 1) size
  have hmod := Nat.mod_lt (total + size - 1) hsize
  rw [Nat.mul_comm] at hdiv
  unfold count
  omega

theorem flatMap_stretch_count {size : Nat} (hsize : 1 ≤ size) (xs : List α) :
    ((List.range (count size xs.length)).flatMap fun k => stretch size (k + 1) xs) = xs := by
  rw [flatMap_stretch]
  exact List.take_of_length_le (le_count_mul hsize xs.length)

theorem stretch_past_count {size page : Nat} (hsize : 1 ≤ size) {xs : List α}
    (hpage : count size xs.length < page) : stretch size page xs = [] := by
  have hlen := le_count_mul hsize xs.length
  have hmul : count size xs.length * size ≤ (page - 1) * size :=
    Nat.mul_le_mul_right size (Nat.le_sub_one_of_lt hpage)
  refine List.drop_of_length_le ?_
  rw [List.length_take]
  omega

/-- Items on different pages differ in what differs throughout the list. -/
theorem stretch_disjoint {size p q : Nat} {xs : List α} {f : α → Nat} (hf : (xs.map f).Nodup)
    (hpq : p < q) {x y : α} (hx : x ∈ stretch size p xs) (hy : y ∈ stretch size q xs) :
    f x ≠ f y := by
  have hx' : x ∈ xs.take (p * size) := List.mem_of_mem_drop hx
  have hy' : y ∈ xs.drop (p * size) := by
    have hle : p * size ≤ (q - 1) * size := Nat.mul_le_mul_right size (Nat.le_sub_one_of_lt hpq)
    rw [stretch, List.drop_take] at hy
    exact List.drop_subset_drop_left xs hle (List.mem_of_mem_take hy)
  rw [← List.take_append_drop (p * size) xs, List.map_append, List.nodup_append] at hf
  exact hf.2.2 _ (List.mem_map_of_mem hx') _ (List.mem_map_of_mem hy')

end Page

/-! ## Pages of a search -/

namespace Search

variable {σ : Type}

theorem window_fields {pre post : List (Value × Value)} (offset size : Nat) (hs : List (Hit σ))
    (hfrom : Value.field? (pre ++ post) "from" = none)
    (hsize : Value.field? (pre ++ post) "size" = none) :
    window (pre ++ (⟨some (.int offset), some (.int size)⟩ : Page).fields ++ post) hs =
      .ok ((hs.drop offset).take size) := by
  have hfields : (⟨some (.int offset), some (.int size)⟩ : Page).fields =
      [(.str "from", .int offset), (.str "size", .int size)] := rfl
  rw [hfields, window, Value.fieldD, Value.fieldD, Value.field?_inserted hfrom,
    Value.field?_inserted hsize]
  simp [Value.field?_word_cons, checkSum, position, slice_nat]

variable [Arithmetic σ]

/-- All hits of a search depend on three fields of its body only. -/
theorem hits_insert {docs pre post fs : List (Value × Value)}
    (hquery : Value.field? fs "query" = none) (hscore : Value.field? fs "min_score" = none)
    (hsort : Value.field? fs "sort" = none) :
    (hits docs (.dict (pre ++ fs ++ post)) : Except Error (List (Hit σ))) =
      hits docs (.dict (pre ++ post)) := by
  rw [hits_dict, hits_dict, matching_insert hquery hscore, Value.fieldD, Value.fieldD,
    Value.field?_insert hsort]

end Search

namespace Store

variable {st : Store} {index : Value} {pre post : List (Value × Value)}

theorem listing_fields {hs : List (Hit Float)} (offset size : Nat)
    (hindex : index.copyable = true ∧ index.isKey = true)
    (hbody : Value.copyableEntries (pre ++ post) = true)
    (hfrom : Value.field? (pre ++ post) "from" = none)
    (hsize : Value.field? (pre ++ post) "size" = none)
    (hhits : Search.hits (st.documents index) (.dict (pre ++ post)) = .ok hs) :
    st.listing index (pre ++ (⟨some (.int offset), some (.int size)⟩ : Page).fields ++ post) =
      .ok (.list (((hs.drop offset).take size).map (Hit.toValue index)), .int hs.length) := by
  refine listing_eq_ok_iff.mpr ⟨⟨hindex.1, Value.copyableEntries_insert hbody rfl, hindex.2⟩, hs, _,
    ?_, Search.window_fields offset size hs hfrom hsize, rfl⟩
  rw [← hhits]
  exact Search.hits_insert (Page.field?_fields (by decide) (by decide))
    (Page.field?_fields (by decide) (by decide)) (Page.field?_fields (by decide) (by decide))

/-- Pages list all hits of a search one after the other, and none twice. -/
theorem listing_pages {size : Nat} (hfrom : Value.hasField (pre ++ post) "from" = false)
    (hsize : Value.hasField (pre ++ post) "size" = false) (hpos : 1 ≤ size)
    (hrun : ((Store.search (request index (pre ++ post))).run st).result.isOk = true) :
    ∃ full : List (Hit Float × Nat),
      (∀ e ∈ full, (st.documents index)[e.2]? = some (e.1.id, e.1.document)) ∧
      (∀ n : Nat, full.length ≤ n →
        st.listing index (pre ++ (⟨some (.int 0), some (.int n)⟩ : Page).fields ++ post) =
          .ok (listed index full, .int full.length)) ∧
      (∀ page : Nat, 1 ≤ page → ∃ w, Page.number (.int size) (.int page) = .ok w ∧
        st.listing index (pre ++ w.fields ++ post) =
          .ok (listed index (Page.stretch size page full), .int full.length)) ∧
      ((List.range (Page.count size full.length)).flatMap fun k =>
        Page.stretch size (k + 1) full) = full ∧
      (∀ page, Page.count size full.length < page → Page.stretch size page full = []) ∧
      ∀ p q, p < q → ∀ d ∈ Page.stretch size p full, ∀ e ∈ Page.stretch size q full, d.2 ≠ e.2 := by
  obtain ⟨out, hout⟩ := listing_of_isOk hrun
  obtain ⟨⟨hindex, hbody, hkey⟩, hs, -, hhits, -, -⟩ := listing_eq_ok_iff.mp hout
  obtain ⟨full, rfl, hdocs, hnodup⟩ := Search.hits_placed hhits
  have hlist (offset count : Nat) : st.listing index
      (pre ++ (⟨some (.int offset), some (.int count)⟩ : Page).fields ++ post) =
        .ok (listed index ((full.drop offset).take count), .int full.length) := by
    have h := listing_fields offset count ⟨hindex, hkey⟩ hbody
      (Value.hasField_eq_false_iff.mp hfrom) (Value.hasField_eq_false_iff.mp hsize) hhits
    rw [← List.map_drop, ← List.map_take, List.map_map, List.length_map] at h
    exact h
  refine ⟨full, hdocs, ?_, ?_, Page.flatMap_stretch_count hpos full,
    fun page hpage => Page.stretch_past_count hpos hpage,
    fun p q hpq d hd e he => Page.stretch_disjoint hnodup hpq hd he⟩
  · intro n hn
    have h := hlist 0 n
    rw [List.drop_zero, List.take_of_length_le hn] at h
    exact h
  · intro page hpage
    obtain ⟨k, rfl⟩ := Nat.exists_eq_add_of_le' hpage
    have hoffset : (((k + 1 : Nat) : Int) - 1) * size = ((k * size : Nat) : Int) := by
      have hpred : ((k + 1 : Nat) : Int) - 1 = k := by omega
      rw [hpred, Int.natCast_mul]
    have hnumber := Page.number_int size (k + 1 : Nat) (by omega) (by omega)
    rw [hoffset] at hnumber
    refine ⟨_, hnumber, ?_⟩
    rw [Page.stretch_succ]
    exact hlist (k * size) size

theorem listing_pages_of_three :
    let doc (n : Int) : Value := .object [("n", .int n)]
    let docs := [(.str "a", doc 3), (.str "b", doc 1), (.str "c", doc 2)]
    let shop : Store := ⟨[(.str "shop", docs)], [], []⟩
    ∃ full : List (Hit Float × Nat),
      ((List.range (Page.count 2 full.length)).flatMap fun k =>
        Page.stretch 2 (k + 1) full) = full ∧
      ∀ page : Nat, 1 ≤ page → ∃ w, Page.number (.int 2) (.int page) = .ok w ∧
        shop.listing (.str "shop") w.fields =
          .ok (listed (.str "shop") (Page.stretch 2 page full), .int full.length) := by
  intro doc docs shop
  have hdocs : shop.documents (.str "shop") = docs := by simp [shop, Store.documents]
  have hrun : ((Store.search (request (.str "shop") ([] ++ []))).run shop).result.isOk = true := by
    have hkey : (Value.str "shop").asKey = .ok (.str "shop") := rfl
    rw [result_search, Value.copy_eq_ok rfl, hkey]
    simp only [Except.ok_bind, hdocs, Search.run]
    rw [List.append_nil, Search.hits_nil]
    rfl
  obtain ⟨full, -, -, hpages, hall, -⟩ :=
    @listing_pages shop (.str "shop") [] [] 2 rfl rfl (by decide) hrun
  refine ⟨full, hall, ?_⟩
  simpa using hpages

end Store

end DocSearch
