import DocSearch.Config.Host
import DocSearch.Proofs.Action.Refusals
import DocSearch.Proofs.Text.Cuts

/-!
# Addresses that are read again

An address that was read with a host is divided: no part of it holds a character that ends the part.
The text of a divided address is read as that address again, and the checks of its authority are made
again.
-/

namespace DocSearch.Address

open Text

variable {a b : Address} {cs : List Char} {c : Char}

def text (a : Address) : List Char :=
  a.scheme ++ "://".toList ++ a.authority ++ a.path

def isBreak (c : Char) : Bool :=
  c = '\t' || c = '\r' || c = '\n'

/-- An address whose text is divided where it was put together. -/
structure Divided (a : Address) : Prop where
  scheme : a.scheme ∈ Host.schemes
  authority : ∀ c ∈ a.authority, endsAuthority c = false ∧ isBreak c = false
  start : ∀ c ∈ a.path.head?, c = '/'
  path : ∀ c ∈ a.path, (c ≠ '?' ∧ c ≠ '#') ∧ isBreak c = false

def check (a : Address) : Except AddressFault Unit := do
  checkBrackets a.authority
  checkDelimiters a.authority

/-- The parts of a text before they are checked. -/
def parts (cs : List Char) : Address :=
  let (scheme, rest) := takeScheme (clean cs)
  let (authority, rest) := takeAuthority rest
  ⟨scheme, authority, pathOf rest⟩

theorem split_eq (cs : List Char) : split cs = (parts cs).check.map fun _ => parts cs := by
  rw [split, parts, check]
  simp only
  cases checkBrackets (takeAuthority (takeScheme (clean cs)).2).1 with
  | error e => rfl
  | ok _ => cases checkDelimiters (takeAuthority (takeScheme (clean cs)).2).1 <;> rfl

theorem split_eq_ok_iff : split cs = .ok a ↔ a.check = .ok () ∧ parts cs = a := by
  rw [split_eq, Except.map_eq_ok_iff]
  constructor
  · rintro ⟨_, hcheck, rfl⟩
    exact ⟨hcheck, rfl⟩
  · rintro ⟨hcheck, rfl⟩
    exact ⟨(), hcheck, rfl⟩

theorem scheme_cases {s : List Char} (h : s ∈ Host.schemes) :
    s = "http".toList ∨ s = "https".toList := by
  simpa [Host.schemes] using h

theorem isBreak_of_mem_scheme {s : List Char} (h : s ∈ Host.schemes) :
    ∀ c ∈ s, isBreak c = false := by
  rcases scheme_cases h with rfl | rfl <;> simp [isBreak]

theorem clean_of_no_break (hstart : ∀ c ∈ cs.head?, ¬ c ≤ ' ') (h : ∀ c ∈ cs, isBreak c = false) :
    clean cs = cs := by
  have hdrop : cs.dropWhile (· ≤ ' ') = cs := by
    cases cs with
    | nil => rfl
    | cons c cs => simp [hstart c rfl]
  rw [clean, hdrop, List.filter_eq_self]
  intro c hc
  rw [Bool.not_eq_true']
  exact h c hc

theorem takeScheme_append {s : List Char} (h : s ∈ Host.schemes) (cs : List Char) :
    takeScheme (s ++ ':' :: cs) = (s, cs) := by
  rcases scheme_cases h with rfl | rfl
  · rw [takeScheme, cutFirst_append_cons (by decide)]
    rfl
  · rw [takeScheme, cutFirst_append_cons (by decide)]
    rfl

theorem takeAuthority_append {path : List Char} (h : ∀ c ∈ cs, endsAuthority c = false)
    (hpath : ∀ c ∈ path.head?, endsAuthority c = true) :
    takeAuthority ('/' :: '/' :: (cs ++ path)) = (cs, path) := by
  have hcs : ∀ c ∈ cs, (!endsAuthority c) = true := fun c hc => by rw [h c hc]; rfl
  rw [takeAuthority, List.takeWhile_append_of_pos hcs, List.dropWhile_append_of_pos hcs]
  cases path with
  | nil => simp
  | cons c path => simp [hpath c rfl]

theorem pathOf_of_not_mem (h : ∀ c ∈ cs, c ≠ '?' ∧ c ≠ '#') : pathOf cs = cs := by
  have hquery : '?' ∉ cs := fun hmem => (h _ hmem).1 rfl
  have hfragment : '#' ∉ cs := fun hmem => (h _ hmem).2 rfl
  rw [pathOf, cutFirst_of_not_mem hfragment, cutFirst_of_not_mem hquery]

theorem parts_text (h : a.Divided) : parts a.text = a := by
  have hclean : clean a.text = a.text := by
    refine clean_of_no_break ?_ fun c hc => ?_
    · rcases scheme_cases h.scheme with hs | hs <;> simp [text, hs]
    · simp only [text, List.mem_append] at hc
      rcases hc with ((hc | hc) | hc) | hc
      · exact isBreak_of_mem_scheme h.scheme c hc
      · revert c
        simp [isBreak]
      · exact (h.authority c hc).2
      · exact (h.path c hc).2
  have htext : a.text = a.scheme ++ ':' :: '/' :: '/' :: (a.authority ++ a.path) := by
    simp [text]
  have hstart : ∀ c ∈ a.path.head?, endsAuthority c = true := fun c hc => by
    rw [h.start c hc]
    rfl
  simp only [parts, hclean]
  rw [htext, takeScheme_append h.scheme,
    takeAuthority_append (fun c hc => (h.authority c hc).1) hstart,
    pathOf_of_not_mem fun c hc => (h.path c hc).1]

/-- A divided address is read off its text, if its authority passes the checks. -/
theorem split_text (h : a.Divided) : split a.text = a.check.map fun _ => a := by
  rw [split_eq, parts_text h]

theorem text_inj (ha : a.Divided) (hb : b.Divided) (h : a.text = b.text) : a = b := by
  rw [← parts_text ha, h, parts_text hb]

theorem mem_clean (h : c ∈ clean cs) : isBreak c = false := by
  have hkept := (List.mem_filter.mp h).2
  rwa [Bool.not_eq_true'] at hkept

theorem mem_of_mem_takeScheme (h : c ∈ (takeScheme cs).2) : c ∈ cs := by
  unfold takeScheme at h
  split at h
  · rename_i d word rest hcut
    split at h
    · have hsuffix := cutFirst_isSuffix ':' cs
      rw [hcut] at hsuffix
      exact hsuffix.subset h
    · exact h
  · exact h

theorem takeAuthority_cases (cs : List Char) :
    (takeAuthority cs).1 = [] ∨
      (∀ c ∈ (takeAuthority cs).1, c ∈ cs ∧ endsAuthority c = false) ∧
      (∀ c ∈ (takeAuthority cs).2, c ∈ cs) ∧
      ∀ c ∈ (takeAuthority cs).2.head?, endsAuthority c = true := by
  unfold takeAuthority
  split
  · rename_i cs
    refine Or.inr ⟨fun c hc => ⟨?_, ?_⟩, fun c hc => ?_, fun c hc => ?_⟩
    · exact List.mem_cons_of_mem _ (List.mem_cons_of_mem _ ((List.takeWhile_subset _) hc))
    · have hkept := List.mem_takeWhile_imp hc
      rwa [Bool.not_eq_true'] at hkept
    · exact List.mem_cons_of_mem _ (List.mem_cons_of_mem _ ((List.dropWhile_subset _) hc))
    · have hstop := List.head?_dropWhile_not (fun c => !endsAuthority c) cs
      rw [Option.mem_def.mp hc] at hstop
      simpa using hstop
  · exact Or.inl rfl

theorem pathOf_isPrefix (cs : List Char) : pathOf cs <+: cs :=
  (cutFirst_isPrefix '?' _).trans (cutFirst_isPrefix '#' cs)

theorem not_mem_pathOf (cs : List Char) : ∀ c ∈ pathOf cs, c ≠ '?' ∧ c ≠ '#' := by
  intro c hc
  constructor
  · rintro rfl
    exact not_mem_cutFirst _ _ hc
  · rintro rfl
    exact not_mem_cutFirst _ _ ((cutFirst_isPrefix '?' _).subset hc)

theorem host_of_authority_nil (h : a.authority = []) : a.host = [] := by
  rw [host, hostAndPort, h]
  rfl

/-- What is read with a host is divided, and its authority has passed the checks. -/
theorem divided_of_split (h : split cs = .ok a) (hscheme : a.scheme ∈ Host.schemes)
    (hhost : a.host ≠ []) : a.Divided ∧ a.check = .ok () := by
  obtain ⟨hcheck, rfl⟩ := split_eq_ok_iff.mp h
  rcases takeAuthority_cases (takeScheme (clean cs)).2 with hnone | ⟨hauthority, hrest, hhead⟩
  · exact absurd (host_of_authority_nil hnone) hhost
  · have hbreak (c : Char) (hc : c ∈ (takeScheme (clean cs)).2) : isBreak c = false :=
      mem_clean (mem_of_mem_takeScheme hc)
    have hmem (c : Char) (hc : c ∈ (parts cs).path) :
        c ∈ (takeAuthority (takeScheme (clean cs)).2).2 :=
      (pathOf_isPrefix _).subset hc
    refine ⟨⟨hscheme, fun c hc => ?_, fun c hc => ?_, fun c hc => ?_⟩, hcheck⟩
    · obtain ⟨hc, hend⟩ := hauthority c hc
      exact ⟨hend, hbreak c hc⟩
    · have hstop := hhead c (mem_head?_of_isPrefix (pathOf_isPrefix _) hc)
      obtain ⟨hquery, hfragment⟩ := not_mem_pathOf _ c (List.mem_of_head? hc)
      simpa [endsAuthority, hquery, hfragment] using hstop
    · exact ⟨not_mem_pathOf _ c hc, hbreak c (hrest c (hmem c hc))⟩

end DocSearch.Address
