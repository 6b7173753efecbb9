import DocSearch.Proofs.Config.Addresses
import DocSearch.Proofs.Text.Digits

/-!
# Ports that are written behind an authority

A port that is written behind an authority without one is read as the port of the same host, unless a
colon or an open bracket stands in its way. Behind a colon it is no number, and behind an open bracket
it belongs to the host.
-/

namespace DocSearch.Address

open Text

variable {a : Address} {front name rest port w : List Char}

/-- The authority without the user. -/
def server (a : Address) : List Char :=
  afterLast '@' a.authority

/-- A colon stands at the end of the server and no port after it. -/
def EmptyPort (a : Address) : Prop :=
  a.server.getLast? = some ':'

/-- The host stands behind a bracket that is not closed. -/
def OpenBracket (a : Address) : Prop :=
  '[' ∈ a.server ∧ ']' ∉ a.server

/-- A host as it stands in front of a port. -/
inductive Named : List Char → List Char → Prop
  | bare (name : List Char) (hopen : '[' ∉ name) (hcolon : ':' ∉ name) : Named name name
  | bracketed (name : List Char) (hclose : ']' ∉ name) : Named ('[' :: (name ++ [']'])) name

/-- What follows a host: nothing, or a colon and a port. -/
inductive Tail : List Char → List Char → Prop
  | none : Tail [] []
  | port {port : List Char} (hopen : '[' ∉ port) : Tail (':' :: port) port

theorem hostAndPort_of_bare (h : '[' ∉ a.server) :
    a.hostAndPort = ((cutFirst ':' a.server).1, (cutFirst ':' a.server).2.getD []) := by
  rw [hostAndPort, show afterLast '@' a.authority = a.server from rfl]
  simp only [cutFirst_of_not_mem h]

theorem hostAndPort_of_bracket {inside : List Char}
    (h : cutFirst '[' a.server = (front, some inside)) :
    a.hostAndPort = ((cutFirst ']' inside).1,
      (cutFirst ':' ((cutFirst ']' inside).2.getD [])).2.getD []) := by
  rw [hostAndPort, show afterLast '@' a.authority = a.server from rfl]
  simp only [h]

theorem hostAndPort_of_open (h : a.OpenBracket) : a.hostAndPort.2 = [] := by
  rcases cutFirst_cases '[' a.server with ⟨hnone, -⟩ | ⟨front, inside, hserver, -, hcut⟩
  · exact absurd h.1 hnone
  · have hinside : ']' ∉ inside := by
      intro hmem
      apply h.2
      rw [hserver]
      exact List.mem_append_right _ (List.mem_cons_of_mem _ hmem)
    rw [hostAndPort_of_bracket hcut, cutFirst_of_not_mem hinside]
    rfl

theorem hostAndPort_of_named (hn : Named front name) (ht : Tail rest port)
    (hserver : a.server = front ++ rest) : a.hostAndPort = (name, port) := by
  cases hn with
  | bare _ hopen hcolon =>
      have hbare : '[' ∉ a.server := by
        rw [hserver]
        cases ht with
        | none => simpa using hopen
        | port hport => simp [hopen, hport]
      rw [hostAndPort_of_bare hbare, hserver]
      cases ht with
      | none => rw [List.append_nil, cutFirst_of_not_mem hcolon]; rfl
      | port => rw [cutFirst_append_cons hcolon]; rfl
  | bracketed _ hclose =>
      rw [List.cons_append, List.append_assoc, List.singleton_append] at hserver
      have hcut : cutFirst '[' a.server = ([], some (name ++ ']' :: rest)) := by
        rw [hserver]
        rfl
      rw [hostAndPort_of_bracket hcut, cutFirst_append_cons hclose]
      cases ht <;> rfl

theorem bracketedHost_of_named (hn : Named front name) (ht : Tail rest port) :
    bracketedHost (front ++ rest) = .ok name := by
  cases hn with
  | bare _ hopen hcolon =>
      have hbare : '[' ∉ front ++ rest := by
        cases ht with
        | none => simpa using hopen
        | port hport => simp [hopen, hport]
      rw [bracketedHost, cutFirst_of_not_mem hbare]
      cases ht with
      | none => rw [List.append_nil, cutFirst_of_not_mem hcolon]
      | port => rw [cutFirst_append_cons hcolon]
  | bracketed _ hclose =>
      have hcut : cutFirst '[' ('[' :: (name ++ ']' :: rest)) = ([], some (name ++ ']' :: rest)) :=
        rfl
      rw [List.cons_append, List.append_assoc, List.singleton_append, bracketedHost, hcut]
      simp only [cutFirst_append_cons hclose]
      cases ht <;> rfl

/-- A server with a bracket begins with it; what follows the closing one begins with a colon. -/
theorem eq_of_bracketedHost {server : List Char} (hmem : '[' ∈ server)
    (h : bracketedHost server = .ok name) :
    ']' ∉ name ∧ (server = '[' :: name ∨ ∃ after, server = '[' :: (name ++ ']' :: after) ∧
      (after = [] ∨ ∃ port, after = ':' :: port)) := by
  rcases cutFirst_cases '[' server with ⟨hnone, -⟩ | ⟨front, inside, rfl, -, hcut⟩
  · exact absurd hmem hnone
  · rw [bracketedHost, hcut] at h
    rcases cutFirst_cases ']' inside with ⟨hnone, hend⟩ | ⟨host, after, rfl, hhost, hend⟩
    · simp only [hend] at h
      split at h
      · rename_i hfront
        obtain rfl := Except.ok.inj h
        obtain rfl := List.isEmpty_iff.mp (Bool.and_eq_true_iff.mp hfront).1
        exact ⟨hnone, Or.inl rfl⟩
      · cases h
    · simp only [hend, Option.getD_some] at h
      split at h
      · rename_i hfront
        obtain rfl := Except.ok.inj h
        obtain ⟨hfront, hafter⟩ := Bool.and_eq_true_iff.mp hfront
        obtain rfl := List.isEmpty_iff.mp hfront
        refine ⟨hhost, Or.inr ⟨after, rfl, ?_⟩⟩
        rcases Bool.or_eq_true_iff.mp hafter with hnil | hcolon
        · exact Or.inl (List.isEmpty_iff.mp hnil)
        · exact Or.inr (List.head?_eq_some_iff.mp (of_decide_eq_true hcolon))
      · cases h

theorem checkBrackets_of_mem (hopen : '[' ∈ a.server) (hclose : ']' ∈ a.server) :
    checkBrackets a.authority = (bracketedHost a.server).bind checkBracketed := by
  have hsub := (afterLast_isSuffix '@' a.authority).subset
  rw [checkBrackets, List.contains_iff_mem.mpr (hsub hopen), List.contains_iff_mem.mpr (hsub hclose)]
  rfl

/-- Without a port there is an open bracket, or at most a colon after the host. -/
theorem server_of_portless (hcheck : checkBrackets a.authority = .ok ())
    (hport : a.hostAndPort.2 = []) :
    a.OpenBracket ∨ ∃ front rest, Named front a.host ∧ Tail rest [] ∧ a.server = front ++ rest := by
  by_cases hopen : '[' ∈ a.server
  · by_cases hclose : ']' ∈ a.server
    · rw [checkBrackets_of_mem hopen hclose] at hcheck
      cases hhost : bracketedHost a.server with
      | error e =>
          rw [hhost] at hcheck
          cases hcheck
      | ok name =>
          -- Where nothing closes the name, there is no closing bracket in the server at all.
          obtain ⟨hname, hserver | ⟨after, hserver, hafter⟩⟩ := eq_of_bracketedHost hopen hhost
          · rw [hserver] at hclose
            simp [hname] at hclose
          · have hcut : cutFirst '[' a.server = ([], some (name ++ ']' :: after)) := by
              rw [hserver]
              rfl
            rw [host, hostAndPort_of_bracket hcut, cutFirst_append_cons hname] at *
            refine Or.inr ⟨_, after, .bracketed name hname, ?_, by simp [hserver]⟩
            rcases hafter with rfl | ⟨port, rfl⟩
            · exact .none
            · obtain rfl : port = [] := hport
              exact .port (List.not_mem_nil)
    · exact Or.inl ⟨hopen, hclose⟩
  · rw [host, hostAndPort_of_bare hopen] at *
    rcases cutFirst_cases ':' a.server with ⟨hcolon, hcut⟩ | ⟨front, port, hserver, hcolon, hcut⟩
    · rw [hcut]
      exact Or.inr ⟨a.server, [], .bare _ hopen hcolon, .none, (List.append_nil _).symm⟩
    · rw [hcut] at hport ⊢
      obtain rfl : port = [] := hport
      refine Or.inr ⟨front, [':'], .bare _ (fun hmem => hopen ?_) hcolon,
        .port List.not_mem_nil, hserver⟩
      rw [hserver]
      exact List.mem_append_left _ hmem

theorem emptyPort_iff (hn : Named front name) (ht : Tail rest [])
    (hserver : a.server = front ++ rest) : a.EmptyPort ↔ rest = [':'] := by
  rw [EmptyPort, hserver]
  cases ht with
  | none =>
      rw [List.append_nil]
      refine ⟨fun hlast => ?_, nofun⟩
      cases hn with
      | bare _ _ hcolon => exact absurd (List.mem_of_getLast? hlast) hcolon
      | bracketed name _ =>
          rw [← List.cons_append, List.getLast?_concat] at hlast
          exact absurd hlast (by decide)
  | port _ => simp

/-! ## Writing a port -/

def withPort (a : Address) (w : List Char) : Address :=
  { a with authority := a.authority ++ ':' :: w }

theorem ne_of_isNumeral {c d : Char} (hc : isNumeral c = true) (hd : isNumeral d = false) :
    c ≠ d := by
  rintro rfl
  rw [hc] at hd
  cases hd

theorem not_disguised {c : Char} (h : isNumeral c = true) : disguised.contains c.toNat = false := by
  have hsmall : c.toNat ≤ 57 := by
    rcases Bool.or_eq_true_iff.mp h with h | h
    · rw [of_decide_eq_true h]
      decide
    · exact (toNat_of_isDigit h).2
  have hgreat : ∀ n ∈ disguised, 57 < n := by decide
  rw [← Bool.not_eq_true, List.contains_iff_mem]
  intro hmem
  have hlt := hgreat _ hmem
  omega

variable (hw : ∀ c ∈ w, isNumeral c = true)

include hw

theorem not_mem_port {d : Char} (hcolon : d ≠ ':') (hd : isNumeral d = false) : d ∉ ':' :: w := by
  intro hmem
  rcases List.mem_cons.mp hmem with h | h
  · exact hcolon h
  · exact ne_of_isNumeral (hw d h) hd rfl

theorem server_withPort : (a.withPort w).server = a.server ++ ':' :: w :=
  afterLast_append_of_not_mem (not_mem_port hw (by decide) (by decide))

theorem openBracket_withPort : (a.withPort w).OpenBracket ↔ a.OpenBracket := by
  have hopen := not_mem_port hw (d := '[') (by decide) (by decide)
  have hclose := not_mem_port hw (d := ']') (by decide) (by decide)
  rw [OpenBracket, server_withPort hw, List.mem_append, List.mem_append, OpenBracket]
  simp only [hopen, hclose, or_false]

theorem divided_withPort (h : a.Divided) : (a.withPort w).Divided where
  scheme := h.scheme
  authority := by
    intro c hc
    rcases List.mem_append.mp hc with hc | hc
    · exact h.authority c hc
    · rcases List.mem_cons.mp hc with rfl | hc
      · decide
      · have hne (d : Char) (hd : isNumeral d = false) : c ≠ d := ne_of_isNumeral (hw c hc) hd
        simp [endsAuthority, isBreak, hne '/' (by decide), hne '?' (by decide),
          hne '#' (by decide), hne '\t' (by decide), hne '\r' (by decide), hne '\n' (by decide)]
  start := h.start
  path := h.path

theorem checkDelimiters_withPort (h : checkDelimiters a.authority = .ok ()) :
    checkDelimiters (a.withPort w).authority = .ok () := by
  have hport : (':' :: w).any (fun c => disguised.contains c.toNat) = false := by
    rw [List.any_eq_false]
    intro c hc
    rw [Bool.not_eq_true]
    rcases List.mem_cons.mp hc with rfl | hc
    · decide
    · exact not_disguised (hw c hc)
  rw [checkDelimiters] at h ⊢
  rw [withPort, List.any_append, hport, Bool.or_false]
  split at h
  · cases h
  · rename_i hplain
    rw [if_neg hplain]

theorem hostAndPort_withPort (hn : Named front name) (ht : Tail rest [])
    (hserver : a.server = front ++ rest) : (a.withPort w).hostAndPort = (name, rest ++ w) := by
  have hopen := not_mem_port hw (d := '[') (by decide) (by decide)
  have hserver' : (a.withPort w).server = front ++ (rest ++ ':' :: w) := by
    rw [server_withPort hw, hserver, List.append_assoc]
  cases ht with
  | none => exact hostAndPort_of_named hn (.port (List.not_mem_of_not_mem_cons hopen)) hserver'
  | port _ => exact hostAndPort_of_named hn (.port hopen) hserver'

theorem checkBrackets_withPort (hn : Named front name) (ht : Tail rest [])
    (hserver : a.server = front ++ rest) :
    checkBrackets (a.withPort w).authority = checkBrackets a.authority := by
  have hopen := not_mem_port hw (d := '[') (by decide) (by decide)
  have hclose := not_mem_port hw (d := ']') (by decide) (by decide)
  have hhost : bracketedHost (a.withPort w).server = bracketedHost a.server := by
    rw [server_withPort hw, hserver, bracketedHost_of_named hn ht, List.append_assoc]
    cases ht with
    | none => exact bracketedHost_of_named hn (.port (List.not_mem_of_not_mem_cons hopen))
    | port _ => exact bracketedHost_of_named hn (.port hopen)
  have hcontains {d : Char} (hd : d ∉ ':' :: w) :
      (a.withPort w).authority.contains d = a.authority.contains d := by
    rw [Bool.eq_iff_iff, List.contains_iff_mem, List.contains_iff_mem, withPort, List.mem_append,
      or_iff_left hd]
  rw [checkBrackets, checkBrackets, hcontains hopen, hcontains hclose,
    show afterLast '@' (a.withPort w).authority = (a.withPort w).server from rfl, hhost]
  rfl

/-- A port that is written where there is none is read after the host, unless a bracket is open. It
is read with the colon that stands there already. -/
theorem withPort_of_portless (hcheck : a.check = .ok ()) (hport : a.hostAndPort.2 = [])
    (hclosed : ¬ a.OpenBracket) :
    (a.withPort w).check = .ok () ∧
      (a.EmptyPort → (a.withPort w).hostAndPort = (a.host, ':' :: w)) ∧
      (¬ a.EmptyPort → (a.withPort w).hostAndPort = (a.host, w)) := by
  obtain ⟨_, hbrackets, hdelimiters⟩ := Except.bind_eq_ok_iff.mp hcheck
  obtain ⟨front, rest, hn, ht, hserver⟩ :=
    (server_of_portless hbrackets hport).resolve_left hclosed
  have hread := hostAndPort_withPort hw hn ht hserver
  refine ⟨Except.bind_eq_ok_iff.mpr ⟨(), ?_, checkDelimiters_withPort hw hdelimiters⟩, ?_, ?_⟩
  · rw [checkBrackets_withPort hw hn ht hserver]
    exact hbrackets
  · intro hempty
    rw [hread, (emptyPort_iff hn ht hserver).mp hempty]
    rfl
  · intro hfull
    rw [hread]
    cases ht with
    | none => rfl
    | port _ => exact absurd ((emptyPort_iff hn (.port List.not_mem_nil) hserver).mpr rfl) hfull

omit hw

/-! ## Reading a port -/

theorem port_eq_absent_iff : a.port = .absent ↔ a.hostAndPort.2 = [] := by
  rw [port]
  simp only [List.isEmpty_iff]
  split
  · simp_all
  · split <;> simp_all

theorem port_of_open (h : a.OpenBracket) : a.port = .absent :=
  port_eq_absent_iff.mpr (hostAndPort_of_open h)

theorem port_of_colon (h : a.hostAndPort.2 = ':' :: w) : a.port = .bad := by
  have hcolon : isAsciiDigit ':' = false := by decide
  simp [port, h, hcolon]

theorem port_of_text {n : Int} (h : a.hostAndPort.2 = (Value.int n).text.toList) :
    a.port = if 0 ≤ n ∧ n ≤ greatestPort then .known n.toNat else .bad := by
  have hsome : (Value.int n).text.toList.isEmpty = false := by
    rw [List.isEmpty_eq_false_iff]
    exact text_int_ne_nil n
  simp only [port, h, hsome]
  cases n with
  | ofNat m =>
      have hlength : m ≤ greatestPort → (Nat.toDigits 10 m).length ≤ Number.Reading.maxDigits := by
        intro hm
        have hfive : (Nat.toDigits 10 m).length ≤ 5 :=
          (Nat.length_toDigits_le_iff (by decide) (by decide)).mpr
            (Nat.lt_of_le_of_lt hm (by decide))
        exact hfive.trans (by decide)
      simp only [Int.ofNat_eq_natCast, toList_text_ofNat, all_isAsciiDigit_toDigits,
        ofDigits_toDigits]
      by_cases hm : m ≤ greatestPort
      · simp [hm, hlength hm]
      · simp [hm]
  | negSucc m =>
      have hsign : isAsciiDigit '-' = false := by decide
      simp [toList_text_negSucc, hsign]

theorem hostAndPort_isSuffix (a : Address) : a.hostAndPort.2 <:+ a.authority := by
  refine List.IsSuffix.trans ?_ (afterLast_isSuffix '@' a.authority)
  by_cases hopen : '[' ∈ a.server
  · rcases cutFirst_cases '[' a.server with ⟨hnone, -⟩ | ⟨front, inside, hserver, -, hcut⟩
    · exact absurd hopen hnone
    · rw [hostAndPort_of_bracket hcut]
      refine (cutFirst_isSuffix ':' _).trans ((cutFirst_isSuffix ']' inside).trans ?_)
      exact ⟨front ++ ['['], by rw [show afterLast '@' a.authority = a.server from rfl, hserver]; simp⟩
  · rw [hostAndPort_of_bare hopen]
    exact cutFirst_isSuffix ':' a.server

theorem digits_of_port {n : Nat} (h : a.port = .known n) :
    a.hostAndPort.2 ≠ [] ∧ (∀ c ∈ a.hostAndPort.2, c.isDigit = true) ∧ n ≤ greatestPort := by
  rw [port] at h
  split at h
  · cases h
  · rename_i hsome
    split at h
    · rename_i hread
      simp only [Bool.and_eq_true, List.all_eq_true, decide_eq_true_eq] at hread
      obtain rfl := Port.known.inj h
      refine ⟨by simpa using hsome, fun c hc => ?_, hread.2⟩
      rw [← isAsciiDigit_eq_isDigit]
      exact hread.1.1 c hc
    · cases h

/-- An authority with a port ends in a digit. -/
theorem isDigit_of_port {n : Nat} {c : Char} (h : a.port = .known n)
    (hc : a.authority.getLast? = some c) : c.isDigit = true := by
  obtain ⟨hsome, hdigits, -⟩ := digits_of_port h
  obtain ⟨front, hfront⟩ := hostAndPort_isSuffix a
  rw [← hfront, List.getLast?_append_of_ne_nil _ hsome] at hc
  exact hdigits c (List.mem_of_getLast? hc)

theorem not_openBracket_of_port {n : Nat} (h : a.port = .known n) : ¬ a.OpenBracket :=
  fun hopen => (digits_of_port h).1 (hostAndPort_of_open hopen)

theorem not_emptyPort_of_port {n : Nat} (h : a.port = .known n) : ¬ a.EmptyPort := by
  intro hempty
  obtain ⟨front, hfront⟩ := afterLast_isSuffix '@' a.authority
  have hlast : a.authority.getLast? = some ':' := by
    rw [← hfront, List.getLast?_append, show (afterLast '@' a.authority).getLast? = some ':' from hempty]
    rfl
  exact absurd (isDigit_of_port h hlast) (by decide)

theorem isDigit_of_withPort {n : Int} {c : Char}
    (hc : (a.withPort (Value.int n).text.toList).authority.getLast? = some c) :
    c.isDigit = true := by
  have hne := text_int_ne_nil n
  rw [withPort, List.getLast?_append_of_ne_nil _ (List.cons_ne_nil _ _),
    List.getLast?_cons_of_ne_nil hne] at hc
  exact isDigit_of_getLast?_text hc

end DocSearch.Address
