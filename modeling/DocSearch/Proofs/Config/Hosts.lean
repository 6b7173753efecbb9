import DocSearch.Proofs.Config.Ports

/-!
# Hosts in full

A host is written in full from the address that is read of it. What is written is divided and ends in
a digit before the path, so it is read again as the same address, without the blanks that may stand at
the end of its path, as far as the checks of its authority pass.
-/

namespace DocSearch

open Text

namespace Address

variable {a b : Address} {p : Char → Bool} {c : Char}

/-- The address without the characters of a class at the end of its path. -/
def trim (p : Char → Bool) (a : Address) : Address :=
  { a with path := trimRight p a.path }

theorem Divided.trim (h : a.Divided) : (a.trim p).Divided where
  scheme := h.scheme
  authority := h.authority
  start c hc := h.start c (mem_head?_of_isPrefix (trimRight_isPrefix p a.path) hc)
  path c hc := h.path c ((trimRight_isPrefix p a.path).subset hc)

/-- A divided address with a digit at the end of its authority. -/
structure Full (a : Address) : Prop extends Divided a where
  digit : ∀ c, a.authority.getLast? = some c → c.isDigit = true

end Address

namespace Host

open Address

variable {host r : String} {standard : Value} {a b : Address}

def slash (c : Char) : Bool :=
  c = '/'

/-- The address that is read of a host. -/
def address (host : String) : Except AddressFault Address :=
  Address.split (candidate (strip host).toList)

structure Usable (a : Address) : Prop where
  scheme : a.scheme ∈ schemes
  host : a.host ≠ []

/-- The address that is written for one that is read. -/
inductive Completed (a : Address) (standard : Value) : Address → Prop
  | own {n : Nat} (h : a.port = .known n) : Completed a standard (a.trim slash)
  | standard {w : String} (h : a.port = .absent) (hw : standard.written = .ok w) :
      Completed a standard ((a.withPort w.toList).trim slash)

theorem normalize_str (host : String) (standard : Value) :
    normalize (.str host) standard = normalizeText (strip host) standard := by
  by_cases hhost : host = ""
  · subst hhost
    rfl
  · have htruthy : (Value.str host).truthy = true := by
      simp [Value.truthy, hhost]
    rw [normalize, htruthy]
    rfl

theorem normalizeText_of_error {raw : String} {e : AddressFault} (hraw : raw ≠ "")
    (h : Address.split (candidate raw.toList) = .error e) :
    normalizeText raw standard = .error (.fault (.address e)) := by
  simp [normalizeText, hraw, h]

theorem normalizeText_of_ok {raw : String} (hraw : raw ≠ "")
    (h : Address.split (candidate raw.toList) = .ok a) :
    normalizeText raw standard =
      if a.scheme ∉ schemes then .error (.config (.unsupportedScheme raw))
      else if a.host = [] then .error (.config (.malformedHost raw))
      else match a.port with
        | .bad => .error (.config (.badPort raw))
        | .known _ => .ok (String.ofList (a.trim slash).text)
        | .absent => standard.written.map fun w =>
          String.ofList ((a.withPort w.toList).trim slash).text := by
  have hgiven : raw.isEmpty = false := by simpa using hraw
  rw [normalizeText, hgiven, h]
  simp only [Bool.false_eq_true, if_false, Bool.not_eq_true', ← Bool.not_eq_true,
    List.contains_iff_mem, List.isEmpty_iff]
  rfl

theorem strip_ne_empty (h : address host = .ok a) (hhost : a.host ≠ []) : strip host ≠ "" := by
  intro hempty
  rw [address, hempty] at h
  obtain rfl := Except.ok.inj h
  exact hhost rfl

inductive Ending (host : String) (standard : Value) : Except Error String → Prop
  | empty (h : strip host = "") : Ending host standard (.error (.config .emptyHost))
  | fault {e : AddressFault} (hgiven : strip host ≠ "") (h : address host = .error e) :
      Ending host standard (.error (.fault (.address e)))
  | scheme {a : Address} (h : address host = .ok a) (hscheme : a.scheme ∉ schemes) :
      Ending host standard (.error (.config (.unsupportedScheme (strip host))))
  | malformed {a : Address} (h : address host = .ok a) (hhost : a.host = []) :
      Ending host standard (.error (.config (.malformedHost (strip host))))
  | badPort {a : Address} (h : address host = .ok a) (hport : a.port = .bad) :
      Ending host standard (.error (.config (.badPort (strip host))))
  | unwritten {a : Address} {e : Error} (h : address host = .ok a) (husable : Usable a)
      (hport : a.port = .absent) (he : standard.written = .error e) :
      Ending host standard (.error e)
  | full {a b : Address} (h : address host = .ok a) (husable : Usable a)
      (hb : Completed a standard b) : Ending host standard (.ok (String.ofList b.text))

theorem ending_normalize (host : String) (standard : Value) :
    Ending host standard (normalize (.str host) standard) := by
  rw [normalize_str]
  by_cases hgiven : strip host = ""
  · rw [hgiven]
    exact .empty hgiven
  · cases haddress : address host with
    | error e =>
        rw [normalizeText_of_error hgiven haddress]
        exact .fault hgiven haddress
    | ok a =>
        rw [normalizeText_of_ok hgiven haddress]
        split
        · rename_i hscheme
          exact .scheme haddress hscheme
        · rename_i hscheme
          split
          · rename_i hhost
            exact .malformed haddress hhost
          · rename_i hhost
            have husable : Usable a := ⟨not_not.mp hscheme, hhost⟩
            split
            · rename_i hport
              exact .badPort haddress hport
            · rename_i hport
              exact .full haddress husable (.own hport)
            · rename_i hport
              cases hwritten : standard.written with
              | error e => exact .unwritten haddress husable hport hwritten
              | ok w => exact .full haddress husable (.standard hport hwritten)

theorem normalize_eq_ok_iff : normalize (.str host) standard = .ok r ↔
    ∃ a b, address host = .ok a ∧ Usable a ∧ Completed a standard b ∧ r = String.ofList b.text := by
  constructor
  · intro h
    have hending := ending_normalize host standard
    rw [h] at hending
    cases hending with
    | full haddress husable hb => exact ⟨_, _, haddress, husable, hb, rfl⟩
  · rintro ⟨a, b, haddress, husable, hb, rfl⟩
    rw [normalize_str, normalizeText_of_ok (strip_ne_empty haddress husable.host) haddress,
      if_neg (not_not.mpr husable.scheme), if_neg husable.host]
    cases hb with
    | own hport => rw [hport]
    | standard hport hw => rw [hport, hw]; rfl

/-! ## Reading a host in full -/

theorem Completed.full {n : Int} (hb : Completed a (.int n) b) (ha : a.Divided) : b.Full := by
  cases hb with
  | own hport => exact ⟨ha.trim, fun c hc => isDigit_of_port hport hc⟩
  | standard hport hw =>
      obtain ⟨-, rfl⟩ := Value.written_int_eq_ok_iff.mp hw
      exact ⟨(divided_withPort (fun _ => isNumeral_of_mem_text) ha).trim,
        fun c hc => isDigit_of_withPort hc⟩

theorem strip_text (h : a.Full) :
    strip (String.ofList a.text) = String.ofList (a.trim isBlank).text := by
  have hstart : a.text.dropWhile isBlank = a.text := by
    rcases scheme_cases h.scheme with hs | hs
    · rw [text, hs]
      rfl
    · rw [text, hs]
      rfl
  -- What stands in front of the path ends in a digit, so that the blanks go from the path alone.
  have hfront : trimRight isBlank (a.scheme ++ "://".toList ++ a.authority) =
      a.scheme ++ "://".toList ++ a.authority := by
    refine trimRight_eq_self_iff.mpr fun c hc => ?_
    cases hlast : a.authority.getLast? with
    | none =>
        rw [List.getLast?_eq_none_iff.mp hlast, List.append_nil, List.getLast?_append] at hc
        obtain rfl : '/' = c := Option.some.inj hc
        decide
    | some d =>
        rw [List.getLast?_append, hlast] at hc
        obtain rfl : d = c := Option.some.inj hc
        exact isBlank_of_isDigit (h.digit d hlast)
  rw [strip, String.toList_ofList, trimBoth, hstart]
  exact congrArg String.ofList (trimRight_append hfront)

theorem candidate_text (a : Address) : candidate a.text = a.text := by
  have hoccurs : occursIn "://".toList a.text = true := by
    rw [occursIn_iff, text, List.append_assoc]
    exact List.infix_append _ _ _
  rw [candidate, hoccurs, if_pos rfl]

theorem address_text (h : a.Full) :
    address (String.ofList a.text) = a.check.map fun _ => a.trim isBlank := by
  rw [address, strip_text h, String.toList_ofList, candidate_text, split_text h.trim]
  rfl

/-- How the port of an address that was written with a standard port is read. -/
inductive Reading (a : Address) (standard : Int) (b : Address) : Prop
  | swallowed (hopen : a.OpenBracket) (hstill : b.OpenBracket)
  | refused (hclosed : ¬ a.OpenBracket)
      (hcause : a.EmptyPort ∨ a.port = .absent ∧ ¬ (0 ≤ standard ∧ standard ≤ greatestPort))
      (hport : b.port = .bad)
  | served {n : Nat} (hclosed : ¬ a.OpenBracket) (hcolon : ¬ a.EmptyPort)
      (hcheck : b.check = .ok ()) (hhost : b.host = a.host) (hport : b.port = .known n)
      (hsource : a.port = .known n ∨ a.port = .absent ∧ standard = n)

theorem Completed.reading {p : Int} (hb : Completed a (.int p) b) (hcheck : a.check = .ok ()) :
    Reading a p b := by
  cases hb with
  | own hport =>
      exact .served (not_openBracket_of_port hport) (not_emptyPort_of_port hport) hcheck rfl hport
        (Or.inl hport)
  | standard hport hw =>
      obtain ⟨-, rfl⟩ := Value.written_int_eq_ok_iff.mp hw
      have hnumeral (c : Char) := isNumeral_of_mem_text (c := c) (n := p)
      by_cases hopen : a.OpenBracket
      · exact .swallowed hopen ((openBracket_withPort hnumeral).mpr hopen)
      · obtain ⟨hcheck, hempty, hfull⟩ :=
          withPort_of_portless hnumeral hcheck (port_eq_absent_iff.mp hport) hopen
        by_cases hcolon : a.EmptyPort
        · exact .refused hopen (Or.inl hcolon) (port_of_colon (congrArg Prod.snd (hempty hcolon)))
        · have hread := hfull hcolon
          have hhost : (a.withPort (Value.int p).text.toList).host = a.host := by
            rw [Address.host, hread]
          have hvalue := port_of_text (congrArg Prod.snd hread)
          split at hvalue
          · rename_i hrange
            refine .served hopen hcolon hcheck hhost hvalue (Or.inr ⟨hport, ?_⟩)
            exact (Int.toNat_of_nonneg hrange.1).symm
          · rename_i hrange
            exact .refused hopen (Or.inr ⟨hport, hrange⟩) hvalue

/-- A host that is written is written as an address in full, whose port is read in one of three ways. -/
theorem reading_of_normalize {p : Int} (h : normalize (.str host) (.int p) = .ok r) :
    ∃ a b, address host = .ok a ∧ a.host ≠ [] ∧ b.Full ∧ Completed a (.int p) b ∧
      Reading a p b ∧ r = String.ofList b.text := by
  obtain ⟨a, b, ha, husable, hb, hr⟩ := normalize_eq_ok_iff.mp h
  obtain ⟨hdivided, hcheck⟩ := divided_of_split ha husable.scheme husable.host
  exact ⟨a, b, ha, husable.host, hb.full hdivided, hb, hb.reading hcheck, hr⟩

/-! ## Writing a host again -/

/-- An address that is written so that it is not changed any more. -/
structure Settled (a : Address) : Prop where
  bracket : ¬ a.OpenBracket
  port : ¬ a.EmptyPort
  path : ∀ c ∈ (a.trim slash).path.getLast?, isBlank c = false

variable {q : Value}

theorem normalize_text_of_known {n : Nat} (h : a.Full) (hcheck : a.check = .ok ())
    (hhost : a.host ≠ []) (hport : a.port = .known n) :
    normalize (.str (String.ofList a.text)) q =
      .ok (String.ofList ((a.trim isBlank).trim slash).text) := by
  refine normalize_eq_ok_iff.mpr ⟨a.trim isBlank, _, ?_, ⟨h.scheme, hhost⟩, .own hport, rfl⟩
  rw [address_text h, hcheck]
  rfl

theorem trim_trim_eq_iff (h : trimRight slash a.path = a.path) :
    (a.trim isBlank).trim slash = a ↔ ∀ c ∈ a.path.getLast?, isBlank c = false := by
  rw [← trimRight_eq_self_iff]
  constructor
  · intro hself
    have hpath : trimRight slash (trimRight isBlank a.path) = a.path :=
      congrArg Address.path hself
    have hprefix := trimRight_isPrefix slash (trimRight isBlank a.path)
    rw [hpath] at hprefix
    exact (trimRight_isPrefix isBlank a.path).eq_of_length_le hprefix.length_le
  · intro hkept
    simp only [trim, hkept, h]

theorem normalize_text_eq_self_iff {n : Nat} (h : a.Full) (hcheck : a.check = .ok ())
    (hhost : a.host ≠ []) (hport : a.port = .known n) (hslash : trimRight slash a.path = a.path) :
    normalize (.str (String.ofList a.text)) q = .ok (String.ofList a.text) ↔
      ∀ c ∈ a.path.getLast?, isBlank c = false := by
  rw [normalize_text_of_known h hcheck hhost hport, ← trim_trim_eq_iff hslash, Except.ok.injEq,
    String.ofList_inj]
  exact ⟨text_inj h.trim.trim h.toDivided, congrArg text⟩

theorem normalize_text_ne_self_of_absent (h : a.Full) (hport : a.port = .absent) :
    normalize (.str (String.ofList a.text)) q ≠ .ok (String.ofList a.text) := by
  intro hself
  obtain ⟨b, c, hb, -, hc, hr⟩ := normalize_eq_ok_iff.mp hself
  rw [address_text h, Except.map_eq_ok_iff] at hb
  obtain ⟨_, -, rfl⟩ := hb
  cases hc with
  | own hknown => cases hport.symm.trans hknown
  | standard _ _ =>
      -- The port would stand where the path begins, and a path begins with a slash.
      have htext := String.ofList_inj.mp hr
      simp only [text, trim, withPort, List.append_assoc] at htext
      have hpath := List.append_cancel_left (List.append_cancel_left (List.append_cancel_left htext))
      exact absurd (h.start ':' (by rw [hpath]; rfl)) (by decide)

theorem normalize_text_ne_ok_of_bad (h : a.Full) (hport : a.port = .bad) :
    normalize (.str (String.ofList a.text)) q ≠ .ok r := by
  intro hok
  obtain ⟨b, c, hb, -, hc, -⟩ := normalize_eq_ok_iff.mp hok
  rw [address_text h, Except.map_eq_ok_iff] at hb
  obtain ⟨_, -, rfl⟩ := hb
  cases hc with
  | own hknown => cases hport.symm.trans hknown
  | standard habsent _ => cases hport.symm.trans habsent

theorem Completed.path (hb : Completed a standard b) : b.path = (a.trim slash).path := by
  cases hb <;> rfl

theorem normalize_again_iff {p : Int} (ha : address host = .ok a) (hp : 0 ≤ p)
    (hp' : p ≤ greatestPort) (h : normalize (.str host) (.int p) = .ok r) (q : Value) :
    normalize (.str r) q = .ok r ↔ Settled a := by
  obtain ⟨a', b, ha', hgiven, hfull, hb, hreading, rfl⟩ := reading_of_normalize h
  obtain rfl : a' = a := Except.ok.inj (ha'.symm.trans ha)
  cases hreading with
  | swallowed hopen hstill =>
      refine iff_of_false ?_ fun hsettled => hsettled.bracket hopen
      exact normalize_text_ne_self_of_absent hfull (port_of_open hstill)
  | refused hclosed hcause hport =>
      refine iff_of_false (normalize_text_ne_ok_of_bad hfull hport) ?_
      intro hsettled
      rcases hcause with hempty | ⟨-, hrange⟩
      · exact hsettled.port hempty
      · exact hrange ⟨hp, hp'⟩
  | served hclosed hcolon hcheck hhost hport _ =>
      have hslash : trimRight slash b.path = b.path := by
        rw [hb.path]
        exact trimRight_trimRight slash a'.path
      rw [normalize_text_eq_self_iff hfull hcheck (hhost ▸ hgiven) hport hslash, hb.path]
      exact ⟨fun hpath => ⟨hclosed, hcolon, hpath⟩, fun hsettled => hsettled.path⟩

/-! ## What a host in full is good for -/

/-- `b` is an address of the host of `a`, with the port of `a` or the standard one. -/
structure Serves (a b : Address) (standard : Int) : Prop where
  scheme : b.scheme ∈ schemes
  hostname : b.hostname = a.hostname
  given : b.hostname ≠ ""
  port : ∃ n : Nat, b.port = .known n ∧ n ≤ greatestPort ∧
    (a.port = .known n ∨ a.port = .absent ∧ standard = n)

theorem lowerChar_ne_nil (c : Char) : Case.lowerChar c ≠ [] := by
  rw [Case.lowerChar]
  split
  · nofun
  · split
    · nofun
    · split <;> nofun

theorem lower_ne_empty {s : String} (h : s ≠ "") : lower s ≠ "" := by
  intro hlower
  have hnil : Case.lowerFrom false s.toList = [] := String.ofList_eq_empty_iff.mp hlower
  cases hs : s.toList with
  | nil => exact h (String.toList_eq_nil_iff.mp hs)
  | cons c cs =>
      rw [hs, Case.lowerFrom, List.append_eq_nil_iff] at hnil
      split at hnil
      · cases hnil.1
      · exact lowerChar_ne_nil c hnil.1

theorem hostname_ne_empty (h : a.host ≠ []) : a.hostname ≠ "" := by
  rw [hostname]
  rcases cutFirst_cases '%' a.host with ⟨-, hcut⟩ | ⟨name, scope, -, -, hcut⟩
  · rw [hcut]
    exact lower_ne_empty (by simpa using h)
  · rw [hcut]
    simp

theorem hostname_congr (h : b.host = a.host) : b.hostname = a.hostname := by
  rw [hostname, hostname, h]

/-- A host serves the entry that it was written for, unless a bracket is open there. -/
def Served (standard : Int) (entry host : String) : Prop :=
  ∃ a, address entry = .ok a ∧
    ((∃ b, Address.split host.toList = .ok b ∧ Serves a b standard) ↔ ¬ a.OpenBracket)

theorem served_of_normalize {entry mid : String} {p : Int}
    (h : normalize (.str entry) (.int p) = .ok mid)
    (hagain : normalize (.str mid) standardPort = .ok host) : Served p entry host := by
  obtain ⟨a, b, ha, hgiven, hfull, -, hreading, rfl⟩ := reading_of_normalize h
  refine ⟨a, ha, ?_⟩
  cases hreading with
  | swallowed hopen hstill =>
      refine iff_of_false ?_ (not_not.mpr hopen)
      obtain ⟨b', c, hb', -, hc, rfl⟩ := normalize_eq_ok_iff.mp hagain
      rw [address_text hfull, Except.map_eq_ok_iff] at hb'
      obtain ⟨_, hcheck, rfl⟩ := hb'
      rintro ⟨d, hd, hserves⟩
      rw [String.toList_ofList, split_text (hc.full hfull.trim).toDivided, Except.map_eq_ok_iff] at hd
      obtain ⟨_, -, rfl⟩ := hd
      obtain ⟨n, hport, -⟩ := hserves.port
      -- The bracket is still open, so that the second port belongs to the host as well.
      cases hc.reading hcheck with
      | swallowed _ hagain => cases (port_of_open hagain).symm.trans hport
      | refused hclosed => exact hclosed hstill
      | served hclosed => exact hclosed hstill
  | refused _ _ hport =>
      exact absurd hagain (normalize_text_ne_ok_of_bad hfull hport)
  | served hclosed _ hcheck hhost hport hsource =>
      rw [normalize_text_of_known hfull hcheck (hhost ▸ hgiven) hport] at hagain
      obtain rfl := Except.ok.inj hagain
      refine iff_of_true ⟨(b.trim isBlank).trim slash, ?_, ?_⟩ hclosed
      · rw [String.toList_ofList, split_text hfull.trim.trim]
        exact congrArg (Except.map _) hcheck
      · have hname : b.hostname = a.hostname := hostname_congr hhost
        exact ⟨hfull.scheme, hname, hname ▸ hostname_ne_empty hgiven,
          _, hport, (digits_of_port hport).2.2, hsource⟩

end Host

end DocSearch
