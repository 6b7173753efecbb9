import DocSearch.Builder.Session
import DocSearch.Proofs.Config.Connections

/-!
# Failures of hosts and connections

What is made from settings fails with a configuration error, except that the faults of some hosts come
through: of those whose address cannot be split, and of those that lack a port where the one of the
settings has too many digits. The first such host of the list decides.
-/

namespace DocSearch

open Address Host Text

def Error.IsConfig (e : Error) : Prop :=
  ∃ cause, e = .config cause

/-- The computation fails with configuration errors only, except for the faults that escape. -/
structure Guarded {α : Type} (escapes : Fault → Prop) (x : Except Error α) : Prop where
  only : Except.FailsOnly (fun e => e.IsConfig ∨ ∃ f, e = .fault f ∧ escapes f) x
  escape : ∀ f, escapes f → x = .error (.fault f)

namespace Guarded

variable {α β : Type} {escapes : Fault → Prop} {x : Except Error α}

theorem map {f : α → β} (hx : Guarded escapes x) : Guarded escapes (x.map f) where
  only := hx.only.map
  escape f hf := by rw [hx.escape f hf]; rfl

theorem bind {f : α → Except Error β} (hx : Guarded escapes x)
    (hf : ∀ v, Except.FailsOnly Error.IsConfig (f v)) : Guarded escapes (x >>= f) where
  only := hx.only.bind fun v _ => (hf v).mono fun _ => Or.inl
  escape f hf := by rw [hx.escape f hf]; rfl

/-- The first of the list that escapes does so if those before it return. -/
theorem mapM {escapes : α → Fault → Prop} {f : α → Except Error β}
    (hf : ∀ x, Guarded (escapes x) (f x)) (xs : List α) :
    Guarded (fun g => ∃ front x back, xs = front ++ x :: back ∧
      (∀ w ∈ front, ∃ y, f w = .ok y) ∧ escapes x g) (xs.mapM f) where
  only e he := by
    obtain ⟨front, x, back, hxs, hfront, hx⟩ := Except.mapM_eq_error_iff.mp he
    rcases (hf x).only e hx with hconfig | ⟨g, rfl, hg⟩
    · exact Or.inl hconfig
    · exact Or.inr ⟨g, rfl, front, x, back, hxs, hfront, hg⟩
  escape g := by
    rintro ⟨front, x, back, hxs, hfront, hx⟩
    exact Except.mapM_eq_error_iff.mpr ⟨front, x, back, hxs, hfront, (hf x).escape g hx⟩

end Guarded

/-! ## Hosts -/

namespace Host

variable {host : String} {standard : Int}

/-- The faults that come through when a host is written in full. -/
inductive Escapes (host : String) (standard : Int) : Fault → Prop
  | address {e : AddressFault} (hgiven : strip host ≠ "") (h : address host = .error e) :
      Escapes host standard (.address e)
  | port {a : Address} (h : address host = .ok a) (husable : Usable a) (hport : a.port = .absent)
      (hlong : Number.Reading.maxDigits < (toString standard.natAbs).length) :
      Escapes host standard .badContent

theorem guarded_normalize (host : String) (standard : Int) :
    Guarded (Escapes host standard) (normalize (.str host) (.int standard)) where
  only e he := by
    have hending := ending_normalize host (.int standard)
    rw [he] at hending
    cases hending with
    | empty _ => exact Or.inl ⟨_, rfl⟩
    | fault hgiven haddress => exact Or.inr ⟨_, rfl, .address hgiven haddress⟩
    | scheme _ _ => exact Or.inl ⟨_, rfl⟩
    | malformed _ _ => exact Or.inl ⟨_, rfl⟩
    | badPort _ _ => exact Or.inl ⟨_, rfl⟩
    | unwritten haddress husable hport hwritten =>
        rw [Value.written] at hwritten
        split at hwritten
        · cases hwritten
        · rename_i hlong
          exact Or.inr ⟨_, (Except.error.inj hwritten).symm,
            .port haddress husable hport (Value.not_isWritable_int.mp hlong)⟩
  escape f hf := by
    rw [normalize_str]
    cases hf with
    | address hgiven haddress => exact normalizeText_of_error hgiven haddress
    | port haddress husable hport hlong =>
        rw [normalizeText_of_ok (strip_ne_empty haddress husable.host) haddress,
          if_neg (not_not.mpr husable.scheme), if_neg husable.host, hport]
        rw [Value.written_of_not_isWritable (Value.not_isWritable_int.mpr hlong)]
        rfl

/-! ### Hosts without odd characters -/

/-- The characters that the checks of an authority stop at. -/
def isOdd (c : Char) : Bool :=
  c = '[' || c = ']' || disguised.contains c.toNat

theorem exists_odd_of_check {a : Address} {e : AddressFault} (h : a.check = .error e) :
    ∃ c ∈ a.authority, isOdd c = true := by
  rcases Except.bind_eq_error_iff.mp h with h | ⟨_, -, h⟩
  · by_cases hopen : '[' ∈ a.authority
    · exact ⟨_, hopen, rfl⟩
    · by_cases hclose : ']' ∈ a.authority
      · exact ⟨_, hclose, rfl⟩
      · rw [checkBrackets, Bool.eq_false_iff.mpr (List.contains_iff_mem.not.mpr hopen),
          Bool.eq_false_iff.mpr (List.contains_iff_mem.not.mpr hclose)] at h
        cases h
  · rw [checkDelimiters] at h
    split at h
    · rename_i hany
      obtain ⟨c, hc, hodd⟩ := List.any_eq_true.mp hany
      exact ⟨c, hc, by rw [isOdd, hodd, Bool.or_true]⟩
    · cases h

theorem mem_of_mem_authority {c : Char} {cs : List Char} (h : c ∈ (Address.parts cs).authority) :
    c ∈ cs := by
  have hclean : c ∈ Address.clean cs := by
    rcases takeAuthority_cases (takeScheme (Address.clean cs)).2 with hnone | ⟨hmem, -⟩
    · rw [show (Address.parts cs).authority = [] from hnone] at h
      cases h
    · exact mem_of_mem_takeScheme (hmem c h).1
  exact (List.dropWhile_subset _) (List.mem_of_mem_filter hclean)

theorem mem_of_mem_strip {c : Char} {s : String} (h : c ∈ (strip s).toList) : c ∈ s.toList := by
  rw [strip, String.toList_ofList] at h
  exact (List.dropWhile_subset _) ((trimRight_isPrefix _ _).subset h)

theorem exists_odd_of_address {e : AddressFault} (h : address host = .error e) :
    ∃ c ∈ host.toList, isOdd c = true := by
  rw [address, split_eq, Except.map_eq_error_iff] at h
  obtain ⟨c, hc, hodd⟩ := exists_odd_of_check h
  have hmem := mem_of_mem_authority hc
  rw [candidate] at hmem
  split at hmem
  · exact ⟨c, mem_of_mem_strip hmem, hodd⟩
  · rcases List.mem_append.mp hmem with hscheme | hmem
    · have hplain : ∀ c ∈ "http://".toList, isOdd c = false := by
        simp [isOdd, disguised]
      rw [hplain c hscheme] at hodd
      cases hodd
    · exact ⟨c, mem_of_mem_strip hmem, hodd⟩

/-- A host without odd characters is written in full or refused by a configuration error. -/
theorem failsOnly_normalize (hplain : ∀ c ∈ host.toList, isOdd c = false)
    (hshort : (toString standard.natAbs).length ≤ Number.Reading.maxDigits) :
    Except.FailsOnly Error.IsConfig (normalize (.str host) (.int standard)) := by
  refine (guarded_normalize host standard).only.mono fun e he => ?_
  rcases he with hconfig | ⟨f, -, hf⟩
  · exact hconfig
  · cases hf with
    | address _ h =>
        obtain ⟨c, hc, hodd⟩ := exists_odd_of_address h
        rw [hplain c hc] at hodd
        cases hodd
    | port _ _ _ hlong => exact absurd hlong (Nat.not_lt.mpr hshort)

end Host

/-! ## Connections -/

namespace Connection

variable {checks : FieldChecks}

theorem failsOnly_fullHosts (hs : List String) :
    Except.FailsOnly Error.IsConfig (fullHosts checks hs) := by
  rw [fullHosts]
  split
  · exact Except.failsOnly_error ⟨_, rfl⟩
  · split
    · exact Except.failsOnly_ok _
    · exact Except.failsOnly_ok _
    · rename_i e hother he
      obtain ⟨front, host, back, -, -, hhost⟩ := Except.mapM_eq_error_iff.mp he
      rcases (guarded_normalize host 9200).only e hhost with hconfig | ⟨f, rfl, hf⟩
      · exact Except.failsOnly_error hconfig
      -- A fault of the address is a problem of the field, and the standard port is short.
      · cases hf with
        | address _ _ => exact absurd rfl (hother _)
        | port _ _ _ hlong => exact absurd hlong (by decide)

theorem failsOnly_checkHosts (v : Option Value) :
    Except.FailsOnly Error.IsConfig (checkHosts checks v) := by
  cases v with
  | none => exact Except.failsOnly_ok _
  | some v =>
      rw [checkHosts]
      split
      · exact failsOnly_fullHosts _
      · exact Except.failsOnly_ok _

theorem failsOnly_ofArguments (args : Arguments) :
    Except.FailsOnly Error.IsConfig (ofArguments checks args) := by
  refine (failsOnly_checkHosts (Entries.get? args "hosts")).bind fun hosts _ => ?_
  simp only
  split
  · split
    · exact Except.failsOnly_ok _
    · exact Except.failsOnly_error ⟨_, rfl⟩
  · exact Except.failsOnly_error ⟨_, rfl⟩

end Connection

namespace Settings

/-- The fault of the first entry that is not written, if it comes through. -/
def Escapes (s : Settings) (f : Fault) : Prop :=
  ∃ front entry back, s.hostEntries = front ++ entry :: back ∧
    (∀ e ∈ front, ∃ r, normalize (.str e) (.int s.port) = .ok r) ∧ Host.Escapes entry s.port f

theorem guarded_connection (s : Settings) (checks : FieldChecks) :
    Guarded s.Escapes (s.connection checks) :=
  (Guarded.mapM (fun entry => guarded_normalize entry s.port) s.hostEntries).bind
    fun _ => Connection.failsOnly_ofArguments _

theorem guarded_gateway (s : Settings) (checks : FieldChecks) :
    Guarded s.Escapes (s.gateway checks) :=
  (s.guarded_connection checks).map

end Settings

namespace Session

open DocSearch.Action

variable {given : Option Arguments} {s : Settings}

/-- Settings that are read are kept at the most. -/
theorem site_of_settings {t u : Site} (h : Site.settings.Returns t s u) :
    u = { t with cache := u.cache } := by
  obtain ⟨⟨_, c⟩, -, h⟩ := returns_lift_bind_iff.mp (returns_get_bind_iff.mp h)
  obtain ⟨_, _, ⟨-, rfl⟩, h⟩ := returns_bind_iff.mp h
  obtain ⟨-, rfl⟩ := returns_pure_iff.mp h
  rfl

theorem site_of_settingsFor {t u : Site} (h : (settingsFor given).Returns t s u) :
    u = { t with cache := u.cache } := by
  cases given with
  | none => exact site_of_settings h
  | some values =>
      rw [settingsFor] at h
      simp only [returns_get_bind_iff] at h
      obtain ⟨-, rfl⟩ := returns_lift_iff.mp h
      rfl

/-- Without a shared gateway a builder is made with one of its own. -/
theorem result_create {id : String} {t : Session} {site : Site}
    (hnone : t.site.exchange.gateway = none) (h : (settingsFor given).Returns t.site s site) :
    ((create id given).run t).result = (s.gateway t.site.environment.checks).map fun c =>
      ⟨s.mode, s.strictOperators, (Gateway.cluster c).className, (Gateway.cluster c).hosts?⟩ := by
  have hsite : ((onSite (settingsFor given)).run t).result = .ok s := h.1
  have hafter : ((onSite (settingsFor given)).run t).state = { t with site := site } := by
    rw [← h.2]
    rfl
  have hlink : linkFor site.environment.checks s site.exchange.gateway =
      (s.gateway t.site.environment.checks).map .own := by
    rw [site_of_settingsFor h]
    simp only [hnone]
    rfl
  rw [create, run_bind_of_ok hsite, hafter]
  change ((liftM (linkFor site.environment.checks s site.exchange.gateway) >>= _ :
    Action Session Setup).run _).result = _
  rw [hlink]
  cases s.gateway t.site.environment.checks <;> rfl

end Session

open Session in
/-- Writing a host in full, and making a connection, a gateway or a builder from settings, fails with
configuration errors except where a host escapes. -/
theorem guarded_settings (checks : FieldChecks) (host : String) (standard : Int) (s : Settings) :
    Guarded (Host.Escapes host standard) (normalize (.str host) (.int standard)) ∧
    Guarded s.Escapes (s.connection checks) ∧ Guarded s.Escapes (s.gateway checks) ∧
    ∀ id given (t : Session) site, t.site.exchange.gateway = none →
      (settingsFor given).Returns t.site s site →
        Guarded s.Escapes ((create id given).run t).result := by
  refine ⟨guarded_normalize host standard, s.guarded_connection checks,
    s.guarded_gateway checks, ?_⟩
  intro id given t site hnone h
  rw [result_create hnone h]
  exact (s.guarded_gateway t.site.environment.checks).map

/-- A session without a gateway that keeps settings. -/
def Session.keeping (s : Settings) : Session :=
  ⟨⟨⟨none, ⟨[], 0⟩⟩, .empty, ⟨some s⟩, .initial false⟩, [], [], ⟨.str ""⟩⟩

theorem fault_of_second_entry :
    ((Session.create "b" none).run (.keeping (.ofHosts "es1,http://[::1" 9200))).result =
      .error (.fault (.address .unbalancedBrackets)) := by
  have hsettings : (Session.settingsFor none).Returns
      (Session.keeping (.ofHosts "es1,http://[::1" 9200)).site (.ofHosts "es1,http://[::1" 9200)
      (Session.keeping (.ofHosts "es1,http://[::1" 9200)).site := ⟨rfl, rfl⟩
  obtain ⟨-, -, -, hbuilder⟩ := guarded_settings .strict "es1" 9200
    (.ofHosts "es1,http://[::1" 9200)
  have hguarded := hbuilder "b" none _ _ rfl hsettings
  refine hguarded.escape _ ⟨["es1"], "http://[::1", [], rfl, ?_, .address (by decide) rfl⟩
  rintro _ (_ | ⟨_, ⟨⟩⟩)
  exact ⟨"http://es1:9200", rfl⟩

/-- A bracket that is not closed comes through as the fault of the address. -/
theorem open_bracket_escapes :
    normalize (.str "http://[::1") (.int 9200) = .error (.fault (.address .unbalancedBrackets)) ∧
      (Settings.ofHosts "http://[::1" 9200).connection .strict =
        .error (.fault (.address .unbalancedBrackets)) :=
  ⟨rfl, rfl⟩

end DocSearch
