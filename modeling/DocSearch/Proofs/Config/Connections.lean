import DocSearch.Config.Settings
import DocSearch.Proofs.Config.Hosts

/-!
# Hosts of a connection

A connection that is made from settings writes every host twice: with the port of the settings, and
again with the standard one. The second time finds the port of the first, unless a bracket is open.
-/

namespace DocSearch

open Address Host Text

/-! ## Lists taken pairwise -/

namespace Pairwise

variable {α β γ : Type} {R : α → β → Prop} {xs : List α} {ys : List β}

theorem exists_of_mem (h : List.Forall₂ R xs ys) : ∀ x ∈ xs, ∃ y ∈ ys, R x y := by
  induction h with
  | nil => nofun
  | @cons x y xs ys hxy _ ih =>
      refine List.forall_mem_cons.mpr ⟨⟨y, List.mem_cons_self, hxy⟩, fun w hw => ?_⟩
      obtain ⟨z, hz, hwz⟩ := ih w hw
      exact ⟨z, List.mem_cons_of_mem y hz, hwz⟩

theorem forall_mem_iff {P : α → Prop} {Q : β → Prop} (h : List.Forall₂ R xs ys)
    (hiff : ∀ x y, R x y → (P x ↔ Q y)) : (∀ x ∈ xs, P x) ↔ ∀ y ∈ ys, Q y := by
  constructor
  · intro hall y hy
    obtain ⟨x, hx, hxy⟩ := exists_of_mem h.flip y hy
    exact (hiff x y hxy).mp (hall x hx)
  · intro hall x hx
    obtain ⟨y, hy, hxy⟩ := exists_of_mem h x hx
    exact (hiff x y hxy).mpr (hall y hy)

theorem comp {S : β → γ → Prop} {T : α → γ → Prop} {zs : List γ}
    (h : ∀ x y z, R x y → S y z → T x z) (hxy : List.Forall₂ R xs ys)
    (hyz : List.Forall₂ S ys zs) : List.Forall₂ T xs zs := by
  induction hxy generalizing zs with
  | nil =>
      cases hyz
      exact .nil
  | cons hx _ ih =>
      cases hyz with
      | cons hy htail => exact .cons (h _ _ _ hx hy) (ih htail)

end Pairwise

/-! ## Connections of given hosts -/

namespace Connection

variable {checks : FieldChecks} {args : Arguments} {c : Connection} {v : Value}
  {hs full : List String}

theorem fullHosts_eq_ok_iff : fullHosts checks hs = .ok (.ok full) ↔
    hs ≠ [] ∧ List.Forall₂ (fun h f => normalize (.str h) standardPort = .ok f) hs full := by
  rw [← Except.mapM_eq_ok_iff, fullHosts]
  split
  · rename_i hnone
    simp [List.isEmpty_iff.mp hnone]
  · rename_i hsome
    have hne : hs ≠ [] := fun hnil => hsome (List.isEmpty_iff.mpr hnil)
    split
    · rename_i hall
      simp [hne, hall]
    · rename_i hall
      simp [hall]
    · rename_i hall
      simp [hall]

theorem checkHosts_of_ok (h : ofArguments checks args = .ok c) :
    checkHosts checks (Entries.get? args "hosts") = .ok (.ok c.hosts) := by
  obtain ⟨hosts, hhosts, h⟩ := Except.bind_eq_ok_iff.mp h
  rw [hhosts]
  simp only at h
  split at h
  · split at h
    · obtain rfl := Except.ok.inj h
      rfl
    · cases h
  · cases h

theorem ofArguments_hosts_iff : (∃ d, ofArguments checks [("hosts", v)] = .ok d ∧ d.hosts = full) ↔
    checkHosts checks (some v) = .ok (.ok full) := by
  constructor
  · rintro ⟨d, hd, rfl⟩
    exact checkHosts_of_ok hd
  · intro h
    refine ⟨⟨full, none, none, none, none⟩, Except.bind_eq_ok_iff.mpr ⟨.ok full, h, ?_⟩, rfl⟩
    rfl

theorem checkHosts_list (hs : List String) :
    checkHosts checks (some (.list (hs.map .str))) = fullHosts checks hs := by
  rw [checkHosts, checks.texts_list]

/-- The hosts of a connection, when they are given, are the hosts of its list in full. -/
theorem hosts_of_ok (h : ofArguments checks args = .ok c) :
    (Entries.get? args "hosts" = none ∧ c.hosts = standardHosts) ∨
      ∃ v hs, Entries.get? args "hosts" = some v ∧ checks.texts v = .ok hs ∧
        hs ≠ [] ∧ List.Forall₂ (fun h f => normalize (.str h) standardPort = .ok f) hs c.hosts := by
  have hchecked := checkHosts_of_ok h
  cases hgiven : Entries.get? args "hosts" with
  | none =>
      rw [hgiven] at hchecked
      exact Or.inl ⟨rfl, (Except.ok.inj (Except.ok.inj hchecked)).symm⟩
  | some v =>
      rw [hgiven, checkHosts] at hchecked
      cases htexts : checks.texts v with
      | error ps =>
          rw [htexts] at hchecked
          cases hchecked
      | ok hs =>
          rw [htexts] at hchecked
          exact Or.inr ⟨v, hs, rfl, htexts, fullHosts_eq_ok_iff.mp hchecked⟩

theorem rebuilt_iff (h : ofArguments checks args = .ok c) :
    (∃ d, ofArguments checks [("hosts", c.hostList)] = .ok d ∧ d.hosts = c.hosts) ↔
      ∀ v hs, Entries.get? args "hosts" = some v → checks.texts v = .ok hs →
        ∀ host ∈ hs, ∃ a, address host = .ok a ∧ Settled a := by
  rw [ofArguments_hosts_iff, hostList, checkHosts_list]
  rcases hosts_of_ok h with ⟨hnone, hhosts⟩ | ⟨v, hs, hgiven, htexts, hne, hfull⟩
  · rw [hhosts, hnone]
    exact iff_of_true rfl nofun
  · have hkept : c.hosts ≠ [] := fun hnil => hne (by rw [hnil] at hfull; cases hfull; rfl)
    rw [fullHosts_eq_ok_iff, and_iff_right hkept, List.forall₂_same]
    have heach (host f : String) (hf : normalize (.str host) standardPort = .ok f) :
        (∃ a, address host = .ok a ∧ Settled a) ↔ normalize (.str f) standardPort = .ok f := by
      obtain ⟨a, -, ha, -⟩ := normalize_eq_ok_iff.mp hf
      rw [normalize_again_iff ha (by decide) (by decide) hf]
      constructor
      · rintro ⟨b, hb, hsettled⟩
        rwa [Except.ok.inj (ha.symm.trans hb)]
      · intro hsettled
        exact ⟨a, ha, hsettled⟩
    rw [← Pairwise.forall_mem_iff hfull heach]
    constructor
    · intro hall w hs' hw hws
      obtain rfl := Option.some.inj (hgiven.symm.trans hw)
      obtain rfl := Except.ok.inj (htexts.symm.trans hws)
      exact hall
    · intro hall
      exact hall v hs hgiven htexts

/-- A host in full is not changed by writing it again, and the hosts of a connection are not changed by
making it again, exactly if the addresses that they were read of are settled. -/
theorem unchanged_iff_settled (checks : FieldChecks) (host r : String) (p : Int) (args : Arguments)
    (c : Connection) :
    (0 ≤ p → p ≤ greatestPort → normalize (.str host) (.int p) = .ok r →
      ∃ a, address host = .ok a ∧ ∀ q, normalize (.str r) q = .ok r ↔ Settled a) ∧
    (ofArguments checks args = .ok c →
      ((∃ d, ofArguments checks [("hosts", c.hostList)] = .ok d ∧ d.hosts = c.hosts) ↔
        ∀ v hs, Entries.get? args "hosts" = some v → checks.texts v = .ok hs →
          ∀ h ∈ hs, ∃ a, address h = .ok a ∧ Settled a)) := by
  refine ⟨fun hp hp' h => ?_, fun h => rebuilt_iff h⟩
  obtain ⟨a, -, ha, -⟩ := normalize_eq_ok_iff.mp h
  exact ⟨a, ha, normalize_again_iff ha hp hp' h⟩

theorem unchanged_of_bare_name :
    (∀ q, normalize (.str "http://es1:9200") q = .ok "http://es1:9200") ∧
      ∃ a, address " es1/ " = .ok a ∧ Settled a := by
  obtain ⟨hhost, hconnection⟩ := unchanged_iff_settled .strict " es1/ " "http://es1:9200" 9200
    [("hosts", .list [.str " es1/ "])] ⟨["http://es1:9200"], none, none, none, none⟩
  obtain ⟨a, -, hiff⟩ := hhost (by decide) (by decide) rfl
  have hsettled := (hiff standardPort).mp rfl
  refine ⟨fun q => (hiff q).mpr hsettled, ?_⟩
  exact (hconnection rfl).mp ⟨⟨["http://es1:9200"], none, none, none, none⟩, rfl, rfl⟩
    (.list [.str " es1/ "]) [" es1/ "] rfl rfl " es1/ " List.mem_cons_self

/-- A colon without a port stays in front of the port that is written, and the two are no port. -/
theorem dangling_colon_refused_again :
    normalize (.str "es1:") (.int 9200) = .ok "http://es1::9200" ∧
      normalize (.str "http://es1::9200") (.int 9200) =
        .error (.config (.badPort "http://es1::9200")) :=
  ⟨rfl, rfl⟩

end Connection

/-! ## Connections of settings -/

namespace Settings

variable {checks : FieldChecks} {s : Settings} {c : Connection}

/-- Every host of the connection was written twice. -/
theorem hosts_of_connection (h : s.connection checks = .ok c) :
    List.Forall₂ (fun entry host => ∃ mid, normalize (.str entry) (.int s.port) = .ok mid ∧
      normalize (.str mid) standardPort = .ok host) s.hostEntries c.hosts := by
  obtain ⟨mids, hmids, hc⟩ := Except.bind_eq_ok_iff.mp h
  have hchecked : Connection.checkHosts checks (some (.list (mids.map .str))) = .ok (.ok c.hosts) :=
    Connection.checkHosts_of_ok hc
  rw [Connection.checkHosts_list, Connection.fullHosts_eq_ok_iff] at hchecked
  exact Pairwise.comp (fun _ mid _ hmid hhost => ⟨mid, hmid, hhost⟩)
    (Except.mapM_eq_ok_iff.mp hmids) hchecked.2

/-- Every host of a connection serves the entry that it was made of, unless a bracket is open there.
A port out of range is written for none of the other entries. -/
theorem served_of_connection (h : s.connection checks = .ok c) :
    List.Forall₂ (Served s.port) s.hostEntries c.hosts ∧
      (¬ (0 ≤ s.port ∧ s.port ≤ greatestPort) → ∀ entry ∈ s.hostEntries,
        ∃ a, address entry = .ok a ∧ (a.port = .absent → a.OpenBracket)) := by
  have hserved : List.Forall₂ (Served s.port) s.hostEntries c.hosts :=
    (hosts_of_connection h).imp fun _ _ ⟨_, hmid, hhost⟩ => served_of_normalize hmid hhost
  refine ⟨hserved, fun hrange entry hentry => ?_⟩
  obtain ⟨host, -, a, ha, hiff⟩ := Pairwise.exists_of_mem hserved entry hentry
  refine ⟨a, ha, fun habsent => not_not.mp fun hclosed => hrange ?_⟩
  obtain ⟨b, -, hserves⟩ := hiff.mpr hclosed
  obtain ⟨n, -, hn, hown | ⟨-, hport⟩⟩ := hserves.port
  · cases habsent.symm.trans hown
  · rw [hport]
    exact ⟨Int.natCast_nonneg n, Int.ofNat_le.mpr hn⟩

def ofHosts (hosts : String) (port : Int) : Settings :=
  ⟨hosts, port, none, none, none, none, .raw, false, false, "INFO", false⟩

theorem served_of_three_entries :
    (ofHosts " es1/ ,http://u@[::1]:9300,]@[::1" 9200).connection .strict =
        .ok ⟨["http://es1:9200", "http://u@[::1]:9300", "http://]@[::1:9200:9200"],
          none, none, none, none⟩ ∧
      List.Forall₂ (Served 9200) [" es1/ ", "http://u@[::1]:9300", "]@[::1"]
        ["http://es1:9200", "http://u@[::1]:9300", "http://]@[::1:9200:9200"] := by
  have h : (ofHosts " es1/ ,http://u@[::1]:9300,]@[::1" 9200).connection .strict =
      .ok ⟨["http://es1:9200", "http://u@[::1]:9300", "http://]@[::1:9200:9200"],
        none, none, none, none⟩ := rfl
  exact ⟨h, (served_of_connection h).1⟩

/-- Behind an open bracket both ports are read as parts of the host. -/
theorem open_bracket_takes_ports :
    (ofHosts "]@[::1%a" 70000).connection .strict =
        .ok ⟨["http://]@[::1%a:70000:9200"], none, none, none, none⟩ ∧
      ∃ a b, address "]@[::1%a" = .ok a ∧ a.port = .absent ∧ a.hostname = "::1%a" ∧
        Address.split "http://]@[::1%a:70000:9200".toList = .ok b ∧ b.port = .absent ∧
        b.hostname = "::1%a:70000:9200" :=
  ⟨rfl, ⟨"http".toList, "]@[::1%a".toList, []⟩,
    ⟨"http".toList, "]@[::1%a:70000:9200".toList, []⟩, rfl, rfl, rfl, rfl, rfl, rfl⟩

end Settings

end DocSearch
