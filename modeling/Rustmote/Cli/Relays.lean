import Rustmote.Cli.History
import Rustmote.Config.Keys

/-!
# The relays of targets

`target add --via` looks its relay up, so that `connect` will not miss it. `server remove` does not
look at the targets. `relaysResolve_iff` is when `connect` finds the relay of every target, over
all histories.
-/

namespace Rustmote

namespace Cli

variable {toml : TomlFormat Config} {path : PathBuf} {file : Option Str} {cfg cfg' : Config}
  {command : CliCommand}

/-- Every relay that a target names is registered. -/
def RelaysKnown (cfg : Config) : Prop :=
  ∀ t ∈ cfg.targets, ∀ via, t.viaServer = some via → via ∈ cfg.names

/-- A target names this relay. -/
def Relays (cfg : Config) (name : Str) : Prop := ∃ t ∈ cfg.targets, t.viaServer = some name

/-- **A command keeps the relays known**, unless it removes one that a target names. -/
theorem relaysKnown_edits (h : Edits command cfg (some cfg')) (hcfg : RelaysKnown cfg)
    (hremove : ∀ name, command = .serverRemove name → ¬ Relays cfg name) : RelaysKnown cfg' := by
  cases h with
  | serverAdd server _ _ =>
    intro t ht via hvia
    rw [Config.names, List.map_append]
    exact List.mem_append_left _ (hcfg t ht via hvia)
  | serverRemove _ =>
    intro t ht via hvia
    obtain ⟨s, hs, rfl⟩ := List.mem_map.mp (hcfg t ht via hvia)
    have hne : s.name ≠ _ := fun heq => hremove _ rfl ⟨t, ht, hvia.trans (congrArg some heq)⟩
    exact List.mem_map_of_mem ((List.mem_eraseP_of_neg (by simpa using hne)).mpr hs)
  | targetAdd target _ _ hknown =>
    intro t ht via hvia
    rcases List.mem_append.mp ht with ht | ht
    · exact hcfg t ht via hvia
    · rw [List.mem_singleton.mp ht] at hvia
      exact hknown via hvia
  | targetRemove =>
    intro t ht via hvia
    exact hcfg t (List.mem_of_mem_eraseP ht) via hvia
  | setMode new _ _ => exact hcfg
  | connect _ _ via i _ _ _ =>
    intro t ht v hv
    rw [names_modify]
    exact hcfg t ht v hv

/-- **Removing a relay that a target names leaves it unknown.** -/
theorem not_relaysKnown_of_remove {name : Str} (hcfg : cfg.Sound) (hrelays : Relays cfg name)
    (h : Edits (.serverRemove name) cfg (some cfg')) : ¬ RelaysKnown cfg' := by
  cases h with
  | serverRemove _ =>
    intro hknown
    obtain ⟨t, ht, hvia⟩ := hrelays
    -- names are distinct, so it is not there any more
    have hgone : name ∉ (cfg.servers.eraseP fun s => s.name = name).map RemoteServer.name := by
      rw [map_eraseP_key]
      exact hcfg.names_nodup.not_mem_erase
    exact hgone (hknown t ht name hvia)

/-- `server remove` of a registered name succeeds. -/
theorem run_serverRemove_ok (htotal : toml.Total) {name : Str}
    (hload : Config.loadFrom toml path file = .ok cfg) (hname : name ∈ cfg.names) (e : CliError) :
    (run toml path (.serverRemove name) file).1 ≠ .error e := by
  obtain ⟨s, hs, rfl⟩ := List.mem_map.mp hname
  obtain ⟨found, hfound⟩ := Option.isSome_iff_exists.mp
    (List.find?_isSome.mpr ⟨s, hs, by simp⟩ :
      (cfg.servers.find? fun r => r.name = s.name).isSome)
  have hremove : cfg.removeServer s.name =
      .ok (found, { cfg with servers := cfg.servers.eraseP fun r => r.name = s.name }) := by
    unfold Config.removeServer
    rw [hfound]
  have hedit : edit toml path (.serverRemove s.name) file =
      .ok (.saving { cfg with servers := cfg.servers.eraseP fun r => r.name = s.name }) := by
    unfold edit prepare serverRemove load
    rw [orContext_eq_ok.mpr hload]
    show (orContext (cfg.removeServer s.name) _ >>= _) = _
    rw [orContext_eq_ok.mpr hremove]
    rfl
  obtain ⟨text, htext⟩ := htotal { cfg with servers := cfg.servers.eraseP fun r => r.name = s.name }
  unfold run
  rw [hedit]
  simp only [Edit.saving, Config.serialize, htext]
  exact fun h => by cases h

/-- What `connect` resolves without `--via` for a registered target is the target's own relay, and
that server is found. -/
def ConnectFindsRelays (cfg : Config) : Prop :=
  ∀ arg id t via, resolveTarget cfg arg = .ok (id, some t) → t.viaServer = some via →
    resolveViaName none (some t) cfg = .ok via ∧ ∃ server, cfg.getServer via = .ok server

/-- What a name or a label is resolved to is a target of the registry. -/
theorem mem_targets_of_resolveTarget {arg : Str} {id : TargetId} {t : Target}
    (h : resolveTarget cfg arg = .ok (id, some t)) : t ∈ cfg.targets := by
  unfold resolveTarget at h
  split at h
  · rename_i found hfound
    obtain ⟨id', _, h⟩ := Except.bind_eq_ok.mp h
    obtain ⟨-, hsome⟩ := Prod.mk.inj (Except.pure_eq_ok.mp h)
    obtain rfl := Option.some.inj hsome
    unfold Config.getTarget at hfound
    split at hfound
    · rename_i hfind
      obtain rfl := Except.ok.inj hfound
      exact List.mem_of_find?_eq_some hfind
    · cases hfound
  · split at h
    · rename_i found hfind
      obtain ⟨id', _, h⟩ := Except.bind_eq_ok.mp h
      obtain ⟨-, hsome⟩ := Prod.mk.inj (Except.pure_eq_ok.mp h)
      obtain rfl := Option.some.inj hsome
      exact List.mem_of_find?_eq_some hfind
    · obtain ⟨id', _, h⟩ := Except.bind_eq_ok.mp h
      obtain ⟨-, hnone⟩ := Prod.mk.inj (Except.pure_eq_ok.mp h)
      cases hnone

theorem connectFindsRelays_of_known (h : RelaysKnown cfg) : ConnectFindsRelays cfg := by
  intro arg id t via htarget hvia
  refine ⟨?_, Config.exists_getServer_iff.mpr (h t (mem_targets_of_resolveTarget htarget) via hvia)⟩
  unfold resolveViaName
  rw [Option.bind_some, hvia]

/-! ### All histories -/

/-- The file's config has no target without its relay. -/
def RelaysResolve (toml : TomlFormat Config) (path : PathBuf) (file : Option Str) : Prop :=
  ∃ cfg, Config.loadFrom toml path file = .ok cfg ∧ RelaysKnown cfg ∧ ConnectFindsRelays cfg

/-- **When no target is left without its relay**: exactly when no `server remove` is given the name
of a server that a target names as its relay. -/
theorem relaysResolve_iff (hround : toml.RoundTrips) (htotal : toml.Total)
    (hstart : Config.loadFrom toml path file = .ok .empty) (commands : List CliCommand) :
    (∀ pre post, commands = pre ++ post → RelaysResolve toml path (runAll toml path file pre)) ↔
      ∀ pre name post, commands = pre ++ .serverRemove name :: post →
        ∀ cfg, Config.loadFrom toml path (runAll toml path file pre) = .ok cfg →
          ¬ Relays cfg name := by
  constructor
  · rintro h pre name post rfl cfg hload hrelays
    obtain ⟨cfg₀, hload₀, hknown, _⟩ := h pre (.serverRemove name :: post) rfl
    rw [hload] at hload₀
    obtain rfl := Except.ok.inj hload₀
    obtain ⟨cfg', hload', hknown', _⟩ := h (pre ++ [.serverRemove name]) post (by simp)
    obtain ⟨reached, hreached⟩ := reached_runAll hround htotal hstart pre
    have hsame := hreached.loads
    rw [hload] at hsame
    obtain rfl := Except.ok.inj hsame
    obtain ⟨t, ht, hvia⟩ := hrelays
    have hmem := hknown t ht name hvia
    rw [runAll_append] at hload'
    -- the relay is registered, so the command finds it and removes it
    rcases run_cases hround htotal (.serverRemove name) hload with ⟨hfile, hstay⟩ |
      ⟨removed, hedits, hremoved, _⟩
    · rcases hstay with ⟨e, herror⟩ | hedits
      · exact absurd herror (run_serverRemove_ok htotal hload hmem e)
      · cases hedits
    · rw [show runAll toml path (runAll toml path file pre) [.serverRemove name] =
        (run toml path (.serverRemove name) (runAll toml path file pre)).2 from rfl,
        hremoved] at hload'
      obtain rfl := Except.ok.inj hload'
      exact not_relaysKnown_of_remove hreached.sound ⟨t, ht, hvia⟩ hedits hknown'
  · intro h pre post hcommands
    induction pre using List.reverseRecOn generalizing post with
    | nil =>
      refine ⟨.empty, hstart, fun t ht => absurd ht List.not_mem_nil, ?_⟩
      exact connectFindsRelays_of_known fun t ht => absurd ht List.not_mem_nil
    | append_singleton pre command ih =>
      have hsplit : commands = pre ++ command :: post := by simpa using hcommands
      obtain ⟨cfg, hload, hknown, hconnect⟩ := ih (command :: post) hsplit
      rw [runAll_append]
      show RelaysResolve toml path (run toml path command (runAll toml path file pre)).2
      rcases run_cases hround htotal command hload with ⟨hfile, _⟩ | ⟨cfg', hedits, hload', _⟩
      · rw [hfile]
        exact ⟨cfg, hload, hknown, hconnect⟩
      · have hknown' : RelaysKnown cfg' := by
          refine relaysKnown_edits hedits hknown fun name hname => ?_
          subst hname
          exact h pre name post hsplit cfg hload
        exact ⟨cfg', hload', hknown', connectFindsRelays_of_known hknown'⟩

/-- A server, and a target behind it. -/
theorem relaysResolve_zima :
    RelaysResolve sampleConfigToml configFile
      (runAll sampleConfigToml configFile none [addZima, addViaZima]) := by
  have hstart : Config.loadFrom sampleConfigToml configFile none = .ok .empty := rfl
  refine (relaysResolve_iff sampleConfigToml_roundTrips sampleConfigToml_total hstart
    [addZima, addViaZima]).mpr ?_ [addZima, addViaZima] [] rfl
  intro pre name post h
  have hmem : CliCommand.serverRemove name ∈ [addZima, addViaZima] :=
    h ▸ List.mem_append_right _ List.mem_cons_self
  rcases List.mem_cons.mp hmem with h | h
  · cases h
  · cases List.mem_singleton.mp h

/-- When the server is removed, the target names a relay that is not there. -/
theorem relaysResolve_removed :
    ¬ RelaysResolve sampleConfigToml configFile
      (runAll sampleConfigToml configFile none [addZima, addViaZima, removeZima]) := by
  have hload : Config.loadFrom sampleConfigToml configFile
      (runAll sampleConfigToml configFile none [addZima, addViaZima, removeZima]) =
        .ok { Config.empty with targets := [viaZima] } := by decide +kernel
  rintro ⟨cfg, hcfg, hknown, _⟩
  rw [hload] at hcfg
  obtain rfl := Except.ok.inj hcfg
  exact absurd (hknown viaZima (List.mem_singleton_self _) _ rfl) List.not_mem_nil

end Cli

end Rustmote
