import Rustmote.Cli.Commands

/-!
# All histories of commands

What the config file is behind any sequence of commands, each run on its own. Every command keeps
the registry sound (`history_sound`). A target's relay is looked up when the target is added, and
may be removed later: `relaysResolve_iff` is when no target is left without its relay.
-/

namespace Rustmote

/-- A map that does not see what is modified. -/
theorem List.map_modify_of_eq {α β : Type} {g : α → β} {f : α → α} (hf : ∀ a, g (f a) = g a)
    (l : List α) (i : Nat) : (l.modify i f).map g = l.map g := by
  induction l generalizing i with
  | nil => simp
  | cons a l ih =>
    cases i with
    | zero => simp [hf]
    | succ i => simp [ih]

namespace Cli

variable {toml : TomlFormat Config} {path : PathBuf} {file : Option Str} {cfg cfg' : Config}
  {command : CliCommand}

/-! ### One command -/

/-- Stamping a server changes no name. -/
theorem names_modify (cfg : Config) (i : Nat) (now : DateTime) :
    ({ cfg with servers := cfg.servers.modify i fun s => { s with lastUsed := some now } } :
      Config).names = cfg.names :=
  List.map_modify_of_eq (f := fun s : RemoteServer => { s with lastUsed := some now })
    (g := RemoteServer.name) (fun _ => rfl) cfg.servers i

/-- **Every command keeps the registry sound.** -/
theorem sound_edits (h : Edits command cfg (some cfg')) (hcfg : cfg.Sound) : cfg'.Sound := by
  cases h with
  | serverAdd server hvalid hnew =>
    refine ⟨?_, ?_, hcfg.ids_nodup, hcfg.ids_valid⟩
    · rw [Config.names, List.map_append]
      exact List.Nodup.append hcfg.names_nodup (List.nodup_singleton _)
        (List.disjoint_singleton.mpr hnew)
    · intro name hname
      rw [Config.names, List.map_append, List.mem_append] at hname
      rcases hname with hname | hname
      · exact hcfg.names_valid name hname
      · rw [List.map_singleton, List.mem_singleton] at hname
        rw [hname, hvalid]
  | serverRemove _ =>
    have hsub : ∀ p, ((cfg.servers.eraseP p).map (·.name)).Sublist cfg.names := fun p =>
      List.Sublist.map _ List.eraseP_sublist
    exact ⟨hcfg.names_nodup.sublist (hsub _),
      fun name hname => hcfg.names_valid name ((hsub _).subset hname), hcfg.ids_nodup,
      hcfg.ids_valid⟩
  | targetAdd target hvalid hnew _ =>
    refine ⟨hcfg.names_nodup, hcfg.names_valid, ?_, ?_⟩
    · rw [Config.ids, List.map_append]
      exact List.Nodup.append hcfg.ids_nodup (List.nodup_singleton _)
        (List.disjoint_singleton.mpr hnew)
    · intro id hid
      rw [Config.ids, List.map_append, List.mem_append] at hid
      rcases hid with hid | hid
      · exact hcfg.ids_valid id hid
      · rw [List.map_singleton, List.mem_singleton] at hid
        rw [hid]
        exact hvalid
  | targetRemove =>
    have hsub : ∀ p, ((cfg.targets.eraseP p).map (·.id)).Sublist cfg.ids := fun p =>
      List.Sublist.map _ List.eraseP_sublist
    exact ⟨hcfg.names_nodup, hcfg.names_valid, hcfg.ids_nodup.sublist (hsub _),
      fun id hid => hcfg.ids_valid id ((hsub _).subset hid)⟩
  | setMode new _ _ => exact ⟨hcfg.names_nodup, hcfg.names_valid, hcfg.ids_nodup, hcfg.ids_valid⟩
  | connect _ _ via i _ _ _ =>
    refine ⟨?_, ?_, hcfg.ids_nodup, hcfg.ids_valid⟩
    · rw [names_modify]
      exact hcfg.names_nodup
    · rw [names_modify]
      exact hcfg.names_valid

/-- The mode of the config is one that was gated. -/
theorem mode_edits (h : Edits command cfg (some cfg'))
    (hmode : cfg'.general.credentialMode = .unsafeMode) :
    cfg.general.credentialMode = .unsafeMode ∨
      ∃ mode, command = .setMode mode true ∧ CredentialMode.fromStr mode = .ok .unsafeMode := by
  cases h with
  | serverAdd server _ _ => exact .inl hmode
  | serverRemove _ => exact .inl hmode
  | targetAdd target _ _ _ => exact .inl hmode
  | targetRemove => exact .inl hmode
  | setMode new hparse hack =>
    obtain rfl : new = .unsafeMode := hmode
    exact .inr ⟨_, by rw [hack rfl], hparse⟩
  | connect _ _ via i _ _ _ => exact .inl hmode

/-- **What a command does to the file**: it leaves it as it is, or the file then loads to what the
command saves. -/
theorem run_cases (hround : toml.RoundTrips) (htotal : toml.Total) (command : CliCommand)
    (hload : Config.loadFrom toml path file = .ok cfg) :
    ((run toml path command file).2 = file ∧
      ((∃ e, (run toml path command file).1 = .error e) ∨ Edits command cfg none)) ∨
    (∃ cfg', Edits command cfg (some cfg') ∧
      Config.loadFrom toml path (run toml path command file).2 = .ok cfg' ∧
      (¬ IsConnect command → (run toml path command file).1 = .ok ())) := by
  have hloaded : load toml path file = .ok cfg := orContext_eq_ok.mpr hload
  unfold run edit
  cases hprepare : prepare command with
  | error e => exact .inl ⟨rfl, .inl ⟨e, rfl⟩⟩
  | ok act =>
    rw [hloaded]
    show (_ ∧ _) ∨ _
    simp only [bind, Except.bind]
    cases hact : act cfg with
    | error e => exact .inl ⟨rfl, .inl ⟨e, rfl⟩⟩
    | ok e =>
      obtain ⟨hedits, hafter⟩ := edits_of_prepare hprepare hact
      obtain ⟨save, after⟩ := e
      cases save with
      | none => exact .inl ⟨rfl, .inr hedits⟩
      | some cfg' =>
        obtain ⟨text, htext⟩ := htotal cfg'
        have hserialize : orContext (cfg'.serialize toml) (saveContext command) = .ok text := by
          rw [Config.serialize, htext]
          rfl
        right
        simp only [hserialize]
        exact ⟨cfg', hedits, by rw [Config.loadFrom, hround _ _ htext], hafter⟩

/-! ### All commands -/

/-- The config file behind commands that are run one after the other. -/
def runAll (toml : TomlFormat Config) (path : PathBuf) : Option Str → List CliCommand → Option Str
  | file, [] => file
  | file, command :: commands => runAll toml path (run toml path command file).2 commands

theorem runAll_append (file : Option Str) (commands more : List CliCommand) :
    runAll toml path file (commands ++ more) =
      runAll toml path (runAll toml path file commands) more := by
  induction commands generalizing file with
  | nil => rfl
  | cons command commands ih => exact ih _

/-- What holds of the config behind some commands. -/
structure Reached (toml : TomlFormat Config) (path : PathBuf) (file : Option Str)
    (commands : List CliCommand) (cfg : Config) : Prop where
  loads : Config.loadFrom toml path file = .ok cfg
  sound : cfg.Sound
  /-- Unsafe mode was set with the flag. -/
  gated : cfg.general.credentialMode = .unsafeMode →
    ∃ mode, CliCommand.setMode mode true ∈ commands ∧
      CredentialMode.fromStr mode = .ok .unsafeMode

/-- **One more command.** -/
theorem reached_run (hround : toml.RoundTrips) (htotal : toml.Total) {commands : List CliCommand}
    (h : Reached toml path file commands cfg) (command : CliCommand) :
    ∃ cfg', Reached toml path (run toml path command file).2 (commands ++ [command]) cfg' ∧
      (cfg' = cfg ∨ Edits command cfg (some cfg')) := by
  rcases run_cases hround htotal command h.loads with ⟨hfile, _⟩ | ⟨cfg', hedits, hload, _⟩
  · refine ⟨cfg, ⟨by rw [hfile]; exact h.loads, h.sound, fun hmode => ?_⟩, .inl rfl⟩
    obtain ⟨mode, hmem, hparse⟩ := h.gated hmode
    exact ⟨mode, List.mem_append_left _ hmem, hparse⟩
  · refine ⟨cfg', ⟨hload, sound_edits hedits h.sound, fun hmode => ?_⟩, .inr hedits⟩
    rcases mode_edits hedits hmode with hbefore | ⟨mode, rfl, hparse⟩
    · obtain ⟨mode, hmem, hparse⟩ := h.gated hbefore
      exact ⟨mode, List.mem_append_left _ hmem, hparse⟩
    · exact ⟨mode, List.mem_append_right _ (List.mem_singleton_self _), hparse⟩

/-- **All commands**, from an empty config. -/
theorem reached_runAll (hround : toml.RoundTrips) (htotal : toml.Total)
    (hstart : Config.loadFrom toml path file = .ok .empty) (commands : List CliCommand) :
    ∃ cfg, Reached toml path (runAll toml path file commands) commands cfg := by
  induction commands using List.reverseRecOn with
  | nil =>
    refine ⟨.empty, hstart, ⟨List.nodup_nil, ?_, List.nodup_nil, ?_⟩, fun h => by cases h⟩
    · exact fun name hname => absurd hname List.not_mem_nil
    · exact fun id hid => absurd hid List.not_mem_nil
  | append_singleton commands command ih =>
    obtain ⟨cfg, hcfg⟩ := ih
    obtain ⟨cfg', hcfg', _⟩ := reached_run hround htotal hcfg command
    exact ⟨cfg', by rw [runAll_append]; exact hcfg'⟩

/-- **The registry is sound over every history**, `connect` changes one stamp only, and every
other command that fails leaves the file as it is. -/
theorem history_sound (hround : toml.RoundTrips) (htotal : toml.Total)
    (hstart : Config.loadFrom toml path file = .ok .empty) (commands : List CliCommand) :
    (∃ cfg, Config.loadFrom toml path (runAll toml path file commands) = .ok cfg ∧
      (cfg.servers.map (·.name)).Nodup ∧
      (∀ s ∈ cfg.servers, RemoteServer.validateName s.name = .ok ()) ∧
      (cfg.targets.map (·.id)).Nodup ∧ (∀ t ∈ cfg.targets, IsTargetId t.id) ∧
      (cfg.general.credentialMode = .unsafeMode →
        ∃ mode, CliCommand.setMode mode true ∈ commands)) ∧
    ∀ pre command post, commands = pre ++ command :: post →
      (∀ args met cfg cfg', command = .connect args met →
        Config.loadFrom toml path (runAll toml path file pre) = .ok cfg →
        Config.loadFrom toml path (runAll toml path file (pre ++ [command])) = .ok cfg' →
        cfg' = cfg ∨ ∃ id matched via i, resolveTarget cfg args.target = .ok (id, matched) ∧
          resolveViaName args.via matched cfg = .ok via ∧
          cfg.servers.findIdx? (fun s => s.name = via) = some i ∧
          cfg' = { cfg with servers := cfg.servers.modify i fun s =>
            { s with lastUsed := some met.now } }) ∧
      (¬ IsConnect command →
        (∃ e, (run toml path command (runAll toml path file pre)).1 = .error e) →
          runAll toml path file (pre ++ [command]) = runAll toml path file pre) := by
  constructor
  · obtain ⟨cfg, hcfg⟩ := reached_runAll hround htotal hstart commands
    refine ⟨cfg, hcfg.loads, hcfg.sound.names_nodup, fun s hs => ?_, hcfg.sound.ids_nodup,
      fun t ht => ?_, fun hmode => ?_⟩
    · exact hcfg.sound.names_valid _ (List.mem_map_of_mem hs)
    · exact hcfg.sound.ids_valid _ (List.mem_map_of_mem ht)
    · obtain ⟨mode, hmem, _⟩ := hcfg.gated hmode
      exact ⟨mode, hmem⟩
  · rintro pre command post rfl
    rw [runAll_append]
    show _ ∧ (_ → _ → (run toml path command (runAll toml path file pre)).2 = _)
    constructor
    · rintro args met cfg cfg' rfl hload hload'
      rcases run_cases hround htotal (.connect args met) hload with ⟨hfile, _⟩ |
        ⟨cfg'', hedits, hload'', _⟩
      · left
        rw [show runAll toml path (runAll toml path file pre) [.connect args met] =
          (run toml path (.connect args met) (runAll toml path file pre)).2 from rfl, hfile,
          hload] at hload'
        exact (Except.ok.inj hload').symm
      · right
        rw [show runAll toml path (runAll toml path file pre) [.connect args met] =
          (run toml path (.connect args met) (runAll toml path file pre)).2 from rfl,
          hload''] at hload'
        obtain rfl := Except.ok.inj hload'
        cases hedits with
        | connect id matched via i htarget hvia hfind =>
          exact ⟨id, matched, via, i, htarget, hvia, hfind, rfl⟩
    · rintro hconnect ⟨e, herror⟩
      obtain ⟨cfg, hcfg⟩ := reached_runAll hround htotal hstart pre
      rcases run_cases hround htotal command hcfg.loads with ⟨hfile, _⟩ | ⟨_, _, _, hok⟩
      · exact hfile
      · rw [hok hconnect] at herror
        cases herror

/-! ### A history -/

instance encodableIpAddr : Encodable IpAddr :=
  Encodable.ofLeftInverse
    (fun ip => match ip with
      | .v4 bits => (Sum.inl bits.toNat : Nat ⊕ Nat)
      | .v6 bits => .inr bits.toNat)
    (fun x => match x with
      | .inl n => .v4 (.ofNat 32 n)
      | .inr n => .v6 (.ofNat 128 n))
    fun ip => by
      cases ip with
      | v4 bits => exact congrArg IpAddr.v4 (BitVec.ofNat_toNat 32 bits |>.trans (by simp))
      | v6 bits => exact congrArg IpAddr.v6 (BitVec.ofNat_toNat 128 bits |>.trans (by simp))

instance encodableRemoteServer : Encodable RemoteServer :=
  Encodable.ofLeftInverse
    (fun s => (s.name, s.host, s.sshPort, s.sshUser, s.relayPort, s.relayKey, s.createdAt, s.lastUsed))
    (fun x => ⟨x.1, x.2.1, x.2.2.1, x.2.2.2.1, x.2.2.2.2.1, x.2.2.2.2.2.1, x.2.2.2.2.2.2.1,
      x.2.2.2.2.2.2.2⟩)
    fun _ => rfl

instance encodableTarget : Encodable Target :=
  Encodable.ofLeftInverse (fun t => (t.id, t.ip, t.label, t.viaServer, t.lastSeen))
    (fun x => ⟨x.1, x.2.1, x.2.2.1, x.2.2.2.1, x.2.2.2.2⟩) fun _ => rfl

instance encodableCredentialMode : Encodable CredentialMode :=
  Encodable.ofLeftInjection
    (fun mode => match mode with | .prompt => 0 | .keychain => 1 | .unsafeMode => 2)
    (fun n => match n with
      | 0 => some .prompt
      | 1 => some .keychain
      | 2 => some .unsafeMode
      | _ => none)
    fun mode => by cases mode <;> rfl

instance encodableConfig : Encodable Config :=
  Encodable.ofLeftInverse
    (fun cfg => (cfg.general.credentialMode, cfg.general.defaultServer, cfg.general.viewerPath,
      cfg.servers, cfg.targets))
    (fun x => ⟨⟨x.1, x.2.1, x.2.2.1⟩, x.2.2.2.1, x.2.2.2.2⟩) fun _ => rfl

/-- `rustmote server add zima --host 10.0.0.1 --user charles`. -/
def addZima : CliCommand :=
  .serverAdd "zima".toList (.v4 0x0A000001#32) (some "charles".toList) 22 21116 none ⟨1776513600, 0⟩

/-- `rustmote target add 123456789 --via zima`. -/
def addViaZima : CliCommand := .targetAdd "123456789".toList none (some "zima".toList)

/-- `rustmote server remove zima`. -/
def removeZima : CliCommand := .serverRemove "zima".toList

/-- The server that is added. -/
def zima : RemoteServer :=
  .new "zima".toList (.v4 0x0A000001#32) "charles".toList 22 21116 ⟨1776513600, 0⟩

/-- The target that is added. -/
def viaZima : Target := ⟨"123456789".toList, none, none, some "zima".toList, none⟩

/-- The section of the server. -/
def zimaSection : Str :=
  ("\n[[servers]]\nname = \"zima\"\nhost = \"10.0.0.1\"\nssh_port = 22\nssh_user = \"charles\"\n" ++
    "relay_port = 21116\ncreated_at = \"2026-04-18T12:00:00Z\"\n").toList

/-- The section of the target. -/
def viaZimaSection : Str :=
  "\n[[targets]]\nid = \"123456789\"\nvia_server = \"zima\"\n".toList

/-- The section that every config starts with. -/
def generalSection : Str := "[general]\ncredential_mode = \"prompt\"\nviewer_path = \"\"\n".toList

/-- `toml`, with the texts of the three configs that these commands save. -/
def sampleConfigToml : TomlFormat Config :=
  .ofTable
    [({ Config.empty with servers := [zima] }, generalSection ++ zimaSection),
      ({ Config.empty with servers := [zima], targets := [viaZima] },
        generalSection ++ zimaSection ++ viaZimaSection),
      ({ Config.empty with targets := [viaZima] }, generalSection ++ viaZimaSection)]

theorem sampleConfigToml_roundTrips : sampleConfigToml.RoundTrips :=
  TomlFormat.roundTrips_ofTable (by decide +kernel) (by decide +kernel)

theorem sampleConfigToml_total : sampleConfigToml.Total := TomlFormat.total_ofTable _

/-- The path of the config file. -/
def configFile : PathBuf := .fromStr "config.toml".toList

/-- A server, a target, and the server is removed. -/
theorem history_sound_zima :
    ∃ cfg, Config.loadFrom sampleConfigToml configFile
        (runAll sampleConfigToml configFile none [addZima, addViaZima, removeZima]) = .ok cfg ∧
      (cfg.servers.map (·.name)).Nodup := by
  have hstart : Config.loadFrom sampleConfigToml configFile none = .ok .empty := rfl
  obtain ⟨cfg, hload, hnames, _⟩ := (history_sound sampleConfigToml_roundTrips
    sampleConfigToml_total hstart [addZima, addViaZima, removeZima]).1
  exact ⟨cfg, hload, hnames⟩

end Cli

end Rustmote
