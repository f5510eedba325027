import Rustmote.RelayLifecycle.Operations

/-!
# What the operations issue

The commands of the four operations, whatever the remote host and the registry answer. A
command either leaves the files alone (`Reads`), or makes the backup (`Saves`), or is one of the
few that change the install: `Issued` lists them with their paths, and with what is known of
the content they write.

`always_bootstrap`, `always_checkUpdates`, `always_update` and `always_status` say that an
operation issues nothing else. A directory is removed only if the listing named it: that is an
assumption on the replies, `Grounded`.
-/

namespace Rustmote

open Interaction (Prog)
open Interaction.Prog (Always always_ofExcept)

/-- The commands that have to do with no path of the relay: they ask for the system and for
Docker. -/
def hostCommands : List Str :=
  [Commands.readOsRelease, Commands.checkDockerPresent, Commands.checkDockerComposeV2,
    Commands.checkDockerComposeV1]

/-- The commands that look at the host, its state file and its containers. -/
inductive Inspects (installPath : PathBuf) : Str → Prop where
  | readOsRelease : Inspects installPath Commands.readOsRelease
  | checkDockerPresent : Inspects installPath Commands.checkDockerPresent
  | checkDockerComposeV2 : Inspects installPath Commands.checkDockerComposeV2
  | checkDockerComposeV1 : Inspects installPath Commands.checkDockerComposeV1
  | testDir {cmd : Str} (h : Commands.testDirExists installPath = .ok cmd) :
      Inspects installPath cmd
  | testFile {cmd : Str} (h : Commands.testFileExists (statePath installPath) = .ok cmd) :
      Inspects installPath cmd
  | cat {path : PathBuf} {cmd : Str} (h : Commands.catFile path = .ok cmd) :
      Inspects installPath cmd
  | composePs {cmd : Str} (h : Commands.composePsJson installPath = .ok cmd) :
      Inspects installPath cmd

/-- The commands that leave the files of the host alone. -/
inductive Reads (installPath : PathBuf) : Str → Prop where
  | readOsRelease : Reads installPath Commands.readOsRelease
  | checkDockerPresent : Reads installPath Commands.checkDockerPresent
  | checkDockerComposeV2 : Reads installPath Commands.checkDockerComposeV2
  | checkDockerComposeV1 : Reads installPath Commands.checkDockerComposeV1
  | tcpProbe (port : Nat) : Reads installPath (Commands.tcpProbe port)
  | testDir {cmd : Str} (h : Commands.testDirExists installPath = .ok cmd) : Reads installPath cmd
  | testFile {cmd : Str} (h : Commands.testFileExists (statePath installPath) = .ok cmd) :
      Reads installPath cmd
  | cat {path : PathBuf} {cmd : Str} (h : Commands.catFile path = .ok cmd) :
      Reads installPath cmd
  | composeUp {cmd : Str} (h : Commands.composeUp installPath = .ok cmd) : Reads installPath cmd
  | composePull {cmd : Str} (h : Commands.composePull installPath = .ok cmd) :
      Reads installPath cmd
  | composeConfig {cmd : Str} (h : Commands.composeConfig installPath = .ok cmd) :
      Reads installPath cmd
  | composePs {cmd : Str} (h : Commands.composePsJson installPath = .ok cmd) :
      Reads installPath cmd
  | find {cmd : Str} (h : RelayLifecycle.findBackups (backupsPath installPath) = .ok cmd) :
      Reads installPath cmd

theorem inspects_of_hostCommands {installPath : PathBuf} {cmd : Str} (h : cmd ∈ hostCommands) :
    Inspects installPath cmd := by
  simp only [hostCommands, List.mem_cons, List.not_mem_nil, or_false] at h
  rcases h with rfl | rfl | rfl | rfl
  · exact .readOsRelease
  · exact .checkDockerPresent
  · exact .checkDockerComposeV2
  · exact .checkDockerComposeV1

theorem Inspects.reads {installPath : PathBuf} {cmd : Str} (h : Inspects installPath cmd) :
    Reads installPath cmd := by
  cases h with
  | readOsRelease => exact .readOsRelease
  | checkDockerPresent => exact .checkDockerPresent
  | checkDockerComposeV2 => exact .checkDockerComposeV2
  | checkDockerComposeV1 => exact .checkDockerComposeV1
  | testDir h => exact .testDir h
  | testFile h => exact .testFile h
  | cat h => exact .cat h
  | composePs h => exact .composePs h

/-- The names of the two files that are backed up. -/
def BackedUp (name : Str) : Prop := name = composeName ∨ name = stateName

/-- The commands of the backup of a point in time. -/
inductive Saves (installPath : PathBuf) (now : DateTime) : Str → Prop where
  | mkdir {cmd : Str} (h : Commands.mkdirP (backupDirFor installPath now) = .ok cmd) :
      Saves installPath now cmd
  | copy {name cmd : Str} (hname : BackedUp name)
      (h : Commands.copyFile (posixJoin installPath name)
        (posixJoin (backupDirFor installPath now) name) = .ok cmd) : Saves installPath now cmd
  | snapshot {content : Bytes} {cmd : Str}
      (h : Commands.writeFile (posixJoin (backupDirFor installPath now) "compose-config.yml".toList)
        content = .ok cmd) : Saves installPath now cmd

/-- The commands of an operation on an install: `Writes` says which contents go to which
file, `Removes` which directories are removed. -/
inductive Issued (installPath : PathBuf) (Writes : PathBuf → Bytes → Prop)
    (Removes : PathBuf → Prop) : Str → Prop where
  | reads {cmd : Str} (h : Reads installPath cmd) : Issued installPath Writes Removes cmd
  | saves {now : DateTime} {cmd : Str} (h : Saves installPath now cmd) :
      Issued installPath Writes Removes cmd
  | restores {now : DateTime} {name cmd : Str} (hname : BackedUp name)
      (h : Commands.copyFile (posixJoin (backupDirFor installPath now) name)
        (posixJoin installPath name) = .ok cmd) : Issued installPath Writes Removes cmd
  | mkdir {path : PathBuf} {cmd : Str}
      (hpath : path = installPath ∨ path = dataPath installPath ∨ path = backupsPath installPath)
      (h : Commands.mkdirP path = .ok cmd) : Issued installPath Writes Removes cmd
  | writes {path : PathBuf} {content : Bytes} {cmd : Str} (hwrites : Writes path content)
      (h : Commands.writeFile path content = .ok cmd) : Issued installPath Writes Removes cmd
  | removes {path : PathBuf} {s : Str} (hremoves : Removes path)
      (h : Commands.validateRemotePath path = .ok s) :
      Issued installPath Writes Removes ("rm -rf ".toList ++ s)

/-- The requests whose commands are among `C`; whether time may be asked for is `timed`, and
whether the registry may be asked is `online`. -/
def Asks (timed online : Prop) (C : Str → Prop) : Request → Prop
  | .exec cmd => C cmd
  | .listTags _ => online
  | .resolveDigest _ _ => online
  | .now => True
  | .instant => timed
  | .sleep _ => timed

/-- The times that the clock has shown. -/
def Shown (tr : List Event) (now : DateTime) : Prop := ⟨.now, now⟩ ∈ tr

/-- The times that the clock has shown. -/
def times (tr : List Event) : List DateTime :=
  tr.filterMap fun
    | ⟨.now, t⟩ => some t
    | _ => none

theorem mem_times {tr : List Event} {t : DateTime} (h : Shown tr t) : t ∈ times tr :=
  List.mem_filterMap.mpr ⟨⟨.now, t⟩, h, rfl⟩

/-- The clock shows times of `T`, and the listing of the backups names, as too old at one of
these times, only directories of `D`. -/
def Grounded (installPath : PathBuf) (T : DateTime → Prop) (D : PathBuf → Prop) : Event → Prop
  | ⟨.now, t⟩ => T t
  | ⟨.exec cmd, reply⟩ =>
    RelayLifecycle.findBackups (backupsPath installPath) = .ok cmd → ∀ out, reply = .ok out →
      out.exitCode = 0 → ∀ t, T t → ∀ path ∈ RelayLifecycle.staleBackups t out.stdoutString, D path
  | _ => True

namespace RelayLifecycle

variable {self : RelayLifecycle} {G : Event → Prop} {C : Str → Prop} {timed online : Prop}

/-! ### Asking -/

/-- Running a command asks for that command; what comes back is what was answered. -/
theorem always_exec {cmd : Str} (h : C cmd) :
    Always G (Asks timed online C) (exec cmd) fun out => G ⟨Request.exec cmd, .ok out⟩ := by
  refine Always.request (q := Request.exec cmd) h fun reply hreply => ?_
  cases reply with
  | ok out => exact .ret hreply
  | error e => exact .fail

theorem always_execOk {cmd : Str} (h : C cmd) : Always G (Asks timed online C) (execOk cmd) fun _ => True :=
  (always_exec h).bind fun _ _ => always_ofExcept.mono fun _ _ => trivial

theorem always_execBuilt {built : Except RustmoteError Str} (h : ∀ cmd, built = .ok cmd → C cmd) :
    Always G (Asks timed online C) (execBuilt built) fun _ => True :=
  Always.lift fun cmd hcmd => always_execOk (h cmd hcmd)

/-- What is asked for may be widened. -/
theorem Asks.mono {C C' : Str → Prop} (h : ∀ cmd, C cmd → C' cmd) (q : Request) :
    Asks timed online C q → Asks timed online C' q := by
  cases q <;> simp only [Asks, imp_self]
  exact h _

/-- So may whom to ask. -/
theorem Asks.widen {timed' online' : Prop} (htimed : timed → timed') (honline : online → online')
    (q : Request) : Asks timed online C q → Asks timed' online' C q := by
  cases q <;> simp only [Asks, imp_self]
  · exact honline
  · exact honline
  · exact htimed
  · exact htimed

/-- Time is not asked for. -/
theorem Asks.ne_instant {q : Request} (h : Asks False online C q) : q ≠ .instant := by
  rintro rfl
  exact h

theorem always_of_reads {p : PathBuf} {α : Type} {prog : Relay α} {Q : α → Prop}
    (hC : ∀ cmd, Reads p cmd → C cmd) (h : Always G (Asks timed online (Reads p)) prog Q) :
    Always G (Asks timed online C) prog Q := h.weaken (fun _ h => h) (Asks.mono hC)

/-! ### The host -/

theorem host_detectOs : Always G (Asks timed online (· ∈ hostCommands)) detectOs fun _ => True := by
  unfold detectOs
  refine (always_execOk (by simp [hostCommands])).bind fun out _ => ?_
  cases parseOsRelease out.stdoutString with
  | some os => exact .ret trivial
  | none => exact .fail

theorem host_osOf (hint : Option OsKind) :
    Always G (Asks timed online (· ∈ hostCommands)) (osOf hint) fun _ => True := by
  cases hint with
  | some os => exact .ret trivial
  | none => exact host_detectOs

theorem host_ensureDockerStack :
    Always G (Asks timed online (· ∈ hostCommands)) ensureDockerStack fun _ => True := by
  unfold ensureDockerStack
  refine (always_exec (by simp [hostCommands])).bind fun docker _ => ?_
  by_cases hdocker : docker.exitCode = 0
  · rw [if_neg (not_not.mpr hdocker)]
    refine (always_exec (by simp [hostCommands])).bind fun v2 _ => ?_
    by_cases hv2 : v2.exitCode = 0
    · rw [if_neg (not_not.mpr hv2)]
      exact .ret trivial
    · rw [if_pos hv2]
      refine (always_exec (by simp [hostCommands])).bind fun v1 _ => ?_
      by_cases hv1 : v1.exitCode = 0
      · rw [if_pos hv1]
        exact .fail
      · rw [if_neg hv1]
        exact .fail
  · rw [if_pos hdocker]
    exact .fail

/-! ### Inspecting -/

variable {p : PathBuf}

/-- What asks for the system and for Docker only inspects. -/
theorem inspects_of_host {α : Type} {prog : Relay α} {Q : α → Prop}
    (h : Always G (Asks timed online (· ∈ hostCommands)) prog Q) :
    Always G (Asks timed online (Inspects p)) prog Q :=
  h.weaken (fun _ h => h) (Asks.mono fun _ h => inspects_of_hostCommands h)

theorem inspects_installExists :
    Always G (Asks timed online (Inspects p)) (pathExists p true) fun _ => True := by
  unfold pathExists
  exact Always.lift fun _ hcmd => (always_exec (.testDir hcmd)).bind fun _ _ => .ret trivial

theorem inspects_stateExists :
    Always G (Asks timed online (Inspects p)) (pathExists (statePath p) false) fun _ => True := by
  unfold pathExists
  exact Always.lift fun _ hcmd => (always_exec (.testFile hcmd)).bind fun _ _ => .ret trivial

theorem inspects_readFile (path : PathBuf) :
    Always G (Asks timed online (Inspects p)) (readFile path) fun _ => True :=
  always_execBuilt fun _ hcmd => .cat hcmd

theorem inspects_publicKey :
    Always G (Asks timed online (Inspects p)) (publicKey p) fun _ => True := by
  have hkey : Always G (Asks timed online (Inspects p)) (readPublicKey p) fun _ => True := by
    unfold readPublicKey
    exact (inspects_readFile _).bind fun _ _ => .ret trivial
  unfold publicKey
  exact (Always.attempt hkey).bind fun _ _ => .ret trivial

theorem inspects_readState (path : PathBuf) :
    Always G (Asks timed online (Inspects p)) (self.readState path) fun _ => True := by
  unfold readState
  exact (inspects_readFile path).bind fun _ _ => always_ofExcept.mono fun _ _ => trivial

theorem inspects_loadState :
    Always G (Asks timed online (Inspects p)) (self.loadState p) fun _ => True := by
  unfold loadState
  refine inspects_stateExists.bind fun found _ => ?_
  cases found with
  | true => exact inspects_readState _
  | false => exact .fail

theorem inspects_osOf (hint : Option OsKind) :
    Always G (Asks timed online (Inspects p)) (osOf hint) fun _ => True :=
  inspects_of_host (host_osOf hint)

theorem inspects_ensureDockerStack :
    Always G (Asks timed online (Inspects p)) ensureDockerStack fun _ => True :=
  inspects_of_host host_ensureDockerStack

theorem always_listTags (repo : Str) :
    Always G (Asks timed True C) (listTags repo) fun _ => True :=
  Always.request (q := Request.listTags repo) trivial fun _ _ =>
    always_ofExcept.mono fun _ _ => trivial

theorem always_resolveDigest (repo tag : Str) :
    Always G (Asks timed True C) (resolveDigest repo tag) fun _ => True :=
  Always.request (q := Request.resolveDigest repo tag) trivial fun _ _ =>
    always_ofExcept.mono fun _ _ => trivial

theorem inspects_checkImages (pins : List ImagePin) :
    Always G (Asks timed True (Inspects p)) (checkImages pins) fun _ => True := by
  induction pins with
  | nil => exact .ret trivial
  | cons pin pins ih =>
    unfold checkImages
    refine (always_listTags pin.repo).bind fun tags _ => ?_
    refine (always_resolveDigest pin.repo _).bind fun digest _ => ?_
    exact ih.bind fun _ _ => .ret trivial

/-- **`check_updates` only inspects.** -/
theorem inspects_checkUpdates :
    Always G (Asks timed True (Inspects p)) (self.checkUpdates p) fun _ => True := by
  unfold checkUpdates
  refine inspects_loadState.bind fun state _ => ?_
  exact (inspects_checkImages state.images).bind fun _ _ => .ret trivial

/-- **`status` only inspects.** -/
theorem inspects_status :
    Always G (Asks timed online (Inspects p)) (self.status p) fun _ => True := by
  unfold status
  refine inspects_loadState.bind fun state _ => Always.lift fun cmd hcmd => ?_
  refine (always_exec (Inspects.composePs hcmd)).bind fun ps _ => ?_
  exact inspects_publicKey.bind fun _ _ => .ret trivial

/-- **Neither does `bootstrap` do more** with an install that it finds. -/
theorem inspects_bootstrapExisting (opts : BootstrapOptions) (os : OsKind) :
    Always G (Asks timed online (Inspects opts.installPath)) (self.bootstrapExisting opts os)
      fun _ => True := by
  unfold bootstrapExisting
  refine inspects_stateExists.bind fun found _ => ?_
  cases found with
  | true =>
    refine (inspects_readState _).bind fun state _ => ?_
    exact inspects_publicKey.bind fun _ _ => .ret trivial
  | false => exact .fail

/-! ### Reading -/

/-- What inspects only reads. -/
theorem always_of_inspects {α : Type} {prog : Relay α} {Q : α → Prop}
    (h : Always G (Asks timed online (Inspects p)) prog Q) :
    Always G (Asks timed online (Reads p)) prog Q :=
  h.weaken (fun _ h => h) (Asks.mono fun _ h => h.reads)

theorem always_installExists :
    Always G (Asks timed online (Reads p)) (pathExists p true) fun _ => True :=
  always_of_inspects inspects_installExists

theorem always_stateExists :
    Always G (Asks timed online (Reads p)) (pathExists (statePath p) false) fun _ => True :=
  always_of_inspects inspects_stateExists

theorem always_publicKey : Always G (Asks timed online (Reads p)) (publicKey p) fun _ => True :=
  always_of_inspects inspects_publicKey

theorem always_loadState :
    Always G (Asks timed online (Reads p)) (self.loadState p) fun _ => True :=
  always_of_inspects inspects_loadState

theorem always_osOf (hint : Option OsKind) :
    Always G (Asks timed online (Reads p)) (osOf hint) fun _ => True :=
  always_of_inspects (inspects_osOf hint)

theorem always_ensureDockerStack :
    Always G (Asks timed online (Reads p)) ensureDockerStack fun _ => True :=
  always_of_inspects inspects_ensureDockerStack

theorem always_checkUpdates :
    Always G (Asks timed True (Reads p)) (self.checkUpdates p) fun _ => True :=
  always_of_inspects inspects_checkUpdates

theorem always_status :
    Always G (Asks timed online (Reads p)) (self.status p) fun _ => True :=
  always_of_inspects inspects_status

theorem always_bootstrapExisting (opts : BootstrapOptions) (os : OsKind) :
    Always G (Asks timed online (Reads opts.installPath)) (self.bootstrapExisting opts os)
      fun _ => True :=
  always_of_inspects (inspects_bootstrapExisting opts os)

theorem always_probeRound (ports : List Nat) :
    Always G (Asks timed online (Reads p)) (probeRound ports) fun _ => True := by
  induction ports with
  | nil => exact .ret trivial
  | cons port ports ih =>
    unfold probeRound
    refine (always_exec (Reads.tcpProbe port)).bind fun out _ => ?_
    by_cases hup : out.exitCode = 0
    · rw [if_neg (not_not.mpr hup)]
      exact ih
    · rw [if_pos hup]
      exact .ret trivial

theorem always_healthLoop (ports : List Nat) (deadline rounds : Nat) :
    Always G (Asks True online (Reads p)) (self.healthLoop ports deadline rounds) fun _ => True := by
  induction rounds with
  | zero => exact .cut
  | succ rounds ih =>
    unfold healthLoop
    refine (always_probeRound ports).bind fun up _ => ?_
    cases up with
    | true => exact .ret trivial
    | false =>
      refine Always.request (q := Request.instant) trivial fun t _ => ?_
      by_cases hover : t ≥ deadline
      · rw [if_pos hover]
        exact .fail
      · rw [if_neg hover]
        exact Always.request (q := Request.sleep self.healthCheckInterval) trivial fun _ _ => ih

theorem always_healthCheck (ports : List Nat) :
    Always G (Asks True online (Reads p)) (self.healthCheck ports) fun _ => True := by
  unfold healthCheck
  exact Always.request (q := Request.instant) trivial fun start _ => always_healthLoop _ _ _

/-! ### The backup -/

theorem always_snapshotConfig (now : DateTime) :
    Always G (Asks timed online fun cmd => Reads p cmd ∨ Saves p now cmd)
      (snapshotConfig p (backupDirFor p now)) fun _ => True := by
  unfold snapshotConfig
  refine Always.lift fun cmd hcmd => (always_exec (.inl (.composeConfig hcmd))).bind fun cfg _ => ?_
  by_cases hcfg : cfg.exitCode = 0
  · rw [if_pos hcfg]
    exact (always_execBuilt fun _ h => .inr (.snapshot h)).bind fun _ _ => .ret trivial
  · rw [if_neg hcfg]
    exact .ret trivial

/-- The backup reads the install and writes below its own directory. -/
theorem always_backup (now : DateTime) :
    Always G (Asks timed online fun cmd => Reads p cmd ∨ Saves p now cmd) (backup p now)
      fun dir => dir = backupDirFor p now := by
  unfold backup
  refine (always_execBuilt fun _ h => .inr (.mkdir h)).bind fun _ _ => ?_
  refine (always_execBuilt fun _ h => .inr (.copy (.inl rfl) h)).bind fun _ _ => ?_
  refine (always_execBuilt fun _ h => .inr (.copy (.inr rfl) h)).bind fun _ _ => ?_
  exact (always_snapshotConfig now).bind fun _ _ => .ret rfl

theorem always_backupUnlessSkipped (opts : UpdateOptions) (now : DateTime) :
    Always G (Asks timed online fun cmd => Reads opts.installPath cmd ∨ Saves opts.installPath now cmd)
      (backupUnlessSkipped opts now) fun dir => dir = none ∨
        dir = some (backupDirFor opts.installPath now) := by
  unfold backupUnlessSkipped
  by_cases hskip : opts.skipBackup = true
  · rw [if_pos hskip]
    exact .ret (.inl rfl)
  · rw [if_neg hskip]
    exact (always_backup now).bind fun dir hdir => .ret (.inr (by rw [hdir]))

/-! ### Writing -/

/-- What the operations write: a rendered compose file, the environment, a state file, each
from pins that pass all validators. -/
inductive Written (toml : Toml) (installPath : PathBuf) (template : Str) : PathBuf → Bytes → Prop where
  | compose {pins : List ImagePin} {text : Str} (hvalid : ∀ pin ∈ pins, pin.Valid)
      (hrender : renderComposeWithPins template pins = .ok text) :
      Written toml installPath template (composePath installPath) (Utf8.encode text)
  | env {content : Bytes} : Written toml installPath template (envPath installPath) content
  | state {state : RelayState} {text : Str} (hvalid : ∀ pin ∈ state.images, pin.Valid)
      (hprint : state.toTomlString toml = .ok text) :
      Written toml installPath template (statePath installPath) (Utf8.encode text)

variable {T : DateTime → Prop} {D : PathBuf → Prop}

/-- The pins get past the renderer only when all of them are valid. -/
theorem always_render {template : Str} {pins : List ImagePin} {α : Type} {f : Str → Relay α}
    {Q : α → Prop}
    (hf : ∀ text, renderComposeWithPins template pins = .ok text → (∀ pin ∈ pins, pin.Valid) →
      Always G (Asks timed online C) (f text) Q) :
    Always G (Asks timed online C) ((liftM (renderComposeWithPins template pins) : Relay Str) >>= f) Q :=
  Always.lift fun text htext => hf text htext (renderComposeWithPins_eq_ok_iff.mp htext).1

theorem always_resolvePins (repo tag : Str) (now : DateTime) (services : List Str) :
    Always G (Asks timed True C) (resolvePins repo tag now services) fun _ => True := by
  induction services with
  | nil => exact .ret trivial
  | cons service services ih =>
    unfold resolvePins
    exact (always_resolveDigest repo tag).bind fun _ _ => ih.bind fun _ _ => .ret trivial

theorem always_layOut (opts : BootstrapOptions) {compose : Str} {state : RelayState}
    (hcompose : Written self.toml opts.installPath opts.composeTemplate
      (composePath opts.installPath) (Utf8.encode compose))
    (hvalid : ∀ pin ∈ state.images, pin.Valid) :
    Always G (Asks timed online (Issued opts.installPath
      (Written self.toml opts.installPath opts.composeTemplate) D))
      (self.layOut opts compose state) fun _ => True := by
  unfold layOut
  refine (always_execBuilt fun _ h => .mkdir (.inl rfl) h).bind fun _ _ => ?_
  refine (always_execBuilt fun _ h => .mkdir (.inr (.inl rfl)) h).bind fun _ _ => ?_
  refine (always_execBuilt fun _ h => .mkdir (.inr (.inr rfl)) h).bind fun _ _ => ?_
  refine (always_execBuilt fun _ h => .writes hcompose h).bind fun _ _ => ?_
  refine (always_execBuilt fun _ h => .writes .env h).bind fun _ _ => ?_
  refine Always.lift fun text htext => ?_
  exact (always_execBuilt fun _ h => .writes (.state hvalid htext) h).bind fun _ _ => .ret trivial

/-- A fresh install is written once its pins are known to be valid. -/
theorem always_settle (opts : BootstrapOptions) (os : OsKind) (now : DateTime)
    {pins : List ImagePin} {compose : Str}
    (hrender : renderComposeWithPins opts.composeTemplate pins = .ok compose) :
    Always G (Asks True online (Issued opts.installPath
      (Written self.toml opts.installPath opts.composeTemplate) D))
      (self.settle opts os now pins compose) fun _ => True := by
  have hvalid := (renderComposeWithPins_eq_ok_iff.mp hrender).1
  unfold settle
  refine (always_layOut opts (.compose hvalid hrender) hvalid).bind fun _ _ => ?_
  refine (always_execBuilt fun _ h => .reads (.composeUp h)).bind fun _ _ => ?_
  refine (always_of_reads (fun _ => .reads) (always_healthCheck _)).bind fun _ _ => ?_
  exact (always_of_reads (fun _ => .reads) always_publicKey).bind fun _ _ => .ret trivial

/-- **What `bootstrap` issues.** -/
theorem always_bootstrap (opts : BootstrapOptions) :
    Always G (Asks True True (Issued opts.installPath
      (Written self.toml opts.installPath opts.composeTemplate) D))
      (self.bootstrap opts) fun _ => True := by
  unfold bootstrap
  refine (always_of_reads (fun _ => .reads) (always_osOf opts.osHint)).bind fun os _ => ?_
  refine (always_of_reads (fun _ => .reads) always_ensureDockerStack).bind fun _ _ => ?_
  refine (always_of_reads (fun _ => .reads) always_installExists).bind fun found _ => ?_
  cases found with
  | true => exact always_of_reads (fun _ => .reads) (always_bootstrapExisting opts os)
  | false =>
    show Always G _ (self.bootstrapFresh opts os) _
    unfold bootstrapFresh
    refine Always.request (q := Request.now) trivial fun now _ => ?_
    refine (always_resolvePins _ _ now _).bind fun pins _ => ?_
    exact Always.lift fun compose hcompose => always_settle opts os now hcompose

/-! ### Updating -/

theorem always_prepare (opts : UpdateOptions) (report : CheckUpdatesReport) (now : DateTime) :
    Always G (Asks timed online (Reads opts.installPath)) (self.prepare opts report now) fun x =>
      (∀ pin ∈ x.1.images, pin.Valid) ∧ Written self.toml opts.installPath opts.composeTemplate
        (composePath opts.installPath) (Utf8.encode x.2) := by
  unfold prepare
  refine always_loadState.bind fun state _ => ?_
  exact always_render fun compose hcompose hvalid => .ret ⟨hvalid, .compose hvalid hcompose⟩

theorem always_install (installPath : PathBuf) {template : Str} {newState : RelayState}
    {newCompose : Str}
    (hcompose : Written self.toml installPath template (composePath installPath)
      (Utf8.encode newCompose))
    (hvalid : ∀ pin ∈ newState.images, pin.Valid) :
    Always G (Asks timed online (Issued installPath (Written self.toml installPath template) D))
      (self.install installPath newState newCompose) fun _ => True := by
  unfold install
  refine (always_execBuilt fun _ h => .writes hcompose h).bind fun _ _ => ?_
  refine Always.lift fun text htext => ?_
  refine (always_execBuilt fun _ h => .writes (.state hvalid htext) h).bind fun _ _ => ?_
  refine (always_execBuilt fun _ h => .reads (.composePull h)).bind fun _ _ => ?_
  exact (always_execBuilt fun _ h => .reads (.composeUp h)).bind fun _ _ => .ret trivial

theorem always_rollback {W : PathBuf → Bytes → Prop} (now : DateTime) :
    Always G (Asks True online (Issued p W D)) (self.rollback p (backupDirFor p now)) fun _ => True := by
  unfold rollback
  refine (always_execBuilt fun _ h => .restores (.inl rfl) h).bind fun _ _ => ?_
  refine (always_execBuilt fun _ h => .restores (.inr rfl) h).bind fun _ _ => ?_
  refine (always_execBuilt fun _ h => .reads (.composeUp h)).bind fun _ _ => ?_
  exact always_of_reads (fun _ => .reads) (always_healthCheck _)

theorem always_removeBackups {W : PathBuf → Bytes → Prop} {paths : List PathBuf}
    (h : ∀ path ∈ paths, D path) :
    Always G (Asks timed online (Issued p W D)) (removeBackups paths) fun _ => True := by
  induction paths with
  | nil => exact .ret trivial
  | cons path paths ih =>
    unfold removeBackups
    refine Always.lift fun s hs => ?_
    refine (always_execOk (.removes (h path List.mem_cons_self) hs)).bind fun _ _ => ?_
    exact (ih fun q hq => h q (List.mem_cons_of_mem _ hq)).bind fun _ _ => .ret trivial

/-- Only directories that the listing names are removed. -/
theorem always_gcBackups {W : PathBuf → Bytes → Prop} {now : DateTime} (hnow : T now) :
    Always (Grounded p T D) (Asks timed online (Issued p W D)) (gcBackups p now) fun _ => True := by
  unfold gcBackups
  refine Always.lift fun cmd hcmd => ?_
  refine (always_exec (.reads (.find hcmd))).bind fun out hout => ?_
  by_cases hcode : out.exitCode = 0
  · rw [if_neg (not_not.mpr hcode)]
    exact always_removeBackups (hout hcmd out rfl hcode now hnow)
  · rw [if_pos hcode]
    exact .ret trivial

theorem always_conclude (opts : UpdateOptions) {W : PathBuf → Bytes → Prop} {now : DateTime}
    (hnow : T now) {backupDir : Option PathBuf}
    (hdir : backupDir = none ∨ backupDir = some (backupDirFor opts.installPath now))
    (newState : RelayState) :
    Always (Grounded opts.installPath T D) (Asks True online (Issued opts.installPath W D))
      (self.conclude opts now backupDir newState) fun _ => True := by
  unfold conclude
  refine (always_of_reads (fun _ => .reads) (always_healthCheck _).attempt).bind fun checked _ => ?_
  cases checked with
  | error e =>
    rcases hdir with rfl | rfl
    · exact .fail
    · exact (always_rollback now).bind fun _ _ => .fail
  | ok _ => exact (always_gcBackups hnow).bind fun _ _ => .ret trivial

theorem always_applyUpdates (opts : UpdateOptions) (report : CheckUpdatesReport) :
    Always (Grounded opts.installPath T D) (Asks True online (Issued opts.installPath
      (Written self.toml opts.installPath opts.composeTemplate) D))
      (self.applyUpdates opts report) fun _ => True := by
  unfold applyUpdates
  refine Always.request (q := Request.now) trivial fun now hnow => ?_
  have hsaves : ∀ cmd, Reads opts.installPath cmd ∨ Saves opts.installPath now cmd →
      Issued opts.installPath (Written self.toml opts.installPath opts.composeTemplate) D cmd :=
    fun _ h => h.elim .reads .saves
  refine Always.bind ((always_backupUnlessSkipped opts now).weaken (fun _ h => h)
    (Asks.mono hsaves)) fun dir hdir => ?_
  refine (always_of_reads (fun _ => .reads) (always_prepare opts report now)).bind
    fun ⟨newState, newCompose⟩ ⟨hvalid, hcompose⟩ => ?_
  refine (always_install opts.installPath hcompose hvalid).bind fun _ _ => ?_
  exact always_conclude opts hnow hdir newState

/-- **What `update` issues.** -/
theorem always_update (opts : UpdateOptions) :
    Always (Grounded opts.installPath T D) (Asks True True (Issued opts.installPath
      (Written self.toml opts.installPath opts.composeTemplate) D))
      (self.update opts) fun _ => True := by
  unfold update
  by_cases hconfirmed : (!opts.assumeYes && !opts.isTty) = true
  · rw [if_pos hconfirmed]
    exact .fail
  · rw [if_neg hconfirmed]
    refine (always_of_reads (fun _ => .reads) always_checkUpdates).bind fun report _ => ?_
    by_cases havailable : (!report.anyUpdateAvailable) = true
    · rw [if_pos havailable]
      exact (always_of_reads (fun _ => .reads) always_loadState).bind fun _ _ => .ret trivial
    · rw [if_neg havailable]
      exact always_applyUpdates opts report

end RelayLifecycle

end Rustmote
