import Rustmote.RelayLifecycle.BootstrapRuns
import Rustmote.RelayLifecycle.Returning
import Rustmote.RelayLifecycle.Simulation
import Rustmote.RelayLifecycle.Working

/-!
# What is left untouched

`check_updates`, `status`, an update without a changed digest, and a bootstrap that finds the
install directory only issue commands that inspect the host. `Harmless` says of a command, by
what the shell reads in it, that it changes no file and starts no container; `harmless_of_inspects`
says it of each of these commands. Nothing is assumed of the replies there, except that
`test -d` and `test -f` are `Truthful`.

A bootstrap that finds what an earlier one has installed reports the state that the earlier one
reported: `runs_bootstrap_installed` follows the state file through the first run, and
`runs_bootstrap_again` reads it back in the second.
-/

namespace Rustmote

open Interaction (Prog Env)
open Interaction.Prog (Run Always Errors errors_attempt)
open FileTree

/-! ### Harmless commands -/

/-- The words of a utility that only looks: it changes no file, and Docker is asked for its
version or for a list of containers. -/
inductive Query : List Str → Prop where
  | testDir (path : Str) : Query ["test".toList, "-d".toList, path]
  | testFile (path : Str) : Query ["test".toList, "-f".toList, path]
  | cat (path : Str) : Query ["cat".toList, path]
  | cd (path : Str) : Query ["cd".toList, path]
  | lookup (name : Str) : Query ["command".toList, "-v".toList, name]
  | composeVersion : Query ["docker".toList, "compose".toList, "version".toList]
  | composeV1Version : Query ["docker-compose".toList, "--version".toList]
  | composePs : Query ["docker".toList, "compose".toList, "ps".toList, "--format".toList, "json".toList]

/-- The shell reads an and-list of such utilities in the command, without redirections. -/
def Harmless (cmd : Str) : Prop :=
  ∃ pipelines, Shell.parse cmd = some pipelines ∧
    ∀ pipeline ∈ pipelines, ∃ words, pipeline = [⟨words, []⟩] ∧ Query words

theorem harmless_of_parse {cmd : Str} {words : List Str}
    (h : Shell.parse cmd = some [[⟨words, []⟩]]) (hquery : Query words) : Harmless cmd :=
  ⟨_, h, fun _ hp => ⟨words, List.mem_singleton.mp hp, hquery⟩⟩

theorem harmless_of_lex {cmd : Str} {ts : List Shell.Token} {words : List Str}
    (h : Shell.lex cmd = some ts) (hparse : Shell.parseTokens ts = some [[⟨words, []⟩]])
    (hquery : Query words) : Harmless cmd := by
  refine harmless_of_parse ?_ hquery
  rw [Shell.parse, h]
  exact hparse

/-- **A command that inspects is harmless.** -/
theorem harmless_of_inspects {p : PathBuf} {cmd : Str} (h : Inspects p cmd) : Harmless cmd := by
  cases h with
  | readOsRelease => exact harmless_of_parse (by decide) (.cat "/etc/os-release".toList)
  | checkDockerPresent => exact harmless_of_parse (by decide) (.lookup "docker".toList)
  | checkDockerComposeV2 => exact harmless_of_parse (by decide) .composeVersion
  | checkDockerComposeV1 => exact harmless_of_parse (by decide) .composeV1Version
  | testDir h =>
    obtain ⟨s, -, -, hlex⟩ := lex_testDirExists h
    exact harmless_of_lex hlex (by simp [Shell.parseTokens, Template.tokens, Template.word])
      (.testDir s)
  | testFile h =>
    obtain ⟨s, -, -, hlex⟩ := lex_testFileExists h
    exact harmless_of_lex hlex (by simp [Shell.parseTokens, Template.tokens, Template.word])
      (.testFile s)
  | cat h =>
    obtain ⟨s, -, -, hlex⟩ := lex_catFile h
    exact harmless_of_lex hlex (by simp [Shell.parseTokens, Template.tokens, Template.word])
      (.cat s)
  | composePs h =>
    obtain ⟨s, -, -, hlex⟩ := lex_compose .ps (by decide) h
    refine ⟨[[⟨["cd".toList, s], []⟩], [⟨["docker".toList, "compose".toList, "ps".toList,
      "--format".toList, "json".toList], []⟩]], ?_, ?_⟩
    · rw [Shell.parse, hlex]
      simp [Shell.parseTokens, Template.tokens, Template.word, ComposeVerb.words]
    · intro pipeline hp
      rcases List.mem_cons.mp hp with rfl | hp
      · exact ⟨_, rfl, .cd s⟩
      · exact ⟨_, List.mem_singleton.mp hp, .composePs⟩

/-- **A harmless command leaves the files alone**, however far it gets. -/
theorem Harmless.tree_next {cmd : Str} (h : Harmless cmd) (H : Host) (w : H.World) :
    H.tree (H.next w cmd) = H.tree w := by
  obtain ⟨pipelines, hparse, hquery⟩ := h
  have has : actions cmd = some (pipelines.map pipelineAction) := by
    rw [actions, hparse]
    rfl
  refine (H.carried w cmd _ has).eq_of_still fun a ha => ?_
  obtain ⟨pipeline, hp, rfl⟩ := List.mem_map.mp ha
  obtain ⟨words, rfl, hwords⟩ := hquery pipeline hp
  cases hwords with
  | testDir path => rfl
  | testFile path => rfl
  | cat path => rfl
  | cd path => rfl
  | lookup name => rfl
  | composeVersion => rfl
  | composeV1Version => rfl
  | composePs => rfl

/-! ### Operations that only inspect -/

/-- `test -d` and `test -f` say what is true of the files, or nothing. -/
def Truthful (t : FileTree) : Event → Prop
  | ⟨.exec cmd, reply⟩ => ∀ out, reply = .ok out → ∀ path,
    (Commands.testDirExists path = .ok cmd → (out.exitCode = 0 ↔ t.isDir (place path) = true)) ∧
      (Commands.testFileExists path = .ok cmd → (out.exitCode = 0 ↔ t.isFile (place path) = true))
  | _ => True

namespace RelayLifecycle

variable {self : RelayLifecycle} {timed online : Prop} {t : FileTree}

/-- A directory that is there is found. -/
theorem inspects_dirExists {p : PathBuf} (hdir : t.isDir (place p) = true) :
    Always (Truthful t) (Asks timed online (Inspects p)) (pathExists p true)
      fun found => found = true := by
  unfold pathExists
  refine Always.lift fun cmd hcmd => (always_exec (.testDir hcmd)).bind fun out hout => ?_
  have hzero := ((hout out rfl p).1 hcmd).mpr hdir
  exact .ret (decide_eq_true hzero)

/-- **A bootstrap on a host with the install directory** only inspects. -/
theorem inspects_bootstrap {opts : BootstrapOptions}
    (hdir : t.isDir (place opts.installPath) = true) :
    Always (Truthful t) (Asks timed online (Inspects opts.installPath)) (self.bootstrap opts)
      fun _ => True := by
  unfold bootstrap
  refine (inspects_osOf opts.osHint).bind fun os _ => ?_
  refine inspects_ensureDockerStack.bind fun _ _ => ?_
  refine (inspects_dirExists hdir).bind fun found hfound => ?_
  subst hfound
  exact inspects_bootstrapExisting opts os

/-- **An update without a changed digest** only inspects. -/
theorem run_update_unchanged {opts : UpdateOptions} {tr : List Event}
    {r : Option (Except RustmoteError UpdateReport)} (h : Run (self.update opts) tr r)
    (hnone : ∀ t₁ t₂ report, tr = t₁ ++ t₂ →
      Run (self.checkUpdates opts.installPath) t₁ (some (.ok report)) →
        report.anyUpdateAvailable = false) :
    ∀ e ∈ tr, Asks False True (Inspects opts.installPath) e.request := by
  have hchecks : ∀ {t : List Event} {x}, Run (self.checkUpdates opts.installPath) t x →
      ∀ e ∈ t, Asks False True (Inspects opts.installPath) e.request := fun hrun =>
    (inspects_checkUpdates.run hrun fun _ _ => trivial).1
  unfold update at h
  by_cases hconfirmed : (!opts.assumeYes && !opts.isTty) = true
  · rw [if_pos hconfirmed] at h
    obtain ⟨rfl, -⟩ := Prog.run_fail_iff.mp h
    simp
  rw [if_neg hconfirmed] at h
  rcases Prog.run_bind_iff.mp h with ⟨-, hcheck⟩ | ⟨e, -, hcheck⟩ | ⟨report, t₁, t₂, rfl, hcheck, h₁⟩
  · exact hchecks hcheck
  · exact hchecks hcheck
  · rw [hnone t₁ t₂ report rfl hcheck] at h₁
    have hload : Always (fun _ => True) (Asks False True (Inspects opts.installPath))
        (do let state ← self.loadState opts.installPath
            return (⟨opts.installPath, false, state, none, false, []⟩ : UpdateReport))
        fun _ => True := inspects_loadState.bind fun _ _ => .ret trivial
    exact List.forall_mem_append.mpr ⟨hchecks hcheck, (hload.run h₁ fun _ _ => trivial).1⟩

end RelayLifecycle

/-- No command of the run changes a file or starts a container. -/
def AllHarmless (tr : List Event) : Prop := ∀ e ∈ tr, ∀ cmd, e.request = .exec cmd → Harmless cmd

theorem allHarmless_of_inspects {tr : List Event} {p : PathBuf}
    (h : ∀ e ∈ tr, Asks False True (Inspects p) e.request) : AllHarmless tr := by
  intro e he cmd hcmd
  have hasks := h e he
  rw [hcmd] at hasks
  exact harmless_of_inspects hasks

/-! ### What a bootstrap leaves -/

/-- Where the host says what system it is. -/
def osRelease : Path := ["etc".toList, "os-release".toList]

/-- The system is known, from the hint or from the file. -/
def OsKnown (hint : Option OsKind) (t : FileTree) : Prop :=
  hint = none → ∃ raw os, t.fileAt osRelease = some raw ∧
    parseOsRelease (Utf8.fromUtf8Lossy raw) = some os

namespace Host

open RelayLifecycle

variable {H : Host} {w w' : H.World} {p : PathBuf} {tr : List Event} {self : RelayLifecycle}
  {opts : BootstrapOptions}

/-- The host's `test` is truthful. -/
def Truthful (H : Host) : Prop :=
  ∀ w cmd, Rustmote.Truthful (H.tree w) ⟨.exec cmd, H.reply w cmd⟩

/-- The test of a directory, on a truthful host. -/
theorem Truthful.runs_dirExists (htruth : H.Truthful) {found : Bool}
    (h : H.env.Runs w (pathExists p true) tr (.ok found) w') :
    found = (H.tree w).isDir (place p) ∧ H.tree w' = H.tree w ∧
      ∃ s, Commands.validateRemotePath p = .ok s := by
  have htree := runs_tree h (always_installExists (p := p))
  obtain ⟨cmd, out, hcmd, hreply, rfl⟩ := runs_pathExists_ok h
  have hzero := ((htruth w cmd) out hreply p).1 hcmd
  obtain ⟨s, hs, -⟩ := Except.bind_eq_ok.mp hcmd
  refine ⟨?_, htree, s, hs⟩
  rw [Bool.eq_iff_iff, decide_eq_true_iff, hzero]

/-- The system that is found is known. -/
theorem runs_osOf_ok {hint : Option OsKind} {os : OsKind}
    (h : H.env.Runs w (osOf hint) tr (.ok os) w') : OsKnown hint (H.tree w) := by
  rintro rfl
  replace h : H.env.Runs w detectOs tr (.ok os) w' := h
  unfold detectOs at h
  obtain ⟨out, t₁, t₂, w₁, -, hread, h₁⟩ := Env.runs_bind_ok h
  rcases runs_execOk hread with ⟨out', hout, hreply, hstep⟩ | ⟨e, he, -⟩
  · cases hout
    obtain ⟨out', hout', hcode⟩ := hstep.zero
    obtain rfl := Except.ok.inj (hout'.symm.trans hreply)
    have hfile := H.printed w _ osRelease out' (by decide) hreply hcode
    cases hparse : parseOsRelease out'.stdoutString with
    | some os' => exact ⟨out'.stdout, os', hfile, hparse⟩
    | none =>
      rw [hparse] at h₁
      obtain ⟨-, hr, -⟩ := Env.runs_fail_iff.mp h₁
      cases hr
  · cases he

/-- A write touches its own name and its scratch file's. -/
theorem runs_writeFile_frame {x : Str} {content : Bytes} {out : ExecOutput}
    (h : H.env.Runs w (execBuilt (Commands.writeFile (posixJoin p x) content)) tr (.ok out) w')
    (hx : IsName x) :
    SameNodes (fun q => Below (place p ++ [x ++ Commands.tmpSuffix]) q ∨ Below (place p ++ [x]) q)
      (H.tree w) (H.tree w') := by
  obtain ⟨cmd, hcmd, -, hstep⟩ := runs_execBuilt_ok h
  have hframe := Carried.write_frame (hstep.carried (actions_writeFile hcmd)).1
  rwa [place_posixJoin p hx, scratchPlace_posixJoin p hx] at hframe

theorem isDir_of_mkdirs {t t' : FileTree} {q d : Path} (h : t.mkdirs q = some t')
    (hd : t.isDir d = true) : t'.isDir d = true := by
  rw [isDir_iff] at hd ⊢
  rw [mkdirs_eq_some h, hd]
  split_ifs <;> rfl

/-- **The layout of a fresh host** is a directory with the state file in it. -/
theorem runs_layOut_ok {compose : Str} {state : RelayState}
    (h : H.env.Runs w (self.layOut opts compose state) tr (.ok ()) w')
    (hfresh : (H.tree w).isDir (place opts.installPath) = false) :
    (H.tree w).isFile (place opts.installPath) = false ∧
    (H.tree w').isDir (place opts.installPath) = true ∧
    ∃ text, state.toTomlString self.toml = .ok text ∧
      (H.tree w').fileAt (place (statePath opts.installPath)) = some (Utf8.encode text) := by
  obtain ⟨w₃, w₄, w₅, text, hmkdir, hmkdata, hmkbackups, hcompose, henv, htext, hstate⟩ :=
    runs_layOut h
  have hwrite₁ := runs_writeFile_frame hcompose isName_composeName
  have hwrite₂ := runs_writeFile_frame henv (by decide)
  have hwrite₃ := runs_writeFile_frame hstate isName_stateName
  refine ⟨?_, ?_, text, htext, ?_⟩
  · -- a file in its place would have stopped `mkdir -p`
    by_contra hfile
    rw [Bool.not_eq_false] at hfile
    obtain ⟨b, hb⟩ := isFile_iff.mp hfile
    rw [← fileAt_mkdirs hmkdir] at hb
    have hnot := not_isDir_of_fileAt hb
    rw [isDir_mkdirs hmkdir] at hnot
    cases hnot
  · have hdir₃ : (H.tree w₃).isDir (place opts.installPath) = true :=
      isDir_of_mkdirs hmkbackups (isDir_of_mkdirs hmkdata (isDir_mkdirs hmkdir))
    have hkeep : ∀ x : Str, ¬ (Below (place opts.installPath ++ [x ++ Commands.tmpSuffix])
        (place opts.installPath) ∨ Below (place opts.installPath ++ [x]) (place opts.installPath)) :=
      fun x => not_or.mpr ⟨not_below_child _ _, not_below_child _ _⟩
    rw [isDir, hwrite₃ _ (hkeep _), hwrite₂ _ (hkeep _), hwrite₁ _ (hkeep _)]
    exact hdir₃
  · have hnone : (H.tree w).node (place opts.installPath ++ [stateName]) = none :=
      node_below hfresh _ (by simp)
    have hmissing : (H.tree w₅).isDir (place (statePath opts.installPath)) = false := by
      rw [place_statePath, isDir, hwrite₂, hwrite₁, mkdirs_eq_some hmkbackups, if_neg,
        mkdirs_eq_some hmkdata, if_neg, mkdirs_eq_some hmkdir, if_neg, hnone]
      · rfl
      · exact not_below_child _ _
      · rw [List.prefix_append_right_inj]
        decide
      · rw [List.prefix_append_right_inj]
        decide
      · exact not_or.mpr ⟨not_below_of_ne (by decide) [], not_below_of_ne (by decide) []⟩
      · exact not_or.mpr ⟨not_below_of_ne (by decide) [], not_below_of_ne (by decide) []⟩
    exact (runs_writeFile_ok hstate state_not_below_scratch).1.file hmissing

theorem stays_writeFile_below {x cmd : Str} {content : Bytes} (hx : IsName x)
    (h : Commands.writeFile (posixJoin p x) content = .ok cmd) : Stays (Below (place p)) cmd := by
  have hbelow : Below (place p) (place (posixJoin p x)) ∧
      Below (place p) (scratchPlace (posixJoin p x)) := below_posixJoin hx (List.prefix_refl _)
  exact (stays_writeFile h).mono fun q hq => hq.elim hbelow.2.trans hbelow.1.trans

/-- **The commands of a bootstrap** change files below the install directory only. -/
theorem stays_of_issued {toml : Toml} {template cmd : Str}
    (h : Issued p (Written toml p template) (fun _ => False) cmd) : Stays (Below (place p)) cmd := by
  have hback : ∀ now, Below (place p) (place (backupDirFor p now)) := fun now => by
    rw [place_backupDirFor]
    exact List.prefix_append _ _
  cases h with
  | reads h => exact stays_of_reads h
  | saves h => exact (stays_of_saves h).mono fun q hq => (hback _).trans hq
  | restores hname h =>
    refine (stays_copyFile h).mono fun q hq => ?_
    exact (below_posixJoin (isName_of_backedUp hname) (List.prefix_refl (place p))).1.trans hq
  | mkdir _ h => exact stays_mkdirP h
  | writes hwrites h =>
    cases hwrites with
    | compose => exact stays_writeFile_below isName_composeName h
    | env => exact stays_writeFile_below (by decide) h
    | state => exact stays_writeFile_below isName_stateName h
  | removes hremoves => exact hremoves.elim

/-- The file that says what system it is lies in no directory that a bootstrap makes. -/
theorem osRelease_not_below {t : FileTree} {raw : Bytes} {d : Path}
    (hraw : t.fileAt osRelease = some raw) (hdir : t.isDir d = false) (hfile : t.isFile d = false) :
    ¬ Below d osRelease := by
  rintro hbelow
  by_cases heq : d = osRelease
  · rw [heq, isFile, hraw] at hfile
    cases hfile
  · rw [fileAt_below hdir hbelow (Ne.symm heq)] at hraw
    cases hraw

/-- What a bootstrap that has installed something leaves. -/
structure Installed (opts : BootstrapOptions) (toml : Toml) (state : RelayState) (t : FileTree) :
    Prop where
  /-- The path may go into commands. -/
  accepted : ∃ s, Commands.validateRemotePath opts.installPath = .ok s
  /-- The system is known. -/
  os : OsKnown opts.osHint t
  /-- There is the install directory. -/
  dir : t.isDir (place opts.installPath) = true
  /-- The state file says the state. -/
  state : HoldsState toml t opts.installPath state

/-- An install that was found is reported as such. -/
theorem runs_bootstrapExisting_ok {os : OsKind} {report : BootstrapReport}
    (h : H.env.Runs w (self.bootstrapExisting opts os) tr (.ok report) w') :
    report.alreadyInstalled = true := by
  unfold bootstrapExisting at h
  obtain ⟨found, t₁, t₂, w₁, -, -, h₁⟩ := Env.runs_bind_ok h
  cases found with
  | true =>
    obtain ⟨state, t₃, t₄, w₂, -, -, h₂⟩ := Env.runs_bind_ok h₁
    obtain ⟨key, t₅, t₆, w₃, -, -, h₃⟩ := Env.runs_bind_ok h₂
    obtain ⟨-, hr, -⟩ := Env.runs_ret_iff.mp h₃
    cases hr
    rfl
  | false =>
    obtain ⟨-, hr, -⟩ := Env.runs_fail_iff.mp h₁
    cases hr

/-- **A bootstrap that has installed** something. -/
theorem runs_bootstrap_installed {report : BootstrapReport} (hround : self.toml.RoundTrips)
    (htruth : H.Truthful) (h : H.env.Runs w (self.bootstrap opts) tr (.ok report) w')
    (hnew : report.alreadyInstalled = false) :
    Installed opts self.toml report.state (H.tree w') := by
  unfold bootstrap at h
  obtain ⟨os, t₁, s₁, w₁, -, hos, h₁⟩ := Env.runs_bind_ok h
  obtain ⟨_, t₂, s₂, w₂, -, hdocker, h₂⟩ := Env.runs_bind_ok h₁
  obtain ⟨found, t₃, s₃, w₃, -, hfound, h₃⟩ := Env.runs_bind_ok h₂
  obtain ⟨hdir, htree₃, haccepted⟩ := htruth.runs_dirExists hfound
  cases found with
  | true =>
    replace h₃ : H.env.Runs w₃ (self.bootstrapExisting opts os) s₃ (.ok report) w' := h₃
    have hold := runs_bootstrapExisting_ok h₃
    rw [hnew] at hold
    cases hold
  | false =>
  replace h₃ : H.env.Runs w₃ (self.bootstrapFresh opts os) s₃ (.ok report) w' := h₃
  unfold bootstrapFresh at h₃
  obtain ⟨s₄, -, h₄⟩ := Env.runs_request_iff.mp h₃
  obtain ⟨pins, t₅, s₅, w₅, -, hpins, h₅⟩ := Env.runs_bind_ok h₄
  obtain ⟨compose, t₆, s₆, w₆, -, hlift, hsettle⟩ := Env.runs_bind_ok h₅
  obtain ⟨-, hrender, rfl⟩ := Env.runs_lift_ok hlift
  -- up to here nothing has changed
  have htree₁ : H.tree w₁ = H.tree w :=
    runs_tree hos (always_osOf (p := opts.installPath) opts.osHint)
  have htree₂ : H.tree w₂ = H.tree w₁ :=
    runs_tree hdocker (always_ensureDockerStack (p := opts.installPath))
  have htree₆ : H.tree w₆ = H.tree w := by
    rw [runs_tree hpins (always_resolvePins (C := Reads opts.installPath) _ _ _ _),
      H.quiet w₃ .now (fun _ h => by cases h), htree₃, htree₂, htree₁]
  have hfresh : (H.tree w₆).isDir (place opts.installPath) = false := by
    rw [htree₆, ← htree₁, ← htree₂, ← hdir]
  have hstays : Always (fun _ => True) (Asks True True (Stays (Below (place opts.installPath))))
      (self.settle opts os (H.env.answer w₃ .now).1 pins compose) fun _ => True :=
    (always_settle opts os _ hrender).weaken (fun _ h => h) (Asks.mono fun _ => stays_of_issued)
  have hbelow := runs_sameFiles hsettle hstays
  obtain ⟨-, t₇, w₇, hlayout, htree⟩ := runs_settle_ok hsettle
  obtain ⟨hnofile, hisdir, text, htext, hfile⟩ := runs_layOut_ok hlayout hfresh
  refine ⟨haccepted, fun hhint => ?_, ?_, ?_⟩
  · obtain ⟨raw, os', hraw, hparse⟩ := runs_osOf_ok hos hhint
    rw [← htree₆] at hraw
    refine ⟨raw, os', ?_, hparse⟩
    rw [hbelow _ (osRelease_not_below hraw hfresh hnofile)]
    exact hraw
  · rw [htree]
    exact hisdir
  · refine ⟨Utf8.encode text, ?_, ?_⟩
    · rw [htree]
      exact hfile
    · rw [Utf8.fromUtf8Lossy_encode]
      exact hround _ _ (RelayState.toTomlString_eq_ok_iff.mp htext)

/-! ### A bootstrap that finds it -/

/-- The path of the public key. -/
def keyPath (p : PathBuf) : PathBuf := posixJoin (dataPath p) "id_ed25519.pub".toList

/-- Every command exits with zero, but for the one that reads the public key, which may not be
there yet. -/
def Succeeds (p : PathBuf) (e : Event) : Prop :=
  (∀ cmd, Commands.catFile (keyPath p) = .ok cmd → e.request ≠ .exec cmd) → Clean e

/-- What does not read the key has succeeded. -/
theorem Succeeds.clean {cmd : Str} {reply : Except TransportError ExecOutput}
    (h : Succeeds p ⟨.exec cmd, reply⟩) (hcmd : actions cmd ≠ some [.cat (place (keyPath p))]) :
    Clean ⟨.exec cmd, reply⟩ := by
  apply h
  intro cmd' hread heq
  apply hcmd
  rw [Request.exec.inj heq]
  exact actions_catFile hread

theorem place_keyPath (p : PathBuf) :
    place (keyPath p) = place p ++ ["data".toList, "id_ed25519.pub".toList] := by
  rw [keyPath, place_posixJoin _ (by decide), place_dataPath, List.append_assoc]
  rfl

theorem statePath_ne_keyPath (p : PathBuf) : place (statePath p) ≠ place (keyPath p) := by
  rw [place_statePath, place_keyPath]
  intro h
  have hlen := congrArg List.length h
  simp at hlen

theorem osRelease_ne_keyPath (p : PathBuf) : osRelease ≠ place (keyPath p) := by
  intro h
  have hlast : osRelease.getLast? = some "id_ed25519.pub".toList := by
    rw [h, place_keyPath]
    simp
  exact absurd hlast (by decide)

variable {E : RustmoteError → Prop}

/-- A command that reads no file has succeeded. -/
theorem Succeeds.of_actions {cmd : Str} {reply : Except TransportError ExecOutput} {a : Action}
    (h : Succeeds p ⟨.exec cmd, reply⟩) (ha : actions cmd = some [a]) (hcat : ∀ q, a ≠ .cat q) :
    Clean ⟨.exec cmd, reply⟩ := by
  refine h.clean fun hkey => ?_
  rw [ha] at hkey
  exact hcat _ (List.singleton_inj.mp (Option.some.inj hkey))

/-- Docker is found, if commands that touch no file exit with zero. -/
theorem errors_ensureDockerStack {G : Event → Prop} (hG : ∀ cmd reply,
    actions cmd = some [.external] → G ⟨.exec cmd, reply⟩ → Clean ⟨.exec cmd, reply⟩) :
    Errors G E ensureDockerStack := by
  have hpresent : actions Commands.checkDockerPresent = some [.external] := by decide
  have hv2 : actions Commands.checkDockerComposeV2 = some [.external] := by decide
  unfold ensureDockerStack
  refine errors_exec_of_clean (fun reply => hG _ reply hpresent) fun docker hdocker => ?_
  rw [if_neg (not_not.mpr hdocker)]
  refine errors_exec_of_clean (fun reply => hG _ reply hv2) fun v2 hv2 => ?_
  rw [if_neg (not_not.mpr hv2)]
  exact .ret

theorem runs_dirExists_of_succeeds {path : PathBuf} {s : Str} {r : Except RustmoteError Bool}
    (hs : Commands.validateRemotePath path = .ok s) (h : H.env.Runs w (pathExists path true) tr r w')
    (hsucceeds : ∀ e ∈ tr, Succeeds p e) : r = .ok true := by
  have hcmd : (if true then Commands.testDirExists path else Commands.testFileExists path) =
      .ok ("test -d ".toList ++ s) := Commands.onPath_of_accepted hs "test -d ".toList
  exact runs_pathExists_of_clean hcmd
    (fun _ h => h.of_actions (actions_testDirExists hcmd) (by simp)) h hsucceeds

theorem runs_fileExists_of_succeeds {path : PathBuf} {s : Str} {r : Except RustmoteError Bool}
    (hs : Commands.validateRemotePath path = .ok s) (h : H.env.Runs w (pathExists path false) tr r w')
    (hsucceeds : ∀ e ∈ tr, Succeeds p e) : r = .ok true := by
  have hcmd : (if false then Commands.testDirExists path else Commands.testFileExists path) =
      .ok ("test -f ".toList ++ s) := Commands.onPath_of_accepted hs "test -f ".toList
  exact runs_pathExists_of_clean hcmd
    (fun _ h => h.of_actions (actions_testFileExists hcmd) (by simp)) h hsucceeds

/-- A file that is not the key has been read. -/
theorem Succeeds.of_cat {cmd : Str} {q : Path} {reply : Except TransportError ExecOutput}
    (h : Succeeds p ⟨.exec cmd, reply⟩) (hactions : actions cmd = some [.cat q])
    (hq : q ≠ place (keyPath p)) : Clean ⟨.exec cmd, reply⟩ :=
  h.clean (by simpa [hactions] using hq)

/-- The system is found again. -/
theorem runs_osOf_of_succeeds {hint : Option OsKind} {r : Except RustmoteError OsKind}
    (hknown : OsKnown hint (H.tree w)) (h : H.env.Runs w (osOf hint) tr r w')
    (hsucceeds : ∀ e ∈ tr, Succeeds p e) : ∃ os, r = .ok os := by
  cases hint with
  | some os =>
    obtain ⟨-, hr, -⟩ := Env.runs_ret_iff.mp h
    exact ⟨os, hr⟩
  | none =>
    obtain ⟨raw, os, hraw, hparse⟩ := hknown rfl
    replace h : H.env.Runs w detectOs tr r w' := h
    have hactions : actions Commands.readOsRelease = some [.cat osRelease] := by decide
    have hclean : ∀ reply, Succeeds p ⟨.exec Commands.readOsRelease, reply⟩ →
        Clean ⟨.exec Commands.readOsRelease, reply⟩ :=
      fun _ h => h.of_cat hactions (osRelease_ne_keyPath p)
    unfold detectOs at h
    rcases Env.runs_bind_iff.mp h with ⟨e, -, hread⟩ | ⟨out, t₁, t₂, w₁, rfl, hread, h₁⟩
    · obtain ⟨out, hout, -⟩ := runs_cat_of_clean hactions hclean hread hsucceeds
      cases hout
    · obtain ⟨out', hout, hfile⟩ := runs_cat_of_clean hactions hclean hread
        (List.forall_mem_append.mp hsucceeds).1
      cases hout
      obtain rfl := Option.some.inj (hraw.symm.trans hfile)
      rw [ExecOutput.stdoutString, hparse] at h₁
      obtain ⟨-, hr, -⟩ := Env.runs_ret_iff.mp h₁
      exact ⟨os, hr⟩

/-- An install that is found is reported. -/
theorem runs_bootstrapExisting_again {state : RelayState} {os : OsKind} {s : Str}
    {r : Except RustmoteError BootstrapReport}
    (hs : Commands.validateRemotePath (statePath opts.installPath) = .ok s)
    (hstate : HoldsState self.toml (H.tree w) opts.installPath state)
    (h : H.env.Runs w (self.bootstrapExisting opts os) tr r w')
    (hsucceeds : ∀ e ∈ tr, Succeeds opts.installPath e) :
    ∃ report, r = .ok report ∧ report.alreadyInstalled = true ∧ report.state = state := by
  unfold bootstrapExisting at h
  rcases Env.runs_bind_iff.mp h with ⟨e, -, hfound⟩ | ⟨found, t₁, s₁, w₁, rfl, hfound, h₁⟩
  · cases runs_fileExists_of_succeeds hs hfound hsucceeds
  obtain ⟨hsucceeds₁, hrest₁⟩ := List.forall_mem_append.mp hsucceeds
  cases runs_fileExists_of_succeeds hs hfound hsucceeds₁
  have htree₁ : H.tree w₁ = H.tree w := runs_tree hfound (always_stateExists (p := opts.installPath))
  rw [← htree₁] at hstate
  have hcat := Commands.onPath_of_accepted hs "cat ".toList
  have hclean : ∀ reply, Succeeds opts.installPath ⟨.exec ("cat ".toList ++ s), reply⟩ →
      Clean ⟨.exec ("cat ".toList ++ s), reply⟩ :=
    fun _ h => h.of_cat (actions_catFile hcat) (statePath_ne_keyPath _)
  rcases Env.runs_bind_iff.mp h₁ with ⟨e, -, hread⟩ | ⟨state', t₂, s₂, w₂, rfl, hread, h₂⟩
  · cases runs_readState_of_clean hcat hclean hstate hread hrest₁
  obtain ⟨hsucceeds₂, -⟩ := List.forall_mem_append.mp hrest₁
  cases runs_readState_of_clean hcat hclean hstate hread hsucceeds₂
  -- the public key may be missing
  have hkey : Errors (fun _ => True) (fun _ => False) (publicKey opts.installPath) :=
    (errors_attempt _).bind fun _ => .ret
  obtain ⟨key, t₃, s₃, w₃, -, -, h₃⟩ := Env.runs_bind_of_errors h₂ hkey (fun _ _ => trivial)
    fun _ _ => not_false
  obtain ⟨-, hr, -⟩ := Env.runs_ret_iff.mp h₃
  exact ⟨_, hr, rfl, rfl⟩

/-- **A bootstrap that finds what was installed** reports its state. -/
theorem runs_bootstrap_again {state : RelayState} {r : Except RustmoteError BootstrapReport}
    (hinstalled : Installed opts self.toml state (H.tree w))
    (h : H.env.Runs w (self.bootstrap opts) tr r w')
    (hsucceeds : ∀ e ∈ tr, Succeeds opts.installPath e) :
    ∃ report, r = .ok report ∧ report.alreadyInstalled = true ∧ report.state = state := by
  obtain ⟨s, hs⟩ := hinstalled.accepted
  have hstatePath := validateRemotePath_posixJoin hs (by decide : SafeName stateName)
  unfold bootstrap at h
  rcases Env.runs_bind_iff.mp h with ⟨e, -, hos⟩ | ⟨os, t₁, s₁, w₁, rfl, hos, h₁⟩
  · obtain ⟨os, hos⟩ := runs_osOf_of_succeeds hinstalled.os hos hsucceeds
    cases hos
  obtain ⟨-, hsucceeds₁⟩ := List.forall_mem_append.mp hsucceeds
  have hstack : Errors (Succeeds opts.installPath) (fun _ => False) ensureDockerStack :=
    errors_ensureDockerStack fun _ _ hactions h => h.of_actions hactions (by simp)
  obtain ⟨_, t₂, s₂, w₂, rfl, hdocker, h₂⟩ := Env.runs_bind_of_errors h₁ hstack hsucceeds₁
    fun _ _ => not_false
  obtain ⟨-, hsucceeds₂⟩ := List.forall_mem_append.mp hsucceeds₁
  rcases Env.runs_bind_iff.mp h₂ with ⟨e, -, hfound⟩ | ⟨found, t₃, s₃, w₃, rfl, hfound, h₃⟩
  · cases runs_dirExists_of_succeeds hs hfound hsucceeds₂
  obtain ⟨hsucceeds₃, hsucceeds₄⟩ := List.forall_mem_append.mp hsucceeds₂
  cases runs_dirExists_of_succeeds hs hfound hsucceeds₃
  have htree₃ : H.tree w₃ = H.tree w := by
    rw [runs_tree hfound (always_installExists (p := opts.installPath)),
      runs_tree hdocker (always_ensureDockerStack (p := opts.installPath)),
      runs_tree hos (always_osOf (p := opts.installPath) opts.osHint)]
  have hstate := hinstalled.state
  rw [← htree₃] at hstate
  exact runs_bootstrapExisting_again hstatePath hstate h₃ hsucceeds₄

/-- On a host with the install directory a bootstrap comes back. -/
theorem ends_bootstrap_of_isDir (htruth : H.Truthful)
    (hdir : (H.tree w).isDir (place opts.installPath) = true) :
    H.env.Ends w (self.bootstrap opts) := by
  unfold bootstrap
  refine (Env.ends_of_noCut (noCut_osOf _)).bind fun os t₁ w₁ hos => ?_
  refine (Env.ends_of_noCut noCut_ensureDockerStack).bind fun _ t₂ w₂ hdocker => ?_
  refine (Env.ends_of_noCut (noCut_pathExists _ _)).bind fun found t₃ w₃ hfound => ?_
  obtain ⟨heq, -⟩ := htruth.runs_dirExists hfound
  rw [runs_tree hdocker (always_ensureDockerStack (p := opts.installPath)),
    runs_tree hos (always_osOf (p := opts.installPath) opts.osHint), hdir] at heq
  subst heq
  exact Env.ends_of_noCut (noCut_bootstrapExisting opts os)

/-- What lies outside of the data directory says what was installed. -/
theorem Installed.frame {toml : Toml} {state : RelayState} {t t' : FileTree}
    (h : Installed opts toml state t)
    (hsame : SameNodes (Below (place (dataPath opts.installPath))) t t') :
    Installed opts toml state t' := by
  rw [place_dataPath] at hsame
  refine ⟨h.accepted, fun hhint => ?_, ?_, ?_⟩
  · obtain ⟨raw, os, hraw, hparse⟩ := h.os hhint
    refine ⟨raw, os, ?_, hparse⟩
    rw [fileAt_congr (hsame osRelease fun hbelow => ?_)]
    · exact hraw
    · have hmem : "data".toList ∈ osRelease := hbelow.subset (by simp)
      exact absurd hmem (by decide)
  · rw [isDir, hsame _ (not_below_child _ _)]
    exact h.dir
  · obtain ⟨raw, hraw, hparse⟩ := h.state
    rw [place_statePath] at hraw
    refine ⟨raw, ?_, hparse⟩
    rw [place_statePath, fileAt_congr (hsame _ (not_below_of_ne (by decide) []))]
    exact hraw

end Host

namespace RelayLifecycle

open Host

/-- **What is left untouched**: `check_updates`, `status`, an update without a changed digest and
a bootstrap that finds the install directory issue harmless commands only, whatever is answered;
such commands leave the files alone; and a bootstrap behind one that has installed the relay
returns the state that was reported then. -/
theorem operations_leave_untouched (self : RelayLifecycle) (hround : self.toml.RoundTrips) :
    (∀ p tr r, Run (self.checkUpdates p) tr r → AllHarmless tr) ∧
    (∀ p tr r, Run (self.status p) tr r → AllHarmless tr) ∧
    (∀ opts tr r, Run (self.update opts) tr r →
      (∀ t₁ t₂ report, tr = t₁ ++ t₂ →
        Run (self.checkUpdates opts.installPath) t₁ (some (.ok report)) →
          report.anyUpdateAvailable = false) → AllHarmless tr) ∧
    (∀ opts t tr r, Run (self.bootstrap opts) tr r → (∀ e ∈ tr, Rustmote.Truthful t e) →
      t.isDir (place opts.installPath) = true → AllHarmless tr) ∧
    (∀ cmd, Harmless cmd → ∀ (H : Host) (w : H.World), H.tree (H.next w cmd) = H.tree w) ∧
    ∀ (H : Host) opts (w w' w₂ : H.World) tr report, H.Truthful →
      H.env.Runs w (self.bootstrap opts) tr (.ok report) w' → report.alreadyInstalled = false →
      SameNodes (Below (place (dataPath opts.installPath))) (H.tree w') (H.tree w₂) →
        H.env.Ends w₂ (self.bootstrap opts) ∧
        ∀ tr' r w₃, H.env.Runs w₂ (self.bootstrap opts) tr' r w₃ →
          (∀ e ∈ tr', Succeeds opts.installPath e) →
            ∃ again, r = .ok again ∧ again.alreadyInstalled = true ∧
              again.state = report.state := by
  refine ⟨fun p tr r h => ?_, fun p tr r h => ?_, fun opts tr r h hnone => ?_,
    fun opts t tr r h htruth hdir => ?_, fun cmd h H w => h.tree_next H w, ?_⟩
  · exact allHarmless_of_inspects (inspects_checkUpdates.run h fun _ _ => trivial).1
  · exact allHarmless_of_inspects (inspects_status.run h fun _ _ => trivial).1
  · exact allHarmless_of_inspects (run_update_unchanged h hnone)
  · exact allHarmless_of_inspects ((inspects_bootstrap hdir).run h htruth).1
  · intro H opts w w' w₂ tr report htruth hrun hnew hsame
    have hinstalled := (runs_bootstrap_installed hround htruth hrun hnew).frame hsame
    exact ⟨ends_bootstrap_of_isDir htruth hinstalled.dir, fun tr' r w₃ hrun' hsucceeds =>
      runs_bootstrap_again hinstalled hrun' hsucceeds⟩

/-- A command of one action exits with zero when the action can be done. -/
theorem execute_single {s : Script} {w : Script.World} {cmd : Str} {a : Action} {n : Nat}
    (ha : actions cmd = some [a]) (hreaches : s.reaches w.time cmd = n + 1) :
    (s.execute w cmd).1.exitCode = 0 ↔ (a.run w.tree).isSome = true := by
  simp only [Script.execute, ha, hreaches]
  cases hrun : a.run w.tree with
  | none => simp [carry, hrun]
  | some t => simp [carry, hrun]

/-- A simulated host that runs its `test`s is truthful. -/
theorem truthful_script {s : Script}
    (hreaches : ∀ time cmd, "test".toList <+: cmd → s.reaches time cmd ≠ 0) : s.host.Truthful := by
  intro (w : Script.World) cmd out hout path
  obtain rfl : (s.execute w cmd).1 = out := Except.ok.inj hout
  have hreached : "test".toList <+: cmd → ∃ n, s.reaches w.time cmd = n + 1 := fun htest =>
    Nat.exists_eq_succ_of_ne_zero (hreaches w.time cmd htest)
  refine ⟨fun hcmd => ?_, fun hcmd => ?_⟩
  · obtain ⟨t, -, -, rfl⟩ := Commands.onPath_eq_ok_iff.mp hcmd
    obtain ⟨n, hn⟩ := hreached ⟨" -d ".toList ++ t, rfl⟩
    exact (execute_single (actions_testDirExists hcmd) hn).trans Option.isSome_ite
  · obtain ⟨t, -, -, rfl⟩ := Commands.onPath_eq_ok_iff.mp hcmd
    obtain ⟨n, hn⟩ := hreached ⟨" -f ".toList ++ t, rfl⟩
    exact (execute_single (actions_testFileExists hcmd) hn).trans Option.isSome_ite

/-- On the sample host `test` is truthful. -/
theorem truthful_sample : (Sample.host fun _ _ => none).Truthful :=
  truthful_script fun _ _ _ => Nat.succ_ne_zero 2

/-- The options of a bootstrap. -/
def bootstrapOptions : BootstrapOptions :=
  ⟨Sample.path, Sample.compose "1.1.10", [], Sample.repo, "1.1.10".toList, ["hbbs".toList],
    "0.1.0".toList, some .debian⟩

/-- The state that it makes. -/
def bootstrapState : RelayState :=
  .newBootstrap Sample.updatedAt "0.1.0".toList [Sample.pin "1.1.10" 'b' Sample.updatedAt]

/-- The sample orchestrator, for that state. -/
def bootstrapRelay : RelayLifecycle := { Sample.relay with toml := Toml.sample [bootstrapState] }

/-- A host without files. -/
def emptyStart : Script.World := ⟨Sample.root, 0⟩

/-- The events of the bootstrap, from these files on. -/
def bootstrapTrace (w : Script.World) : List Event :=
  (Sample.host fun _ _ => none).env.trace w (bootstrapRelay.bootstrap bootstrapOptions)

/-- The host behind it. -/
def bootstrapEnd : Script.World :=
  (Sample.host fun _ _ => none).env.final emptyStart (bootstrapTrace emptyStart)

/-- The sample bootstrap, made twice, finds what it has installed. -/
theorem bootstrap_again_sample :
    ∃ again, (Sample.host fun _ _ => none).env.value bootstrapEnd
        (bootstrapRelay.bootstrap bootstrapOptions) = some again ∧
      again.alreadyInstalled = true ∧ again.state = bootstrapState := by
  have hfirst : ((Sample.host fun _ _ => none).env.value emptyStart
      (bootstrapRelay.bootstrap bootstrapOptions)).map
        (fun report => (report.alreadyInstalled, report.state)) = some (false, bootstrapState) := by
    decide +kernel
  have hsecond : ((Sample.host fun _ _ => none).env.value bootstrapEnd
        (bootstrapRelay.bootstrap bootstrapOptions)).isSome = true ∧
      ∀ e ∈ bootstrapTrace bootstrapEnd, Clean e ∨
        e.request = .exec ("cat ".toList ++ (keyPath Sample.path).toStringLossy) := by
    decide +kernel
  have hround : bootstrapRelay.toml.RoundTrips := by
    refine Toml.roundTrips_ofTable ?_ ?_
    · decide +kernel
    · decide +kernel
  obtain ⟨report, hreport, heq⟩ := Option.map_eq_some_iff.mp hfirst
  obtain ⟨hnew, hstate⟩ := Prod.mk.inj heq
  obtain ⟨again, hagain⟩ := Option.isSome_iff_exists.mp hsecond.1
  obtain ⟨-, -, -, -, -, htwice⟩ := operations_leave_untouched bootstrapRelay hround
  have hall := (htwice _ _ _ _ _ _ _ truthful_sample (Env.runs_value hreport) hnew
    (fun _ _ => rfl)).2 _ _ _ (Env.runs_value hagain) fun e he => ?_
  · obtain ⟨again', hok, halready, hsame⟩ := hall
    cases hok
    exact ⟨again, hagain, halready, hsame.trans hstate⟩
  · intro hread
    rcases hsecond.2 e he with hclean | hkey
    · exact hclean
    · refine absurd hkey (hread _ ?_)
      decide +kernel

end RelayLifecycle

end Rustmote
