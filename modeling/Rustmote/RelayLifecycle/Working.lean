import Rustmote.RelayLifecycle.UpdateRuns

/-!
# While the commands work

A stage whose paths are accepted fails only when a command of it does. `Working G` says that
events that satisfy `G` are no such failures; the `errors_…_of_working` turn that into stages
that do not fail. What is read back then is what is there (`runs_loadState_of_works`).
-/

namespace Rustmote

open Interaction (Env)
open Interaction.Prog (Always Errors)

namespace Host

open RelayLifecycle

/-- The commands that change or start something exit with zero. -/
structure Working (G : Event → Prop) : Prop where
  /-- Directories are made. -/
  mkdir : ∀ {path : PathBuf} {cmd : Str} {reply}, Commands.mkdirP path = .ok cmd →
    G ⟨.exec cmd, reply⟩ → Clean ⟨.exec cmd, reply⟩
  /-- Files are written. -/
  write : ∀ {path : PathBuf} {content : Bytes} {cmd : Str} {reply},
    Commands.writeFile path content = .ok cmd → G ⟨.exec cmd, reply⟩ → Clean ⟨.exec cmd, reply⟩
  /-- Files are copied. -/
  copy : ∀ {src dst : PathBuf} {cmd : Str} {reply}, Commands.copyFile src dst = .ok cmd →
    G ⟨.exec cmd, reply⟩ → Clean ⟨.exec cmd, reply⟩
  /-- Containers are pulled. -/
  pull : ∀ {p : PathBuf} {cmd : Str} {reply}, Commands.composePull p = .ok cmd →
    G ⟨.exec cmd, reply⟩ → Clean ⟨.exec cmd, reply⟩
  /-- Containers are started. -/
  up : ∀ {p : PathBuf} {cmd : Str} {reply}, Commands.composeUp p = .ok cmd →
    G ⟨.exec cmd, reply⟩ → Clean ⟨.exec cmd, reply⟩

/-- Every command exits with zero, but for the probes of the relay's ports. -/
def Works (e : Event) : Prop :=
  (∀ port ∈ relayPorts, e.request ≠ .exec (Commands.tcpProbe port)) → Clean e

instance : DecidablePred Works := fun e =>
  inferInstanceAs (Decidable ((∀ port ∈ relayPorts, _) → Clean e))

/-- No other command is a probe. -/
theorem Works.clean {cmd : Str} {reply : Except TransportError ExecOutput}
    (h : Works ⟨.exec cmd, reply⟩) (hcmd : actions cmd ≠ some [.external]) :
    Clean ⟨.exec cmd, reply⟩ := by
  apply h
  intro port _ hprobe
  apply hcmd
  rw [Request.exec.inj hprobe]
  exact actions_tcpProbe port

theorem working_works : Working Works where
  mkdir h hG := hG.clean (by rw [actions_mkdirP h]; simp)
  write h hG := hG.clean (by rw [actions_writeFile h]; simp)
  copy h hG := hG.clean (by rw [actions_copyFile h]; simp)
  pull h hG := hG.clean (by rw [actions_compose .pull (by decide) h]; simp)
  up h hG := hG.clean (by rw [actions_compose .up (by decide) h]; simp)

variable {H : Host} {w w' : H.World} {tr : List Event} {G : Event → Prop}
  {E : RustmoteError → Prop} {self : RelayLifecycle} {p : PathBuf} {s : Str}

/-! ### Reading while the commands work -/

/-- Nothing fails on a command that has succeeded. -/
theorem errors_exec_of_clean {α : Type} {cmd : Str} {f : ExecOutput → Relay α}
    (hclean : ∀ reply, G ⟨.exec cmd, reply⟩ → Clean ⟨.exec cmd, reply⟩)
    (hf : ∀ out, out.exitCode = 0 → Errors G E (f out)) : Errors G E (exec cmd >>= f) := by
  refine Errors.request (q := Request.exec cmd) (f := fun reply => liftM (reply.mapError
    TransportError.toError) >>= f) fun reply hreply => ?_
  obtain ⟨out, rfl, hcode⟩ := hclean reply hreply
  exact hf out hcode

/-- What does not fail returns. -/
theorem runs_of_errors {α : Type} {prog : Relay α} {Q : α → Prop}
    {r : Except RustmoteError α} (h : H.env.Runs w prog tr r w')
    (hE : Errors G (fun _ => False) prog) (hQ : Always G (fun _ => True) prog Q)
    (hG : ∀ e ∈ tr, G e) : ∃ a, r = .ok a ∧ Q a := by
  cases r with
  | ok a => exact ⟨a, rfl, (hQ.run h.1 hG).2 a rfl⟩
  | error e => exact (hE.run h.1 hG).elim

/-- `path_exists`, once its argument is accepted. -/
theorem pathExists_of_accepted {path : PathBuf} {directory : Bool} {cmd : Str}
    (hcmd : (if directory then Commands.testDirExists path else Commands.testFileExists path) =
      .ok cmd) :
    pathExists path directory = exec cmd >>= fun out => .ret (decide (out.exitCode = 0)) := by
  unfold pathExists
  cases directory with
  | true =>
    rw [if_pos rfl] at hcmd
    simp only [hcmd, if_true]
    rfl
  | false =>
    rw [if_neg Bool.false_ne_true] at hcmd
    simp only [hcmd, Bool.false_eq_true, if_false]
    rfl

/-- A directory or file that is asked for is found. -/
theorem runs_pathExists_of_clean {path : PathBuf} {directory : Bool} {cmd : Str}
    {r : Except RustmoteError Bool}
    (hcmd : (if directory then Commands.testDirExists path else Commands.testFileExists path) =
      .ok cmd)
    (hclean : ∀ reply, G ⟨.exec cmd, reply⟩ → Clean ⟨.exec cmd, reply⟩)
    (h : H.env.Runs w (pathExists path directory) tr r w') (hG : ∀ e ∈ tr, G e) :
    r = .ok true := by
  have herrors : Errors G (fun _ => False) (pathExists path directory) := by
    rw [pathExists_of_accepted hcmd]
    exact errors_exec_of_clean hclean fun _ _ => .ret
  have hfound : Always G (fun _ => True) (pathExists path directory) fun found => found = true := by
    rw [pathExists_of_accepted hcmd]
    refine Always.request (q := Request.exec cmd) trivial fun reply hreply => ?_
    obtain ⟨out, rfl, hcode⟩ := hclean reply hreply
    exact .ret (decide_eq_true hcode)
  obtain ⟨found, hr, rfl⟩ := runs_of_errors h herrors hfound hG
  exact hr

/-- A file that is read is printed. -/
theorem runs_cat_of_clean {cmd : Str} {q : Path} {r : Except RustmoteError ExecOutput}
    (hactions : actions cmd = some [.cat q])
    (hclean : ∀ reply, G ⟨.exec cmd, reply⟩ → Clean ⟨.exec cmd, reply⟩)
    (h : H.env.Runs w (execOk cmd) tr r w') (hG : ∀ e ∈ tr, G e) :
    ∃ out, r = .ok out ∧ (H.tree w).fileAt q = some out.stdout := by
  rcases runs_execOk h with ⟨out, hr, hreply, hstep⟩ | ⟨e, -, -, hfail⟩
  · obtain ⟨out', hout', hcode⟩ := hstep.zero
    obtain rfl := Except.ok.inj (hout'.symm.trans hreply)
    exact ⟨out', hr, H.printed w cmd q out' hactions hreply hcode⟩
  · refine absurd (hclean _ (hG _ ?_)) hfail.not_clean
    rw [hfail.trace]
    exact List.mem_singleton_self _

/-- The state is read back. -/
theorem runs_readState_of_clean {state : RelayState} {r : Except RustmoteError RelayState}
    {cmd : Str} (hcmd : Commands.catFile (statePath p) = .ok cmd)
    (hclean : ∀ reply, G ⟨.exec cmd, reply⟩ → Clean ⟨.exec cmd, reply⟩)
    (hstate : HoldsState self.toml (H.tree w) p state)
    (h : H.env.Runs w (self.readState (statePath p)) tr r w') (hG : ∀ e ∈ tr, G e) :
    r = .ok state := by
  obtain ⟨raw, hraw, hparse⟩ := hstate
  have hactions := actions_catFile hcmd
  unfold readState at h
  rcases Env.runs_bind_iff.mp h with ⟨e, -, hread⟩ | ⟨out, t₁, t₂, w₁, rfl, hread, h₁⟩
  · unfold readFile execBuilt at hread
    rw [hcmd] at hread
    obtain ⟨out, hout, -⟩ := runs_cat_of_clean hactions hclean hread hG
    cases hout
  · unfold readFile execBuilt at hread
    rw [hcmd] at hread
    obtain ⟨out', hout, hfile⟩ := runs_cat_of_clean hactions hclean hread
      (List.forall_mem_append.mp hG).1
    cases hout
    obtain rfl := Option.some.inj (hraw.symm.trans hfile)
    obtain ⟨-, hr, -⟩ := Env.runs_ofExcept_iff.mp h₁
    rw [hr]
    exact RelayState.fromTomlStr_eq_ok_iff.mpr hparse

/-- What is asked for and what is read is no probe. -/
theorem Works.of_actions {cmd : Str} {reply : Except TransportError ExecOutput} {a : Action}
    (h : Works ⟨.exec cmd, reply⟩) (ha : actions cmd = some [a]) (hne : a ≠ .external) :
    Clean ⟨.exec cmd, reply⟩ :=
  h.clean (by simpa [ha] using hne)

/-- **A state file that can be parsed** is loaded. -/
theorem runs_loadState_of_works {state : RelayState} {r : Except RustmoteError RelayState}
    (hs : Commands.validateRemotePath p = .ok s)
    (hstate : HoldsState self.toml (H.tree w) p state)
    (h : H.env.Runs w (self.loadState p) tr r w') (hworks : ∀ e ∈ tr, Works e) :
    r = .ok state := by
  have hpath := validateRemotePath_posixJoin hs (by decide : SafeName stateName)
  have hcat : Commands.catFile (statePath p) = .ok _ :=
    Commands.onPath_of_accepted hpath "cat ".toList
  have htest : (if false then Commands.testDirExists (statePath p)
      else Commands.testFileExists (statePath p)) = .ok _ :=
    Commands.onPath_of_accepted hpath "test -f ".toList
  have hfound : ∀ {tr r w'}, H.env.Runs w (pathExists (statePath p) false) tr r w' →
      (∀ e ∈ tr, Works e) → r = .ok true := fun h hworks => runs_pathExists_of_clean htest
    (fun _ h => h.of_actions (actions_testFileExists htest) (by simp)) h hworks
  unfold loadState at h
  rcases Env.runs_bind_iff.mp h with ⟨e, -, hexists⟩ | ⟨found, t₁, t₂, w₁, rfl, hexists, h₁⟩
  · cases hfound hexists hworks
  obtain ⟨hworks₁, hworks₂⟩ := List.forall_mem_append.mp hworks
  cases hfound hexists hworks₁
  rw [← runs_tree hexists (always_stateExists (p := p))] at hstate
  exact runs_readState_of_clean hcat
    (fun _ h => h.of_actions (actions_catFile hcat) (by simp)) hstate h₁ hworks₂

/-! ### Stages that do not fail -/

theorem errors_mkdirP_of_working (hG : Working G) {path : PathBuf}
    (h : Commands.validateRemotePath path = .ok s) :
    Errors G E (execBuilt (Commands.mkdirP path)) := by
  have hcmd := Commands.onPath_of_accepted h "mkdir -p ".toList
  exact errors_execBuilt_of_clean hcmd fun _ => hG.mkdir hcmd

theorem errors_writeFile_of_working (hG : Working G) {path : PathBuf}
    (h : Commands.validateRemotePath path = .ok s) (content : Bytes) :
    Errors G E (execBuilt (Commands.writeFile path content)) := by
  obtain ⟨cmd, hcmd⟩ := Commands.writeFile_of_accepted h content
  exact errors_execBuilt_of_clean hcmd fun _ => hG.write hcmd

theorem errors_composePull_of_working (hG : Working G)
    (h : Commands.validateRemotePath p = .ok s) :
    Errors G E (execBuilt (Commands.composePull p)) := by
  obtain ⟨cmd, hcmd⟩ := Commands.compose_of_accepted h "pull".toList
  exact errors_execBuilt_of_clean hcmd fun _ => hG.pull hcmd

theorem errors_composeUp_of_working (hG : Working G) (h : Commands.validateRemotePath p = .ok s) :
    Errors G E (execBuilt (Commands.composeUp p)) := by
  obtain ⟨cmd, hcmd⟩ := Commands.compose_of_accepted h "up -d".toList
  exact errors_execBuilt_of_clean hcmd fun _ => hG.up hcmd

/-- **An install that works** does not fail. -/
theorem errors_install_of_working (hG : Working G) (htoml : self.toml.Total)
    (h : Commands.validateRemotePath p = .ok s) (newState : RelayState) (newCompose : Str) :
    Errors G E (self.install p newState newCompose) := by
  obtain ⟨text, htext⟩ := htoml newState
  have hprint := RelayState.toTomlString_eq_ok_iff.mpr htext
  have hcompose := validateRemotePath_posixJoin h (by decide : SafeName composeName)
  have hstate := validateRemotePath_posixJoin h (by decide : SafeName stateName)
  unfold install
  refine (errors_writeFile_of_working hG hcompose _).bind fun _ => ?_
  refine Errors.lift (by simp [hprint]) fun text _ => ?_
  refine (errors_writeFile_of_working hG hstate _).bind fun _ => ?_
  refine (errors_composePull_of_working hG h).bind fun _ => ?_
  exact (errors_composeUp_of_working hG h).bind fun _ => .ret

/-- **A backup while every command works** does not fail. -/
theorem errors_backup_of_works {now : DateTime} (h : Commands.validateRemotePath p = .ok s)
    (hnow : Civil.year now ≤ 9999) : Errors Works E (backup p now) := by
  have hbackups := validateRemotePath_posixJoin h (by decide : SafeName "backups".toList)
  have hdir : Commands.validateRemotePath (backupDirFor p now) = .ok _ :=
    validateRemotePath_posixJoin hbackups (safeName_backupName hnow)
  have hsnapshot := validateRemotePath_posixJoin hdir
    (by decide : SafeName "compose-config.yml".toList)
  have hcopy : ∀ name, SafeName name → Errors Works E (execBuilt
      (Commands.copyFile (posixJoin p name) (posixJoin (backupDirFor p now) name))) := by
    intro name hname
    obtain ⟨cmd, hcmd⟩ := Commands.copyFile_of_accepted (validateRemotePath_posixJoin h hname)
      (validateRemotePath_posixJoin hdir hname)
    exact errors_execBuilt_of_clean hcmd fun _ => working_works.copy hcmd
  obtain ⟨cmd, hcmd⟩ : ∃ cmd, Commands.composeConfig p = .ok cmd :=
    Commands.compose_of_accepted h "config".toList
  have hconfig : ∀ reply, Works ⟨.exec cmd, reply⟩ → Clean ⟨.exec cmd, reply⟩ := fun _ hG =>
    hG.clean (by rw [actions_compose .config (by decide) hcmd]; simp)
  unfold backup snapshotConfig
  refine (errors_mkdirP_of_working working_works hdir).bind fun _ => ?_
  refine (hcopy composeName (by decide)).bind fun _ => ?_
  refine (hcopy stateName (by decide)).bind fun _ => ?_
  refine Errors.bind ?_ fun _ => .ret
  rw [hcmd]
  refine errors_exec_of_clean hconfig fun cfg hcode => ?_
  rw [if_pos hcode]
  exact (errors_writeFile_of_working working_works hsnapshot _).bind fun _ => .ret

/-- **A layout that works** does not fail. -/
theorem errors_layOut_of_working (hG : Working G) (htoml : self.toml.Total)
    {opts : BootstrapOptions} (h : Commands.validateRemotePath opts.installPath = .ok s)
    (compose : Str) (state : RelayState) : Errors G E (self.layOut opts compose state) := by
  obtain ⟨text, htext⟩ := htoml state
  have hprint := RelayState.toTomlString_eq_ok_iff.mpr htext
  have hdata := validateRemotePath_posixJoin h (by decide : SafeName "data".toList)
  have hbackups := validateRemotePath_posixJoin h (by decide : SafeName "backups".toList)
  have hcompose := validateRemotePath_posixJoin h (by decide : SafeName composeName)
  have henv := validateRemotePath_posixJoin h (by decide : SafeName ".env".toList)
  have hstate := validateRemotePath_posixJoin h (by decide : SafeName stateName)
  unfold layOut
  refine (errors_mkdirP_of_working hG h).bind fun _ => ?_
  refine (errors_mkdirP_of_working hG hdata).bind fun _ => ?_
  refine (errors_mkdirP_of_working hG hbackups).bind fun _ => ?_
  refine (errors_writeFile_of_working hG hcompose _).bind fun _ => ?_
  refine (errors_writeFile_of_working hG henv _).bind fun _ => ?_
  refine Errors.lift (by simp [hprint]) fun text _ => ?_
  exact (errors_writeFile_of_working hG hstate _).bind fun _ => .ret

/-! ### Checks whose probes work -/

/-- The probes exit with zero. -/
def Probing (G : Event → Prop) : Prop :=
  ∀ port reply, G ⟨.exec (Commands.tcpProbe port), reply⟩ →
    Clean ⟨.exec (Commands.tcpProbe port), reply⟩

theorem probing_clean : Probing Clean := fun _ _ h => h

/-- A round has every answer. -/
theorem always_probeRound_of_probing (hG : Probing G) (ports : List Nat) :
    Always G (Asks True True fun _ => True) (probeRound ports) fun up => up = true := by
  induction ports with
  | nil => exact .ret rfl
  | cons port ports ih =>
    unfold probeRound
    refine (always_exec trivial).bind fun out hout => ?_
    obtain ⟨out', heq, hcode⟩ := hG port _ hout
    obtain rfl := Except.ok.inj heq
    rw [if_neg (not_not.mpr hcode)]
    exact ih

theorem errors_probeRound_of_probing (hG : Probing G) (ports : List Nat) :
    Errors G E (probeRound ports) := by
  induction ports with
  | nil => exact .ret
  | cons port ports ih =>
    unfold probeRound
    refine Errors.bind (Errors.request (q := Request.exec (Commands.tcpProbe port))
      fun reply hreply => ?_) fun out => ?_
    · obtain ⟨out, rfl, -⟩ := hG port reply hreply
      exact .ret
    · by_cases hup : out.exitCode = 0
      · rw [if_neg (not_not.mpr hup)]
        exact ih
      · rw [if_pos hup]
        exact .ret

/-- **A health check whose probes exit with zero** does not fail. -/
theorem errors_healthCheck_of_probing (hG : Probing G) (ports : List Nat) :
    Errors G E (self.healthCheck ports) := by
  unfold healthCheck
  refine Errors.request fun start _ => ?_
  cases self.rounds with
  | zero => exact .cut
  | succ rounds =>
    unfold healthLoop
    refine Errors.bind_of (errors_probeRound_of_probing hG ports)
      (always_probeRound_of_probing hG ports) fun up hup => ?_
    subst hup
    exact .ret

end Host

end Rustmote
