import Rustmote.RelayLifecycle.Host

/-!
# The stages of an operation on a host

What a failure of a stage of `bootstrap` and `update` tells.

* `Calm` — a builder never fails with `RelayHealthCheckFailed`.
* `NotUnhealthy` — no stage but the health check fails with it: `errors_loadState`,
  `errors_backup`, `errors_install`, ….
* `errors_execBuilt_of_clean` — a command that is known to exit with zero does not fail.
-/

namespace Rustmote

open Interaction (Env)
open Interaction.Prog (Always Errors errors_ofExcept errors_attempt)
open FileTree

/-! ### Failures that are no failed health check -/

/-- If it fails, it is no failed health check. -/
def Calm {α : Type} (x : Except RustmoteError α) : Prop :=
  ∀ e, x = .error e → e ≠ .relayHealthCheckFailed

theorem Calm.bind {α β : Type} {x : Except RustmoteError α} {f : α → Except RustmoteError β}
    (hx : Calm x) (hf : ∀ a, Calm (f a)) : Calm (x >>= f) := by
  cases x with
  | ok a => exact hf a
  | error e =>
    intro e' he'
    obtain rfl : e = e' := Except.error.inj he'
    exact hx e rfl

theorem calm_ok {α : Type} (a : α) : Calm (.ok a : Except RustmoteError α) := fun _ h => nomatch h

theorem calm_error {α : Type} {e : RustmoteError} (h : e ≠ .relayHealthCheckFailed) :
    Calm (.error e : Except RustmoteError α) := by
  intro e' he'
  cases he'
  exact h

theorem calm_validateRemotePath (path : PathBuf) : Calm (Commands.validateRemotePath path) := by
  unfold Commands.validateRemotePath
  split
  · exact calm_error (by simp)
  · split_ifs
    · exact calm_error (by simp)
    · exact calm_error (by simp)
    · exact calm_error (by simp)
    · exact calm_ok _

theorem calm_onPath (utility : Str) (path : PathBuf) : Calm (Commands.onPath utility path) :=
  (calm_validateRemotePath path).bind fun _ => calm_ok _

theorem calm_copyFile (src dst : PathBuf) : Calm (Commands.copyFile src dst) :=
  (calm_validateRemotePath src).bind fun _ => (calm_validateRemotePath dst).bind fun _ => calm_ok _

theorem calm_writeFile (path : PathBuf) (content : Bytes) :
    Calm (Commands.writeFile path content) :=
  (calm_validateRemotePath path).bind fun _ => calm_ok _

theorem calm_compose (arguments : Str) (path : PathBuf) : Calm (Commands.compose arguments path) :=
  (calm_validateRemotePath path).bind fun _ => calm_ok _

theorem calm_pinnedImageRef (repo tag digest : Str) :
    Calm (Commands.pinnedImageRef repo tag digest) := by
  have hrepo : Calm (Commands.validateRepo repo) := by
    unfold Commands.validateRepo
    split_ifs <;> first | exact calm_ok _ | exact calm_error (by simp)
  have htag : Calm (Commands.validateTag tag) := by
    unfold Commands.validateTag
    split_ifs <;> first | exact calm_ok _ | exact calm_error (by simp)
  have hdigest : Calm (Commands.validateDigest digest) := by
    unfold Commands.validateDigest
    split
    · exact calm_error (by simp)
    · split_ifs
      · exact calm_error (by simp)
      · exact calm_ok _
  exact hrepo.bind fun _ => htag.bind fun _ => hdigest.bind fun _ => calm_ok _

theorem calm_renderPins (seen : List (Str × Str × Str)) (out : Str) (pins : List ImagePin) :
    Calm (renderPins seen out pins) := by
  induction pins generalizing seen out with
  | nil => exact calm_ok _
  | cons pin pins ih =>
    unfold renderPins
    by_cases hseen : (pin.repo, pin.tag, pin.digest) ∈ seen
    · rw [if_pos hseen]
      exact ih _ _
    · rw [if_neg hseen]
      exact (calm_pinnedImageRef _ _ _).bind fun _ => ih _ _

theorem calm_fromTomlStr (toml : Toml) (raw hint : Str) :
    Calm (RelayState.fromTomlStr toml raw hint) := by
  unfold RelayState.fromTomlStr
  split
  · exact calm_ok _
  · exact calm_error (by simp)

theorem calm_toTomlString (toml : Toml) (state : RelayState) :
    Calm (RelayState.toTomlString toml state) := by
  unfold RelayState.toTomlString
  split
  · exact calm_ok _
  · exact calm_error (by simp)

namespace RelayLifecycle

variable {self : RelayLifecycle} {G : Event → Prop}

/-- The failure is no failed health check. -/
abbrev NotUnhealthy (e : RustmoteError) : Prop := e ≠ .relayHealthCheckFailed

theorem errors_exec (cmd : Str) : Errors G NotUnhealthy (exec cmd) := by
  refine Errors.request (q := Request.exec cmd) fun reply _ => ?_
  cases reply with
  | ok out => exact .ret
  | error e => exact .fail (by simp [TransportError.toError])

theorem errors_execOk (cmd : Str) : Errors G NotUnhealthy (execOk cmd) := by
  refine (errors_exec cmd).bind fun out => errors_ofExcept fun e he => ?_
  unfold ExecOutput.okFor at he
  split_ifs at he
  cases he
  simp

theorem errors_execBuilt {built : Except RustmoteError Str} (h : Calm built) :
    Errors G NotUnhealthy (execBuilt built) := Errors.lift h fun cmd _ => errors_execOk cmd

theorem errors_readState (path : PathBuf) : Errors G NotUnhealthy (self.readState path) :=
  (errors_execBuilt (calm_onPath _ _)).bind fun _ => errors_ofExcept (calm_fromTomlStr _ _ _)

theorem errors_loadState (p : PathBuf) : Errors G NotUnhealthy (self.loadState p) := by
  unfold loadState pathExists
  refine Errors.bind (Errors.lift (calm_onPath _ _) fun cmd _ =>
    (errors_exec cmd).bind fun _ => .ret) fun found => ?_
  cases found with
  | true => exact errors_readState _
  | false => exact .fail (by simp)

theorem errors_registry {α : Type} (reply : Except RegistryError α) :
    Errors G NotUnhealthy (liftM (reply.mapError RegistryError.toError) : Relay α) := by
  cases reply with
  | ok a => exact .ret
  | error e =>
    refine .fail ?_
    cases e <;> simp [RegistryError.toError]

theorem errors_checkImages (pins : List ImagePin) : Errors G NotUnhealthy (checkImages pins) := by
  induction pins with
  | nil => exact .ret
  | cons pin pins ih =>
    unfold checkImages listTags resolveDigest
    refine Errors.bind (Errors.request fun reply _ => errors_registry reply) fun tags => ?_
    refine Errors.bind (Errors.request fun reply _ => errors_registry reply) fun digest => ?_
    exact ih.bind fun _ => .ret

theorem errors_checkUpdates (p : PathBuf) : Errors G NotUnhealthy (self.checkUpdates p) :=
  (errors_loadState p).bind fun state => (errors_checkImages state.images).bind fun _ => .ret

theorem errors_backup (p : PathBuf) (now : DateTime) : Errors G NotUnhealthy (backup p now) := by
  unfold backup snapshotConfig
  refine (errors_execBuilt (calm_onPath _ _)).bind fun _ => ?_
  refine (errors_execBuilt (calm_copyFile _ _)).bind fun _ => ?_
  refine (errors_execBuilt (calm_copyFile _ _)).bind fun _ => ?_
  refine Errors.bind (Errors.lift (calm_compose _ _) fun cmd _ =>
    (errors_exec cmd).bind fun cfg => ?_) fun _ => .ret
  by_cases hcfg : cfg.exitCode = 0
  · rw [if_pos hcfg]
    exact (errors_execBuilt (calm_writeFile _ _)).bind fun _ => .ret
  · rw [if_neg hcfg]
    exact .ret

theorem errors_backupUnlessSkipped (opts : UpdateOptions) (now : DateTime) :
    Errors G NotUnhealthy (backupUnlessSkipped opts now) := by
  unfold backupUnlessSkipped
  by_cases hskip : opts.skipBackup = true
  · rw [if_pos hskip]
    exact .ret
  · rw [if_neg hskip]
    exact (errors_backup _ _).bind fun _ => .ret

theorem errors_prepare (opts : UpdateOptions) (report : CheckUpdatesReport) (now : DateTime) :
    Errors G NotUnhealthy (self.prepare opts report now) :=
  (errors_loadState _).bind fun _ => Errors.lift (calm_renderPins _ _ _) fun _ _ => .ret

theorem errors_install (p : PathBuf) (newState : RelayState) (newCompose : Str) :
    Errors G NotUnhealthy (self.install p newState newCompose) := by
  unfold install
  refine (errors_execBuilt (calm_writeFile _ _)).bind fun _ => ?_
  refine Errors.lift (calm_toTomlString _ _) fun text _ => ?_
  refine (errors_execBuilt (calm_writeFile _ _)).bind fun _ => ?_
  refine (errors_execBuilt (calm_compose _ _)).bind fun _ => ?_
  exact (errors_execBuilt (calm_compose _ _)).bind fun _ => .ret

theorem errors_removeBackups (paths : List PathBuf) :
    Errors G NotUnhealthy (removeBackups paths) := by
  induction paths with
  | nil => exact .ret
  | cons path paths ih =>
    unfold removeBackups
    refine Errors.lift (calm_validateRemotePath _) fun s _ => ?_
    exact (errors_execOk _).bind fun _ => ih.bind fun _ => .ret

theorem errors_gcBackups (p : PathBuf) (now : DateTime) :
    Errors G NotUnhealthy (gcBackups p now) := by
  unfold gcBackups
  refine Errors.lift (Calm.bind (calm_validateRemotePath _) fun _ => calm_ok _) fun cmd _ => ?_
  refine (errors_exec cmd).bind fun out => ?_
  by_cases hcode : out.exitCode = 0
  · rw [if_neg (not_not.mpr hcode)]
    exact errors_removeBackups _
  · rw [if_pos hcode]
    exact .ret

/-! ### Commands that work -/

/-- A command that is known to exit with zero does not fail. -/
theorem errors_execBuilt_of_clean {E : RustmoteError → Prop} {built : Except RustmoteError Str}
    {cmd : Str} (hcmd : built = .ok cmd)
    (hclean : ∀ reply, G ⟨.exec cmd, reply⟩ → Host.Clean ⟨.exec cmd, reply⟩) :
    Errors G E (execBuilt built) := by
  subst hcmd
  refine Errors.request (q := Request.exec cmd) fun reply hreply => ?_
  obtain ⟨out, rfl, hcode⟩ := hclean reply hreply
  show Errors G E (Interaction.Prog.ofExcept (out.okFor cmd))
  rw [ExecOutput.okFor, if_pos hcode]
  exact .ret

end RelayLifecycle

end Rustmote
