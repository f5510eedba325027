import Rustmote.RelayLifecycle.Health

/-!
# The operations return

Nothing but the health check loops without end in sight, and the health check has a deadline:
`ends_bootstrap` and `ends_update` say that both operations return on every host, as long as
the bound on the rounds is above the timeout.
-/

namespace Rustmote

open Interaction (Env)
open Interaction.Prog (NoCut noCut_ofExcept)

namespace RelayLifecycle

variable {self : RelayLifecycle}

/-! ### Stages without a loop on time -/

theorem noCut_lift {α : Type} {x : Except RustmoteError α} : NoCut (liftM x : Relay α) :=
  noCut_ofExcept

theorem noCut_now : NoCut now := .ask fun _ => .ret

theorem noCut_exec (cmd : Str) : NoCut (exec cmd) := by
  unfold exec
  exact NoCut.bind (.ask fun _ => .ret) fun _ => noCut_ofExcept

theorem noCut_execOk (cmd : Str) : NoCut (execOk cmd) := by
  unfold execOk
  exact (noCut_exec cmd).bind fun _ => noCut_ofExcept

theorem noCut_execBuilt (built : Except RustmoteError Str) : NoCut (execBuilt built) := by
  unfold execBuilt
  exact NoCut.bind noCut_lift fun cmd => noCut_execOk cmd

theorem noCut_pathExists (path : PathBuf) (directory : Bool) :
    NoCut (pathExists path directory) := by
  unfold pathExists
  cases directory with
  | true => exact NoCut.bind noCut_lift fun cmd => (noCut_exec cmd).bind fun _ => .ret
  | false => exact NoCut.bind noCut_lift fun cmd => (noCut_exec cmd).bind fun _ => .ret

theorem noCut_readState (path : PathBuf) : NoCut (self.readState path) := by
  unfold readState readFile
  exact (noCut_execBuilt _).bind fun _ => noCut_lift

theorem noCut_loadState (p : PathBuf) : NoCut (self.loadState p) := by
  unfold loadState
  refine (noCut_pathExists _ _).bind fun found => ?_
  cases found with
  | true => exact noCut_readState _
  | false => exact .fail

theorem noCut_publicKey (p : PathBuf) : NoCut (publicKey p) := by
  unfold publicKey readPublicKey readFile
  refine NoCut.bind (NoCut.attempt ?_) fun _ => .ret
  exact (noCut_execBuilt _).bind fun _ => .ret

theorem noCut_detectOs : NoCut detectOs := by
  unfold detectOs
  refine (noCut_execOk _).bind fun out => ?_
  cases parseOsRelease out.stdoutString with
  | some os => exact .ret
  | none => exact .fail

theorem noCut_osOf (hint : Option OsKind) : NoCut (osOf hint) := by
  cases hint with
  | some os => exact .ret
  | none => exact noCut_detectOs

theorem noCut_ensureDockerStack : NoCut ensureDockerStack := by
  unfold ensureDockerStack
  refine (noCut_exec _).bind fun docker => ?_
  split_ifs
  · exact .fail
  · refine (noCut_exec _).bind fun v2 => ?_
    split_ifs
    · refine (noCut_exec _).bind fun v1 => ?_
      split_ifs
      · exact .fail
      · exact .fail
    · exact .ret

theorem noCut_resolveDigest (repo tag : Str) : NoCut (resolveDigest repo tag) := by
  unfold resolveDigest
  exact NoCut.bind (.ask fun _ => .ret) fun _ => noCut_ofExcept

theorem noCut_checkImages (pins : List ImagePin) : NoCut (checkImages pins) := by
  induction pins with
  | nil => exact .ret
  | cons pin pins ih =>
    unfold checkImages listTags
    refine NoCut.bind (NoCut.bind (.ask fun _ => .ret) fun _ => noCut_ofExcept) fun tags => ?_
    exact (noCut_resolveDigest _ _).bind fun _ => ih.bind fun _ => .ret

theorem noCut_checkUpdates (p : PathBuf) : NoCut (self.checkUpdates p) := by
  unfold checkUpdates
  exact (noCut_loadState p).bind fun _ => (noCut_checkImages _).bind fun _ => .ret

theorem noCut_resolvePins (repo tag : Str) (now : DateTime) (services : List Str) :
    NoCut (resolvePins repo tag now services) := by
  induction services with
  | nil => exact .ret
  | cons service services ih =>
    unfold resolvePins
    exact (noCut_resolveDigest _ _).bind fun _ => ih.bind fun _ => .ret

theorem noCut_layOut (opts : BootstrapOptions) (compose : Str) (state : RelayState) :
    NoCut (self.layOut opts compose state) := by
  unfold layOut
  refine (noCut_execBuilt _).bind fun _ => (noCut_execBuilt _).bind fun _ => ?_
  refine (noCut_execBuilt _).bind fun _ => (noCut_execBuilt _).bind fun _ => ?_
  refine (noCut_execBuilt _).bind fun _ => NoCut.bind noCut_lift fun _ => ?_
  exact (noCut_execBuilt _).bind fun _ => .ret

theorem noCut_bootstrapExisting (opts : BootstrapOptions) (os : OsKind) :
    NoCut (self.bootstrapExisting opts os) := by
  unfold bootstrapExisting
  refine (noCut_pathExists _ _).bind fun found => ?_
  cases found with
  | true => exact (noCut_readState _).bind fun _ => (noCut_publicKey _).bind fun _ => .ret
  | false => exact .fail

theorem noCut_backupUnlessSkipped (opts : UpdateOptions) (now : DateTime) :
    NoCut (backupUnlessSkipped opts now) := by
  unfold backupUnlessSkipped backup snapshotConfig
  split_ifs
  · exact .ret
  · refine NoCut.bind ?_ fun _ => .ret
    refine (noCut_execBuilt _).bind fun _ => (noCut_execBuilt _).bind fun _ => ?_
    refine (noCut_execBuilt _).bind fun _ => NoCut.bind ?_ fun _ => .ret
    refine NoCut.bind noCut_lift fun cmd => (noCut_exec cmd).bind fun cfg => ?_
    split_ifs
    · exact (noCut_execBuilt _).bind fun _ => .ret
    · exact .ret

theorem noCut_prepare (opts : UpdateOptions) (report : CheckUpdatesReport) (now : DateTime) :
    NoCut (self.prepare opts report now) := by
  unfold prepare
  exact (noCut_loadState _).bind fun _ => NoCut.bind noCut_lift fun _ => .ret

theorem noCut_install (p : PathBuf) (newState : RelayState) (newCompose : Str) :
    NoCut (self.install p newState newCompose) := by
  unfold install
  refine (noCut_execBuilt _).bind fun _ => NoCut.bind noCut_lift fun _ => ?_
  refine (noCut_execBuilt _).bind fun _ => (noCut_execBuilt _).bind fun _ => ?_
  exact (noCut_execBuilt _).bind fun _ => .ret

theorem noCut_removeBackups (paths : List PathBuf) : NoCut (removeBackups paths) := by
  induction paths with
  | nil => exact .ret
  | cons path paths ih =>
    unfold removeBackups
    exact NoCut.bind noCut_lift fun _ => (noCut_execOk _).bind fun _ => ih.bind fun _ => .ret

theorem noCut_gcBackups (p : PathBuf) (now : DateTime) : NoCut (gcBackups p now) := by
  unfold gcBackups
  refine NoCut.bind noCut_lift fun cmd => (noCut_exec cmd).bind fun out => ?_
  split_ifs
  · exact .ret
  · exact noCut_removeBackups _

end RelayLifecycle

/-! ### The operations -/

namespace Host

open RelayLifecycle

variable {H : Host} {w : H.World} {self : RelayLifecycle}

theorem ends_ret {α : Type} {a : α} : H.env.Ends w (pure a : Relay α) :=
  Env.ends_of_noCut .ret

theorem ends_fail {α : Type} {e : RustmoteError} : H.env.Ends w (.fail e : Relay α) :=
  Env.ends_of_noCut .fail

/-- **`bootstrap` returns.** -/
theorem ends_bootstrap (opts : BootstrapOptions) (hrounds : self.healthCheckTimeout < self.rounds) :
    H.env.Ends w (self.bootstrap opts) := by
  unfold bootstrap
  refine Env.Ends.bind (Env.ends_of_noCut (noCut_osOf _)) fun os _ _ _ => ?_
  refine Env.Ends.bind (Env.ends_of_noCut noCut_ensureDockerStack) fun _ _ _ _ => ?_
  refine Env.Ends.bind (Env.ends_of_noCut (noCut_pathExists _ _)) fun found _ _ _ => ?_
  cases found with
  | true => exact Env.ends_of_noCut (noCut_bootstrapExisting opts os)
  | false =>
    show H.env.Ends _ (self.bootstrapFresh opts os)
    unfold bootstrapFresh
    refine Env.Ends.bind (Env.ends_of_noCut noCut_now) fun now _ _ _ => ?_
    refine Env.Ends.bind (Env.ends_of_noCut (noCut_resolvePins _ _ _ _)) fun _ _ _ _ => ?_
    refine Env.Ends.bind (Env.ends_of_noCut noCut_lift) fun _ _ _ _ => ?_
    unfold settle
    refine Env.Ends.bind (Env.ends_of_noCut (noCut_layOut _ _ _)) fun _ _ _ _ => ?_
    refine Env.Ends.bind (Env.ends_of_noCut (noCut_execBuilt _)) fun _ _ _ _ => ?_
    refine Env.Ends.bind (ends_healthCheck _ _ hrounds) fun _ _ _ _ => ?_
    exact Env.Ends.bind (Env.ends_of_noCut (noCut_publicKey _)) fun _ _ _ _ => ends_ret

theorem ends_rollback (p dir : PathBuf) (hrounds : self.healthCheckTimeout < self.rounds) :
    H.env.Ends w (self.rollback p dir) := by
  unfold rollback
  refine Env.Ends.bind (Env.ends_of_noCut (noCut_execBuilt _)) fun _ _ _ _ => ?_
  refine Env.Ends.bind (Env.ends_of_noCut (noCut_execBuilt _)) fun _ _ _ _ => ?_
  refine Env.Ends.bind (Env.ends_of_noCut (noCut_execBuilt _)) fun _ _ _ _ => ?_
  exact ends_healthCheck _ _ hrounds

theorem ends_conclude (opts : UpdateOptions) (now : DateTime) (backupDir : Option PathBuf)
    (newState : RelayState) (hrounds : self.healthCheckTimeout < self.rounds) :
    H.env.Ends w (self.conclude opts now backupDir newState) := by
  unfold conclude
  refine Env.Ends.bind (Env.Ends.attempt (ends_healthCheck _ _ hrounds)) fun checked _ _ _ => ?_
  cases checked with
  | error e =>
    cases backupDir with
    | some dir => exact Env.Ends.bind (ends_rollback _ _ hrounds) fun _ _ _ _ => ends_fail
    | none => exact ends_fail
  | ok _ =>
    exact Env.Ends.bind (Env.ends_of_noCut (noCut_gcBackups _ _)) fun _ _ _ _ => ends_ret

/-- **`update` returns.** -/
theorem ends_update (opts : UpdateOptions) (hrounds : self.healthCheckTimeout < self.rounds) :
    H.env.Ends w (self.update opts) := by
  unfold update
  by_cases hconfirmed : (!opts.assumeYes && !opts.isTty) = true
  · rw [if_pos hconfirmed]
    exact ends_fail
  rw [if_neg hconfirmed]
  refine Env.Ends.bind (Env.ends_of_noCut (noCut_checkUpdates _)) fun report _ _ _ => ?_
  by_cases havailable : (!report.anyUpdateAvailable) = true
  · rw [if_pos havailable]
    exact Env.Ends.bind (Env.ends_of_noCut (noCut_loadState _)) fun _ _ _ _ => ends_ret
  rw [if_neg havailable]
  unfold applyUpdates
  refine Env.Ends.bind (Env.ends_of_noCut noCut_now) fun now _ _ _ => ?_
  refine Env.Ends.bind (Env.ends_of_noCut (noCut_backupUnlessSkipped _ _)) fun _ _ _ _ => ?_
  refine Env.Ends.bind (Env.ends_of_noCut (noCut_prepare _ _ _)) fun _ _ _ _ => ?_
  refine Env.Ends.bind (Env.ends_of_noCut (noCut_install _ _ _)) fun _ _ _ _ => ?_
  exact ends_conclude _ _ _ _ hrounds

end Host

end Rustmote
