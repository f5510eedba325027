import Rustmote.RelayLifecycle.Health

/-!
# Plain requests

An update reads the clock once, when it knows that there is something to do, and lists the backups
once, when the relay has answered. Whatever it asks otherwise is `Plain`: each stage of `update` but
the clean-up asks plain requests only.
-/

namespace Rustmote

open Interaction.Prog (Always)
open RelayLifecycle

/-- What the shell reads in a listing is the template of no other builder. -/
theorem find_of_tokens {t : Template} {backups : Str}
    (h : t.tokens = (Template.find backups).tokens) : ∃ other, t = .find other := by
  have hhead := congrArg List.head? h
  cases t with
  | find other => exact ⟨other, rfl⟩
  | _ =>
    simp only [Template.tokens, List.cons_append, List.nil_append, List.head?_cons,
      Option.some.injEq] at hhead
    exact absurd hhead (by decide)

/-- No other builder makes the command that lists the backups. -/
theorem ne_findBackups {b : Builder} {backups : PathBuf} {cmd : Str} (h : b.command = .ok cmd)
    (hb : ∀ q, b ≠ .findBackups q) : findBackups backups ≠ .ok cmd := by
  intro hfind
  obtain ⟨t, ht, -, hlex⟩ := lex_command h
  obtain ⟨s, -, -, hlex'⟩ := lex_findBackups hfind
  obtain ⟨other, rfl⟩ := find_of_tokens (Option.some.inj (hlex.symm.trans hlex'))
  cases b with
  | findBackups q => exact hb q rfl
  | _ => simp [Builder.template, Option.map_eq_some_iff, Option.bind_eq_some_iff] at ht

/-- The request neither reads the clock nor lists the backups. -/
def Plain (p : PathBuf) : Request → Prop
  | .now => False
  | .exec cmd => findBackups (backupsPath p) ≠ .ok cmd
  | _ => True

namespace RelayLifecycle

variable {self : RelayLifecycle} {G : Event → Prop} {p : PathBuf}

theorem plain_exec {cmd : Str} (h : findBackups (backupsPath p) ≠ .ok cmd) :
    Always G (Plain p) (exec cmd) fun _ => True :=
  Always.request (q := Request.exec cmd) h fun _ _ =>
    Interaction.Prog.always_ofExcept.mono fun _ _ => trivial

/-- A builder's command, unless it is the listing. -/
theorem plain_execBuilt (b : Builder) (hb : ∀ q, b ≠ .findBackups q) :
    Always G (Plain p) (execBuilt b.command) fun _ => True :=
  Always.lift fun _ hcmd => (plain_exec (ne_findBackups hcmd hb)).bind fun _ _ =>
    Interaction.Prog.always_ofExcept.mono fun _ _ => trivial

theorem plain_loadState (path : PathBuf) :
    Always G (Plain p) (self.loadState path) fun _ => True := by
  have htest : ∀ cmd, Commands.testFileExists (statePath path) = .ok cmd →
      findBackups (backupsPath p) ≠ .ok cmd := fun _ h =>
    ne_findBackups (b := .testFileExists (statePath path)) h (fun _ => by simp)
  unfold loadState pathExists
  refine Always.bind (Q := fun _ => True) (Always.lift fun cmd hcmd =>
    (plain_exec (htest cmd hcmd)).bind fun _ _ => .ret trivial) fun found _ => ?_
  cases found with
  | true =>
    show Always G (Plain p) (self.readState (statePath path)) fun _ => True
    unfold readState readFile
    refine (plain_execBuilt (.catFile (statePath path)) fun _ => by simp).bind fun _ _ => ?_
    exact Interaction.Prog.always_ofExcept.mono fun _ _ => trivial
  | false => exact .fail

theorem plain_checkUpdates (path : PathBuf) :
    Always G (Plain p) (self.checkUpdates path) fun _ => True := by
  have himages : ∀ pins : List ImagePin,
      Always G (Plain p) (checkImages pins) fun _ => True := by
    intro pins
    induction pins with
    | nil => exact .ret trivial
    | cons pin pins ih =>
      unfold checkImages
      refine Always.bind (Q := fun _ => True) (Always.request (q := Request.listTags pin.repo)
        trivial fun _ _ => Interaction.Prog.always_ofExcept.mono fun _ _ => trivial) fun tags _ => ?_
      refine Always.bind (Q := fun _ => True) (Always.request
        (q := Request.resolveDigest pin.repo ((pickLatestSemver tags).getD pin.tag)) trivial
        fun _ _ => Interaction.Prog.always_ofExcept.mono fun _ _ => trivial) fun digest _ => ?_
      exact ih.bind fun _ _ => .ret trivial
  unfold checkUpdates
  exact (plain_loadState path).bind fun state _ => (himages state.images).bind fun _ _ => .ret trivial

theorem plain_backupUnlessSkipped (opts : UpdateOptions) (now : DateTime) :
    Always G (Plain p) (backupUnlessSkipped opts now) fun _ => True := by
  have hconfig : ∀ cmd, Commands.composeConfig opts.installPath = .ok cmd →
      findBackups (backupsPath p) ≠ .ok cmd := fun _ h =>
    ne_findBackups (b := .compose .config opts.installPath) h (fun _ => by simp)
  unfold backupUnlessSkipped
  by_cases hskip : opts.skipBackup = true
  · rw [if_pos hskip]
    exact .ret trivial
  · rw [if_neg hskip]
    refine Always.bind (Q := fun _ => True) ?_ fun _ _ => .ret trivial
    unfold backup
    refine (plain_execBuilt (.mkdirP _) fun _ => by simp).bind fun _ _ => ?_
    refine (plain_execBuilt (.copyFile _ _) fun _ => by simp).bind fun _ _ => ?_
    refine (plain_execBuilt (.copyFile _ _) fun _ => by simp).bind fun _ _ => ?_
    refine Always.bind (Q := fun _ => True) ?_ fun _ _ => .ret trivial
    unfold snapshotConfig
    refine Always.lift fun cmd hcmd => (plain_exec (hconfig cmd hcmd)).bind fun cfg _ => ?_
    by_cases hcode : cfg.exitCode = 0
    · rw [if_pos hcode]
      exact (plain_execBuilt (.writeFile _ _) fun _ => by simp).bind fun _ _ => .ret trivial
    · rw [if_neg hcode]
      exact .ret trivial

theorem plain_prepare (opts : UpdateOptions) (report : CheckUpdatesReport) (now : DateTime) :
    Always G (Plain p) (self.prepare opts report now) fun _ => True := by
  unfold prepare
  exact (plain_loadState _).bind fun _ _ => Always.lift fun _ _ => .ret trivial

theorem plain_install (path : PathBuf) (newState : RelayState) (newCompose : Str) :
    Always G (Plain p) (self.install path newState newCompose) fun _ => True := by
  unfold install
  refine (plain_execBuilt (.writeFile _ _) fun _ => by simp).bind fun _ _ => ?_
  refine Always.lift fun text _ => ?_
  refine (plain_execBuilt (.writeFile _ _) fun _ => by simp).bind fun _ _ => ?_
  refine (plain_execBuilt (.compose .pull path) fun _ => by simp).bind fun _ _ => ?_
  exact (plain_execBuilt (.compose .up path) fun _ => by simp).bind fun _ _ => .ret trivial

theorem plain_healthCheck (ports : List Nat) :
    Always (fun _ => True) (Plain p) (self.healthCheck ports) fun _ => True := by
  refine (Host.always_polls ports).weaken (fun _ h => h) (fun q hq => ?_)
  cases q with
  | exec cmd =>
    intro hfind
    obtain ⟨port, -, hprobe⟩ := List.any_eq_true.mp hq
    obtain rfl := of_decide_eq_true hprobe
    exact ne_findBackups (b := .tcpProbe port) rfl (fun _ => by simp) hfind
  | now => cases hq
  | _ => trivial

theorem plain_removeBackups (paths : List PathBuf) :
    Always G (Plain p) (removeBackups paths) fun _ => True := by
  induction paths with
  | nil => exact .ret trivial
  | cons path paths ih =>
    unfold removeBackups
    refine Always.lift fun s hs => ?_
    have hcmd : (Builder.remove path).command = .ok ("rm -rf ".toList ++ s) :=
      Except.map_eq_ok.mpr ⟨s, hs, rfl⟩
    refine Always.bind (Q := fun _ => True) ?_ fun _ _ => ih.bind fun _ _ => .ret trivial
    exact (plain_exec (ne_findBackups hcmd fun _ => by simp)).bind fun _ _ =>
      Interaction.Prog.always_ofExcept.mono fun _ _ => trivial

/-- The run has read the clock once, and has not listed the backups. -/
def ReadOnce (p : PathBuf) (tr : List Event) (now : DateTime) : Prop :=
  ∃ before behind, tr = before ++ ⟨.now, now⟩ :: behind ∧
    (∀ e ∈ before, Plain p e.request) ∧ ∀ e ∈ behind, Plain p e.request

theorem ReadOnce.shown {tr : List Event} {now : DateTime} (h : ReadOnce p tr now) :
    Shown tr now := by
  obtain ⟨before, behind, rfl, -, -⟩ := h
  exact List.mem_append_right _ List.mem_cons_self

end RelayLifecycle

end Rustmote
