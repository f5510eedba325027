import Rustmote.RelayLifecycle.Concluding
import Rustmote.RelayLifecycle.Simulation

/-!
# When a health check fails

What a reported health check failure says of the install: `update_unhealthy_iff`.
-/

namespace Rustmote

open Interaction (Env)
open Interaction.Prog (Always Errors)
open FileTree Host

namespace RelayLifecycle

variable {H : Host} {w w' : H.World} {tr : List Event} {self : RelayLifecycle}
  {opts : UpdateOptions}

/-! ### The files of the install -/

/-- The compose file and the state file hold the same in both trees. -/
structure SameInstall (p : PathBuf) (t t' : FileTree) : Prop where
  /-- The compose file. -/
  compose : t'.fileAt (place (composePath p)) = t.fileAt (place (composePath p))
  /-- The state file. -/
  state : t'.fileAt (place (statePath p)) = t.fileAt (place (statePath p))

theorem sameInstall_before {p : PathBuf} {T : DateTime → Prop}
    (h : ∀ e ∈ tr, Asks False True (Before p T) e.request) :
    SameInstall p (H.tree w) (H.tree (H.env.final w tr)) := by
  constructor
  · rw [place_composePath]
    exact fileAt_congr (node_before h (by decide))
  · rw [place_statePath]
    exact fileAt_congr (node_before h (by decide))

theorem copyPlace_not_written (p : PathBuf) (now : DateTime) (name : Str) :
    ¬ (WriteFrame (composePath p) (copyPlace p now name) ∨
      WriteFrame (statePath p) (copyPlace p now name)) := by
  simp only [WriteFrame, not_or]
  refine ⟨⟨?_, ?_⟩, ?_, ?_⟩
  · rw [composePath, scratchPlace_posixJoin _ isName_composeName]
    exact copyPlace_not_below p now name (by decide)
  · rw [place_composePath]
    exact copyPlace_not_below p now name (by decide)
  · rw [statePath, scratchPlace_posixJoin _ isName_stateName]
    exact copyPlace_not_below p now name (by decide)
  · rw [place_statePath]
    exact copyPlace_not_below p now name (by decide)

/-- **A backup that is copied back behind an install** brings the files of before. -/
theorem restored_of_copiedBack {t₁ t : List Event} {w₁ w₂ : H.World} {T : DateTime → Prop}
    {newState : RelayState} {newCompose : Str} {now : DateTime} {t' : FileTree}
    (hbefore : ∀ e ∈ t₁, Asks False True (Before opts.installPath T) e.request)
    (hfinal : H.env.final w t₁ = w₁)
    (hbackup : InBackup opts.installPath now (H.tree w) (H.tree w₁))
    (hinstall : H.env.Runs w₁ (self.install opts.installPath newState newCompose) t (.ok ()) w₂)
    (hback : CopiedBack opts.installPath (backupDirFor opts.installPath now) (H.tree w₂) t') :
    SameInstall opts.installPath (H.tree w) t' := by
  obtain ⟨text, -, hcompose, hstate, hframe, -⟩ := runs_install_ok hinstall
  have hnode : ∀ x, x ≠ "backups".toList →
      (H.tree w₁).node (place opts.installPath ++ [x]) =
        (H.tree w).node (place opts.installPath ++ [x]) := by
    intro x hx
    rw [← hfinal]
    exact node_before hbefore hx
  have hkind₁ := hcompose.sameKind
  have hkind₂ := hstate.sameKind
  rw [place_composePath] at hkind₁
  rw [place_statePath] at hkind₂
  have hcopied := hbackup.restored
    (by rw [place_composePath]; exact hkind₁.of_node (hnode _ (by decide)))
    (by rw [place_statePath]; exact hkind₂.of_node (hnode _ (by decide)))
    (fun name _ => hframe _ (copyPlace_not_written _ _ _)) hback
  exact ⟨hcopied.1, hcopied.2⟩

/-! ### The checks of a run -/

/-- The health check that the run ends with. -/
def lastCheck (tr : List Event) : List Event :=
  (tr.reverse.takeWhile fun e => polls relayPorts e.request).reverse

/-- What the run ends with if that is asked by a health check. -/
theorem mem_lastCheck {a b : List Event} {e : Event}
    (h : ∀ e ∈ b, polls relayPorts e.request = true) (he : e ∈ b) : e ∈ lastCheck (a ++ b) := by
  rw [lastCheck, List.mem_reverse, List.reverse_append, List.takeWhile_append_of_pos]
  · exact List.mem_append_left _ (List.mem_reverse.mpr he)
  · exact fun e he => h e (List.mem_reverse.mp he)

/-- Behind another command there is only the check. -/
theorem lastCheck_append_cons {a b : List Event} {e : Event}
    (h : ∀ e ∈ b, polls relayPorts e.request = true) (he : polls relayPorts e.request = false) :
    lastCheck (a ++ e :: b) = b := by
  rw [lastCheck, List.reverse_append, List.reverse_cons, List.append_assoc,
    List.takeWhile_append_of_pos]
  · simp [he]
  · exact fun e he => h e (List.mem_reverse.mp he)

theorem not_polls_composeUp {p : PathBuf} {cmd : Str} (h : Commands.composeUp p = .ok cmd) :
    polls relayPorts (.exec cmd) = false := by
  refine not_polls ?_
  rw [actions_compose .up (by decide) h]
  simp

/-- A check that did not see an answer does not end with one. -/
theorem not_endsUp {a b : Nat} {t th : List Event} (hne : th ≠ [])
    (hnot : ∀ e ∈ th, ¬ Answers b e) : ¬ EndsUp a b (t ++ th) := by
  rintro ⟨pre, e₁, e₂, htr, -, hanswers⟩
  refine hnot e₂ ?_ hanswers
  have hlast := congrArg List.getLast? htr
  rw [List.getLast?_append_of_ne_nil _ hne] at hlast
  simp at hlast
  exact List.mem_of_getLast? hlast

/-! ### A failed health check is reported -/

/-- The run rolled the update back: both files are what they were, `docker compose up -d` exited
with zero when they were, and the health check behind it ended with a round in which every port
answered. -/
def RolledBack (H : Host) (p : PathBuf) (w w' : H.World) (tr : List Event) : Prop :=
  SameInstall p (H.tree w) (H.tree w') ∧ ∃ a b cmd out, tr = a ++ ⟨.exec cmd, .ok out⟩ :: b ∧
    Commands.composeUp p = .ok cmd ∧ out.exitCode = 0 ∧
    SameInstall p (H.tree w) (H.tree (H.env.final w a)) ∧
    (∀ e ∈ b, polls relayPorts e.request = true) ∧ EndsUp hbbsPort hbbrPort b

/-- **What a reported health check failure means**: the update was rolled back to a relay that
answers, if there was a backup and the relay answered in the last check, and only then. -/
theorem update_unhealthy_iff (H : Host) (self : RelayLifecycle) (opts : UpdateOptions)
    (w w' : H.World) (tr : List Event)
    (hrun : H.env.Runs w (self.update opts) tr (.error .relayHealthCheckFailed) w') :
    RolledBack H opts.installPath w w' tr ↔
      opts.skipBackup = false ∧ ∃ e ∈ lastCheck tr, Answers hbbrPort e := by
  obtain ⟨t₁, t₂, w₁, rfl, hfinal, hbefore, harrives⟩ := runs_update hrun
  cases harrives with
  | failed hr he =>
    cases hr
    exact absurd rfl he
  | unchanged hr => cases hr
  | @prepared _ _ report now backupDir newState newCompose hnow hprepared hrest =>
  obtain ⟨u, t₃, t₄, w₂, rfl, hinstall, hconclude⟩ := Env.runs_bind_of_errors hrest
    (errors_install _ _ _) (fun _ _ => trivial) fun e he => by
      cases he
      exact not_not.mpr rfl
  have hbackup := hprepared.backup
  constructor
  · rintro ⟨-, a, b, cmd, out, htr, -, -, -, hpolls, hup⟩
    refine ⟨?_, ?_⟩
    · by_contra hskip
      rw [Bool.not_eq_false] at hskip
      rw [if_pos hskip] at hbackup
      subst hbackup
      have hends : EndsUp hbbsPort hbbrPort (t₁ ++ (t₃ ++ t₄)) := by
        rw [htr]
        exact (hup.append [_]).append a
      cases runs_conclude hconclude with
      | healthy hcheck hgc hr =>
        exact (errors_gcBackups _ _).run ((hr _).mp rfl ▸ hgc).1 (fun _ _ => trivial) rfl
      | unhealthy hr hcheck =>
        obtain ⟨⟨t, rest, hth⟩, hseen⟩ := runs_healthCheck hcheck
        rcases hseen with ⟨he, -⟩ | ⟨-, hnot⟩
        · cases he
        · rw [← List.append_assoc] at hends
          exact not_endsUp (by simp [hth]) hnot hends
    · obtain ⟨e, he, hanswers⟩ := hup.answers
      refine ⟨e, ?_, hanswers⟩
      rw [htr, List.append_cons]
      exact mem_lastCheck hpolls he
  · rintro ⟨hskip, e, he, hanswers⟩
    rw [if_neg (by simp [hskip])] at hbackup
    obtain ⟨hdir, hin⟩ := hbackup
    cases runs_conclude hconclude with
    | healthy hcheck hgc hr =>
      exact absurd rfl ((errors_gcBackups _ _).run ((hr _).mp rfl ▸ hgc).1 fun _ _ => trivial)
    | unhealthy => cases hdir
    | @rolledBack _ e' th tb w₃ x hcheck hback hr =>
      obtain rfl := Option.some.inj hdir
      have hx : ∀ e, x = .error e → ¬ NotUnhealthy e := by
        rintro e rfl
        rcases hr with ⟨h, -⟩ | ⟨e', h, hr⟩
        · cases h
        · cases h
          cases hr
          exact not_not.mpr rfl
      obtain ⟨t₅, t₆, cmd, out, w₄, rfl, hcmd, hcode, hw₄, hcopied, htree, hsecond⟩ :=
        runs_rollback hback (fun _ _ => errors_execBuilt (calm_copyFile _ _))
          (errors_execBuilt (calm_compose _ _)) (fun _ _ => trivial) hx
      have hpolls : ∀ e ∈ t₆, polls relayPorts e.request = true :=
        hsecond.requests (always_polls _)
      have hshape : t₁ ++ (t₃ ++ (th ++ (t₅ ++ ⟨.exec cmd, .ok out⟩ :: t₆))) =
          (t₁ ++ (t₃ ++ (th ++ t₅))) ++ ⟨.exec cmd, .ok out⟩ :: t₆ := by simp
      rw [hshape] at he ⊢
      rw [lastCheck_append_cons hpolls (not_polls_composeUp hcmd)] at he
      obtain ⟨-, hup⟩ := (runs_healthCheck hsecond).2.eq_ok he hanswers
      have htree₃ : H.tree w₃ = H.tree w₂ :=
        runs_tree hcheck (always_healthCheck (p := opts.installPath) _)
      rw [htree₃] at hcopied
      have hsame := restored_of_copiedBack hbefore hfinal hin hinstall hcopied
      have hw : H.env.final w (t₁ ++ (t₃ ++ (th ++ t₅))) = w₄ := by
        rw [Env.final_append, hfinal, Env.final_append, hinstall.2.2, Env.final_append,
          hcheck.2.2, hw₄]
      refine ⟨?_, _, t₆, cmd, out, rfl, hcmd, hcode, ?_, hpolls, hup⟩
      · rw [htree]
        exact hsame
      · rw [hw]
        exact hsame

/-- A probe of the sample host fails, up to a time. -/
def silentUntil (t : Nat) : Nat → Str → Option Nat := fun time cmd =>
  if time < t ∧ "bash".toList <+: cmd then some 0 else none

/-- The sample update whose first check fails and whose second one does not is rolled back. -/
theorem update_unhealthy_sample :
    RolledBack (Sample.host (silentUntil 20)) Sample.path Sample.start
      (Sample.updateEnd (silentUntil 20) false) (Sample.updateTrace (silentUntil 20) false) := by
  have hrun : (Sample.host (silentUntil 20)).env.failure Sample.start
        (Sample.relay.update (Sample.updateOptions false)) = some .relayHealthCheckFailed ∧
      ∃ e ∈ lastCheck (Sample.updateTrace (silentUntil 20) false), Answers hbbrPort e := by
    decide +kernel
  exact (update_unhealthy_iff _ _ _ _ _ _ (Sample.runs_update_failure hrun.1)).mpr ⟨rfl, hrun.2⟩

/-- Without a backup the same error is returned and nothing is rolled back. -/
theorem update_unhealthy_without_backup :
    ¬ ∀ (H : Host) (self : RelayLifecycle) (opts : UpdateOptions) (w w' : H.World)
      (tr : List Event), H.env.Runs w (self.update opts) tr (.error .relayHealthCheckFailed) w' →
        RolledBack H opts.installPath w w' tr := by
  have hrun : (Sample.host (silentUntil 99)).env.failure Sample.start
        (Sample.relay.update (Sample.updateOptions true)) = some .relayHealthCheckFailed ∧
      ((Sample.host (silentUntil 99)).tree (Sample.updateEnd (silentUntil 99) true)).fileAt
          (place (composePath Sample.path)) ≠
        ((Sample.host (silentUntil 99)).tree Sample.start).fileAt
          (place (composePath Sample.path)) := by
    decide +kernel
  intro h
  exact hrun.2 (h _ _ _ _ _ _ (Sample.runs_update_failure hrun.1)).1.compose

end RelayLifecycle

end Rustmote
