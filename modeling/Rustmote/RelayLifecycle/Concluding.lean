import Rustmote.RelayLifecycle.UpdateRuns

/-!
# The end of an update

After `install` comes the health check, and behind it one of three things: the removal of old
backups, nothing, or the rollback. `runs_conclude` tells them apart.

* `runs_rollback` — a rollback that got to its health check has copied both files back and has
  run `docker compose up -d` after that.
* `InBackup.restored` — copying back what the backup holds restores both files.
-/

namespace Rustmote

open Interaction (Env)
open Interaction.Prog (Always Errors)
open FileTree

namespace Host

open RelayLifecycle

variable {H : Host} {w w' : H.World} {p : PathBuf} {tr : List Event} {self : RelayLifecycle}

/-! ### Copying back -/

/-- Both files have been copied from a directory. -/
def CopiedBack (p dir : PathBuf) (t t' : FileTree) : Prop :=
  ∃ t₁, (Action.copy (place (posixJoin dir composeName)) (place (composePath p))).Done t t₁ ∧
    (Action.copy (place (posixJoin dir stateName)) (place (statePath p))).Done t₁ t'

/-- What a copy back changes. -/
theorem CopiedBack.sameFiles {dir : PathBuf} {t t' : FileTree} (h : CopiedBack p dir t t') :
    SameFiles (fun q => Below (place (composePath p)) q ∨ Below (place (statePath p)) q) t t' := by
  obtain ⟨t₁, hcompose, hstate⟩ := h
  exact (hcompose.sameNodes.sameFiles.mono fun _ => .inl).trans
    (hstate.sameNodes.sameFiles.mono fun _ => .inr)

/-- A file is still a file, and a directory a directory. -/
structure SameKind (t t' : FileTree) (q : Path) : Prop where
  /-- A file is a file. -/
  file : t.isFile q = true → t'.isFile q = true
  /-- A directory is a directory. -/
  dir : t.isDir q = true → t'.isDir q = true

theorem SameKind.of_node {t t₁ t' : FileTree} {q : Path} (h : SameKind t₁ t' q)
    (hq : t₁.node q = t.node q) : SameKind t t' q := by
  refine ⟨fun hf => h.file ?_, fun hd => h.dir ?_⟩
  · rwa [isFile, fileAt_congr hq]
  · rwa [isDir, hq]

/-- A new content keeps the kind. -/
theorem Overwritten.sameKind {t t' : FileTree} {q : Path} {content : Bytes}
    (h : Overwritten t t' q content) : SameKind t t' q := ⟨h.isFile, h.dir⟩

/-- One file, there and back. -/
theorem CopiedTo.restored {t t₁ t₂ t₃ : FileTree} {x y : Path} (h : CopiedTo t t₁ x y)
    (hkind : SameKind t t₂ x) (hcopy : t₂.node y = t₁.node y)
    (hback : (Action.copy y x).Done t₂ t₃) (hy : y ≠ []) : t₃.fileAt x = t.fileAt x := by
  obtain ⟨a, b, ha, hthere, hb⟩ := h
  have hkind' : SameKind a t₂ x := hkind.of_node ha.symm
  rw [hthere.copy_back (hcopy.trans hb) hkind'.file hkind'.dir hback hy, fileAt_congr ha]

theorem copyPlace_ne_nil (p : PathBuf) (now : DateTime) (name : Str) : copyPlace p now name ≠ [] := by
  simp [copyPlace]

/-- The install is not below a backup, nor the other way round. -/
theorem copyPlace_not_below (p : PathBuf) (now : DateTime) (name : Str) {x : Str}
    (hx : x ≠ "backups".toList) : ¬ Below (place p ++ [x]) (copyPlace p now name) := by
  intro hbelow
  simp only [Below, copyPlace, List.prefix_append_right_inj, List.cons_prefix_cons] at hbelow
  exact hx hbelow.1

/-- **What the backup holds is what the rollback restores.** -/
theorem InBackup.restored {now : DateTime} {t t₁ t₂ t₃ : FileTree} (h : InBackup p now t t₁)
    (hcompose : SameKind t t₂ (place (composePath p))) (hstate : SameKind t t₂ (place (statePath p)))
    (hnodes : ∀ name, BackedUp name → t₂.node (copyPlace p now name) = t₁.node (copyPlace p now name))
    (hback : CopiedBack p (backupDirFor p now) t₂ t₃) :
    t₃.fileAt (place (composePath p)) = t.fileAt (place (composePath p)) ∧
      t₃.fileAt (place (statePath p)) = t.fileAt (place (statePath p)) := by
  obtain ⟨s, hfirst, hsecond⟩ := hback
  rw [place_copy _ _ isName_composeName] at hfirst
  rw [place_copy _ _ isName_stateName] at hsecond
  have hs : ∀ {q}, ¬ Below (place (composePath p)) q → s.node q = t₂.node q := fun hq =>
    hfirst.sameNodes _ hq
  have hstate' : ¬ Below (place (composePath p)) (place (statePath p)) :=
    (not_or.mp state_not_below_compose).2
  have hcopy' : ¬ Below (place (composePath p)) (copyPlace p now stateName) := by
    rw [place_composePath]
    exact copyPlace_not_below _ _ _ (by decide)
  refine ⟨?_, ?_⟩
  · have hkeep : t₃.node (place (composePath p)) = s.node (place (composePath p)) :=
      hsecond.sameNodes _ (not_or.mp compose_not_below_state).2
    rw [fileAt_congr hkeep]
    exact h.compose.restored hcompose (hnodes _ (.inl rfl)) hfirst (copyPlace_ne_nil _ _ _)
  · refine h.state.restored ⟨fun hf => ?_, fun hd => ?_⟩ ((hs hcopy').trans (hnodes _ (.inr rfl)))
      hsecond (copyPlace_ne_nil _ _ _)
    · rw [isFile, fileAt_congr (hs hstate')]
      exact hstate.file hf
    · rw [isDir, hs hstate']
      exact hstate.dir hd

/-- **A rollback that got to its health check.** -/
theorem runs_rollback {dir : PathBuf} {r : Except RustmoteError Unit} {G : Event → Prop}
    {E : RustmoteError → Prop} (h : H.env.Runs w (self.rollback p dir) tr r w')
    (hcopy : ∀ name, BackedUp name →
      Errors G E (execBuilt (Commands.copyFile (posixJoin dir name) (posixJoin p name))))
    (hup : Errors G E (execBuilt (Commands.composeUp p))) (hG : ∀ e ∈ tr, G e)
    (hr : ∀ e, r = .error e → ¬ E e) :
    ∃ t₁ t₂ cmd out w₁, tr = t₁ ++ ⟨.exec cmd, .ok out⟩ :: t₂ ∧ Commands.composeUp p = .ok cmd ∧
      out.exitCode = 0 ∧ H.env.final w t₁ = w₁ ∧ CopiedBack p dir (H.tree w) (H.tree w₁) ∧
      H.tree w' = H.tree w₁ ∧ H.env.Runs (H.next w₁ cmd) (self.healthCheck relayPorts) t₂ r w' := by
  unfold rollback at h
  obtain ⟨_, t₁, r₁, w₁, rfl, hcompose, h₁⟩ := Env.runs_bind_of_errors h (hcopy _ (.inl rfl)) hG hr
  have hG₁ : ∀ e ∈ r₁, G e := fun e he => hG e (List.mem_append_right _ he)
  obtain ⟨_, t₂, r₂, w₂, rfl, hstate, h₂⟩ :=
    Env.runs_bind_of_errors h₁ (hcopy _ (.inr rfl)) hG₁ hr
  have hG₂ : ∀ e ∈ r₂, G e := fun e he => hG₁ e (List.mem_append_right _ he)
  obtain ⟨out, t₃, t₄, w₃, rfl, hupped, h₃⟩ := Env.runs_bind_of_errors h₂ hup hG₂ hr
  obtain ⟨cmd, hcmd, hreply, hstep⟩ := runs_execBuilt_ok hupped
  have hzero : out.exitCode = 0 := by
    obtain ⟨out', hout', hcode⟩ := hstep.zero
    rwa [← Except.ok.inj (hout'.symm.trans hreply)]
  have htrace := hstep.trace
  have hworld := hstep.world
  rw [hreply] at htrace
  subst htrace hworld
  refine ⟨t₁ ++ t₂, t₄, cmd, out, w₂, by simp, hcmd, hzero, ?_,
    ⟨_, runs_copyFile_ok hcompose, runs_copyFile_ok hstate⟩, ?_, h₃⟩
  · rw [Env.final_append, hcompose.2.2, hstate.2.2]
  · rw [runs_tree h₃ (always_healthCheck (p := p) _), tree_next_of_reads (.composeUp hcmd)]

/-! ### What comes behind the health check -/

/-- How `conclude` came back. -/
inductive Concluded (H : Host) (self : RelayLifecycle) (opts : UpdateOptions) (now : DateTime)
    (w w' : H.World) (r : Except RustmoteError UpdateReport) :
    Option PathBuf → List Event → Prop where
  /-- The relay answered, and old backups were removed. -/
  | healthy {backupDir : Option PathBuf} {th tg : List Event} {w₁ : H.World}
      {x : Except RustmoteError (List PathBuf)}
      (hcheck : H.env.Runs w (self.healthCheck relayPorts) th (.ok ()) w₁)
      (hgc : H.env.Runs w₁ (gcBackups opts.installPath now) tg x w')
      (hr : ∀ e, r = .error e ↔ x = .error e) : Concluded H self opts now w w' r backupDir (th ++ tg)
  /-- The relay did not answer, and there was no backup. -/
  | unhealthy {e : RustmoteError} {th : List Event} (hr : r = .error e)
      (hcheck : H.env.Runs w (self.healthCheck relayPorts) th (.error e) w') :
      Concluded H self opts now w w' r none th
  /-- The relay did not answer, and the backup was rolled back. -/
  | rolledBack {dir : PathBuf} {e : RustmoteError} {th tb : List Event} {w₁ : H.World}
      {x : Except RustmoteError Unit}
      (hcheck : H.env.Runs w (self.healthCheck relayPorts) th (.error e) w₁)
      (hback : H.env.Runs w₁ (self.rollback opts.installPath dir) tb x w')
      (hr : (x = .ok () ∧ r = .error .relayHealthCheckFailed) ∨ ∃ e, x = .error e ∧ r = .error e) :
      Concluded H self opts now w w' r (some dir) (th ++ tb)

/-- **How `conclude` comes back.** -/
theorem runs_conclude {opts : UpdateOptions} {now : DateTime} {backupDir : Option PathBuf}
    {newState : RelayState} {r : Except RustmoteError UpdateReport}
    (h : H.env.Runs w (self.conclude opts now backupDir newState) tr r w') :
    Concluded H self opts now w w' r backupDir tr := by
  unfold conclude at h
  rcases Env.runs_bind_iff.mp h with ⟨e, -, hcheck⟩ | ⟨x, th, tg, w₁, rfl, hcheck, h₁⟩
  · obtain ⟨y, hy, -⟩ := Env.runs_attempt_iff.mp hcheck
    cases hy
  obtain ⟨y, hy, hcheck⟩ := Env.runs_attempt_iff.mp hcheck
  cases hy
  cases x with
  | ok u =>
    rcases Env.runs_bind_iff.mp h₁ with ⟨e, hr, hgc⟩ | ⟨deleted, t₁, t₂, w₂, rfl, hgc, h₂⟩
    · refine .healthy hcheck hgc fun e' => ?_
      rw [hr]
      simp
    · obtain ⟨rfl, hr, rfl⟩ := Env.runs_ret_iff.mp h₂
      rw [List.append_nil]
      refine .healthy hcheck hgc fun e' => ?_
      rw [hr]
      simp
  | error e =>
    cases backupDir with
    | none =>
      obtain ⟨rfl, hr, rfl⟩ := Env.runs_fail_iff.mp h₁
      rw [List.append_nil]
      exact .unhealthy hr hcheck
    | some dir =>
      rcases Env.runs_bind_iff.mp h₁ with ⟨e', hr, hback⟩ | ⟨u, t₁, t₂, w₂, rfl, hback, h₂⟩
      · exact .rolledBack hcheck hback (.inr ⟨e', rfl, hr⟩)
      · obtain ⟨rfl, hr, rfl⟩ := Env.runs_fail_iff.mp h₂
        rw [List.append_nil]
        exact .rolledBack hcheck hback (.inl ⟨rfl, hr⟩)

end Host

end Rustmote
