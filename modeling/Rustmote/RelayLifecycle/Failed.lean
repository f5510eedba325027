import Rustmote.RelayLifecycle.Restoring
import Rustmote.RelayLifecycle.Versions

/-!
# When a command of an update fails

Only a failed health check is rolled back. An update that fails before it, because a command of
the backup, of the writes, the pull or the start did not work, returns where it is: both files are
as they were exactly if nothing new had been moved into their places (`update_failed_iff`).
-/

namespace Rustmote

open Interaction (Env)
open Interaction.Prog (Always Errors)
open FileTree

namespace RelayLifecycle

open Host

/-! ### What has been replaced -/

variable {H : Host} {w w' w₁ : H.World} {p : PathBuf} {tr : List Event} {self : RelayLifecycle}
  {opts : UpdateOptions}

/-- Nothing new has come into the places of the two files. -/
structure StopsEarly (H : Host) (p : PathBuf) (w : H.World) (tr : List Event) : Prop where
  /-- What has been moved into the place of the compose file was there already. -/
  compose : ∀ content, H.Replaced w tr (composePath p) content →
    (H.tree w).fileAt (place (composePath p)) = some content
  /-- Nothing has been moved into the place of the state file. -/
  state : ∀ content, ¬ H.Replaced w tr (statePath p) content

theorem not_replaced_before {T : DateTime → Prop}
    (h : ∀ e ∈ tr, Asks False True (Before p T) e.request) {name : Str} (hname : BackedUp name)
    (content : Bytes) : ¬ H.Replaced w tr (posixJoin p name) content := by
  refine not_replaced h fun cmd hcmd => ?_
  rcases hcmd with hreads | ⟨now, -, hsaves⟩
  · exact reads_ne_writeFile hreads
  · exact saves_ne_writeFile hsaves (isName_of_backedUp hname)

/-- What is replaced is replaced behind the commands that touch nothing. -/
theorem replaced_behind {t₁ t₂ : List Event} {T : DateTime → Prop}
    (h : ∀ e ∈ t₁, Asks False True (Before p T) e.request) (hfinal : H.env.final w t₁ = w₁)
    {name : Str} (hname : BackedUp name) {content : Bytes} :
    H.Replaced w (t₁ ++ t₂) (posixJoin p name) content ↔
      H.Replaced w₁ t₂ (posixJoin p name) content := by
  rw [replaced_append, hfinal]
  exact or_iff_right (not_replaced_before h hname content)

/-- **The new state file is not the old one.** -/
theorem state_ne_of_prepared {report : CheckUpdatesReport} {now : DateTime}
    {backupDir : Option PathBuf} {newState state : RelayState} {newCompose text : Str}
    (h : Prepared H self opts w w₁ report now backupDir newState newCompose)
    (hround : self.toml.RoundTrips)
    (hstate : HoldsState self.toml (H.tree w) opts.installPath state)
    (hprint : newState.toTomlString self.toml = .ok text) :
    (H.tree w).fileAt (place (statePath opts.installPath)) ≠ some (Utf8.encode text) := by
  intro hfile
  have hsame := holdsState_of_printed hround hprint hfile hstate
  obtain ⟨t, w₂, hchecked⟩ := h.checked
  obtain ⟨state', hstate', hconcerns⟩ := runs_checkUpdates_ok hchecked
  obtain rfl := hstate.unique hstate'
  have himages : report.images.map (ImageUpdate.newPin now) = state.images := by
    rw [← h.images, hsame]
  exact newPins_ne hconcerns h.available himages

/-- The events from the first health check on. -/
def fromCheck (tr : List Event) : List Event := tr.dropWhile fun e => e.request ≠ .instant

/-- Behind events that ask for no time everything is from the check on. -/
theorem mem_fromCheck {t th rest : List Event} {x : Nat} {e : Event}
    (ht : ∀ e ∈ t, e.request ≠ .instant) (hth : ∃ later, th = ⟨.instant, x⟩ :: later)
    (he : e ∈ th) : e ∈ fromCheck (t ++ (th ++ rest)) := by
  obtain ⟨later, rfl⟩ := hth
  rw [fromCheck, List.dropWhile_append_of_pos fun e he => by simpa using ht e he]
  rcases List.mem_cons.mp he with rfl | he
  · simp
  · simp [he]

/-- An update that fails in `install`. -/
theorem stopsEarly_of_install {newState : RelayState} {newCompose : Str} {e : RustmoteError}
    (hsame : SameInstall p (H.tree w) (H.tree w₁))
    (hstate : ∀ text, newState.toTomlString self.toml = .ok text →
      (H.tree w).fileAt (place (statePath p)) ≠ some (Utf8.encode text))
    (hcomposeDir : (H.tree w₁).isDir (place (composePath p)) = false)
    (hstateDir : (H.tree w₁).isDir (place (statePath p)) = false)
    (hrun : H.env.Runs w₁ (self.install p newState newCompose) tr (.error e) w') :
    SameInstall p (H.tree w) (H.tree w') ↔
      (∀ content, H.Replaced w₁ tr (composePath p) content →
        (H.tree w).fileAt (place (composePath p)) = some content) ∧
      ∀ content, ¬ H.Replaced w₁ tr (statePath p) content := by
  cases runs_install hrun hcomposeDir hstateDir with
  | neither hr hreplaced hcompose hstate' =>
    refine ⟨fun _ => ⟨fun c hc => absurd hc (hreplaced _ _), fun c => hreplaced _ _⟩, fun _ => ?_⟩
    exact ⟨hcompose.trans hsame.compose, hstate'.trans hsame.state⟩
  | compose hr hreplaced hnot hcompose hstate' =>
    constructor
    · intro hsame'
      refine ⟨fun c hc => ?_, hnot⟩
      rw [(hreplaced c).mp hc, ← hcompose, hsame'.compose]
    · rintro ⟨hold, -⟩
      refine ⟨?_, hstate'.trans hsame.state⟩
      rw [hcompose, hold _ ((hreplaced _).mpr rfl)]
  | both htext hreplaced hcompose hstate' =>
    constructor
    · intro hsame'
      exact absurd (hsame'.state.symm.trans hstate') (hstate _ htext)
    · rintro ⟨-, hnot⟩
      exact absurd hreplaced (hnot _)

/-- **A failed update leaves the install as it was** exactly when it stops early: when every
command from the health check on works, it came to its end before one of the two files had a new
content. -/
theorem update_failed_iff (H : Host) (self : RelayLifecycle) (opts : UpdateOptions)
    (w w' : H.World) (tr : List Event) (e : RustmoteError) (state : RelayState)
    (hround : self.toml.RoundTrips)
    (hcompose : (H.tree w).isFile (place (composePath opts.installPath)) = true)
    (hstate : HoldsState self.toml (H.tree w) opts.installPath state)
    (hrun : H.env.Runs w (self.update opts) tr (.error e) w')
    (hworks : ∀ e ∈ fromCheck tr, Clean e) :
    SameInstall opts.installPath (H.tree w) (H.tree w') ↔ StopsEarly H opts.installPath w tr := by
  obtain ⟨t₁, t₂, w₁, rfl, hfinal, hbefore, harrives⟩ := runs_update hrun
  have hsame₁ : SameInstall opts.installPath (H.tree w) (H.tree w₁) := by
    rw [← hfinal]
    exact sameInstall_before hbefore
  have hcompose₁ : ∀ c, H.Replaced w (t₁ ++ t₂) (composePath opts.installPath) c ↔
      H.Replaced w₁ t₂ (composePath opts.installPath) c := fun c =>
    replaced_behind hbefore hfinal (.inl rfl)
  have hstate₁ : ∀ c, H.Replaced w (t₁ ++ t₂) (statePath opts.installPath) c ↔
      H.Replaced w₁ t₂ (statePath opts.installPath) c := fun c =>
    replaced_behind hbefore hfinal (.inr rfl)
  cases harrives with
  | failed =>
    refine ⟨fun _ => ⟨fun c hc => ?_, fun c hc => ?_⟩, fun _ => hsame₁⟩
    · exact absurd ((hcompose₁ c).mp hc) not_replaced_nil
    · exact not_replaced_nil ((hstate₁ c).mp hc)
  | unchanged hr => cases hr
  | @prepared _ _ report now backupDir newState newCompose hnow hprepared hrest =>
  have hne : ∀ text, newState.toTomlString self.toml = .ok text →
      (H.tree w).fileAt (place (statePath opts.installPath)) ≠ some (Utf8.encode text) :=
    fun _ => state_ne_of_prepared hprepared hround hstate
  have hcomposeDir : (H.tree w₁).isDir (place (composePath opts.installPath)) = false := by
    obtain ⟨b, hb⟩ := isFile_iff.mp hcompose
    exact not_isDir_of_fileAt (hsame₁.compose.trans hb)
  have hstateDir : (H.tree w₁).isDir (place (statePath opts.installPath)) = false := by
    obtain ⟨raw, hraw, -⟩ := hstate
    exact not_isDir_of_fileAt (hsame₁.state.trans hraw)
  have hstops : StopsEarly H opts.installPath w (t₁ ++ t₂) ↔
      (∀ c, H.Replaced w₁ t₂ (composePath opts.installPath) c →
        (H.tree w).fileAt (place (composePath opts.installPath)) = some c) ∧
      ∀ c, ¬ H.Replaced w₁ t₂ (statePath opts.installPath) c := by
    constructor
    · rintro ⟨h₁, h₂⟩
      exact ⟨fun c hc => h₁ c ((hcompose₁ c).mpr hc), fun c hc => h₂ c ((hstate₁ c).mpr hc)⟩
    · rintro ⟨h₁, h₂⟩
      exact ⟨fun c hc => h₁ c ((hcompose₁ c).mp hc), fun c hc => h₂ c ((hstate₁ c).mp hc)⟩
  rw [hstops]
  rcases Env.runs_bind_iff.mp hrest with ⟨e', he, hinstall⟩ | ⟨u, t₃, t₄, w₂, rfl, hinstall, hconclude⟩
  · cases he
    exact stopsEarly_of_install hsame₁ hne hcomposeDir hstateDir hinstall
  -- both files have been replaced, and what failed is the removal of old backups
  obtain ⟨text, hprint, hreplaced, hfile⟩ : ∃ text, newState.toTomlString self.toml = .ok text ∧
      H.Replaced w₁ t₃ (statePath opts.installPath) (Utf8.encode text) ∧
      (H.tree w₂).fileAt (place (statePath opts.installPath)) = some (Utf8.encode text) := by
    cases runs_install hinstall hcomposeDir hstateDir with
    | neither hr => cases hr
    | compose hr => cases hr
    | both htext hreplaced _ hstate' => exact ⟨_, htext, hreplaced, hstate'⟩
  refine iff_of_false (fun hsame => ?_) fun hnot => ?_
  · have hclean : ∀ {th tg : List Event} {w₃ : H.World} {x : Except RustmoteError Unit},
        t₄ = th ++ tg → H.env.Runs w₂ (self.healthCheck relayPorts) th x w₃ → ∀ e ∈ th, Clean e := by
      rintro th tg w₃ x rfl hcheck e he
      refine hworks e ?_
      rw [← List.append_assoc]
      obtain ⟨⟨t, later, hth⟩, -⟩ := runs_healthCheck hcheck
      exact mem_fromCheck (ne_instant_of_install hbefore hinstall) ⟨later, hth⟩ he
    cases runs_conclude hconclude with
    | healthy hcheck hgc =>
      obtain ⟨raw, hraw, -⟩ := hstate
      have hback := runs_gcBackups_fileAt hgc (hsame.state.trans hraw)
      rw [runs_tree hcheck (always_healthCheck (p := opts.installPath) _)] at hback
      exact hne _ hprint (hraw.trans (hback.symm.trans hfile))
    | unhealthy hr hcheck =>
      have hall := hclean (List.append_nil _).symm hcheck
      exact (errors_healthCheck_of_probing (E := fun _ => False) probing_clean _).run hcheck.1 hall
    | rolledBack hcheck =>
      have hall := hclean rfl hcheck
      exact (errors_healthCheck_of_probing (E := fun _ => False) probing_clean _).run hcheck.1 hall
  · exact hnot.2 _ (replaced_append.mpr (.inl hreplaced))

/-- The sample host on which the commands that end like this do only so many of their actions. -/
def failingHost (n : Nat) (ending : String) : Host :=
  Sample.host fun _ cmd => if ending.toList <:+ cmd then some n else none

/-- The events of the update of that host. -/
def failedTrace (n : Nat) (ending : String) : List Event :=
  (failingHost n ending).env.trace Sample.start
    (versionedRelay.update (Sample.updateOptions false))

/-- The host behind it. -/
def failedEnd (n : Nat) (ending : String) : Script.World :=
  (failingHost n ending).env.final Sample.start (failedTrace n ending)

/-- The update, when it fails. -/
theorem runs_failed {n : Nat} {ending : String} {e : RustmoteError}
    (h : (failingHost n ending).env.failure Sample.start
      (versionedRelay.update (Sample.updateOptions false)) = some e) :
    (failingHost n ending).env.Runs Sample.start
      (versionedRelay.update (Sample.updateOptions false)) (failedTrace n ending) (.error e)
      (failedEnd n ending) := Env.runs_failure h

theorem holdsState_failing (n : Nat) (ending : String) :
    HoldsState versionedRelay.toml ((failingHost n ending).tree Sample.start) Sample.path
      Sample.state := holdsState_start []

/-- How the write of the compose file ends. -/
def composeChmod : String := "chmod 0644 /srv/relay/docker-compose.yml"

/-- The sample update whose write of the compose file does not get to its `mv` stops early. -/
theorem update_failed_sample :
    StopsEarly (failingHost 1 composeChmod) Sample.path Sample.start (failedTrace 1 composeChmod) := by
  have hrun : ((failingHost 1 composeChmod).env.failure Sample.start
        (versionedRelay.update (Sample.updateOptions false))).isSome = true ∧
      (∀ e ∈ fromCheck (failedTrace 1 composeChmod), Clean e) ∧
      ((failingHost 1 composeChmod).tree Sample.start).isFile (place (composePath Sample.path)) =
        true ∧
      ((failingHost 1 composeChmod).tree (failedEnd 1 composeChmod)).fileAt
          (place (composePath Sample.path)) =
        ((failingHost 1 composeChmod).tree Sample.start).fileAt (place (composePath Sample.path)) ∧
      ((failingHost 1 composeChmod).tree (failedEnd 1 composeChmod)).fileAt
          (place (statePath Sample.path)) =
        ((failingHost 1 composeChmod).tree Sample.start).fileAt (place (statePath Sample.path)) := by
    decide +kernel
  obtain ⟨hfailed, hclean, hfile, hcompose, hstate⟩ := hrun
  obtain ⟨e, he⟩ := Option.isSome_iff_exists.mp hfailed
  exact (update_failed_iff (failingHost 1 composeChmod) versionedRelay (Sample.updateOptions false)
    Sample.start (failedEnd 1 composeChmod) (failedTrace 1 composeChmod) e Sample.state
    versionedRelay_roundTrips hfile (holdsState_failing _ _) (runs_failed he) hclean).mp
      ⟨hcompose, hstate⟩

/-- **A failed pull leaves the new files**: one command fails, before the health check, and both
files are not what they were. -/
theorem failed_pull_keeps_new_files :
    ¬ ∀ (H : Host) (self : RelayLifecycle) (opts : UpdateOptions) (w w' : H.World)
      (tr : List Event) (e : RustmoteError) (state : RelayState), opts.skipBackup = false →
        (H.tree w).isFile (place (composePath opts.installPath)) = true →
        HoldsState self.toml (H.tree w) opts.installPath state →
        H.env.Runs w (self.update opts) tr (.error e) w' →
        (tr.filter fun e => ¬ Clean e).length = 1 → (∀ e ∈ fromCheck tr, Clean e) →
          SameInstall opts.installPath (H.tree w) (H.tree w') := by
  intro h
  have hrun : ((failingHost 1 "docker compose pull").env.failure Sample.start
        (versionedRelay.update (Sample.updateOptions false))).isSome = true ∧
      ((failedTrace 1 "docker compose pull").filter fun e => ¬ Clean e).length = 1 ∧
      (∀ e ∈ fromCheck (failedTrace 1 "docker compose pull"), Clean e) ∧
      ((failingHost 1 "docker compose pull").tree Sample.start).isFile
        (place (composePath Sample.path)) = true ∧
      ((failingHost 1 "docker compose pull").tree (failedEnd 1 "docker compose pull")).fileAt
          (place (composePath Sample.path)) ≠
        ((failingHost 1 "docker compose pull").tree Sample.start).fileAt
          (place (composePath Sample.path)) := by
    decide +kernel
  obtain ⟨hfailed, hone, hclean, hfile, hcompose⟩ := hrun
  obtain ⟨e, he⟩ := Option.isSome_iff_exists.mp hfailed
  exact hcompose (h (failingHost 1 "docker compose pull") versionedRelay
    (Sample.updateOptions false) Sample.start (failedEnd 1 "docker compose pull")
    (failedTrace 1 "docker compose pull") e Sample.state rfl hfile (holdsState_failing _ _)
    (runs_failed he) hone hclean).compose

end RelayLifecycle

end Rustmote
