import Rustmote.RelayLifecycle.Rollback
import Rustmote.RelayLifecycle.Untouched

/-!
# What the registry answers is validated

Tags and digests come from the registry, repositories from the options or the state file, and
none of them is looked at before the renderer meets it. `bootstrap` renders before it makes its
first directory, `update` before it touches the two files; so a pin that fails a validator stops
both, and whatever they write comes from pins that pass (`malformed_answers_refused`).
-/

namespace Rustmote

open Interaction (Env)
open Interaction.Prog (Run Always)
open FileTree

namespace Host

open RelayLifecycle

variable {H : Host} {w w' : H.World} {p : PathBuf} {tr : List Event} {self : RelayLifecycle}

/-! ### A fresh host -/

/-- Every digest that came back is in a pin. -/
theorem mem_resolvedPins {opts : BootstrapOptions} {now : DateTime} {found : List Str} {d : Str}
    (hlen : found.length = opts.services.length) (hd : d ∈ found) :
    ∃ service, ⟨service, opts.repo, opts.tag, d, now⟩ ∈ resolvedPins opts now found := by
  obtain ⟨i, hi, rfl⟩ := List.mem_iff_getElem.mp hd
  have hservice : i < opts.services.length := hlen ▸ hi
  refine ⟨opts.services[i], List.mem_iff_getElem.mpr ⟨i, ?_, ?_⟩⟩
  · rw [resolvedPins, List.length_zipWith]
    omega
  · simp [resolvedPins]

/-- **A bootstrap that got a malformed digest** has changed nothing. -/
theorem runs_bootstrap_malformed {opts : BootstrapOptions} {r : Except RustmoteError BootstrapReport}
    (h : H.env.Runs w (self.bootstrap opts) tr r w')
    (hfresh : (H.tree w).isDir (place opts.installPath) = false) {d : Str} (hd : d ∈ digests tr)
    (hbad : ¬ Commands.ValidRef opts.repo opts.tag d) :
    (∃ e, r = .error e) ∧ H.tree w' = H.tree w ∧ AllHarmless tr := by
  cases runs_bootstrap h with
  | refused hr hinspects =>
    refine ⟨⟨_, hr⟩, ?_, allHarmless_of_inspects hinspects⟩
    rw [← h.2.2]
    exact tree_final fun e he => Asks.mono (fun _ h => h.reads) _ (hinspects e he)
  | existing htr hinspects hfinal hdir =>
    rw [hfresh] at hdir
    cases hdir
  | @fresh t₁ t₂ w₁ os now pins compose htr hinspects hfinal hnow hlen hpins hrender hrun =>
    -- the renderer has passed every digest
    rw [htr, digests_append, digests_settle hrender hrun, List.append_nil] at hd
    obtain ⟨service, hmem⟩ := mem_resolvedPins hlen hd
    have hvalid := (renderComposeWithPins_eq_ok_iff.mp hrender).1
    rw [hpins] at hvalid
    exact absurd (hvalid _ hmem) hbad

/-! ### An install -/

/-- **An update that got a malformed answer** leaves both files as they were. -/
theorem runs_update_malformed {opts : UpdateOptions} {r : Except RustmoteError UpdateReport}
    {t : List Event} {wc : H.World} {found : CheckUpdatesReport}
    (h : H.env.Runs w (self.update opts) tr r w')
    (hcheck : H.env.Runs w (self.checkUpdates opts.installPath) t (.ok found) wc)
    (havailable : found.anyUpdateAvailable = true) {u : ImageUpdate} (hu : u ∈ found.images)
    (hbad : ¬ Commands.ValidRef u.repo u.latestTag u.latestDigest) :
    (∃ e, r = .error e) ∧ SameInstall opts.installPath (H.tree w) (H.tree w') := by
  obtain ⟨t₁, t₂, w₁, -, hfinal, hbefore, harrives⟩ := runs_update h
  cases harrives with
  | failed hr =>
    refine ⟨⟨_, hr⟩, ?_⟩
    rw [← hfinal]
    exact sameInstall_before hbefore
  | unchanged hr hchanged hchecked hnone =>
    obtain ⟨-, heq, -⟩ := hcheck.unique hchecked
    cases heq
    rw [havailable] at hnone
    cases hnone
  | prepared hnow hprepared hrun =>
    obtain ⟨t', w₂, hchecked⟩ := hprepared.checked
    obtain ⟨-, heq, -⟩ := hcheck.unique hchecked
    cases heq
    have hvalid := (renderComposeWithPins_eq_ok_iff.mp hprepared.render).1
    exact absurd (hvalid _ (List.mem_map_of_mem hu)) hbad

/-! ### What is written -/

/-- Names of one directory are told apart by their places. -/
theorem name_of_place {x y : Str} (hx : IsName x) (hy : IsName y)
    (h : place (posixJoin p x) = place (posixJoin p y)) : x = y := by
  rw [place_posixJoin p hx, place_posixJoin p hy] at h
  exact List.singleton_inj.mp (List.append_cancel_left h)

/-- What may be written to the compose file. -/
def ValidCompose (template : Str) (content : Bytes) : Prop :=
  ∃ pins text, (∀ pin ∈ pins, ImagePin.Valid pin) ∧
    renderComposeWithPins template pins = .ok text ∧ content = Utf8.encode text

/-- What may be written to the state file. -/
def ValidState (toml : Toml) (content : Bytes) : Prop :=
  ∃ (state : RelayState) (text : Str), (∀ pin ∈ state.images, pin.Valid) ∧
    state.toTomlString toml = .ok text ∧ content = Utf8.encode text

/-- **A write to one of the two files** has the content that it is meant to have. -/
theorem valid_of_issued {toml : Toml} {template name cmd : Str} {content : Bytes}
    {D : PathBuf → Prop} (h : Issued p (Written toml p template) D cmd) (hname : BackedUp name)
    (hcmd : Commands.writeFile (posixJoin p name) content = .ok cmd) :
    (name = composeName → ValidCompose template content) ∧
      (name = stateName → ValidState toml content) := by
  have hisName := isName_of_backedUp hname
  have hactions := actions_writeFile hcmd
  cases h with
  | reads h => exact absurd hcmd (reads_ne_writeFile h)
  | saves h => exact absurd hcmd (saves_ne_writeFile h hisName)
  | restores _ h =>
    rw [actions_copyFile h] at hactions
    cases hactions
  | mkdir _ h =>
    rw [actions_mkdirP h] at hactions
    cases hactions
  | removes _ h =>
    rw [actions_remove h] at hactions
    cases hactions
  | writes hwritten h =>
    obtain ⟨hplace, hcontent⟩ := place_of_writeFile hcmd h
    subst hcontent
    cases hwritten with
    | compose hvalid hrender =>
      have hcompose := name_of_place hisName isName_composeName hplace
      refine ⟨fun _ => ⟨_, _, hvalid, hrender, rfl⟩, fun hstate => ?_⟩
      exact absurd (hcompose.symm.trans hstate) (by decide)
    | env =>
      -- neither of the two is called `.env`
      have henv := name_of_place hisName (by decide) hplace
      subst henv
      exact ⟨fun h => absurd h (by decide), fun h => absurd h (by decide)⟩
    | state hvalid hprint =>
      have hstate := name_of_place hisName isName_stateName hplace
      refine ⟨fun hcompose => ?_, fun _ => ⟨_, _, hvalid, hprint, rfl⟩⟩
      exact absurd (hcompose.symm.trans hstate) (by decide)

/-- Whatever the run writes to the compose file and to the state file comes from pins that pass
all validators. -/
def WritesValid (toml : Toml) (p : PathBuf) (template : Str) (tr : List Event) : Prop :=
  ∀ e ∈ tr, ∀ cmd content, e.request = .exec cmd →
    (Commands.writeFile (composePath p) content = .ok cmd → ValidCompose template content) ∧
      (Commands.writeFile (statePath p) content = .ok cmd → ValidState toml content)

theorem writesValid_of_issued {toml : Toml} {template : Str} {D : PathBuf → Prop}
    (h : ∀ e ∈ tr, Asks True True (Issued p (Written toml p template) D) e.request) :
    WritesValid toml p template tr := by
  intro e he cmd content heq
  have hissued := h e he
  rw [heq] at hissued
  exact ⟨fun hcmd => (valid_of_issued hissued (.inl rfl) hcmd).1 rfl,
    fun hcmd => (valid_of_issued hissued (.inr rfl) hcmd).2 rfl⟩

end Host

namespace RelayLifecycle

open Host

/-- **Malformed answers are refused**: a bootstrap of a fresh host that got a digest with which a
pin is not valid fails and has changed nothing; an update that got such an answer fails and leaves
both files as they were; and whatever either writes to the two files, for whatever replies, comes
from valid pins. -/
theorem malformed_answers_refused (self : RelayLifecycle)
    (hrounds : self.healthCheckTimeout < self.rounds) :
    (∀ (H : Host) opts (w : H.World), (H.tree w).isDir (place opts.installPath) = false →
      H.env.Ends w (self.bootstrap opts) ∧
      ∀ tr r w', H.env.Runs w (self.bootstrap opts) tr r w' →
        (∃ d ∈ digests tr, ¬ Commands.ValidRef opts.repo opts.tag d) →
          (∃ e, r = .error e) ∧ H.tree w' = H.tree w ∧ AllHarmless tr) ∧
    (∀ (H : Host) opts (w : H.World) t found wc,
      H.env.Runs w (self.checkUpdates opts.installPath) t (.ok found) wc →
      found.anyUpdateAvailable = true →
      (∃ u ∈ found.images, ¬ Commands.ValidRef u.repo u.latestTag u.latestDigest) →
        H.env.Ends w (self.update opts) ∧
        ∀ tr r w', H.env.Runs w (self.update opts) tr r w' →
          (∃ e, r = .error e) ∧ SameInstall opts.installPath (H.tree w) (H.tree w')) ∧
    (∀ opts tr r, Run (self.bootstrap opts) tr r →
      WritesValid self.toml opts.installPath opts.composeTemplate tr) ∧
    ∀ opts tr r, Run (self.update opts) tr r →
      WritesValid self.toml opts.installPath opts.composeTemplate tr := by
  refine ⟨fun H opts w hfresh => ⟨ends_bootstrap opts hrounds, ?_⟩, ?_, fun opts tr r h => ?_,
    fun opts tr r h => ?_⟩
  · rintro tr r w' hrun ⟨d, hd, hbad⟩
    exact runs_bootstrap_malformed hrun hfresh hd hbad
  · rintro H opts w t found wc hcheck havailable ⟨u, hu, hbad⟩
    exact ⟨ends_update opts hrounds, fun tr r w' hrun =>
      runs_update_malformed hrun hcheck havailable hu hbad⟩
  · have hissued : Always (fun _ => True) (Asks True True (Issued opts.installPath
        (Written self.toml opts.installPath opts.composeTemplate) fun _ => True))
        (self.bootstrap opts) fun _ => True := always_bootstrap opts
    exact writesValid_of_issued (hissued.run h fun _ _ => trivial).1
  · have hissued : Always (Grounded opts.installPath (fun _ => True) fun _ => True)
        (Asks True True (Issued opts.installPath
          (Written self.toml opts.installPath opts.composeTemplate) fun _ => True))
        (self.update opts) fun _ => True := always_update opts
    refine writesValid_of_issued (hissued.run h fun e _ => ?_).1
    obtain ⟨q, reply⟩ := e
    cases q with
    | exec cmd => exact fun _ _ _ _ _ _ _ _ => trivial
    | _ => trivial

/-- A digest that is none. -/
def malformedDigest : Str := "sha256:abc; reboot".toList

/-- The sample host, with a registry that answers it. -/
def malformedHost : Host :=
  Script.host { Sample.script fun _ _ => none with digest := fun _ _ _ => .ok malformedDigest }

/-- The sample bootstrap makes no directory when it gets that digest. -/
theorem malformed_answers_sample :
    malformedHost.tree (malformedHost.env.final emptyStart (malformedHost.env.trace emptyStart
      (bootstrapRelay.bootstrap bootstrapOptions))) = Sample.root := by
  have hrun : (malformedHost.env.failure emptyStart
        (bootstrapRelay.bootstrap bootstrapOptions)).isSome = true ∧
      malformedDigest ∈ digests (malformedHost.env.trace emptyStart
        (bootstrapRelay.bootstrap bootstrapOptions)) ∧
      Sample.root.isDir (place bootstrapOptions.installPath) = false := by
    decide +kernel
  have hbad : ¬ Commands.ValidRef bootstrapOptions.repo bootstrapOptions.tag malformedDigest := by
    intro hvalid
    exact absurd hvalid.digest (by decide +kernel)
  obtain ⟨e, he⟩ := Option.isSome_iff_exists.mp hrun.1
  have hall := (malformed_answers_refused bootstrapRelay (by decide)).1 malformedHost
    bootstrapOptions emptyStart hrun.2.2
  exact (hall.2 _ _ _ (Env.runs_failure he) ⟨_, hrun.2.1, hbad⟩).2.1

end RelayLifecycle

end Rustmote
