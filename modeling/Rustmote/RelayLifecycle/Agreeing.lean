import Rustmote.RelayLifecycle.Cleaning
import Rustmote.RelayLifecycle.Rendered
import Rustmote.RelayLifecycle.Untouched
import Rustmote.RelayLifecycle.Validated

/-!
# The compose file and the state file agree

`bootstrap` and `update` make both files from one list of pins: the state file lists them, the
compose file is the template with their digests put in. What is pinned is the newest tag and not
the tag of the template, so the two agree exactly when these are the same, and when the registry
has not moved a tag between two services (`pins_agree_iff`). For both to be there, no directory may
stand in the place of one, and the clean-up behind an update may not take them away.

* `FilesAgree` — both files are there and agree.
* `Overwritten.fileAt_iff` — a write leaves its text exactly when no directory was in its place.
-/

namespace Rustmote

open Interaction (Env)
open Interaction.Prog (Always)
open FileTree

namespace Host

open RelayLifecycle

variable {H : Host} {w w' : H.World} {p : PathBuf} {tr : List Event} {self : RelayLifecycle}

/-! ### What is left in the two files -/

/-- The two files are there, and this is in them. -/
structure HoldsBoth (toml : Toml) (t : FileTree) (p : PathBuf) (compose : Str)
    (state : RelayState) : Prop where
  /-- The compose file. -/
  compose : t.fileAt (place (composePath p)) = some (Utf8.encode compose)
  /-- The state file. -/
  state : ∃ text, state.toTomlString toml = .ok text ∧
    t.fileAt (place (statePath p)) = some (Utf8.encode text)

/-- **Both files are there and agree**: the state file says this state, and the compose file has its
pins on the lines of the template. -/
def FilesAgree (toml : Toml) (t : FileTree) (p : PathBuf) (lines : List TemplateLine)
    (state : RelayState) : Prop :=
  ∃ compose, HoldsBoth toml t p compose state ∧ Agrees lines compose state.images

/-- A write leaves its text exactly when no directory was in its place. -/
theorem Overwritten.fileAt_iff {t t' : FileTree} {q : Path} {content : Bytes}
    (h : Overwritten t t' q content) : t'.fileAt q = some content ↔ t.isDir q = false := by
  refine ⟨fun hfile => ?_, h.file⟩
  by_contra hdir
  have hstays := h.dir (Bool.not_eq_false _ |>.mp hdir)
  rw [not_isDir_of_fileAt hfile] at hstays
  cases hstays

/-- It leaves no other file. -/
theorem Overwritten.content {t t' : FileTree} {q : Path} {content other : Bytes}
    (h : Overwritten t t' q content) (hfile : t'.fileAt q = some other) : other = content := by
  cases hdir : t.isDir q with
  | true =>
    have hstays := h.dir hdir
    rw [not_isDir_of_fileAt hfile] at hstays
    cases hstays
  | false => exact Option.some.inj (hfile.symm.trans (h.file hdir))

/-- The two files behind two writes. -/
theorem filesAgree_iff {toml : Toml} {t t' : FileTree} {lines : List TemplateLine}
    {compose text : Str} {state : RelayState} (htext : state.toTomlString toml = .ok text)
    (hcompose : Overwritten t t' (place (composePath p)) (Utf8.encode compose))
    (hstate : Overwritten t t' (place (statePath p)) (Utf8.encode text)) :
    FilesAgree toml t' p lines state ↔ t.isDir (place (composePath p)) = false ∧
      t.isDir (place (statePath p)) = false ∧ Agrees lines compose state.images := by
  constructor
  · rintro ⟨compose', ⟨hfile, text', htext', hfile'⟩, hagrees⟩
    obtain rfl := Utf8.encode_injective (hcompose.content hfile)
    obtain rfl := Utf8.encode_injective (hstate.content hfile')
    exact ⟨hcompose.fileAt_iff.mp hfile, hstate.fileAt_iff.mp hfile', hagrees⟩
  · rintro ⟨hdir, hdir', hagrees⟩
    exact ⟨compose, ⟨hcompose.file hdir, text, htext, hstate.file hdir'⟩, hagrees⟩

/-- **The layout** writes the compose file and the state file. -/
theorem runs_layOut_overwrites {opts : BootstrapOptions} {compose : Str} {state : RelayState}
    (h : H.env.Runs w (self.layOut opts compose state) tr (.ok ()) w') :
    ∃ text, state.toTomlString self.toml = .ok text ∧
      Overwritten (H.tree w) (H.tree w') (place (composePath opts.installPath))
        (Utf8.encode compose) ∧
      Overwritten (H.tree w) (H.tree w') (place (statePath opts.installPath))
        (Utf8.encode text) := by
  obtain ⟨w₃, w₄, w₅, text, hinstall, hdata, hbackups, hcompose, henv, htext, hstate⟩ := runs_layOut h
  obtain ⟨hover₁, hframe₁, -⟩ := runs_writeFile_ok hcompose compose_not_below_scratch
  obtain ⟨hover₂, hframe₂, -⟩ := runs_writeFile_ok hstate state_not_below_scratch
  have henvFrame := runs_writeFile_frame henv (by decide)
  have hmade := @node_of_mkdirs _ _ _ _ _ hinstall hdata hbackups
  refine ⟨text, htext, ?_, ?_⟩
  · -- neither `.env` nor the state file is in the way of the compose file
    refine (hover₁.frame ?_).after ?_
    · rw [hframe₂ _ compose_not_below_state, place_composePath]
      exact henvFrame _ (not_or.mpr
        ⟨not_below_of_ne (by decide) [], not_below_of_ne (by decide) []⟩)
    · rw [place_composePath]
      exact hmade (by decide)
  · refine hover₂.after ?_
    rw [place_statePath, henvFrame _ (not_or.mpr
      ⟨not_below_of_ne (by decide) [], not_below_of_ne (by decide) []⟩), ← place_statePath,
      hframe₁ _ state_not_below_compose, place_statePath]
    exact hmade (by decide)

/-! ### A bootstrap -/

/-- The template has the tag of the options on every image line, and the registry has answered one
digest. -/
def OneAnswer (opts : BootstrapOptions) (lines : List TemplateLine) (tr : List Event) : Prop :=
  (∀ service indent repo tag, .image service indent repo tag ∈ lines → tag = opts.tag) ∧
    ∀ d₁ ∈ digests tr, ∀ d₂ ∈ digests tr, d₁ = d₂

/-- A pin of a bootstrap. -/
theorem of_mem_resolvedPins {opts : BootstrapOptions} {now : DateTime} {found : List Str}
    {pin : ImagePin} (h : pin ∈ resolvedPins opts now found) :
    pin.repo = opts.repo ∧ pin.tag = opts.tag ∧ pin.digest ∈ found := by
  obtain ⟨i, hi, rfl⟩ := List.mem_iff_getElem.mp h
  simp only [resolvedPins, List.getElem_zipWith, true_and]
  exact List.getElem_mem _

theorem serviceRepo_resolvedPins {opts : BootstrapOptions} (now : DateTime) {found : List Str}
    (hlen : found.length = opts.services.length) :
    (resolvedPins opts now found).map ImagePin.serviceRepo =
      opts.services.map fun service => (service, opts.repo) := by
  rw [resolvedPins, List.map_zipWith]
  simp only [ImagePin.serviceRepo]
  refine List.ext_getElem (by simp [hlen]) fun i h₁ h₂ => ?_
  simp

theorem matches_resolvedPins_iff {opts : BootstrapOptions} {now : DateTime}
    {lines : List TemplateLine} {found : List Str} (hlen : found.length = opts.services.length)
    (htemplate : TemplateOf opts.composeTemplate lines
      (opts.services.map fun service => (service, opts.repo))) :
    Matches lines (resolvedPins opts now found) ↔
      (∀ service indent repo tag, .image service indent repo tag ∈ lines → tag = opts.tag) ∧
        ∀ d₁ ∈ found, ∀ d₂ ∈ found, d₁ = d₂ := by
  rw [← serviceRepo_resolvedPins now hlen] at htemplate
  constructor
  · intro hmatches
    refine ⟨fun service indent repo tag hline => ?_, fun d₁ h₁ d₂ h₂ => ?_⟩
    · obtain ⟨-, -, hpinned, -⟩ := htemplate.image _ _ _ _ hline
      obtain ⟨pin, hpin, heq⟩ := List.mem_map.mp hpinned
      obtain ⟨htag, -⟩ := hmatches _ _ _ _ hline pin hpin (congrArg Prod.fst heq)
      exact htag.trans (of_mem_resolvedPins hpin).2.1
    · have hall : ∀ d ∈ found, ∃ service,
          ⟨service, opts.repo, opts.tag, d, now⟩ ∈ resolvedPins opts now found :=
        fun d hd => mem_resolvedPins hlen hd
      obtain ⟨s₁, hpin₁⟩ := hall d₁ h₁
      obtain ⟨s₂, hpin₂⟩ := hall d₂ h₂
      obtain ⟨indent, tag, hline⟩ := htemplate.service _ _ (List.mem_map_of_mem hpin₁)
      obtain ⟨-, hone⟩ := hmatches _ _ _ _ hline _ hpin₁ rfl
      exact (hone _ hpin₂ ⟨rfl, List.prefix_rfl⟩).2.symm
  · rintro ⟨htags, hdigests⟩ service indent repo tag hline pin hpin hservice
    obtain ⟨hrepo, htag, hdigest⟩ := of_mem_resolvedPins hpin
    refine ⟨(htags _ _ _ _ hline).trans htag.symm, fun q hq hhits => ?_⟩
    obtain ⟨hrepo', htag', hdigest'⟩ := of_mem_resolvedPins hq
    exact ⟨htag'.trans htag.symm, hdigests _ hdigest' _ hdigest⟩

/-- **A bootstrap that installs** leaves two files that agree exactly when no directory was in their
places and the registry has given one answer for the tag of the template. -/
theorem runs_bootstrap_agrees {opts : BootstrapOptions} {report : BootstrapReport}
    {lines : List TemplateLine} (h : H.env.Runs w (self.bootstrap opts) tr (.ok report) w')
    (hnew : report.alreadyInstalled = false)
    (htemplate : TemplateOf opts.composeTemplate lines
      (opts.services.map fun service => (service, opts.repo))) :
    FilesAgree self.toml (H.tree w') opts.installPath lines report.state ↔
      (H.tree w).isDir (place (composePath opts.installPath)) = false ∧
        (H.tree w).isDir (place (statePath opts.installPath)) = false ∧
          OneAnswer opts lines tr := by
  cases runs_bootstrap h with
  | refused hr => cases hr
  | existing htr hinspects hfinal hdir hrun =>
    have hold := runs_bootstrapExisting_ok hrun
    rw [hnew] at hold
    cases hold
  | @fresh t₁ t₂ w₁ os now pins compose htr hinspects hfinal hnow hlen hpins hrender hrun =>
    obtain ⟨hstate, t, w₂, hlayout, htree⟩ := runs_settle_ok hrun
    obtain ⟨text, htext, hover₁, hover₂⟩ := runs_layOut_overwrites hlayout
    have hbefore : H.tree w₁ = H.tree w := by
      rw [← hfinal]
      exact tree_final fun e he => Asks.mono (fun _ h => h.reads) _ (hinspects e he)
    have himages : report.state.images = pins := by
      rw [hstate]
      rfl
    have hanswers : Agrees lines compose pins ↔ OneAnswer opts lines tr := by
      rw [agrees_iff hrender (by rw [hpins, serviceRepo_resolvedPins now hlen]; exact htemplate),
        hpins, matches_resolvedPins_iff hlen htemplate, OneAnswer, htr, digests_append,
        digests_settle hrender hrun, List.append_nil]
    rw [htree, filesAgree_iff htext hover₁ hover₂, hbefore, himages, hanswers]

/-! ### An update -/

/-- The template has the newest tags, and none of them starts with another one of its repository. -/
def MatchesNewest (lines : List TemplateLine) (updates : List ImageUpdate) : Prop :=
  ∀ service indent repo tag, .image service indent repo tag ∈ lines →
    ∀ u ∈ updates, u.service = service → tag = u.latestTag ∧
      ∀ v ∈ updates, v.repo = repo → v.latestTag <+: u.latestTag →
        v.latestTag = u.latestTag ∧ v.latestDigest = u.latestDigest

theorem matches_newPins_iff {lines : List TemplateLine} {updates : List ImageUpdate}
    {now : DateTime} :
    Matches lines (updates.map (ImageUpdate.newPin now)) ↔ MatchesNewest lines updates := by
  simp only [Matches, MatchesNewest, OneDigest, List.forall_mem_map, Hits, and_imp,
    ImageUpdate.newPin]

theorem serviceRepo_newPins {pins : List ImagePin} {updates : List ImageUpdate} (now : DateTime)
    (h : List.Forall₂ Concerns pins updates) :
    (updates.map (ImageUpdate.newPin now)).map ImagePin.serviceRepo =
      pins.map ImagePin.serviceRepo := by
  induction h with
  | nil => rfl
  | cons hfirst _ ih =>
    obtain ⟨hservice, hrepo, -, -⟩ := hfirst
    simp only [List.map_cons, ih, ImagePin.serviceRepo, ImageUpdate.newPin, hservice, hrepo]

/-- **The clean-up** keeps two files that agree exactly when its listing spares them. -/
theorem filesAgree_of_gcBackups {toml : Toml} {now : DateTime} {deleted : List PathBuf}
    {lines : List TemplateLine} {state : RelayState}
    (h : H.env.Runs w (gcBackups p now) tr (.ok deleted) w') :
    FilesAgree toml (H.tree w') p lines state ↔
      FilesAgree toml (H.tree w) p lines state ∧ ∀ e ∈ tr, SparesFiles p [now] e := by
  constructor
  · rintro ⟨compose, ⟨hcompose, text, htext, hstate⟩, hagrees⟩
    have hbefore := runs_gcBackups_fileAt h hcompose
    have hbefore' := runs_gcBackups_fileAt h hstate
    refine ⟨⟨compose, ⟨hbefore, text, htext, hbefore'⟩, hagrees⟩, ?_⟩
    exact (spares_iff h (isFile_iff.mpr ⟨_, hbefore⟩) (isFile_iff.mpr ⟨_, hbefore'⟩)).mpr
      ⟨hcompose.trans hbefore.symm, hstate.trans hbefore'.symm⟩
  · rintro ⟨⟨compose, ⟨hcompose, text, htext, hstate⟩, hagrees⟩, hspares⟩
    obtain ⟨hsame, hsame'⟩ :=
      (spares_iff h (isFile_iff.mpr ⟨_, hcompose⟩) (isFile_iff.mpr ⟨_, hstate⟩)).mp hspares
    exact ⟨compose, ⟨hsame.trans hcompose, text, htext, hsame'.trans hstate⟩, hagrees⟩

/-- In a run that reads the clock once and lists the backups at its end, the listing is that one. -/
theorem spares_of_readOnce {now : DateTime} {t₁ t₂ t₃ : List Event} (hnow : ReadOnce p t₁ now)
    (hplain : ∀ e ∈ t₂, Plain p e.request) (hclean : times t₃ = []) :
    (∀ e ∈ t₁ ++ (t₂ ++ t₃), SparesFiles p (times (t₁ ++ (t₂ ++ t₃))) e) ↔
      ∀ e ∈ t₃, SparesFiles p [now] e := by
  obtain ⟨before, behind, rfl, hbefore, hbehind⟩ := hnow
  have htimes : times ((before ++ ⟨.now, now⟩ :: behind) ++ (t₂ ++ t₃)) = [now] := by
    rw [times_append, times_append, times_append, times_of_plain hbefore, times_of_plain hplain,
      hclean]
    show [] ++ now :: times behind ++ ([] ++ []) = [now]
    rw [times_of_plain hbehind]
    rfl
  rw [htimes]
  constructor
  · exact fun h e he => h e (List.mem_append_right _ (List.mem_append_right _ he))
  · intro h e he
    rcases List.mem_append.mp he with he | he
    · rcases List.mem_append.mp he with he | he
      · exact sparesFiles_of_plain (hbefore e he)
      · rcases List.mem_cons.mp he with rfl | he
        · trivial
        · exact sparesFiles_of_plain (hbehind e he)
    · exact (List.mem_append.mp he).elim (fun he => sparesFiles_of_plain (hplain e he)) (h e)

/-- **An update that changes something** leaves two files that agree exactly when no directory was in
the place of the compose file, the template has the newest tags, and the listing of the backups
spares the two files. -/
theorem runs_update_agrees {opts : UpdateOptions} {report : UpdateReport} {state : RelayState}
    {lines : List TemplateLine} {t : List Event} {wc : H.World} {found : CheckUpdatesReport}
    (h : H.env.Runs w (self.update opts) tr (.ok report) w') (hchanged : report.changed = true)
    (hstate : HoldsState self.toml (H.tree w) opts.installPath state)
    (hcheck : H.env.Runs w (self.checkUpdates opts.installPath) t (.ok found) wc)
    (htemplate : TemplateOf opts.composeTemplate lines (state.images.map ImagePin.serviceRepo)) :
    FilesAgree self.toml (H.tree w') opts.installPath lines report.newState ↔
      (H.tree w).isDir (place (composePath opts.installPath)) = false ∧
        MatchesNewest lines found.images ∧
          ∀ e ∈ tr, SparesFiles opts.installPath (times tr) e := by
  obtain ⟨t₁, t₂, w₁, rfl, hfinal, hbefore, harrives⟩ := runs_update h
  cases harrives with
  | failed hr => cases hr
  | unchanged hr hunchanged =>
    cases hr
    rw [hchanged] at hunchanged
    cases hunchanged
  | @prepared _ _ found' now backupDir newState newCompose hnow hprepared hrest =>
  obtain ⟨u, t₃, t₄, w₂, rfl, hinstall, hconclude⟩ := Env.runs_bind_ok hrest
  obtain ⟨-, hreported, th, tg, w₃, deleted, rfl, hhealth, hgc⟩ := runs_conclude_ok hconclude
  obtain ⟨t', wc', hchecked⟩ := hprepared.checked
  obtain ⟨-, heq, -⟩ := hcheck.unique hchecked
  cases heq
  obtain ⟨state', hstate', hconcerns⟩ := runs_checkUpdates_ok hcheck
  cases hstate.unique hstate'
  obtain ⟨text, hprint, hover₁, hover₂, -, -⟩ := runs_install_ok hinstall
  have htree := runs_tree hhealth (always_healthCheck (p := opts.installPath) _)
  -- before the install both places are as they were
  have hplace : ∀ x, x ≠ "backups".toList → (H.tree w₁).isDir (place opts.installPath ++ [x]) =
      (H.tree w).isDir (place opts.installPath ++ [x]) := by
    intro x hx
    rw [← hfinal, isDir, isDir, node_before hbefore hx]
  have hstateFile : (H.tree w₁).isDir (place (statePath opts.installPath)) = false := by
    obtain ⟨raw, hraw, -⟩ := hstate
    rw [place_statePath, hplace _ (by decide), ← place_statePath]
    exact not_isDir_of_fileAt hraw
  have hplain : ∀ e ∈ t₃ ++ th, Plain opts.installPath e.request := List.forall_mem_append.mpr
    ⟨hinstall.requests (plain_install _ _ _), hhealth.requests (plain_healthCheck _)⟩
  have hspares := spares_of_readOnce hnow hplain (times_gcBackups hgc)
  rw [List.append_assoc] at hspares
  rw [hspares, hreported, filesAgree_of_gcBackups hgc, htree, filesAgree_iff hprint hover₁ hover₂,
    hprepared.images, agrees_iff hprepared.render
      (by rw [serviceRepo_newPins now hconcerns]; exact htemplate),
    matches_newPins_iff, place_composePath, hplace _ (by decide)]
  simp only [hstateFile, true_and, and_assoc]

end Host

namespace RelayLifecycle

open Host

/-- **The compose file and the state file agree**: after a bootstrap exactly when no directory was in
the place of one of them, the template has the tag that is installed, and the registry has answered
one digest for it; after an update exactly when no directory was in the place of the compose file,
the template has the newest tags, and what the clean-up was told to remove is neither of the two
files nor above one. -/
theorem pins_agree_iff (self : RelayLifecycle) :
    (∀ (H : Host) (opts : BootstrapOptions) w w' tr report lines,
      H.env.Runs w (self.bootstrap opts) tr (.ok report) w' → report.alreadyInstalled = false →
        TemplateOf opts.composeTemplate lines
            (opts.services.map fun service => (service, opts.repo)) →
          (FilesAgree self.toml (H.tree w') opts.installPath lines report.state ↔
            (H.tree w).isDir (place (composePath opts.installPath)) = false ∧
              (H.tree w).isDir (place (statePath opts.installPath)) = false ∧
                OneAnswer opts lines tr)) ∧
    ∀ (H : Host) (opts : UpdateOptions) w w' tr report state lines t wc found,
      H.env.Runs w (self.update opts) tr (.ok report) w' → report.changed = true →
        HoldsState self.toml (H.tree w) opts.installPath state →
          H.env.Runs w (self.checkUpdates opts.installPath) t (.ok found) wc →
            TemplateOf opts.composeTemplate lines (state.images.map ImagePin.serviceRepo) →
              (FilesAgree self.toml (H.tree w') opts.installPath lines report.newState ↔
                (H.tree w).isDir (place (composePath opts.installPath)) = false ∧
                  MatchesNewest lines found.images ∧
                    ∀ e ∈ tr, SparesFiles opts.installPath (times tr) e) :=
  ⟨fun _ _ _ _ _ _ _ hrun hnew htemplate => runs_bootstrap_agrees hrun hnew htemplate,
    fun _ _ _ _ _ _ _ _ _ _ _ hrun hchanged hstate hcheck htemplate =>
      runs_update_agrees hrun hchanged hstate hcheck htemplate⟩

/-- The lines of the sample template. -/
def templateLines (tag : String) : List TemplateLine :=
  [.other "services:".toList, .other "  hbbs:".toList,
    .image "hbbs".toList "    ".toList Sample.repo tag.toList]

/-- The sample template, for the pins of the sample relay. -/
theorem templateOf_sample {tag : String} (htag : tag ∈ ["1.1.10", "1.1.14"]) :
    TemplateOf (Sample.compose tag) (templateLines tag)
      (Sample.state.images.map ImagePin.serviceRepo) := by
  have hpinned : Sample.state.images.map ImagePin.serviceRepo = [("hbbs".toList, Sample.repo)] := by
    decide +kernel
  have hvalid : ∀ tag ∈ ["1.1.10", "1.1.14"],
      Commands.validateTag tag.toList = .ok tag.toList ∧
        (Sample.compose tag).splitOn '\n' = (templateLines tag).map TemplateLine.text := by
    decide +kernel
  rw [hpinned]
  refine ⟨(hvalid tag htag).2, ?_, ?_, ?_⟩
  · intro service indent repo tag' hmem
    simp only [templateLines, List.mem_cons, List.not_mem_nil, or_false, reduceCtorEq, false_or,
      TemplateLine.image.injEq] at hmem
    obtain ⟨rfl, rfl, rfl, rfl⟩ := hmem
    refine ⟨fun c hc => ?_, (hvalid tag htag).1, List.mem_singleton_self _, fun repo' h => ?_⟩
    · exact List.eq_of_mem_replicate (show c ∈ List.replicate 4 ' ' from hc)
    · exact (Prod.mk.inj (List.mem_singleton.mp h)).2
  · intro service repo hmem
    obtain ⟨rfl, rfl⟩ := Prod.mk.inj (List.mem_singleton.mp hmem)
    exact ⟨_, _, List.mem_cons_of_mem _ (List.mem_cons_of_mem _ (List.mem_singleton_self _))⟩
  · intro text hmem service repo hpin
    obtain ⟨rfl, rfl⟩ := Prod.mk.inj (List.mem_singleton.mp hpin)
    simp only [templateLines, List.mem_cons, List.not_mem_nil, or_false, reduceCtorEq,
      TemplateLine.other.injEq] at hmem
    rcases hmem with rfl | rfl
    · decide +kernel
    · decide +kernel

/-- The options of the sample update, with a template that ships this tag. -/
def shippedOptions (tag : String) : UpdateOptions :=
  { Sample.updateOptions true with composeTemplate := Sample.compose tag }

/-- The events of that update. -/
def shippedTrace (tag : String) : List Event :=
  (hostListing higherTags).env.trace Sample.start (versionedRelay.update (shippedOptions tag))

/-- The host behind it. -/
def shippedEnd (tag : String) : Script.World :=
  (hostListing higherTags).env.final Sample.start (shippedTrace tag)

/-- The sample bootstrap, and the sample update with a template that ships the newest tag, leave files
that agree. -/
theorem pins_agree_sample :
    FilesAgree bootstrapRelay.toml ((Sample.host fun _ _ => none).tree bootstrapEnd) Sample.path
        (templateLines "1.1.10") bootstrapState ∧
      FilesAgree versionedRelay.toml ((hostListing higherTags).tree (shippedEnd "1.1.14"))
        Sample.path (templateLines "1.1.14") Sample.newState := by
  constructor
  · have hrun : ((Sample.host fun _ _ => none).env.value emptyStart
          (bootstrapRelay.bootstrap bootstrapOptions)).map
            (fun report => (report.alreadyInstalled, report.state)) =
              some (false, bootstrapState) ∧
        emptyStart.tree.isDir (place (composePath Sample.path)) = false ∧
        emptyStart.tree.isDir (place (statePath Sample.path)) = false ∧
        ∀ d₁ ∈ digests (bootstrapTrace emptyStart), ∀ d₂ ∈ digests (bootstrapTrace emptyStart),
          d₁ = d₂ := by
      decide +kernel
    obtain ⟨hrun, hcompose, hstateFile, hdigests⟩ := hrun
    obtain ⟨report, hreport, heq⟩ := Option.map_eq_some_iff.mp hrun
    obtain ⟨hnew, hstate⟩ := Prod.mk.inj heq
    have hruns : (Sample.host fun _ _ => none).env.Runs emptyStart
        (bootstrapRelay.bootstrap bootstrapOptions) (bootstrapTrace emptyStart) (.ok report)
        bootstrapEnd := Env.runs_value hreport
    have hiff := (pins_agree_iff bootstrapRelay).1 _ bootstrapOptions _ _ _ report
      (templateLines "1.1.10") hruns hnew (templateOf_sample (by decide))
    rw [hstate] at hiff
    refine hiff.mpr ⟨hcompose, hstateFile, fun service indent repo tag hline => ?_, hdigests⟩
    simp only [templateLines, List.mem_cons, List.not_mem_nil, or_false, reduceCtorEq, false_or,
      TemplateLine.image.injEq] at hline
    exact hline.2.2.2
  · have hrun : ((hostListing higherTags).env.value Sample.start
          (versionedRelay.update (shippedOptions "1.1.14"))).map
            (fun report => (report.changed, report.newState)) = some (true, Sample.newState) ∧
        Sample.start.tree.isDir (place (composePath Sample.path)) = false ∧
        ∀ e ∈ shippedTrace "1.1.14", SparesFiles Sample.path (times (shippedTrace "1.1.14")) e := by
      decide +kernel
    have hcheck : ((hostListing higherTags).env.value Sample.start
          (versionedRelay.checkUpdates Sample.path)).map
            (fun found => found.images.map fun u => (u.latestTag, u.latestDigest)) =
          some [("1.1.14".toList, Sample.digest 'b')] := by
      decide +kernel
    obtain ⟨hrun, hcompose, hspares⟩ := hrun
    obtain ⟨report, hreport, heq⟩ := Option.map_eq_some_iff.mp hrun
    obtain ⟨hchanged, hstate⟩ := Prod.mk.inj heq
    obtain ⟨found, hfound, hnewest⟩ := Option.map_eq_some_iff.mp hcheck
    have hruns : (hostListing higherTags).env.Runs Sample.start
        (versionedRelay.update (shippedOptions "1.1.14")) (shippedTrace "1.1.14") (.ok report)
        (shippedEnd "1.1.14") := Env.runs_value hreport
    have hiff := (pins_agree_iff versionedRelay).2 _ (shippedOptions "1.1.14") _ _ _ report
      Sample.state (templateLines "1.1.14") _ _ found hruns hchanged (holdsState_start _)
      (Env.runs_value hfound) (templateOf_sample (by decide))
    rw [hstate] at hiff
    refine hiff.mpr ⟨hcompose, fun service indent repo tag hline u hu _ => ?_, hspares⟩
    have hall : ∀ v ∈ found.images, v.latestTag = "1.1.14".toList ∧
        v.latestDigest = Sample.digest 'b' := by
      intro v hv
      have hmem : (v.latestTag, v.latestDigest) ∈
          found.images.map fun u => (u.latestTag, u.latestDigest) := List.mem_map_of_mem hv
      rw [hnewest, List.mem_singleton] at hmem
      exact Prod.mk.inj hmem
    simp only [templateLines, List.mem_cons, List.not_mem_nil, or_false, reduceCtorEq, false_or,
      TemplateLine.image.injEq] at hline
    obtain ⟨-, -, -, rfl⟩ := hline
    obtain ⟨htag, hdigest⟩ := hall u hu
    refine ⟨htag.symm, fun v hv _ _ => ?_⟩
    rw [(hall v hv).1, (hall v hv).2]
    exact ⟨htag.symm, hdigest.symm⟩

/-- **A template that ships an older tag is left without a digest**, and the state file says that
the newest one is pinned. -/
theorem shipped_tag_stays :
    ¬ ∀ (H : Host) (self : RelayLifecycle) (opts : UpdateOptions) w w' tr report state lines,
      H.env.Runs w (self.update opts) tr (.ok report) w' → report.changed = true →
        HoldsState self.toml (H.tree w) opts.installPath state →
          TemplateOf opts.composeTemplate lines (state.images.map ImagePin.serviceRepo) →
            ∀ compose, (H.tree w').fileAt (place (composePath opts.installPath)) =
              some (Utf8.encode compose) → Agrees lines compose report.newState.images := by
  intro hclaim
  have hrun : ((hostListing higherTags).env.value Sample.start
        (versionedRelay.update (shippedOptions "1.1.10"))).map
          (fun report => (report.changed, report.newState)) = some (true, Sample.newState) ∧
      ((hostListing higherTags).tree (shippedEnd "1.1.10")).fileAt
        (place (composePath Sample.path)) = some (Utf8.encode (Sample.compose "1.1.10")) := by
    decide +kernel
  obtain ⟨report, hreport, heq⟩ := Option.map_eq_some_iff.mp hrun.1
  obtain ⟨hchanged, hstate⟩ := Prod.mk.inj heq
  have hagrees := hclaim (hostListing higherTags) versionedRelay (shippedOptions "1.1.10")
    Sample.start (shippedEnd "1.1.10") (shippedTrace "1.1.10") report Sample.state
    (templateLines "1.1.10") (Env.runs_value hreport) hchanged (holdsState_start _)
    (templateOf_sample (by decide)) _ hrun.2
  rw [hstate] at hagrees
  have hline := hagrees.services 2 "hbbs".toList "    ".toList Sample.repo "1.1.10".toList rfl
    (Sample.pin "1.1.14" 'b' Sample.updatedAt) (List.mem_singleton_self _) rfl
  have hnot : ((Sample.compose "1.1.10").splitOn '\n')[2]? ≠
      some ((Sample.pin "1.1.14" 'b' Sample.updatedAt).line "    ".toList) := by
    decide +kernel
  exact hnot hline

end RelayLifecycle

end Rustmote
