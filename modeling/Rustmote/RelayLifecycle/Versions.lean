import Rustmote.RelayLifecycle.Concluding
import Rustmote.RelayLifecycle.Newest
import Rustmote.RelayLifecycle.Simulation

/-!
# The versions of the services

`check_updates` takes for each pin the highest of the dotted-numeric tags that the registry
lists, and keeps the pinned tag only when the list has none. It does not compare with the pin.
So an update goes down to the highest tag listed as soon as the list stops below the pinned tag:
`notOlder_latestTag_iff` says when the choice is no step back, and `versions_kept_iff`
carries this over check-updates, an update and a sequence of updates.

* `Latest` — the greatest of the tags that are versions: listed, and an upper bound.
* `KeepsUp` — the condition on the list of tags.
* `Reported` — what is reported of each pin, by the list of tags that was answered for it.
* `Updates` — updates that succeed one after the other.
-/

namespace Rustmote

open Interaction (Env)
open Interaction.Prog (Always Errors)
open FileTree

/-! ### Choosing a tag -/

/-- No version of the list is greater. -/
def Bounds (parts : List Nat) (tags : List Str) : Prop :=
  ∀ t ∈ tags, ∀ parts', parseDottedNumeric t = some parts' → parts' ≤ parts

/-- The tag with these parts is the greatest version of a list. -/
structure Latest (tags : List Str) (parts : List Nat) (t : Str) : Prop where
  /-- It is listed. -/
  mem : t ∈ tags
  /-- These are its parts. -/
  parsed : parseDottedNumeric t = some parts
  /-- No version of the list is greater. -/
  bounds : Bounds parts tags

/-- **What `pick_latest_semver` picks**: the greatest version of the list, and nothing if there
is no version in it. -/
theorem pickLatestSemver_cases (tags : List Str) :
    (pickLatestSemver tags = none ∧ ∀ t ∈ tags, parseDottedNumeric t = none) ∨
      ∃ parts t, pickLatestSemver tags = some t ∧ Latest tags parts t := by
  rcases pickLatestSemver_firstMax tags with hnone | ⟨parts, t, hpick, hmax⟩
  · exact .inl hnone
  · refine .inr ⟨parts, t, hpick, hmax.mem, hmax.value, ?_⟩
    exact fun t' ht' parts' hparts' => hmax.le HasParts.unique ht' hparts'

/-! ### No step back -/

/-- If the old tag is a version, the new one is one too, and no smaller. -/
def NotOlder (old new : Str) : Prop :=
  ∀ parts, parseDottedNumeric old = some parts →
    ∃ parts', parseDottedNumeric new = some parts' ∧ parts ≤ parts'

theorem NotOlder.refl (t : Str) : NotOlder t t := fun parts h => ⟨parts, h, le_refl _⟩

theorem NotOlder.trans {t₁ t₂ t₃ : Str} (h₁ : NotOlder t₁ t₂) (h₂ : NotOlder t₂ t₃) :
    NotOlder t₁ t₃ := by
  intro parts hparts
  obtain ⟨parts', hparts', hle⟩ := h₁ parts hparts
  obtain ⟨parts'', hparts'', hle'⟩ := h₂ parts' hparts'
  exact ⟨parts'', hparts'', hle.trans hle'⟩

/-- The list has no version, or one that is no smaller than the pinned one. -/
def KeepsUp (tag : Str) (tags : List Str) : Prop :=
  ∀ parts, parseDottedNumeric tag = some parts →
    (∀ t ∈ tags, parseDottedNumeric t = none) ∨
      ∃ t ∈ tags, ∃ parts', parseDottedNumeric t = some parts' ∧ parts ≤ parts'

/-- The tag that `check_updates` reports for a pinned one. -/
def latestTag (tag : Str) (tags : List Str) : Str := (pickLatestSemver tags).getD tag

/-- **When the reported tag is no step back.** -/
theorem notOlder_latestTag_iff {tag : Str} {tags : List Str} :
    NotOlder tag (latestTag tag tags) ↔ KeepsUp tag tags := by
  unfold latestTag
  rcases pickLatestSemver_cases tags with ⟨hpick, hnone⟩ | ⟨parts', t, hpick, hlatest⟩
  · rw [hpick]
    exact ⟨fun _ _ _ => .inl hnone, fun _ => NotOlder.refl tag⟩
  · rw [hpick, Option.getD_some]
    constructor
    · intro h parts hparts
      obtain ⟨parts₁, hparts₁, hle⟩ := h parts hparts
      exact .inr ⟨t, hlatest.mem, parts₁, hparts₁, hle⟩
    · intro h parts hparts
      refine ⟨parts', hlatest.parsed, ?_⟩
      rcases h parts hparts with hnone | ⟨t₁, ht₁, parts₁, hparts₁, hle⟩
      · have hparsed := hlatest.parsed
        rw [hnone t hlatest.mem] at hparsed
        cases hparsed
      · exact hle.trans (hlatest.bounds t₁ ht₁ parts₁ hparts₁)

/-! ### What the registry answered -/

/-- The lists of tags that the registry answered. -/
def tagLists (tr : List Event) : List (List Str) :=
  tr.filterMap fun
    | ⟨.listTags _, .ok tags⟩ => some tags
    | _ => none

theorem tagLists_append (t₁ t₂ : List Event) : tagLists (t₁ ++ t₂) = tagLists t₁ ++ tagLists t₂ :=
  List.filterMap_append

/-- Without the registry there are none. -/
theorem tagLists_of_offline {timed : Prop} {C : Str → Prop} {tr : List Event}
    (h : ∀ e ∈ tr, Asks timed False C e.request) : tagLists tr = [] := by
  rw [tagLists, List.filterMap_eq_nil_iff]
  rintro ⟨q, reply⟩ he
  cases q with
  | listTags repo => exact (h _ he).elim
  | _ => rfl

/-- What is reported of the pins, by the lists of tags that were answered for them. -/
inductive Reported : List ImagePin → List (List Str) → List ImageUpdate → Prop where
  | nil : Reported [] [] []
  | cons {pin : ImagePin} {tags : List Str} {u : ImageUpdate} {pins : List ImagePin}
      {lists : List (List Str)} {updates : List ImageUpdate} (hservice : u.service = pin.service)
      (hrepo : u.repo = pin.repo) (htag : u.latestTag = latestTag pin.tag tags)
      (hrest : Reported pins lists updates) :
      Reported (pin :: pins) (tags :: lists) (u :: updates)

/-- No reported tag is a step back just when every list keeps up. -/
theorem Reported.notOlder_iff {pins : List ImagePin} {lists : List (List Str)}
    {updates : List ImageUpdate} (h : Reported pins lists updates) :
    List.Forall₂ (fun pin u => NotOlder pin.tag u.latestTag) pins updates ↔
      List.Forall₂ (fun pin tags => KeepsUp pin.tag tags) pins lists := by
  induction h with
  | nil => exact ⟨fun _ => .nil, fun _ => .nil⟩
  | cons hservice hrepo htag hrest ih =>
    rw [List.forall₂_cons, List.forall₂_cons, htag, notOlder_latestTag_iff, ih]

/-- The new pin is about the service of the old one, and is no step back from it. -/
structure Kept (old new : ImagePin) : Prop where
  /-- It is the same service. -/
  service : new.service = old.service
  /-- It is the same repository. -/
  repo : new.repo = old.repo
  /-- Its version is no smaller. -/
  tag : NotOlder old.tag new.tag

theorem Kept.trans {p₁ p₂ p₃ : ImagePin} (h₁ : Kept p₁ p₂) (h₂ : Kept p₂ p₃) : Kept p₁ p₃ :=
  ⟨h₂.service.trans h₁.service, h₂.repo.trans h₁.repo, h₁.tag.trans h₂.tag⟩

/-- Versions that are kept twice are kept. -/
theorem forall₂_kept_trans {l₁ l₂ l₃ : List ImagePin} (h₁ : List.Forall₂ Kept l₁ l₂)
    (h₂ : List.Forall₂ Kept l₂ l₃) : List.Forall₂ Kept l₁ l₃ := by
  induction h₁ generalizing l₃ with
  | nil => exact h₂
  | cons h _ ih =>
    cases h₂ with
    | cons h' h₂ => exact .cons (h.trans h') (ih h₂)

theorem forall₂_kept_refl (l : List ImagePin) : List.Forall₂ Kept l l :=
  List.forall₂_same.mpr fun _ _ => ⟨rfl, rfl, NotOlder.refl _⟩

/-- The pins that an update installs. -/
theorem Reported.kept_iff {pins : List ImagePin} {lists : List (List Str)}
    {updates : List ImageUpdate} (h : Reported pins lists updates) (now : DateTime) :
    List.Forall₂ Kept pins (updates.map (ImageUpdate.newPin now)) ↔
      List.Forall₂ (fun pin tags => KeepsUp pin.tag tags) pins lists := by
  rw [← h.notOlder_iff]
  induction h with
  | nil => exact ⟨fun _ => .nil, fun _ => .nil⟩
  | cons hservice hrepo htag hrest ih =>
    rw [List.map_cons, List.forall₂_cons, List.forall₂_cons, ih]
    exact and_congr_left fun _ => ⟨fun hkept => hkept.tag, fun h => ⟨hservice, hrepo, h⟩⟩

namespace Host

open RelayLifecycle

variable {H : Host} {w w' : H.World} {p : PathBuf} {tr : List Event} {self : RelayLifecycle}

/-- A list that came back is the answer. -/
theorem runs_listTags_ok {repo : Str} {tags : List Str}
    (h : H.env.Runs w (listTags repo) tr (.ok tags) w') : tagLists tr = [tags] := by
  unfold listTags at h
  obtain ⟨t, rfl, hreply⟩ := Env.runs_request_iff.mp h
  obtain ⟨rfl, heq, -⟩ := Env.runs_ofExcept_iff.mp hreply
  cases hanswer : (H.env.answer w (.listTags repo)).1 with
  | ok tags' =>
    rw [hanswer] at heq
    cases heq
    rfl
  | error e =>
    rw [hanswer] at heq
    cases heq

theorem runs_resolveDigest_ok {repo tag digest : Str}
    (h : H.env.Runs w (resolveDigest repo tag) tr (.ok digest) w') : tagLists tr = [] := by
  unfold resolveDigest at h
  obtain ⟨t, rfl, hreply⟩ := Env.runs_request_iff.mp h
  obtain ⟨rfl, -, -⟩ := Env.runs_ofExcept_iff.mp hreply
  rfl

/-- **What is reported is answered**, image by image. -/
theorem runs_checkImages_ok {pins : List ImagePin} {updates : List ImageUpdate}
    (h : H.env.Runs w (checkImages pins) tr (.ok updates) w') :
    Reported pins (tagLists tr) updates := by
  induction pins generalizing w w' tr updates with
  | nil =>
    obtain ⟨rfl, hr, -⟩ := Env.runs_ret_iff.mp h
    cases hr
    exact .nil
  | cons pin pins ih =>
    unfold checkImages at h
    obtain ⟨tags, t₁, s₁, w₁, rfl, htags, h₁⟩ := Env.runs_bind_ok h
    obtain ⟨digest, t₂, s₂, w₂, rfl, hdigest, h₂⟩ := Env.runs_bind_ok h₁
    obtain ⟨rest, t₃, s₃, w₃, rfl, hrest, h₃⟩ := Env.runs_bind_ok h₂
    obtain ⟨rfl, hr, -⟩ := Env.runs_ret_iff.mp h₃
    cases hr
    rw [tagLists_append, tagLists_append, tagLists_append, runs_listTags_ok htags,
      runs_resolveDigest_ok hdigest]
    simp only [tagLists, List.filterMap_nil, List.append_nil, List.nil_append, List.singleton_append]
    exact .cons rfl rfl rfl (ih hrest)

/-- **What `check_updates` reports**, by what the registry answered. -/
theorem runs_checkUpdates_answered {report : CheckUpdatesReport} {state : RelayState}
    (h : H.env.Runs w (self.checkUpdates p) tr (.ok report) w')
    (hstate : HoldsState self.toml (H.tree w) p state) :
    Reported state.images (tagLists tr) report.images := by
  unfold checkUpdates at h
  obtain ⟨state', t₁, s₁, w₁, rfl, hload, h₁⟩ := Env.runs_bind_ok h
  obtain ⟨images, t₂, s₂, w₂, rfl, himages, h₂⟩ := Env.runs_bind_ok h₁
  obtain ⟨rfl, hreport, -⟩ := Env.runs_ret_iff.mp h₂
  cases hreport
  obtain rfl := hstate.unique (runs_loadState_ok hload)
  rw [List.append_nil, tagLists_append,
    tagLists_of_offline (hload.requests (P := Asks False False (Reads p)) always_loadState),
    List.nil_append]
  exact runs_checkImages_ok himages

/-- **An update that returned** has checked for newer images; then it has loaded the state, when
there are none, or it has applied them. -/
theorem runs_update_ok {opts : UpdateOptions} {report : UpdateReport}
    (h : H.env.Runs w (self.update opts) tr (.ok report) w') :
    ∃ found t₁ t₂ w₁, tr = t₁ ++ t₂ ∧
      H.env.Runs w (self.checkUpdates opts.installPath) t₁ (.ok found) w₁ ∧
        ((∃ state, H.env.Runs w₁ (self.loadState opts.installPath) t₂ (.ok state) w') ∨
          H.env.Runs w₁ (self.applyUpdates opts found) t₂ (.ok report) w') := by
  unfold update at h
  by_cases hconfirmed : (!opts.assumeYes && !opts.isTty) = true
  · rw [if_pos hconfirmed] at h
    obtain ⟨-, hr, -⟩ := Env.runs_fail_iff.mp h
    cases hr
  rw [if_neg hconfirmed] at h
  obtain ⟨found, t₁, t₂, w₁, htr, hcheck, h₁⟩ := Env.runs_bind_ok h
  refine ⟨found, t₁, t₂, w₁, htr, hcheck, ?_⟩
  by_cases havailable : (!found.anyUpdateAvailable) = true
  · rw [if_pos havailable] at h₁
    obtain ⟨state, t₃, t₄, w₂, rfl, hload, h₂⟩ := Env.runs_bind_ok h₁
    obtain ⟨rfl, -, rfl⟩ := Env.runs_ret_iff.mp h₂
    rw [List.append_nil]
    exact .inl ⟨state, hload⟩
  · rw [if_neg havailable] at h₁
    exact .inr h₁

/-- The registry is asked by `check_updates` only. -/
theorem runs_update_tagLists {opts : UpdateOptions} {report : UpdateReport}
    {found : CheckUpdatesReport} {t : List Event} {w₁ : H.World}
    (h : H.env.Runs w (self.update opts) tr (.ok report) w')
    (hcheck : H.env.Runs w (self.checkUpdates opts.installPath) t (.ok found) w₁) :
    tagLists tr = tagLists t := by
  obtain ⟨found', t₁, t₂, w₂, rfl, hcheck', hrest⟩ := runs_update_ok h
  obtain ⟨rfl, hfound, -⟩ := hcheck'.unique hcheck
  cases hfound
  have hnone : tagLists t₂ = [] := by
    rcases hrest with ⟨state, hload⟩ | happly
    · exact tagLists_of_offline
        (hload.requests (P := Asks True False (Reads opts.installPath)) always_loadState)
    · have hasks : Always (Grounded opts.installPath (fun _ => True) fun _ => True)
          (Asks True False (Issued opts.installPath
            (Written self.toml opts.installPath opts.composeTemplate) fun _ => True))
          (self.applyUpdates opts found) fun _ => True := always_applyUpdates opts found
      refine tagLists_of_offline (happly.requests (hasks.weaken (fun e _ => ?_) fun _ h => h))
      obtain ⟨q, reply⟩ := e
      cases q with
      | exec cmd => exact fun _ _ _ _ _ _ _ _ => trivial
      | _ => trivial
  rw [tagLists_append, hnone, List.append_nil]

/-! ### The state behind an update -/

/-- The commands that remove old backups. -/
def Clears (p : PathBuf) (cmd : Str) : Prop :=
  Reads p cmd ∨ ∃ path s, Commands.validateRemotePath path = .ok s ∧ cmd = "rm -rf ".toList ++ s

theorem always_clears_gcBackups {G : Event → Prop} {timed online : Prop} (now : DateTime) :
    Always G (Asks timed online (Clears p)) (gcBackups p now) fun _ => True := by
  have hremove : ∀ paths : List PathBuf,
      Always G (Asks timed online (Clears p)) (removeBackups paths) fun _ => True := by
    intro paths
    induction paths with
    | nil => exact .ret trivial
    | cons path paths ih =>
      unfold removeBackups
      refine Always.lift fun s hs => (always_execOk (.inr ⟨path, s, hs, rfl⟩)).bind fun _ _ => ?_
      exact ih.bind fun _ _ => .ret trivial
  unfold gcBackups
  refine Always.lift fun cmd hcmd => (always_exec (.inl (.find hcmd))).bind fun out _ => ?_
  by_cases hcode : out.exitCode = 0
  · rw [if_neg (not_not.mpr hcode)]
    exact hremove _
  · rw [if_pos hcode]
    exact .ret trivial

/-- Removing old backups makes no file. -/
theorem runs_gcBackups_fileAt {now : DateTime} {r : Except RustmoteError (List PathBuf)}
    (h : H.env.Runs w (gcBackups p now) tr r w') {q : Path} {content : Bytes}
    (hq : (H.tree w').fileAt q = some content) : (H.tree w).fileAt q = some content := by
  refine h.rel (P := Asks False False (Clears p)) (always_clears_gcBackups now)
    (R := fun w w' => (H.tree w').fileAt q = some content → (H.tree w).fileAt q = some content)
    (fun _ h => h) (fun _ _ _ h₁ h₂ h => h₁ (h₂ h)) (fun w req hreq hq => ?_) hq
  cases req with
  | exec cmd =>
    rcases hreq with hreads | ⟨path, s, hs, rfl⟩
    · rwa [tree_next_of_reads hreads] at hq
    · exact (H.carried w _ _ (actions_remove hs)).fileAt_of_remove hq
  | _ => rwa [H.quiet w _ fun _ h => by cases h] at hq

/-- An end that is reported: the relay answered, and old backups were removed. -/
theorem runs_conclude_ok {opts : UpdateOptions} {now : DateTime} {backupDir : Option PathBuf}
    {newState : RelayState} {report : UpdateReport}
    (h : H.env.Runs w (self.conclude opts now backupDir newState) tr (.ok report) w') :
    report.changed = true ∧ report.newState = newState ∧ ∃ th tg w₁ deleted, tr = th ++ tg ∧
      H.env.Runs w (self.healthCheck relayPorts) th (.ok ()) w₁ ∧
      H.env.Runs w₁ (gcBackups opts.installPath now) tg (.ok deleted) w' := by
  unfold conclude at h
  obtain ⟨x, th, t₁, w₁, rfl, hcheck, h₁⟩ := Env.runs_bind_ok h
  obtain ⟨y, hy, hcheck⟩ := Env.runs_attempt_iff.mp hcheck
  cases hy
  cases x with
  | ok u =>
    obtain ⟨deleted, tg, t₂, w₂, rfl, hgc, h₂⟩ := Env.runs_bind_ok h₁
    obtain ⟨rfl, hr, rfl⟩ := Env.runs_ret_iff.mp h₂
    cases hr
    exact ⟨rfl, rfl, th, tg, w₁, deleted, by rw [List.append_nil], hcheck, hgc⟩
  | error e =>
    cases backupDir with
    | none =>
      obtain ⟨-, hr, -⟩ := Env.runs_fail_iff.mp h₁
      cases hr
    | some dir =>
      obtain ⟨u, tb, t₂, w₂, -, -, h₂⟩ := Env.runs_bind_ok h₁
      obtain ⟨-, hr, -⟩ := Env.runs_fail_iff.mp h₂
      cases hr

/-- What is printed and read back is the state. -/
theorem holdsState_of_printed {toml : Toml} (hround : toml.RoundTrips) {t : FileTree}
    {state final : RelayState} {text : Str} (hprint : state.toTomlString toml = .ok text)
    (hfile : t.fileAt (place (statePath p)) = some (Utf8.encode text))
    (hfinal : HoldsState toml t p final) : final = state := by
  obtain ⟨raw, hraw, hparse⟩ := hfinal
  obtain rfl := Option.some.inj (hfile.symm.trans hraw)
  rw [Utf8.fromUtf8Lossy_encode] at hparse
  have hback := hround state text (RelayState.toTomlString_eq_ok_iff.mp hprint)
  exact Except.ok.inj (hparse.symm.trans hback)

/-- **The state behind an update** that has changed something. -/
theorem runs_update_changed {opts : UpdateOptions} {report : UpdateReport} {state : RelayState}
    (hround : self.toml.RoundTrips) (h : H.env.Runs w (self.update opts) tr (.ok report) w')
    (hchanged : report.changed = true)
    (hstate : HoldsState self.toml (H.tree w) opts.installPath state) :
    (∃ updates now, Reported state.images (tagLists tr) updates ∧
      report.newState.images = updates.map (ImageUpdate.newPin now)) ∧
    ∀ final, HoldsState self.toml (H.tree w') opts.installPath final → final = report.newState := by
  obtain ⟨t₁, t₂, w₁, -, hfinal, hbefore, harrives⟩ := runs_update h
  cases harrives with
  | failed hr => cases hr
  | unchanged hr hunchanged =>
    cases hr
    rw [hchanged] at hunchanged
    cases hunchanged
  | @prepared _ _ found now backupDir newState newCompose hnow hprepared hrest =>
  obtain ⟨u, t₃, t₄, w₂, -, hinstall, hconclude⟩ := Env.runs_bind_ok hrest
  obtain ⟨-, hreported, th, tg, w₃, deleted, -, hcheck, hgc⟩ := runs_conclude_ok hconclude
  obtain ⟨t, wc, hchecked⟩ := hprepared.checked
  refine ⟨⟨found.images, now, ?_, ?_⟩, fun final hfinal' => ?_⟩
  · rw [runs_update_tagLists h hchecked]
    exact runs_checkUpdates_answered hchecked hstate
  · rw [hreported]
    exact hprepared.images
  · obtain ⟨text, hprint, -, hover, -, -⟩ := runs_install_ok hinstall
    have hfile : (H.tree w₂).fileAt (place (statePath opts.installPath)) =
        some (Utf8.encode text) := by
      refine hover.file ?_
      obtain ⟨raw, hraw, -⟩ := hstate
      rw [← hfinal, isDir, place_statePath, node_before hbefore (by decide), ← place_statePath]
      exact not_isDir_of_fileAt hraw
    obtain ⟨raw, hraw, hparse⟩ := hfinal'
    have htree := runs_tree hcheck (always_healthCheck (p := opts.installPath) _)
    have hraw₂ := runs_gcBackups_fileAt hgc hraw
    rw [htree] at hraw₂
    rw [hreported]
    exact holdsState_of_printed hround hprint hfile ⟨raw, hraw₂, hparse⟩

/-- An update that reports no change leaves the files alone. -/
theorem runs_update_unchanged {opts : UpdateOptions} {report : UpdateReport}
    (h : H.env.Runs w (self.update opts) tr (.ok report) w') (hchanged : report.changed = false) :
    H.tree w' = H.tree w := by
  obtain ⟨found, t₁, t₂, w₁, -, hcheck, hrest⟩ := runs_update_ok h
  have htree₁ : H.tree w₁ = H.tree w := runs_tree hcheck always_checkUpdates
  rcases hrest with ⟨state, hload⟩ | happly
  · rw [← htree₁]
    exact runs_tree hload always_loadState
  · -- an update that went on reports a change
    unfold applyUpdates at happly
    obtain ⟨t₃, -, h₂⟩ := Env.runs_request_iff.mp happly
    obtain ⟨dir, t₄, t₅, w₂, -, -, h₃⟩ := Env.runs_bind_ok h₂
    obtain ⟨⟨newState, newCompose⟩, t₆, t₇, w₃, -, -, h₄⟩ := Env.runs_bind_ok h₃
    obtain ⟨u, t₈, t₉, w₄, -, -, h₅⟩ := Env.runs_bind_ok h₄
    obtain ⟨hreports, -⟩ := runs_conclude_ok h₅
    rw [hchanged] at hreports
    cases hreports

end Host

/-! ### Updates one after the other -/

namespace RelayLifecycle

open Host

/-- Every list of tags that the registry answered in the run keeps up with the pins of the state
file. -/
def KeepingUp (state : RelayState) (tr : List Event) : Prop :=
  List.Forall₂ (fun pin tags => KeepsUp pin.tag tags) state.images (tagLists tr)

/-- Updates of an install that succeed one after the other, each by lists of tags that keep up;
what happens in between leaves the state file alone. -/
inductive Updates (H : Host) (relay : RelayLifecycle) (p : PathBuf) : H.World → H.World → Prop where
  | none {w : H.World} : Updates H relay p w w
  | step {opts : UpdateOptions} {w w₁ w₂ w₃ : H.World} {tr : List Event} {report : UpdateReport}
      (hpath : opts.installPath = p)
      (hrun : H.env.Runs w (relay.update opts) tr (.ok report) w₁)
      (hkeeping : ∀ state, HoldsState relay.toml (H.tree w) p state → KeepingUp state tr)
      (hsame : (H.tree w₂).fileAt (place (statePath p)) = (H.tree w₁).fileAt (place (statePath p)))
      (hrest : Updates H relay p w₂ w₃) : Updates H relay p w w₃

variable {H : Host} {self : RelayLifecycle} {p : PathBuf}

/-- What one update does to the versions. -/
theorem kept_of_update (hround : self.toml.RoundTrips) {opts : UpdateOptions} {w w' : H.World}
    {tr : List Event} {report : UpdateReport} {state final : RelayState}
    (h : H.env.Runs w (self.update opts) tr (.ok report) w')
    (hstate : HoldsState self.toml (H.tree w) opts.installPath state)
    (hkeeping : KeepingUp state tr)
    (hfinal : HoldsState self.toml (H.tree w') opts.installPath final) :
    List.Forall₂ Kept state.images final.images := by
  cases hchanged : report.changed with
  | false =>
    rw [runs_update_unchanged h hchanged] at hfinal
    rw [hstate.unique hfinal]
    exact forall₂_kept_refl _
  | true =>
    obtain ⟨⟨updates, now, hanswered, himages⟩, hlast⟩ :=
      runs_update_changed hround h hchanged hstate
    rw [hlast final hfinal, himages]
    exact (hanswered.kept_iff now).mpr hkeeping

/-- A successful update began with a state file. -/
theorem holdsState_of_update {opts : UpdateOptions} {w w' : H.World} {tr : List Event}
    {report : UpdateReport} (h : H.env.Runs w (self.update opts) tr (.ok report) w') :
    ∃ state, HoldsState self.toml (H.tree w) opts.installPath state := by
  obtain ⟨found, t₁, t₂, w₁, -, hcheck, -⟩ := runs_update_ok h
  obtain ⟨state, hstate, -⟩ := runs_checkUpdates_ok hcheck
  exact ⟨state, hstate⟩

/-- **Over a sequence of updates** no service goes back. -/
theorem kept_of_updates (hround : self.toml.RoundTrips) {w w' : H.World}
    (h : Updates H self p w w') {state final : RelayState}
    (hstate : HoldsState self.toml (H.tree w) p state)
    (hfinal : HoldsState self.toml (H.tree w') p final) :
    List.Forall₂ Kept state.images final.images := by
  induction h generalizing state with
  | none =>
    rw [hstate.unique hfinal]
    exact forall₂_kept_refl _
  | @step opts w w₁ w₂ w₃ tr report hpath hrun hkeeping hsame hrest ih =>
    subst hpath
    -- the state between this update and the next one
    have hbetween : ∃ middle, HoldsState self.toml (H.tree w₂) opts.installPath middle := by
      cases hrest with
      | none => exact ⟨final, hfinal⟩
      | step hpath hrun' =>
        rw [← hpath]
        exact holdsState_of_update hrun'
    obtain ⟨middle, hmiddle⟩ := hbetween
    have hkept := kept_of_update hround hrun hstate (hkeeping state hstate) (hmiddle.congr hsame)
    exact forall₂_kept_trans hkept (ih hmiddle hfinal)

/-- **When an update is no step back**: what check-updates reports of every pin, and what an
update installs for it, is no smaller than the pinned version just when every list of tags that
the registry answered keeps up with its pin; and over updates of which this is true no service
goes back. -/
theorem versions_kept_iff (H : Host) (self : RelayLifecycle) (p : PathBuf)
    (hround : self.toml.RoundTrips) :
    (∀ w w' tr report state, H.env.Runs w (self.checkUpdates p) tr (.ok report) w' →
      HoldsState self.toml (H.tree w) p state →
        (List.Forall₂ (fun pin u => NotOlder pin.tag u.latestTag) state.images report.images ↔
          KeepingUp state tr)) ∧
    (∀ w w' tr opts report state, H.env.Runs w (self.update opts) tr (.ok report) w' →
      opts.installPath = p → HoldsState self.toml (H.tree w) p state →
        (report.changed = true →
          (List.Forall₂ Kept state.images report.newState.images ↔ KeepingUp state tr)) ∧
        ∀ final, HoldsState self.toml (H.tree w') p final →
          final = if report.changed then report.newState else state) ∧
    ∀ w w' state final, Updates H self p w w' → HoldsState self.toml (H.tree w) p state →
      HoldsState self.toml (H.tree w') p final → List.Forall₂ Kept state.images final.images := by
  refine ⟨fun w w' tr report state hrun hstate => ?_, ?_, ?_⟩
  · exact (runs_checkUpdates_answered hrun hstate).notOlder_iff
  · rintro w w' tr opts report state hrun rfl hstate
    refine ⟨fun hchanged => ?_, fun final hfinal => ?_⟩
    · obtain ⟨⟨updates, now, hanswered, himages⟩, -⟩ :=
        runs_update_changed hround hrun hchanged hstate
      rw [himages]
      exact hanswered.kept_iff now
    · cases hchanged : report.changed with
      | true =>
        rw [if_pos rfl]
        exact (runs_update_changed hround hrun hchanged hstate).2 final hfinal
      | false =>
        rw [if_neg Bool.false_ne_true]
        rw [runs_update_unchanged hrun hchanged] at hfinal
        exact hfinal.unique hstate
  · intro w w' state final h hstate hfinal
    exact kept_of_updates hround h hstate hfinal

/-- The sample host with these tags on the registry. -/
def hostListing (tags : List String) : Host :=
  Script.host { Sample.script fun _ _ => none with tags := fun _ => .ok (tags.map String.toList) }

/-- The sample state with a lower version. -/
def olderState : RelayState :=
  Sample.state.applyUpdate [Sample.pin "1.1.9" 'b' Sample.updatedAt] Sample.updatedAt

/-- The sample orchestrator, for these states. -/
def versionedRelay : RelayLifecycle :=
  { Sample.relay with toml := Toml.sample [Sample.state, Sample.newState, olderState] }

theorem versionedRelay_roundTrips : versionedRelay.toml.RoundTrips := by
  refine Toml.roundTrips_ofTable ?_ ?_
  · decide +kernel
  · decide +kernel

theorem holdsState_start (tags : List String) :
    HoldsState versionedRelay.toml ((hostListing tags).tree Sample.start) Sample.path Sample.state := by
  have hfile : Sample.tree.fileAt (place (statePath Sample.path)) =
      some (Utf8.encode (Toml.stateText Sample.state)) := by
    decide +kernel
  refine ⟨_, hfile, ?_⟩
  rw [Utf8.fromUtf8Lossy_encode]
  exact versionedRelay_roundTrips _ _ rfl

/-- A list that goes up from the pinned version of the sample. -/
def higherTags : List String := ["1.1.14", "1.1.10", "latest"]

/-- The events of the update by that list. -/
def higherTrace : List Event :=
  (hostListing higherTags).env.trace Sample.start
    (versionedRelay.update (Sample.updateOptions false))

/-- The sample update goes up to the version that is listed. -/
theorem versions_kept_sample : List.Forall₂ Kept Sample.state.images Sample.newState.images := by
  have hrun : ((hostListing higherTags).env.value Sample.start
        (versionedRelay.update (Sample.updateOptions false))).isSome = true ∧
      tagLists higherTrace = [higherTags.map String.toList] ∧
      ((hostListing higherTags).tree ((hostListing higherTags).env.final Sample.start
        higherTrace)).fileAt (place (statePath Sample.path)) =
          some (Utf8.encode (Toml.stateText Sample.newState)) := by
    decide +kernel
  obtain ⟨report, hreport⟩ := Option.isSome_iff_exists.mp hrun.1
  have hparsed : parseDottedNumeric "1.1.10".toList = some [1, 1, 10] ∧
      parseDottedNumeric "1.1.14".toList = some [1, 1, 14] := by
    decide +kernel
  have hkeeps : KeepsUp "1.1.10".toList (higherTags.map String.toList) := by
    intro parts hparts
    obtain rfl := Option.some.inj (hparsed.1.symm.trans hparts)
    exact .inr ⟨"1.1.14".toList, List.mem_cons_self, [1, 1, 14], hparsed.2, by decide⟩
  have hkeeping : KeepingUp Sample.state higherTrace := by
    unfold KeepingUp
    rw [hrun.2.1]
    exact .cons hkeeps .nil
  refine (versions_kept_iff (hostListing higherTags) versionedRelay Sample.path
    versionedRelay_roundTrips).2.2 Sample.start _ Sample.state Sample.newState
    (.step rfl (Env.runs_value hreport) (fun state hstate => ?_) rfl .none)
    (holdsState_start _) ⟨_, hrun.2.2, ?_⟩
  · obtain rfl := hstate.unique (holdsState_start _)
    exact hkeeping
  · rw [Utf8.fromUtf8Lossy_encode]
    exact versionedRelay_roundTrips _ _ rfl

/-- A list that stops below the pinned version takes the update down. -/
theorem update_goes_back :
    ¬ ∀ (H : Host) (self : RelayLifecycle) (opts : UpdateOptions) (w w' : H.World) (tr : List Event)
      (report : UpdateReport) (state : RelayState), self.toml.RoundTrips →
        H.env.Runs w (self.update opts) tr (.ok report) w' →
        HoldsState self.toml (H.tree w) opts.installPath state → report.changed = true →
          List.Forall₂ Kept state.images report.newState.images := by
  intro h
  have hrun : ((hostListing ["1.1.9", "latest"]).env.value Sample.start
      (versionedRelay.update (Sample.updateOptions false))).map
        (fun report => (report.changed, report.newState)) = some (true, olderState) := by
    decide +kernel
  obtain ⟨report, hreport, heq⟩ := Option.map_eq_some_iff.mp hrun
  obtain ⟨hchanged, hstate⟩ := Prod.mk.inj heq
  have hkept := h (hostListing ["1.1.9", "latest"]) versionedRelay (Sample.updateOptions false)
    Sample.start _ _ report Sample.state versionedRelay_roundTrips (Env.runs_value hreport)
    (holdsState_start _) hchanged
  rw [hstate] at hkept
  have hparsed : parseDottedNumeric "1.1.10".toList = some [1, 1, 10] ∧
      parseDottedNumeric "1.1.9".toList = some [1, 1, 9] := by
    decide +kernel
  cases hkept with
  | cons hkept _ =>
    obtain ⟨parts, hparts, hle⟩ := hkept.tag [1, 1, 10] hparsed.1
    obtain rfl := Option.some.inj (hparsed.2.symm.trans hparts)
    exact absurd hle (by decide)

end RelayLifecycle

end Rustmote
