import Rustmote.RelayLifecycle.Stages

/-!
# The files behind a stage

What a stage of an operation leaves on the host. A write is followed to the action it got to:
`Replaced` says that a run moved a new content into the place of a file, and `runs_install`
splits a run of `install` by the files it has replaced.

* `runs_writeFile`, `runs_writeFile_ok` — what a write leaves, whether it returns or fails.
* `runs_install_ok`, `runs_install` — the two files behind a run of `install`.
-/

namespace Rustmote

open Interaction (Env)
open Interaction.Prog (Always Errors)
open FileTree

namespace Host

open RelayLifecycle

variable {H : Host} {w w' : H.World} {p : PathBuf} {tr : List Event}

/-! ### Names below the install directory -/

/-- A name of the install directory with a scratch file next to it. -/
theorem not_below_scratch (p : PathBuf) {x y : Str} (hx : IsName x) (hy : x ++ Commands.tmpSuffix ≠ y) :
    ¬ Below (scratchPlace (posixJoin p x)) (place p ++ [y]) := by
  rw [scratchPlace_posixJoin p hx]
  exact not_below_of_ne hy []

theorem isName_composeName : IsName composeName := by decide

theorem isName_stateName : IsName stateName := by decide

/-- The two files that are backed up have names. -/
theorem isName_of_backedUp {name : Str} (h : BackedUp name) : IsName name := by
  rcases h with rfl | rfl
  · exact isName_composeName
  · exact isName_stateName

/-- A name in a directory, and what lies next to it, is below what the directory is below. -/
theorem below_posixJoin {d : Path} {base : PathBuf} {x : Str} (hx : IsName x)
    (hbase : Below d (place base)) :
    Below d (place (posixJoin base x)) ∧ Below d (scratchPlace (posixJoin base x)) := by
  rw [place_posixJoin base hx, scratchPlace_posixJoin base hx]
  exact ⟨hbase.trans (List.prefix_append _ _), hbase.trans (List.prefix_append _ _)⟩

theorem compose_not_below_scratch :
    ¬ Below (scratchPlace (composePath p)) (place (composePath p)) := by
  rw [place_composePath]
  exact not_below_scratch p isName_composeName (by decide)

theorem state_not_below_scratch :
    ¬ Below (scratchPlace (statePath p)) (place (statePath p)) := by
  rw [place_statePath]
  exact not_below_scratch p isName_stateName (by decide)

theorem state_not_below_compose :
    ¬ (Below (scratchPlace (composePath p)) (place (statePath p)) ∨
      Below (place (composePath p)) (place (statePath p))) := by
  rw [place_statePath, place_composePath, not_or]
  exact ⟨not_below_scratch p isName_composeName (by decide), not_below_of_ne (by decide) []⟩

theorem compose_not_below_state :
    ¬ (Below (scratchPlace (statePath p)) (place (composePath p)) ∨
      Below (place (statePath p)) (place (composePath p))) := by
  rw [place_statePath, place_composePath, not_or]
  exact ⟨not_below_scratch p isName_stateName (by decide), not_below_of_ne (by decide) []⟩

theorem compose_ne_state : place (composePath p) ≠ place (statePath p) := by
  intro h
  have hbelow := (not_or.mp (state_not_below_compose (p := p))).2
  rw [h] at hbelow
  exact hbelow (List.prefix_refl _)

/-- A name of the install directory that is not `backups` is not below a backup. -/
theorem not_below_backupDir (now : DateTime) {x : Str} (hx : "backups".toList ≠ x) :
    ¬ Below (place (backupDirFor p now)) (place p ++ [x]) := by
  rw [place_backupDirFor]
  exact not_below_of_ne hx _

/-! ### Commands that returned -/

theorem runs_mkdirP_ok {path : PathBuf} {out : ExecOutput}
    (h : H.env.Runs w (execBuilt (Commands.mkdirP path)) tr (.ok out) w') :
    (H.tree w).mkdirs (place path) = some (H.tree w') := by
  obtain ⟨cmd, hcmd, -, hstep⟩ := runs_execBuilt_ok h
  exact hstep.action (actions_mkdirP hcmd)

theorem runs_copyFile_ok {src dst : PathBuf} {out : ExecOutput}
    (h : H.env.Runs w (execBuilt (Commands.copyFile src dst)) tr (.ok out) w') :
    (Action.copy (place src) (place dst)).Done (H.tree w) (H.tree w') := by
  obtain ⟨cmd, hcmd, -, hstep⟩ := runs_execBuilt_ok h
  exact hstep.action (actions_copyFile hcmd)

/-- What is read is the file. -/
theorem runs_readFile_ok {path : PathBuf} {out : ExecOutput}
    (h : H.env.Runs w (readFile path) tr (.ok out) w') :
    (H.tree w).fileAt (place path) = some out.stdout ∧ H.tree w' = H.tree w := by
  obtain ⟨cmd, hcmd, hreply, hstep⟩ := runs_execBuilt_ok h
  obtain ⟨out', hout', hcode⟩ := hstep.zero
  have heq : out' = out := Except.ok.inj (hout'.symm.trans hreply)
  subst heq
  refine ⟨H.printed w cmd _ out' (actions_catFile hcmd) hreply hcode, ?_⟩
  rw [hstep.world]
  exact tree_next_of_reads (p := path) (.cat hcmd)

/-! ### Writing a file -/

/-- The run moves a content into the place of a file. -/
def Replaced (H : Host) (w : H.World) (tr : List Event) (path : PathBuf) (content : Bytes) : Prop :=
  ∃ pre cmd reply post, tr = pre ++ ⟨.exec cmd, reply⟩ :: post ∧
    Commands.writeFile path content = .ok cmd ∧ 2 ≤ H.done (H.env.final w pre) cmd

theorem not_replaced_nil {path : PathBuf} {content : Bytes} : ¬ H.Replaced w [] path content := by
  rintro ⟨pre, cmd, reply, post, h, -, -⟩
  simp at h

theorem replaced_append {t₁ t₂ : List Event} {path : PathBuf} {content : Bytes} :
    H.Replaced w (t₁ ++ t₂) path content ↔
      H.Replaced w t₁ path content ∨ H.Replaced (H.env.final w t₁) t₂ path content := by
  constructor
  · rintro ⟨pre, cmd, reply, post, h, hcmd, hdone⟩
    rcases List.append_eq_append_iff.mp h with ⟨as, hpre, ht₂⟩ | ⟨bs, ht₁, hpost⟩
    · subst hpre
      rw [Env.final_append] at hdone
      exact .inr ⟨as, cmd, reply, post, ht₂, hcmd, hdone⟩
    · cases bs with
      | nil =>
        rw [List.append_nil] at ht₁
        subst ht₁
        exact .inr ⟨[], cmd, reply, post, hpost.symm, hcmd, hdone⟩
      | cons e bs =>
        obtain ⟨rfl, -⟩ := List.cons.inj hpost
        exact .inl ⟨pre, cmd, reply, bs, ht₁, hcmd, hdone⟩
  · rintro (⟨pre, cmd, reply, post, rfl, hcmd, hdone⟩ | ⟨pre, cmd, reply, post, rfl, hcmd, hdone⟩)
    · exact ⟨pre, cmd, reply, post ++ t₂, by simp, hcmd, hdone⟩
    · refine ⟨t₁ ++ pre, cmd, reply, post, by simp, hcmd, ?_⟩
      rwa [Env.final_append]

theorem replaced_single {cmd : Str} {reply : Except TransportError ExecOutput} {path : PathBuf}
    {content : Bytes} :
    H.Replaced w [⟨.exec cmd, reply⟩] path content ↔
      Commands.writeFile path content = .ok cmd ∧ 2 ≤ H.done w cmd := by
  constructor
  · rintro ⟨pre, cmd', reply', post, h, hcmd, hdone⟩
    cases pre with
    | nil =>
      simp only [List.nil_append, List.cons.injEq] at h
      obtain ⟨h, -⟩ := h
      cases h
      exact ⟨hcmd, hdone⟩
    | cons e pre => simp at h
  · rintro ⟨hcmd, hdone⟩
    exact ⟨[], cmd, reply, [], rfl, hcmd, hdone⟩

/-- Commands that do not write the file do not replace it. -/
theorem not_replaced {timed online : Prop} {C : Str → Prop} {path : PathBuf} {content : Bytes}
    (h : ∀ e ∈ tr, Asks timed online C e.request)
    (hC : ∀ cmd, C cmd → Commands.writeFile path content ≠ .ok cmd) :
    ¬ H.Replaced w tr path content := by
  rintro ⟨pre, cmd, reply, post, rfl, hcmd, -⟩
  exact hC cmd (h ⟨.exec cmd, reply⟩ (by simp)) hcmd

theorem reads_ne_writeFile {cmd : Str} (h : Reads p cmd) {path : PathBuf} {content : Bytes} :
    Commands.writeFile path content ≠ .ok cmd := by
  intro hcmd
  obtain ⟨as, has, hstill⟩ := still_of_reads h
  rw [actions_writeFile hcmd, Option.some.injEq] at has
  have := hstill (.decode (Base64.encode content) (scratchPlace path)) (by simp [← has])
  cases this

/-- A command writes one file. -/
theorem place_of_writeFile {cmd : Str} {path path' : PathBuf} {content content' : Bytes}
    (h : Commands.writeFile path content = .ok cmd)
    (h' : Commands.writeFile path' content' = .ok cmd) :
    place path = place path' ∧ content = content' := by
  have hactions := (actions_writeFile h).symm.trans (actions_writeFile h')
  simp only [Option.some.injEq, List.cons.injEq, Action.decode.injEq, Action.chmod.injEq] at hactions
  obtain ⟨⟨hencode, -⟩, -, hplace, -⟩ := hactions
  refine ⟨hplace, Option.some.inj ?_⟩
  rw [← Base64.decode_encode content, hencode, Base64.decode_encode]

theorem saves_ne_writeFile {now : DateTime} {cmd : Str} (h : Saves p now cmd) {x : Str}
    (hx : IsName x) {content : Bytes} : Commands.writeFile (posixJoin p x) content ≠ .ok cmd := by
  intro hcmd
  have hactions := actions_writeFile hcmd
  cases h with
  | mkdir h =>
    rw [actions_mkdirP h] at hactions
    cases hactions
  | copy hname h =>
    rw [actions_copyFile h] at hactions
    cases hactions
  | snapshot h =>
    have hplace := congrArg List.length (place_of_writeFile h hcmd).1
    rw [place_posixJoin _ (by decide), place_backupDirFor, place_posixJoin _ hx] at hplace
    simp at hplace

/-- The files that a write touches. -/
def WriteFrame (path : PathBuf) (q : Path) : Prop :=
  Below (scratchPlace path) q ∨ Below (place path) q

/-- **A write that came back**: either the file has been replaced, or only the scratch file was
touched and there is an error. -/
theorem runs_writeFile {path : PathBuf} {content : Bytes} {r : Except RustmoteError ExecOutput}
    (h : H.env.Runs w (execBuilt (Commands.writeFile path content)) tr r w')
    (hdir : (H.tree w).isDir (place path) = false)
    (hpath : ¬ Below (scratchPlace path) (place path)) :
    ((∃ e, r = .error e) ∧ (∀ path' content', ¬ H.Replaced w tr path' content') ∧
        SameNodes (Below (scratchPlace path)) (H.tree w) (H.tree w')) ∨
      (∃ cmd, Commands.writeFile path content = .ok cmd ∧
        (∀ path' content', H.Replaced w tr path' content' ↔
          Commands.writeFile path' content' = .ok cmd) ∧
        (H.tree w').fileAt (place path) = some content ∧
        SameNodes (WriteFrame path) (H.tree w) (H.tree w')) := by
  rcases runs_execBuilt h with ⟨e, -, hr, rfl, rfl⟩ | ⟨cmd, hcmd, hrun⟩
  · exact .inl ⟨⟨e, hr⟩, fun _ _ => not_replaced_nil, fun _ _ => rfl⟩
  · have hwrite := Carried.write (H.carried w cmd _ (actions_writeFile hcmd)) hdir hpath
    rcases hrun with ⟨out, -, -, hstep⟩ | ⟨e, hr, -, hfail⟩
    · have hdone := (hstep.carried (actions_writeFile hcmd)).2
      have h2 : 2 ≤ H.done w cmd := Nat.le_of_succ_le hdone
      have hw := hstep.world
      subst hw
      obtain ⟨hfile, hframe⟩ := hwrite.2 h2
      refine .inr ⟨cmd, hcmd, fun path' content' => ?_, hfile, hframe⟩
      rw [hstep.trace, replaced_single]
      exact and_iff_left h2
    · have hw := hfail.world
      subst hw
      by_cases h2 : 2 ≤ H.done w cmd
      · obtain ⟨hfile, hframe⟩ := hwrite.2 h2
        refine .inr ⟨cmd, hcmd, fun path' content' => ?_, hfile, hframe⟩
        rw [hfail.trace, replaced_single]
        exact and_iff_left h2
      · refine .inl ⟨⟨e, hr⟩, fun path' content' => ?_, hwrite.1 (by omega)⟩
        rw [hfail.trace, replaced_single]
        exact fun hrep => h2 hrep.2

/-- A file has a new content; a directory in its place is still one. -/
structure Overwritten (t t' : FileTree) (q : Path) (content : Bytes) : Prop where
  /-- A directory is still one. -/
  dir : t.isDir q = true → t'.isDir q = true
  /-- Anything else is the file. -/
  file : t.isDir q = false → t'.fileAt q = some content

/-- The change outlasts one that does not touch the place. -/
theorem Overwritten.frame {t t₁ t' : FileTree} {q : Path} {content : Bytes}
    (h : Overwritten t t₁ q content) (hq : t'.node q = t₁.node q) : Overwritten t t' q content := by
  refine ⟨fun hd => ?_, fun hd => ?_⟩
  · rw [isDir, hq]
    exact h.dir hd
  · rw [fileAt_congr hq]
    exact h.file hd

/-- It may come behind a change that does not touch the place. -/
theorem Overwritten.after {t t₁ t' : FileTree} {q : Path} {content : Bytes}
    (h : Overwritten t₁ t' q content) (hq : t₁.node q = t.node q) : Overwritten t t' q content := by
  have hdir : t₁.isDir q = t.isDir q := by rw [isDir, isDir, hq]
  exact ⟨fun hd => h.dir (hdir.trans hd), fun hd => h.file (hdir.trans hd)⟩

/-- A file stays a file. -/
theorem Overwritten.isFile {t t' : FileTree} {q : Path} {content : Bytes}
    (h : Overwritten t t' q content) (hq : t.isFile q = true) : t'.isFile q = true := by
  obtain ⟨b, hb⟩ := isFile_iff.mp hq
  exact isFile_iff.mpr ⟨content, h.file (not_isDir_of_fileAt hb)⟩

/-- The files that a write touches when it comes to its end. -/
def FileFrame (path : PathBuf) (q : Path) : Prop := q = scratchPlace path ∨ Below (place path) q

theorem runs_writeFile_ok {path : PathBuf} {content : Bytes} {out : ExecOutput}
    (h : H.env.Runs w (execBuilt (Commands.writeFile path content)) tr (.ok out) w')
    (hpath : ¬ Below (scratchPlace path) (place path)) :
    Overwritten (H.tree w) (H.tree w') (place path) content ∧
      SameNodes (WriteFrame path) (H.tree w) (H.tree w') ∧
      SameFiles (FileFrame path) (H.tree w) (H.tree w') := by
  obtain ⟨cmd, hcmd, -, hstep⟩ := runs_execBuilt_ok h
  obtain ⟨hcarried, hlen⟩ := hstep.carried (actions_writeFile hcmd)
  have hdone : 2 ≤ H.done w cmd := Nat.le_of_succ_le hlen
  have hframe := Carried.write_frame hcarried
  refine ⟨⟨fun hd => Carried.write_dir hcarried hd hpath, fun hd => ?_⟩, hframe, fun q hq => ?_⟩
  · exact ((Carried.write hcarried hd hpath).2 hdone).1
  · rw [FileFrame, not_or] at hq
    obtain ⟨hscratch, hscratch'⟩ := Carried.write_scratch hcarried hdone
    by_cases hbelow : Below (scratchPlace path) q
    · rw [fileAt_below hscratch hbelow hq.1, fileAt_below hscratch' hbelow hq.1]
    · exact fileAt_congr (hframe q (not_or.mpr ⟨hbelow, hq.2⟩))

theorem runs_compose_ok {arguments : Str} {out : ExecOutput}
    (hreads : ∀ cmd, Commands.compose arguments p = .ok cmd → Reads p cmd)
    (h : H.env.Runs w (execBuilt (Commands.compose arguments p)) tr (.ok out) w') :
    H.tree w' = H.tree w := by
  obtain ⟨cmd, hcmd, -, hstep⟩ := runs_execBuilt_ok h
  rw [hstep.world]
  exact tree_next_of_reads (hreads cmd hcmd)

/-! ### Installing -/

variable {self : RelayLifecycle}

/-- **What `install` leaves when it returns.** -/
theorem runs_install_ok {newState : RelayState} {newCompose : Str}
    (h : H.env.Runs w (self.install p newState newCompose) tr (.ok ()) w') :
    ∃ text, newState.toTomlString self.toml = .ok text ∧
      Overwritten (H.tree w) (H.tree w') (place (composePath p)) (Utf8.encode newCompose) ∧
      Overwritten (H.tree w) (H.tree w') (place (statePath p)) (Utf8.encode text) ∧
      SameNodes (fun q => WriteFrame (composePath p) q ∨ WriteFrame (statePath p) q)
        (H.tree w) (H.tree w') ∧
      SameFiles (fun q => FileFrame (composePath p) q ∨ FileFrame (statePath p) q)
        (H.tree w) (H.tree w') := by
  unfold install at h
  obtain ⟨_, t₁, _, w₁, -, hcompose, h₁⟩ := Env.runs_bind_ok h
  obtain ⟨text, t₂, _, w₂, -, hlift, h₂⟩ := Env.runs_bind_ok h₁
  obtain ⟨-, htext, rfl⟩ := Env.runs_lift_ok hlift
  obtain ⟨_, t₃, _, w₃, -, hstate, h₃⟩ := Env.runs_bind_ok h₂
  obtain ⟨_, t₄, _, w₄, -, hpull, h₄⟩ := Env.runs_bind_ok h₃
  obtain ⟨_, t₅, _, w₅, -, hup, h₅⟩ := Env.runs_bind_ok h₄
  obtain ⟨-, -, rfl⟩ := Env.runs_ret_iff.mp h₅
  have htree : H.tree w' = H.tree w₃ :=
    (runs_compose_ok (fun _ => .composeUp) hup).trans (runs_compose_ok (fun _ => .composePull) hpull)
  obtain ⟨hover₁, hframe₁, hfiles₁⟩ := runs_writeFile_ok hcompose compose_not_below_scratch
  obtain ⟨hover₂, hframe₂, hfiles₂⟩ := runs_writeFile_ok hstate state_not_below_scratch
  rw [htree]
  refine ⟨text, htext, ?_, ?_, fun q hq => ?_, fun q hq => ?_⟩
  · exact hover₁.frame (hframe₂ _ compose_not_below_state)
  · exact hover₂.after (hframe₁ _ state_not_below_compose)
  · rw [not_or] at hq
    rw [hframe₂ q hq.2, hframe₁ q hq.1]
  · rw [not_or] at hq
    rw [hfiles₂ q hq.2, hfiles₁ q hq.1]

/-- How far a run of `install` got with the two files. -/
inductive InstallOutcome (H : Host) (toml : Toml) (p : PathBuf) (newState : RelayState)
    (newCompose : Str) (w w' : H.World) (tr : List Event) (r : Except RustmoteError Unit) : Prop where
  /-- Neither file has been replaced. -/
  | neither {e : RustmoteError} (hr : r = .error e)
      (hreplaced : ∀ path content, ¬ H.Replaced w tr path content)
      (hcompose : (H.tree w').fileAt (place (composePath p)) =
        (H.tree w).fileAt (place (composePath p)))
      (hstate : (H.tree w').fileAt (place (statePath p)) = (H.tree w).fileAt (place (statePath p)))
  /-- Only the compose file has been replaced. -/
  | compose {e : RustmoteError} (hr : r = .error e)
      (hreplaced : ∀ content, H.Replaced w tr (composePath p) content ↔
        content = Utf8.encode newCompose)
      (hnot : ∀ content, ¬ H.Replaced w tr (statePath p) content)
      (hcompose : (H.tree w').fileAt (place (composePath p)) = some (Utf8.encode newCompose))
      (hstate : (H.tree w').fileAt (place (statePath p)) = (H.tree w).fileAt (place (statePath p)))
  /-- Both files have been replaced. -/
  | both {text : Str} (htext : newState.toTomlString toml = .ok text)
      (hreplaced : H.Replaced w tr (statePath p) (Utf8.encode text))
      (hcompose : (H.tree w').fileAt (place (composePath p)) = some (Utf8.encode newCompose))
      (hstate : (H.tree w').fileAt (place (statePath p)) = some (Utf8.encode text))

/-- The second half of `install`: the state file is replaced, or only its scratch file is
touched and there is an error. -/
theorem runs_install_state {newState : RelayState} {r : Except RustmoteError Unit}
    (h : H.env.Runs w (do
      let text ← newState.toTomlString self.toml
      let _ ← execBuilt (Commands.writeFile (statePath p) (Utf8.encode text))
      let _ ← execBuilt (Commands.composePull p)
      let _ ← execBuilt (Commands.composeUp p)
      return : Relay Unit) tr r w') (hdir : (H.tree w).isDir (place (statePath p)) = false) :
    ((∃ e, r = .error e) ∧ (∀ path content, ¬ H.Replaced w tr path content) ∧
        SameNodes (Below (scratchPlace (statePath p))) (H.tree w) (H.tree w')) ∨
      ∃ text, newState.toTomlString self.toml = .ok text ∧
        H.Replaced w tr (statePath p) (Utf8.encode text) ∧
        (H.tree w').fileAt (place (statePath p)) = some (Utf8.encode text) ∧
        SameNodes (WriteFrame (statePath p)) (H.tree w) (H.tree w') := by
  rcases Env.runs_bind_iff.mp h with ⟨e, hr, hlift⟩ | ⟨text, t₁, t₂, w₁, htr, hlift, h₁⟩
  · obtain ⟨rfl, -, rfl⟩ := Env.runs_ofExcept_iff.mp hlift
    exact .inl ⟨⟨e, hr⟩, fun _ _ => not_replaced_nil, fun _ _ => rfl⟩
  obtain ⟨rfl, htext, rfl⟩ := Env.runs_lift_ok hlift
  rw [List.nil_append] at htr
  subst htr
  rcases Env.runs_bind_iff.mp h₁ with ⟨e, hr, hwrite⟩ | ⟨out, t₃, t₄, w₂, htr, hwrite, h₂⟩
  · rcases runs_writeFile hwrite hdir state_not_below_scratch with
      ⟨-, hnot, hframe⟩ | ⟨cmd, hcmd, hreplaced, hfile, hframe⟩
    · exact .inl ⟨⟨e, hr⟩, hnot, hframe⟩
    · exact .inr ⟨text, htext, (hreplaced _ _).mpr hcmd, hfile, hframe⟩
  · rcases runs_writeFile hwrite hdir state_not_below_scratch with
      ⟨⟨e, he⟩, -, -⟩ | ⟨cmd, hcmd, hreplaced, hfile, hframe⟩
    · cases he
    · have htree : H.tree w' = H.tree w₂ := by
        refine runs_tree (p := p) (Q := fun _ => True) h₂ ?_
        refine (always_execBuilt fun _ h => .composePull h).bind fun _ _ => ?_
        exact (always_execBuilt fun _ h => .composeUp h).bind fun _ _ => .ret trivial
      rw [htr, htree]
      exact .inr ⟨text, htext, replaced_append.mpr (.inl ((hreplaced _ _).mpr hcmd)), hfile, hframe⟩

/-- **How far `install` gets.** -/
theorem runs_install {newState : RelayState} {newCompose : Str} {r : Except RustmoteError Unit}
    (h : H.env.Runs w (self.install p newState newCompose) tr r w')
    (hdir : (H.tree w).isDir (place (composePath p)) = false)
    (hdir' : (H.tree w).isDir (place (statePath p)) = false) :
    InstallOutcome H self.toml p newState newCompose w w' tr r := by
  unfold install at h
  rcases Env.runs_bind_iff.mp h with ⟨e, hr, hwrite⟩ | ⟨out, t₁, t₂, w₁, rfl, hwrite, h₁⟩
  · rcases runs_writeFile hwrite hdir compose_not_below_scratch with
      ⟨-, hnot, hframe⟩ | ⟨cmd, hcmd, hreplaced, hfile, hframe⟩
    · exact .neither hr hnot (fileAt_congr (hframe _ compose_not_below_scratch))
        (fileAt_congr (hframe _ (not_or.mp state_not_below_compose).1))
    · refine .compose hr (fun content => ?_) (fun content hrep => ?_) hfile
        (fileAt_congr (hframe _ state_not_below_compose))
      · rw [hreplaced]
        constructor
        · exact fun h' => (place_of_writeFile h' hcmd).2
        · rintro rfl
          exact hcmd
      · exact compose_ne_state (place_of_writeFile hcmd ((hreplaced _ _).mp hrep)).1
  · rcases runs_writeFile hwrite hdir compose_not_below_scratch with
      ⟨⟨e, he⟩, -, -⟩ | ⟨cmd, hcmd, hreplaced, hfile, hframe⟩
    · cases he
    have hw₁ : w₁ = H.env.final w t₁ := hwrite.2.2.symm
    have hdir₁ : (H.tree w₁).isDir (place (statePath p)) = false := by
      rw [isDir, hframe _ state_not_below_compose]
      exact hdir'
    rcases runs_install_state h₁ hdir₁ with
      ⟨⟨e, hr⟩, hnot, hframe'⟩ | ⟨text, htext, hrep, hstate, hframe'⟩
    · refine .compose hr (fun content => ?_) (fun content hrep => ?_) ?_ ?_
      · rw [replaced_append, hreplaced, ← hw₁, or_iff_left (hnot _ _)]
        constructor
        · exact fun h' => (place_of_writeFile h' hcmd).2
        · rintro rfl
          exact hcmd
      · rw [replaced_append, hreplaced, ← hw₁, or_iff_left (hnot _ _)] at hrep
        exact compose_ne_state (place_of_writeFile hcmd hrep).1
      · rw [fileAt_congr (hframe' _ (not_or.mp compose_not_below_state).1)]
        exact hfile
      · rw [fileAt_congr (hframe' _ state_not_below_scratch),
          fileAt_congr (hframe _ state_not_below_compose)]
    · refine .both htext (replaced_append.mpr (.inr (hw₁ ▸ hrep))) ?_ hstate
      rw [fileAt_congr (hframe' _ compose_not_below_state)]
      exact hfile

end Host

end Rustmote
