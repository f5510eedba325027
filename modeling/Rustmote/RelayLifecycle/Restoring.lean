import Rustmote.RelayLifecycle.Returning
import Rustmote.RelayLifecycle.Rollback
import Rustmote.RelayLifecycle.Working

/-!
# Rolling back

What an update with a backup leaves when its health check fails and everything else works:
`update_rolls_back`. Both files are as they were, and only the backup and the scratch files of the
two writes are new.

* `runs_update_checks` — a confirmed update with something to pin gets to its health check.
* `StartedAgain` — the relay was started, checked, and started again on the restored files.
-/

namespace Rustmote

open Interaction (Env)
open Interaction.Prog (Always Errors)
open FileTree Host

namespace RelayLifecycle

variable {H : Host} {w w' : H.World} {tr : List Event} {self : RelayLifecycle}
  {opts : UpdateOptions} {p : PathBuf}

/-! ### The first check -/

/-- The first health check of a run. -/
def firstCheck (tr : List Event) : List Event :=
  (tr.dropWhile fun e => e.request ≠ .instant).takeWhile fun e => polls relayPorts e.request

/-- Both ports answered in a round. -/
def SomeRoundUp (a b : Nat) (tr : List Event) : Prop :=
  ∃ pre e₁ e₂ post, tr = pre ++ e₁ :: e₂ :: post ∧ Answers a e₁ ∧ Answers b e₂

theorem someRoundUp_of_endsUp {a b : Nat} {tr : List Event} (h : EndsUp a b tr)
    (post : List Event) : SomeRoundUp a b (tr ++ post) := by
  obtain ⟨pre, e₁, e₂, rfl, h₁, h₂⟩ := h
  exact ⟨pre, e₁, e₂, post, by simp, h₁, h₂⟩

/-- A check behind events that ask for no time is the first one. -/
theorem firstCheck_append {t th : List Event} (rest : List Event) {x : Nat}
    (ht : ∀ e ∈ t, e.request ≠ .instant) (hth : ∃ later, th = ⟨.instant, x⟩ :: later)
    (hpolls : ∀ e ∈ th, polls relayPorts e.request = true) :
    firstCheck (t ++ (th ++ rest)) =
      th ++ rest.takeWhile fun e => polls relayPorts e.request := by
  obtain ⟨later, rfl⟩ := hth
  have hdrop : (t ++ (⟨.instant, x⟩ :: later ++ rest)).dropWhile (fun e => e.request ≠ .instant) =
      ⟨.instant, x⟩ :: later ++ rest := by
    rw [List.dropWhile_append_of_pos fun e he => by simpa using ht e he]
    simp
  rw [firstCheck, hdrop, List.takeWhile_append_of_pos hpolls]

/-- It ends at the first command that is no probe. -/
theorem prefix_takeWhile_polls {e : Event} (he : polls relayPorts e.request = false)
    (t rest : List Event) :
    ((t ++ e :: rest).takeWhile fun e => polls relayPorts e.request) <+: t := by
  induction t with
  | nil =>
    rw [List.nil_append, List.takeWhile_cons_of_neg (by simp [he])]
  | cons d t ih =>
    rw [List.cons_append, List.takeWhile_cons]
    by_cases hd : polls relayPorts d.request = true
    · rw [if_pos hd]
      exact (List.prefix_cons_inj d).mpr ih
    · rw [if_neg hd]
      exact List.nil_prefix

/-- Where a command was issued last. -/
theorem last_issued {a b a' b' : List Event} {e e' : Event} {q : Request}
    (h : a ++ e :: b = a' ++ e' :: b') (he : e.request = q) (he' : e'.request = q)
    (hb : ∀ x ∈ b, x.request ≠ q) (hb' : ∀ x ∈ b', x.request ≠ q) : a = a' := by
  rcases List.append_eq_append_iff.mp h with ⟨c, rfl, hc⟩ | ⟨c, rfl, hc⟩
  · cases c with
    | nil => exact (List.append_nil a).symm
    | cons d c =>
      obtain ⟨-, rfl⟩ := List.cons.inj hc
      exact absurd he' (hb e' (by simp))
  · cases c with
    | nil => exact List.append_nil a'
    | cons d c =>
      obtain ⟨-, rfl⟩ := List.cons.inj hc
      exact absurd he (hb' e (by simp))

/-! ### What is left -/

/-- The update left the install as it was. -/
structure Restored (H : Host) (p : PathBuf) (w w' : H.World) (tr : List Event) : Prop where
  /-- Both files are what they were. -/
  install : SameInstall p (H.tree w) (H.tree w')
  /-- They were when the relay was started last. -/
  started : ∀ a cmd reply b, tr = a ++ ⟨.exec cmd, reply⟩ :: b → Commands.composeUp p = .ok cmd →
    (∀ e ∈ b, e.request ≠ .exec cmd) → SameInstall p (H.tree w) (H.tree (H.env.final w a))
  /-- Only the backup of the present time and the scratch files are new. -/
  frame : SameFiles (fun q => (∃ now, Shown tr now ∧ Below (place (backupDirFor p now)) q) ∨
    q = scratchPlace (composePath p) ∨ q = scratchPlace (statePath p)) (H.tree w) (H.tree w')

/-- The relay was started, it was checked, and then it was started again on the files of before. -/
def StartedAgain (H : Host) (p : PathBuf) (w : H.World) (tr : List Event) : Prop :=
  ∃ a c b cmd out out', tr = a ++ ⟨.exec cmd, .ok out⟩ :: (c ++ ⟨.exec cmd, .ok out'⟩ :: b) ∧
    Commands.composeUp p = .ok cmd ∧ out.exitCode = 0 ∧ out'.exitCode = 0 ∧
    firstCheck tr ≠ [] ∧ firstCheck tr <+: c ∧
    SameInstall p (H.tree w) (H.tree (H.env.final w (a ++ ⟨.exec cmd, .ok out⟩ :: c))) ∧
    ∀ e ∈ b, e.request ≠ .exec cmd

/-- An update that did not get to the install leaves it as it was. -/
theorem restored_before (h : ∀ e ∈ tr, Asks False True (Before p (Shown tr)) e.request) :
    Restored H p w (H.env.final w tr) tr where
  install := sameInstall_before h
  started a cmd reply b htr _ _ :=
    sameInstall_before fun e he => h e (by rw [htr]; exact List.mem_append_left _ he)
  frame := (sameFiles_before h).mono fun _ => .inl

/-- What is below one of the two files is no file. -/
theorem sameFiles_of_sameInstall {R : Path → Prop} {t t' : FileTree} (h : SameInstall p t t')
    (hcompose : t.isFile (place (composePath p)) = true)
    (hstate : t.isFile (place (statePath p)) = true)
    (hframe : SameFiles (fun q => R q ∨ Below (place (composePath p)) q ∨
      Below (place (statePath p)) q) t t') : SameFiles R t t' := by
  have hbelow : ∀ {x q : Path}, t.isFile x = true → t'.fileAt x = t.fileAt x → Below x q →
      t'.fileAt q = t.fileAt q := by
    intro x q hx hsame hq
    obtain ⟨b, hb⟩ := isFile_iff.mp hx
    by_cases hne : q = x
    · rw [hne, hsame]
    · rw [fileAt_below (not_isDir_of_fileAt hb) hq hne,
        fileAt_below (not_isDir_of_fileAt (hsame.trans hb)) hq hne]
  intro q hq
  by_cases hcomposeBelow : Below (place (composePath p)) q
  · exact hbelow hcompose h.compose hcomposeBelow
  · by_cases hstateBelow : Below (place (statePath p)) q
    · exact hbelow hstate h.state hstateBelow
    · apply hframe q
      rintro (hR | hbad | hbad)
      · exact hq hR
      · exact hcomposeBelow hbad
      · exact hstateBelow hbad

/-- `install` asks for no time. -/
theorem always_install_untimed {G : Event → Prop} (newState : RelayState) (newCompose : Str) :
    Always G (Asks False True fun _ => True) (self.install p newState newCompose) fun _ => True := by
  unfold install
  refine (always_execBuilt fun _ _ => trivial).bind fun _ _ => Always.lift fun text _ => ?_
  refine (always_execBuilt fun _ _ => trivial).bind fun _ _ => ?_
  refine (always_execBuilt fun _ _ => trivial).bind fun _ _ => ?_
  exact (always_execBuilt fun _ _ => trivial).bind fun _ _ => .ret trivial

/-- Up to the end of an installation the monotonic clock is not read. -/
theorem ne_instant_of_install {C : Str → Prop} {t₁ t₂ : List Event} {w₁ w₂ : H.World}
    {newState : RelayState} {newCompose : Str} {r : Except RustmoteError Unit}
    (hbefore : ∀ e ∈ t₁, Asks False True C e.request)
    (hinstall : H.env.Runs w₁ (self.install p newState newCompose) t₂ r w₂) :
    ∀ e ∈ t₁ ++ t₂, e.request ≠ .instant := by
  have huntimed : ∀ e ∈ t₂, Asks False True (fun _ => True) e.request :=
    hinstall.requests (always_install_untimed newState newCompose)
  exact List.forall_mem_append.mpr ⟨fun e he => Asks.ne_instant (hbefore e he),
    fun e he => Asks.ne_instant (huntimed e he)⟩

/-- What an update that copied its backup back leaves alone. -/
theorem sameFiles_of_copiedBack {t₁ t₂ : List Event} {w₁ w₂ : H.World} {t' : FileTree}
    {dir : PathBuf} {newState : RelayState} {newCompose : Str}
    (hbefore : ∀ e ∈ t₁, Asks False True (Before p (Shown t₁)) e.request)
    (hfinal : H.env.final w t₁ = w₁)
    (hinstall : H.env.Runs w₁ (self.install p newState newCompose) t₂ (.ok ()) w₂)
    (hcopied : CopiedBack p dir (H.tree w₂) t') :
    SameFiles (fun q => ((∃ now, Shown t₁ now ∧ Below (place (backupDirFor p now)) q) ∨
      q = scratchPlace (composePath p) ∨ q = scratchPlace (statePath p)) ∨
        Below (place (composePath p)) q ∨ Below (place (statePath p)) q) (H.tree w) t' := by
  have hfirst := sameFiles_before (H := H) (w := w) hbefore
  rw [hfinal] at hfirst
  obtain ⟨-, -, -, -, -, hfiles⟩ := runs_install_ok hinstall
  refine (hfirst.mono fun q hq => .inl (.inl hq)).trans ((hfiles.mono fun q hq => ?_).trans
    (hcopied.sameFiles.mono fun q => .inr))
  rcases hq with (hq | hq) | (hq | hq)
  · exact .inl (.inr (.inl hq))
  · exact .inr (.inl hq)
  · exact .inl (.inr (.inr hq))
  · exact .inr (.inr hq)

/-- An installation ends with the start of the relay. -/
theorem runs_install_up {newState : RelayState} {newCompose : Str}
    (h : H.env.Runs w (self.install p newState newCompose) tr (.ok ()) w') :
    ∃ a cmd out, tr = a ++ [⟨.exec cmd, .ok out⟩] ∧ Commands.composeUp p = .ok cmd ∧
      out.exitCode = 0 := by
  unfold install at h
  obtain ⟨_, t₁, _, w₁, rfl, -, h₁⟩ := Env.runs_bind_ok h
  obtain ⟨_, t₂, _, w₂, rfl, -, h₂⟩ := Env.runs_bind_ok h₁
  obtain ⟨_, t₃, _, w₃, rfl, -, h₃⟩ := Env.runs_bind_ok h₂
  obtain ⟨_, t₄, _, w₄, rfl, -, h₄⟩ := Env.runs_bind_ok h₃
  obtain ⟨out, t₅, _, w₅, rfl, hup, h₅⟩ := Env.runs_bind_ok h₄
  obtain ⟨rfl, -, -⟩ := Env.runs_ret_iff.mp h₅
  obtain ⟨cmd, hcmd, hreply, hstep⟩ := runs_execBuilt_ok hup
  obtain ⟨out', hout', hcode⟩ := hstep.zero
  obtain rfl := Except.ok.inj (hout'.symm.trans hreply)
  have htrace := hstep.trace
  rw [hreply] at htrace
  exact ⟨t₁ ++ (t₂ ++ (t₃ ++ t₄)), cmd, out', by simp [htrace], hcmd, hcode⟩

/-- A rollback behind an installation and its check starts the relay again. -/
theorem startedAgain_of_rollback {t₁ t₂ th t₃ t₄ : List Event} {w₁ w₂ w₃ : H.World} {cmd : Str}
    {out : ExecOutput} {newState : RelayState} {newCompose : Str} {e : RustmoteError}
    (huntimed : ∀ e ∈ t₁ ++ t₂, e.request ≠ .instant)
    (hinstall : H.env.Runs w₁ (self.install p newState newCompose) t₂ (.ok ()) w₂)
    (hcheck : H.env.Runs w₂ (self.healthCheck relayPorts) th (.error e) w₃)
    (hcmd : Commands.composeUp p = .ok cmd) (hcode : out.exitCode = 0)
    (hsame : SameInstall p (H.tree w) (H.tree (H.env.final w (t₁ ++ (t₂ ++ (th ++ t₃))))))
    (hlast : ∀ e ∈ t₄, e.request ≠ .exec cmd) :
    StartedAgain H p w (t₁ ++ (t₂ ++ (th ++ (t₃ ++ ⟨.exec cmd, .ok out⟩ :: t₄)))) := by
  obtain ⟨⟨x, later, hth⟩, -⟩ := runs_healthCheck hcheck
  have hfirst := firstCheck_append (t₃ ++ ⟨.exec cmd, .ok out⟩ :: t₄) huntimed ⟨later, hth⟩
    (hcheck.requests (always_polls _))
  rw [List.append_assoc] at hfirst
  have hwithin := (List.prefix_append_right_inj th).mpr
    (prefix_takeWhile_polls (e := ⟨.exec cmd, .ok out⟩) (not_polls_composeUp hcmd) t₃ t₄)
  rw [← hfirst] at hwithin
  have hchecked : firstCheck (t₁ ++ (t₂ ++ (th ++ (t₃ ++ ⟨.exec cmd, .ok out⟩ :: t₄)))) ≠ [] := by
    rw [hfirst, hth]
    exact List.cons_ne_nil _ _
  -- the first start is the end of the install
  obtain ⟨a, cmd', out', rfl, hcmd', hcode'⟩ := runs_install_up hinstall
  obtain rfl : cmd = cmd' := Except.ok.inj (hcmd.symm.trans hcmd')
  refine ⟨t₁ ++ a, th ++ t₃, t₄, cmd, out', out, by simp, hcmd, hcode', hcode, hchecked, hwithin,
    ?_, hlast⟩
  rw [show (t₁ ++ a) ++ ⟨.exec cmd, .ok out'⟩ :: (th ++ t₃) =
    t₁ ++ ((a ++ [⟨.exec cmd, .ok out'⟩]) ++ (th ++ t₃)) by simp]
  exact hsame

/-- An update that goes on with a backup, on a host where everything but the probes works. -/
theorem restored_of_prepared {t₁ t₂ : List Event} {w₁ : H.World} {s : Str}
    {report : CheckUpdatesReport} {now : DateTime} {backupDir : Option PathBuf}
    {newState : RelayState} {newCompose : Str} {r : Except RustmoteError UpdateReport}
    (htoml : self.toml.Total) (hskip : opts.skipBackup = false)
    (hpath : Commands.validateRemotePath opts.installPath = .ok s)
    (hcompose : (H.tree w).isFile (place (composePath opts.installPath)) = true)
    (hstate : (H.tree w).isFile (place (statePath opts.installPath)) = true)
    (hfinal : H.env.final w t₁ = w₁)
    (hbefore : ∀ e ∈ t₁, Asks False True (Before opts.installPath (Shown t₁)) e.request)
    (hprepared : Prepared H self opts w w₁ report now backupDir newState newCompose)
    (hrun : H.env.Runs w₁ (do
      self.install opts.installPath newState newCompose
      self.conclude opts now backupDir newState) t₂ r w')
    (hworks : ∀ e ∈ t₁ ++ t₂, Works e)
    (hdown : ¬ SomeRoundUp hbbsPort hbbrPort (firstCheck (t₁ ++ t₂))) :
    (∃ e, r = .error e) ∧ Restored H opts.installPath w w' (t₁ ++ t₂) ∧
      StartedAgain H opts.installPath w (t₁ ++ t₂) := by
  have hworks₂ : ∀ e ∈ t₂, Works e := fun e he => hworks e (List.mem_append_right _ he)
  obtain ⟨u, t₃, t₄, w₂, rfl, hinstall, hconclude⟩ := Env.runs_bind_of_errors hrun
    (errors_install_of_working working_works htoml hpath newState newCompose) hworks₂
    fun e _ => not_false
  have hbackup := hprepared.backup
  rw [if_neg (by simp [hskip])] at hbackup
  obtain ⟨hdir, hin⟩ := hbackup
  have huntimed := ne_instant_of_install hbefore hinstall
  cases runs_conclude hconclude with
  | @healthy _ th tg w₃ x hcheck =>
    obtain ⟨⟨t, later, hth⟩, hseen⟩ := runs_healthCheck hcheck
    rw [← List.append_assoc, firstCheck_append tg huntimed ⟨later, hth⟩
      (hcheck.requests (always_polls _))] at hdown
    rcases hseen with ⟨-, hup⟩ | ⟨⟨e, he⟩, -⟩
    · exact absurd (someRoundUp_of_endsUp hup _) hdown
    · cases he
  | unhealthy => cases hdir
  | @rolledBack _ e' th tb w₃ x hcheck hback hr =>
  obtain rfl := Option.some.inj hdir
  have hcopy : ∀ name, BackedUp name → Errors Works (fun _ => False) (execBuilt
      (Commands.copyFile (posixJoin (backupDirFor opts.installPath now) name)
        (posixJoin opts.installPath name))) := by
    intro name hname
    obtain ⟨cmd, hcmd⟩ := hin.accepted name hname
    obtain ⟨cmd', hcmd'⟩ := Commands.copyFile_swap hcmd
    exact errors_execBuilt_of_clean hcmd' fun _ => working_works.copy hcmd'
  obtain ⟨t₅, t₆, cmd, out, w₄, rfl, hcmd, hcode, hw₄, hcopied, htree, hsecond⟩ :=
    runs_rollback hback hcopy (errors_composeUp_of_working working_works hpath)
      (fun e he => hworks₂ e (by simp [he])) fun _ _ => not_false
  have htree₃ : H.tree w₃ = H.tree w₂ :=
    runs_tree hcheck (always_healthCheck (p := opts.installPath) _)
  rw [htree₃] at hcopied
  have hsame := restored_of_copiedBack hbefore hfinal hin hinstall hcopied
  have hpolls : ∀ e ∈ t₆, e.request ≠ .exec cmd := by
    intro e he heq
    have hpoll := hsecond.requests (always_polls _) e he
    rw [heq, not_polls_composeUp hcmd] at hpoll
    cases hpoll
  have hw : H.env.final w (t₁ ++ (t₃ ++ (th ++ t₅))) = w₄ := by
    rw [Env.final_append, hfinal, Env.final_append, hinstall.2.2, Env.final_append,
      hcheck.2.2, hw₄]
  refine ⟨?_, ⟨?_, ?_, ?_⟩, ?_⟩
  · rcases hr with ⟨-, hr⟩ | ⟨e, -, hr⟩
    · exact ⟨_, hr⟩
    · exact ⟨e, hr⟩
  · rw [htree]
    exact hsame
  · intro a cmd' reply b htr hcmd' hb
    obtain rfl : cmd = cmd' := Except.ok.inj (hcmd.symm.trans hcmd')
    have hshape : t₁ ++ (t₃ ++ (th ++ (t₅ ++ ⟨.exec cmd, .ok out⟩ :: t₆))) =
        (t₁ ++ (t₃ ++ (th ++ t₅))) ++ ⟨.exec cmd, .ok out⟩ :: t₆ := by simp
    rw [hshape] at htr
    rw [← last_issued htr rfl rfl hpolls hb, hw]
    exact hsame
  · rw [htree]
    refine sameFiles_of_sameInstall hsame hcompose hstate ?_
    refine (sameFiles_of_copiedBack hbefore hfinal hinstall hcopied).mono fun q hq => ?_
    rcases hq with (⟨now', hnow', hbelow⟩ | hq) | hq
    · exact .inl (.inl ⟨now', List.mem_append_left _ hnow', hbelow⟩)
    · exact .inl (.inr hq)
    · exact .inr hq
  · exact startedAgain_of_rollback huntimed hinstall hcheck hcmd hcode (hw ▸ hsame) hpolls

/-! ### Getting to the check -/

/-- **A preparation with valid pins** does not fail while every command works. -/
theorem runs_prepare_of_works {s : Str} {found : CheckUpdatesReport} {now : DateTime}
    {state : RelayState} {r : Except RustmoteError (RelayState × Str)}
    (hpath : Commands.validateRemotePath opts.installPath = .ok s)
    (hstate : HoldsState self.toml (H.tree w) opts.installPath state)
    (hpins : ∀ u ∈ found.images, Commands.ValidRef u.repo u.latestTag u.latestDigest)
    (h : H.env.Runs w (self.prepare opts found now) tr r w') (hworks : ∀ e ∈ tr, Works e) :
    ∃ x, r = .ok x := by
  have hrender : ∃ text, renderComposeWithPins opts.composeTemplate
      (found.images.map (ImageUpdate.newPin now)) = .ok text :=
    ⟨_, renderComposeWithPins_eq_ok_iff.mpr ⟨List.forall_mem_map.mpr hpins, rfl⟩⟩
  obtain ⟨text, htext⟩ := hrender
  unfold prepare at h
  rcases Env.runs_bind_iff.mp h with ⟨e, -, hload⟩ | ⟨state', t₁, t₂, w₁, rfl, hload, h₁⟩
  · cases runs_loadState_of_works hpath hstate hload hworks
  · rw [htext] at h₁
    obtain ⟨-, hr, -⟩ := Env.runs_ret_iff.mp h₁
    exact ⟨_, hr⟩

/-- The end of an update begins with the check. -/
theorem runs_conclude_checks {now : DateTime} {backupDir : Option PathBuf} {newState : RelayState}
    {r : Except RustmoteError UpdateReport}
    (h : H.env.Runs w (self.conclude opts now backupDir newState) tr r w') :
    ∃ e ∈ tr, e.request = .instant := by
  have hfirst : ∀ {th x w₁}, H.env.Runs w (self.healthCheck relayPorts) th x w₁ → ∀ rest,
      ∃ e ∈ th ++ rest, e.request = .instant := by
    intro th x w₁ hcheck rest
    obtain ⟨⟨t, later, rfl⟩, -⟩ := runs_healthCheck hcheck
    exact ⟨⟨.instant, t⟩, List.mem_cons_self, rfl⟩
  cases runs_conclude h with
  | healthy hcheck => exact hfirst hcheck _
  | unhealthy hr hcheck =>
    have hmem := hfirst hcheck []
    rwa [List.append_nil] at hmem
  | rolledBack hcheck => exact hfirst hcheck _

/-- **A confirmed update with something to pin** gets to its health check while every command
works. -/
theorem runs_update_checks {t₀ : List Event} {w₀ : H.World} {s : Str} {found : CheckUpdatesReport}
    {r : Except RustmoteError UpdateReport} (htoml : self.toml.Total)
    (hskip : opts.skipBackup = false)
    (hpath : Commands.validateRemotePath opts.installPath = .ok s)
    (hcheck : H.env.Runs w (self.checkUpdates opts.installPath) t₀ (.ok found) w₀)
    (havailable : found.anyUpdateAvailable = true)
    (hconfirmed : opts.assumeYes = true ∨ opts.isTty = true)
    (hpins : ∀ u ∈ found.images, Commands.ValidRef u.repo u.latestTag u.latestDigest)
    (h : H.env.Runs w (self.update opts) tr r w') (hworks : ∀ e ∈ tr, Works e)
    (hyear : ∀ now, Shown tr now → Civil.year now ≤ 9999) : ∃ e ∈ tr, e.request = .instant := by
  unfold update at h
  rw [if_neg (by rcases hconfirmed with h | h <;> simp [h])] at h
  rcases Env.runs_bind_iff.mp h with ⟨e, -, hfail⟩ | ⟨report, t₁, s₁, w₁, rfl, hchecked, h₁⟩
  · obtain ⟨-, hr, -⟩ := hcheck.unique hfail
    cases hr
  obtain ⟨-, hr, -⟩ := hcheck.unique hchecked
  cases hr
  rw [if_neg (by simp [havailable])] at h₁
  unfold applyUpdates at h₁
  obtain ⟨s₂, rfl, h₂⟩ := Env.runs_request_iff.mp h₁
  have htree : H.tree (H.env.answer w₁ .now).2 = H.tree w := by
    rw [H.quiet w₁ .now fun _ h => by cases h]
    exact runs_tree hchecked always_checkUpdates
  generalize (H.env.answer w₁ .now).1 = now at h₂ hworks hyear
  generalize (H.env.answer w₁ .now).2 = w₂ at h₂ htree
  have hworks₂ : ∀ e ∈ s₂, Works e := fun e he => hworks e (by simp [he])
  have hbackup : Errors Works (fun _ => False) (backupUnlessSkipped opts now) := by
    unfold backupUnlessSkipped
    rw [if_neg (by simp [hskip])]
    exact (errors_backup_of_works hpath (hyear now (by simp [Shown]))).bind fun _ => .ret
  obtain ⟨dir, t₃, s₃, w₃, rfl, hsaved, h₃⟩ := Env.runs_bind_of_errors h₂ hbackup hworks₂
    fun _ _ => not_false
  obtain ⟨-, hworks₃⟩ := List.forall_mem_append.mp hworks₂
  -- the state file is as it was when it is read again
  obtain ⟨state, hstate, -⟩ := runs_checkUpdates_ok hcheck
  have hnode : (H.tree w₃).fileAt (place (statePath opts.installPath)) =
      (H.tree w).fileAt (place (statePath opts.installPath)) := by
    rw [place_statePath, ← htree, ← hsaved.2.2]
    exact fileAt_congr (node_before (T := (· = now)) (fun e he => Asks.mono
      (fun cmd => Or.imp_right fun h => ⟨now, rfl, h⟩) _
        (hsaved.requests (always_backupUnlessSkipped opts now) e he)) (by decide))
  have hloaded : ∀ {tr r w'}, H.env.Runs w₃ (self.prepare opts found now) tr r w' →
      (∀ e ∈ tr, Works e) → ∃ x, r = .ok x := fun h hworks =>
    runs_prepare_of_works hpath (hstate.congr hnode.symm) hpins h hworks
  rcases Env.runs_bind_iff.mp h₃ with
    ⟨e, -, hprepare⟩ | ⟨⟨newState, newCompose⟩, t₄, s₄, w₄, rfl, hprepare, h₄⟩
  · obtain ⟨x, hx⟩ := hloaded hprepare hworks₃
    cases hx
  obtain ⟨-, hworks₄⟩ := List.forall_mem_append.mp hworks₃
  obtain ⟨_, t₅, s₅, w₅, rfl, -, h₅⟩ := Env.runs_bind_of_errors h₄
    (errors_install_of_working (E := fun _ => False) working_works htoml hpath newState newCompose)
    hworks₄ fun _ _ => not_false
  obtain ⟨e, he, hinstant⟩ := runs_conclude_checks h₅
  exact ⟨e, by simp [he], hinstant⟩

/-- **A health check that fails is rolled back**: an update with a backup, on a host where
everything but the probes works, returns an error and leaves the install as it was. If it is
confirmed, the pins are valid and the name of the backup is one that commands take, the relay was
started and checked before that, and started again behind it. -/
theorem update_rolls_back (H : Host) (self : RelayLifecycle) (opts : UpdateOptions) (w w₀ : H.World)
    (t₀ : List Event) (s : Str) (found : CheckUpdatesReport) (htoml : self.toml.Total)
    (hrounds : self.healthCheckTimeout < self.rounds) (hskip : opts.skipBackup = false)
    (hpath : Commands.validateRemotePath opts.installPath = .ok s)
    (hcompose : (H.tree w).isFile (place (composePath opts.installPath)) = true)
    (hcheck : H.env.Runs w (self.checkUpdates opts.installPath) t₀ (.ok found) w₀)
    (havailable : found.anyUpdateAvailable = true) :
    H.env.Ends w (self.update opts) ∧ ∀ tr r w', H.env.Runs w (self.update opts) tr r w' →
      (∀ e ∈ tr, Works e) → ¬ SomeRoundUp hbbsPort hbbrPort (firstCheck tr) →
      (∃ e, r = .error e) ∧ Restored H opts.installPath w w' tr ∧
        (opts.assumeYes = true ∨ opts.isTty = true →
          (∀ u ∈ found.images, Commands.ValidRef u.repo u.latestTag u.latestDigest) →
            (∀ now, Shown tr now → Civil.year now ≤ 9999) →
              StartedAgain H opts.installPath w tr) := by
  refine ⟨ends_update opts hrounds, fun tr r w' hrun hworks hdown => ?_⟩
  have hreaches := fun hconfirmed hpins hyear => runs_update_checks htoml hskip hpath hcheck
    havailable hconfirmed hpins hrun hworks hyear
  obtain ⟨t₁, t₂, w₁, rfl, hfinal, hbefore, harrives⟩ := runs_update hrun
  cases harrives with
  | failed hr he =>
    subst hfinal
    rw [List.append_nil] at hreaches ⊢
    refine ⟨⟨_, hr⟩, restored_before hbefore, fun hconfirmed hpins hyear => ?_⟩
    obtain ⟨e, he, hinstant⟩ := hreaches hconfirmed hpins hyear
    exact absurd hinstant (Asks.ne_instant (hbefore e he))
  | unchanged hr hchanged hchecked hnone =>
    obtain ⟨-, hfound, -⟩ := hcheck.unique hchecked
    cases hfound
    rw [havailable] at hnone
    cases hnone
  | prepared hnow hprepared hrest =>
    obtain ⟨state, ⟨raw, hraw, -⟩, -⟩ := runs_checkUpdates_ok hcheck
    obtain ⟨hr, hrestored, hstarted⟩ := restored_of_prepared htoml hskip hpath hcompose
      (isFile_iff.mpr ⟨raw, hraw⟩) hfinal hbefore hprepared hrest hworks hdown
    exact ⟨hr, hrestored, fun _ _ _ => hstarted⟩

/-- The sample update whose checks both fail leaves the install as it was, and starts it again. -/
theorem update_rolls_back_sample :
    Restored (Sample.host (silentUntil 99)) Sample.path Sample.start
        (Sample.updateEnd (silentUntil 99) false) (Sample.updateTrace (silentUntil 99) false) ∧
      StartedAgain (Sample.host (silentUntil 99)) Sample.path Sample.start
        (Sample.updateTrace (silentUntil 99) false) := by
  have hrun : (Sample.host (silentUntil 99)).env.failure Sample.start
        (Sample.relay.update (Sample.updateOptions false)) = some .relayHealthCheckFailed ∧
      (∀ e ∈ Sample.updateTrace (silentUntil 99) false, Works e) ∧
      (∀ e ∈ firstCheck (Sample.updateTrace (silentUntil 99) false), ¬ Answers hbbrPort e) ∧
      ∀ now ∈ times (Sample.updateTrace (silentUntil 99) false), Civil.year now ≤ 9999 := by
    decide +kernel
  have hfiles : (((Sample.host (silentUntil 99)).env.value Sample.start
        (Sample.relay.checkUpdates Sample.path)).map fun report => (report.anyUpdateAvailable,
          report.images.map fun u => (u.repo, u.latestTag, u.latestDigest))) =
            some (true, [(Sample.repo, "1.1.14".toList, Sample.digest 'b')]) ∧
      ((Sample.host (silentUntil 99)).tree Sample.start).isFile
        (place (composePath Sample.path)) = true ∧
      Commands.ValidRef Sample.repo "1.1.14".toList (Sample.digest 'b') := by
    decide +kernel
  obtain ⟨hfound, hcompose, hvalid⟩ := hfiles
  obtain ⟨report, hreport, heq⟩ := Option.map_eq_some_iff.mp hfound
  obtain ⟨havailable, himages⟩ := Prod.mk.inj heq
  have hall := update_rolls_back (Sample.host (silentUntil 99)) Sample.relay
    (Sample.updateOptions false) Sample.start _ _ "/srv/relay".toList report
    (Toml.total_ofTable _) (by decide) rfl (by decide) hcompose (Env.runs_value hreport) havailable
  obtain ⟨-, hrestored, hstarted⟩ :=
    hall.2 _ _ _ (Sample.runs_update_failure hrun.1) hrun.2.1 fun hround => by
      obtain ⟨pre, e₁, e₂, post, htr, -, hanswers⟩ := hround
      exact hrun.2.2.1 e₂ (by rw [htr]; simp) hanswers
  refine ⟨hrestored, hstarted (.inl rfl) (fun u hu => ?_)
    fun now hnow => hrun.2.2.2 now (mem_times hnow)⟩
  have hmem : (u.repo, u.latestTag, u.latestDigest) ∈
      report.images.map fun u => (u.repo, u.latestTag, u.latestDigest) := List.mem_map_of_mem hu
  rw [himages, List.mem_singleton] at hmem
  obtain ⟨hrepo, hrest⟩ := Prod.mk.inj hmem
  obtain ⟨htag, hdigest⟩ := Prod.mk.inj hrest
  rw [hrepo, htag, hdigest]
  exact hvalid

end RelayLifecycle

end Rustmote
