import Rustmote.RelayLifecycle.Restoring
import Rustmote.RelayLifecycle.Untouched

/-!
# Running bootstrap again

A bootstrap of a fresh host that failed left nothing, or the install directory with some of its
files. The next one looks for that directory first. If it is not there it lays everything out and
starts the relay; if it is there it is taken for an install, or for a foreign one, and the relay is
not started (`bootstrap_rerun_iff`).
-/

namespace Rustmote

open Interaction (Env)
open Interaction.Prog (Always Errors errors_attempt)
open FileTree Host

namespace RelayLifecycle

variable {H : Host} {w w' : H.World} {p : PathBuf} {tr : List Event} {self : RelayLifecycle}
  {opts : BootstrapOptions} {s : Str}

/-! ### Starting the relay -/

/-- The files of an install. -/
def installFiles : List Str := [composeName, ".env".toList, stateName]

/-- The relay was started when all its files were there, and behind that both ports answered in a
round of a health check. -/
def StartedUp (H : Host) (p : PathBuf) (w : H.World) (tr : List Event) : Prop :=
  ∃ a cmd out b, tr = a ++ ⟨.exec cmd, .ok out⟩ :: b ∧ Commands.composeUp p = .ok cmd ∧
    out.exitCode = 0 ∧
    (∀ name ∈ installFiles, (H.tree (H.env.final w a)).isFile (place p ++ [name]) = true) ∧
    SomeRoundUp hbbsPort hbbrPort b

/-- Nothing that was asked was answered as the probe of the second port. -/
theorem not_startedUp (h : ∀ e ∈ tr, ¬ Answers hbbrPort e) : ¬ StartedUp H p w tr := by
  rintro ⟨a, cmd, out, b, rfl, -, -, -, pre, e₁, e₂, post, rfl, -, hanswers⟩
  exact h e₂ (by simp) hanswers

/-! ### Commands that are no probes -/

/-- A probe starts a shell, which is no harmless command. -/
theorem not_harmless_tcpProbe (port : Nat) : ¬ Harmless (Commands.tcpProbe port) := by
  rintro ⟨pipelines, hparse, hquery⟩
  rw [Shell.parse, lex_tcpProbe] at hparse
  simp only [Shell.parseTokens, Template.tokens, Template.word, Option.bind_some] at hparse
  simp at hparse
  subst hparse
  obtain ⟨words, heq, -⟩ := hquery _ (List.mem_singleton_self _)
  simp at heq

theorem not_answers_of_inspects {timed online : Prop} {port : Nat} {e : Event}
    (h : Asks timed online (Inspects p) e.request) : ¬ Answers port e := by
  rintro ⟨hrequest, -⟩
  rw [hrequest] at h
  exact not_harmless_tcpProbe port (harmless_of_inspects h)

/-- What a probe does is nothing to the files of the host. -/
def NoProbe (cmd : Str) : Prop := actions cmd ≠ some [.external]

theorem not_answers_of_noProbe {timed online : Prop} {port : Nat} {e : Event}
    (h : Asks timed online NoProbe e.request) : ¬ Answers port e := by
  rintro ⟨hrequest, -⟩
  rw [hrequest] at h
  exact h (actions_tcpProbe port)

theorem noProbe_mkdirP {path : PathBuf} {cmd : Str} (h : Commands.mkdirP path = .ok cmd) :
    NoProbe cmd := by
  rw [NoProbe, actions_mkdirP h]
  simp

theorem noProbe_writeFile {path : PathBuf} {content : Bytes} {cmd : Str}
    (h : Commands.writeFile path content = .ok cmd) : NoProbe cmd := by
  rw [NoProbe, actions_writeFile h]
  simp

theorem noProbe_composeUp {cmd : Str} (h : Commands.composeUp p = .ok cmd) : NoProbe cmd := by
  rw [NoProbe, actions_compose .up (by decide) h]
  simp

theorem always_layOut_noProbe (compose : Str) (state : RelayState) :
    Always (fun _ => True) (Asks False False NoProbe) (self.layOut opts compose state)
      fun _ => True := by
  unfold layOut
  refine (always_execBuilt fun _ => noProbe_mkdirP).bind fun _ _ => ?_
  refine (always_execBuilt fun _ => noProbe_mkdirP).bind fun _ _ => ?_
  refine (always_execBuilt fun _ => noProbe_mkdirP).bind fun _ _ => ?_
  refine (always_execBuilt fun _ => noProbe_writeFile).bind fun _ _ => ?_
  refine (always_execBuilt fun _ => noProbe_writeFile).bind fun _ _ => ?_
  refine Always.lift fun text _ => ?_
  exact (always_execBuilt fun _ => noProbe_writeFile).bind fun _ _ => .ret trivial

/-! ### A bootstrap that failed -/

/-- A fresh install that failed has got no answer from the second port. -/
theorem silent_of_settle {os : OsKind} {now : DateTime} {pins : List ImagePin} {compose : Str}
    {e : RustmoteError} (h : H.env.Runs w (self.settle opts os now pins compose) tr (.error e) w') :
    ∀ e ∈ tr, ¬ Answers hbbrPort e := by
  have hlayout : ∀ {t : List Event} {x w₁},
      H.env.Runs w (self.layOut opts compose (.newBootstrap now opts.rustmoteVersion pins)) t x w₁ →
        ∀ e ∈ t, ¬ Answers hbbrPort e :=
    fun hrun e he => not_answers_of_noProbe (hrun.requests (always_layOut_noProbe _ _) e he)
  have hup : ∀ {t : List Event} {x w₁ w₂},
      H.env.Runs w₁ (execBuilt (Commands.composeUp opts.installPath)) t x w₂ →
        ∀ e ∈ t, ¬ Answers hbbrPort e := by
    intro t x w₁ w₂ hrun e he
    have hasks : Asks False False NoProbe e.request :=
      hrun.requests (always_execBuilt fun _ => noProbe_composeUp) e he
    exact not_answers_of_noProbe hasks
  unfold settle at h
  rcases Env.runs_bind_iff.mp h with ⟨e', -, hrun⟩ | ⟨u, t₁, t₂, w₁, rfl, hrun, h₁⟩
  · exact hlayout hrun
  have h₁silent := hlayout hrun
  rcases Env.runs_bind_iff.mp h₁ with ⟨e', -, hrun⟩ | ⟨out, t₃, t₄, w₂, rfl, hrun, h₂⟩
  · exact List.forall_mem_append.mpr ⟨h₁silent, hup hrun⟩
  have h₃silent := hup hrun
  rcases Env.runs_bind_iff.mp h₂ with ⟨e', -, hcheck⟩ | ⟨u, t₅, t₆, w₃, rfl, hcheck, h₃⟩
  · rcases (runs_healthCheck hcheck).2 with ⟨he, -⟩ | ⟨-, hnot⟩
    · cases he
    · exact List.forall_mem_append.mpr ⟨h₁silent, List.forall_mem_append.mpr ⟨h₃silent, hnot⟩⟩
  · -- behind the check nothing fails
    have hkey : Errors (fun _ => True) (fun _ => False) (publicKey opts.installPath) :=
      (errors_attempt _).bind fun _ => .ret
    obtain ⟨key, t₇, t₈, w₄, -, -, h₄⟩ := Env.runs_bind_of_errors h₃ hkey (fun _ _ => trivial)
      fun _ _ => not_false
    obtain ⟨-, hr, -⟩ := Env.runs_ret_iff.mp h₄
    cases hr

/-- **A bootstrap that failed** has got no answer from the second port. -/
theorem silent_of_failed {e : RustmoteError}
    (h : H.env.Runs w (self.bootstrap opts) tr (.error e) w') :
    ∀ e ∈ tr, ¬ Answers hbbrPort e := by
  cases runs_bootstrap h with
  | refused hr hinspects => exact fun e he => not_answers_of_inspects (hinspects e he)
  | @existing t₁ t₂ w₁ os htr hinspects hfinal hdir hrun =>
    rw [htr]
    have hrest : ∀ e ∈ t₂, Asks False False (Inspects opts.installPath) e.request :=
      hrun.requests (inspects_bootstrapExisting opts os)
    exact List.forall_mem_append.mpr ⟨fun e he => not_answers_of_inspects (hinspects e he),
      fun e he => not_answers_of_inspects (hrest e he)⟩
  | fresh htr hinspects hfinal hnow hlen hpins hrender hrun =>
    rw [htr]
    exact List.forall_mem_append.mpr ⟨fun e he => not_answers_of_inspects (hinspects e he),
      silent_of_settle hrun⟩

/-- **A bootstrap that finds the install directory** does not start the relay. -/
theorem silent_of_isDir {r : Except RustmoteError BootstrapReport} (htruth : H.Truthful)
    (h : H.env.Runs w (self.bootstrap opts) tr r w')
    (hdir : (H.tree w).isDir (place opts.installPath) = true) :
    ∀ e ∈ tr, ¬ Answers hbbrPort e := by
  suffices hinspects : ∀ e ∈ tr, Asks False False (Inspects opts.installPath) e.request from
    fun e he => not_answers_of_inspects (hinspects e he)
  unfold bootstrap at h
  rcases Env.runs_bind_iff.mp h with ⟨e', -, hos⟩ | ⟨os, t₁, s₁, w₁, rfl, hos, h₁⟩
  · exact hos.requests (inspects_osOf _)
  have hinspects₁ : ∀ e ∈ t₁, Asks False False (Inspects opts.installPath) e.request :=
    hos.requests (inspects_osOf _)
  rcases Env.runs_bind_iff.mp h₁ with ⟨e', -, hdocker⟩ | ⟨u, t₂, s₂, w₂, rfl, hdocker, h₂⟩
  · exact List.forall_mem_append.mpr ⟨hinspects₁, hdocker.requests inspects_ensureDockerStack⟩
  have hinspects₂ : ∀ e ∈ t₂, Asks False False (Inspects opts.installPath) e.request :=
    hdocker.requests inspects_ensureDockerStack
  rcases Env.runs_bind_iff.mp h₂ with ⟨e', -, hfound⟩ | ⟨found, t₃, s₃, w₃, rfl, hfound, h₃⟩
  · exact List.forall_mem_append.mpr ⟨hinspects₁,
      List.forall_mem_append.mpr ⟨hinspects₂, hfound.requests inspects_installExists⟩⟩
  have hinspects₃ : ∀ e ∈ t₃, Asks False False (Inspects opts.installPath) e.request :=
    hfound.requests inspects_installExists
  obtain ⟨heq, -⟩ := htruth.runs_dirExists hfound
  rw [runs_tree hdocker (always_ensureDockerStack (p := opts.installPath)),
    runs_tree hos (always_osOf (p := opts.installPath) opts.osHint), hdir] at heq
  subst heq
  refine List.forall_mem_append.mpr ⟨hinspects₁, List.forall_mem_append.mpr ⟨hinspects₂,
    List.forall_mem_append.mpr ⟨hinspects₃, ?_⟩⟩⟩
  exact Env.Runs.requests h₃ (inspects_bootstrapExisting opts os)

/-! ### A bootstrap with which everything is right -/

/-- Every command is run, and exits with zero but for `test` and the one that reads the public key,
which may say no; and the registry answers with digests that go with the tag. -/
def SucceedsNow (p : PathBuf) : Event → Prop
  | ⟨.exec cmd, reply⟩ => (∃ out, reply = .ok out) ∧ (Commands.testDirExists p ≠ .ok cmd →
      Commands.testFileExists (statePath p) ≠ .ok cmd → Commands.catFile (keyPath p) ≠ .ok cmd →
        Clean ⟨.exec cmd, reply⟩)
  | ⟨.resolveDigest repo tag, reply⟩ => ∃ d, reply = .ok d ∧ Commands.ValidRef repo tag d
  | _ => True

/-- A command that is none of these has exited with zero. -/
theorem clean_of_succeedsNow {cmd : Str} {reply : Except TransportError ExecOutput}
    {as : List Action} (h : SucceedsNow p ⟨.exec cmd, reply⟩) (hactions : actions cmd = some as)
    (hdir : as ≠ [.testDir (place p)]) (hfile : as ≠ [.testFile (place (statePath p))])
    (hkey : as ≠ [.cat (place (keyPath p))]) : Clean ⟨.exec cmd, reply⟩ := by
  refine h.2 (fun hcmd => ?_) (fun hcmd => ?_) fun hcmd => ?_
  · exact hdir (Option.some.inj (hactions.symm.trans (actions_testDirExists hcmd)))
  · exact hfile (Option.some.inj (hactions.symm.trans (actions_testFileExists hcmd)))
  · exact hkey (Option.some.inj (hactions.symm.trans (actions_catFile hcmd)))

theorem working_succeedsNow : Working (SucceedsNow p) where
  mkdir h hG := clean_of_succeedsNow hG (actions_mkdirP h) (by simp) (by simp) (by simp)
  write h hG := clean_of_succeedsNow hG (actions_writeFile h) (by simp) (by simp) (by simp)
  copy h hG := clean_of_succeedsNow hG (actions_copyFile h) (by simp) (by simp) (by simp)
  pull h hG := clean_of_succeedsNow hG (actions_compose .pull (by decide) h) (by simp) (by simp)
    (by simp)
  up h hG := clean_of_succeedsNow hG (actions_compose .up (by decide) h) (by simp) (by simp)
    (by simp)

theorem external_of_succeedsNow (cmd : Str) (reply : Except TransportError ExecOutput)
    (hactions : actions cmd = some [.external]) (h : SucceedsNow p ⟨.exec cmd, reply⟩) :
    Clean ⟨.exec cmd, reply⟩ :=
  clean_of_succeedsNow h hactions (by simp) (by simp) (by simp)

theorem probing_succeedsNow : Probing (SucceedsNow p) := fun port _ h =>
  external_of_succeedsNow _ _ (actions_tcpProbe port) h

/-- The system is asked for with one command. -/
theorem always_osOf_reads (hint : Option OsKind) :
    Always (fun _ => True) (Asks False False (· = Commands.readOsRelease)) (osOf hint)
      fun _ => True := by
  cases hint with
  | some os => exact .ret trivial
  | none =>
    show Always _ _ detectOs _
    unfold detectOs
    have hread : Always (fun _ => True) (Asks False False (· = Commands.readOsRelease))
        (execOk Commands.readOsRelease) fun _ => True := always_execOk rfl
    refine hread.bind fun out _ => ?_
    cases parseOsRelease out.stdoutString with
    | some os => exact .ret trivial
    | none => exact .fail

theorem runs_osOf_now {hint : Option OsKind} {r : Except RustmoteError OsKind}
    (hknown : OsKnown hint (H.tree w)) (h : H.env.Runs w (osOf hint) tr r w')
    (hnow : ∀ e ∈ tr, SucceedsNow p e) : ∃ os, r = .ok os := by
  refine runs_osOf_of_succeeds (p := p) hknown h fun e he _ => ?_
  have hreads : Asks False False (· = Commands.readOsRelease) e.request :=
    h.requests (always_osOf_reads hint) e he
  have hsucceeds := hnow e he
  obtain ⟨q, reply⟩ := e
  cases q with
  | exec cmd =>
    obtain rfl : cmd = Commands.readOsRelease := hreads
    have hactions : actions Commands.readOsRelease = some [.cat osRelease] := by decide
    exact clean_of_succeedsNow hsucceeds hactions (by simp) (by simp)
      (by simpa using osRelease_ne_keyPath p)
  | _ => trivial

theorem errors_dirExists_now {E : RustmoteError → Prop}
    (hs : Commands.validateRemotePath p = .ok s) :
    Errors (SucceedsNow p) E (pathExists p true) := by
  have hcmd : (if true then Commands.testDirExists p else Commands.testFileExists p) =
      .ok ("test -d ".toList ++ s) := Commands.onPath_of_accepted hs "test -d ".toList
  rw [pathExists_of_accepted hcmd]
  refine Errors.bind (Errors.request (q := Request.exec _) fun reply hreply => ?_) fun out => .ret
  obtain ⟨out, rfl⟩ := hreply.1
  exact .ret

/-- The pins of what was answered are valid. -/
theorem resolvePins_now {E : RustmoteError → Prop} (repo tag : Str) (now : DateTime)
    (services : List Str) :
    Errors (SucceedsNow p) E (resolvePins repo tag now services) ∧
      Always (SucceedsNow p) (fun _ => True) (resolvePins repo tag now services)
        fun pins => ∀ pin ∈ pins, pin.Valid := by
  induction services with
  | nil => exact ⟨.ret, .ret fun _ h => absurd h List.not_mem_nil⟩
  | cons service services ih =>
    unfold resolvePins
    constructor
    · refine Errors.bind (Errors.request (q := Request.resolveDigest repo tag)
        fun reply hreply => ?_) fun digest => ih.1.bind fun pins => .ret
      obtain ⟨d, rfl, -⟩ := hreply
      exact .ret
    · have hdigest : Always (SucceedsNow p) (fun _ => True) (resolveDigest repo tag)
          fun d => Commands.ValidRef repo tag d := by
        refine Always.request (q := Request.resolveDigest repo tag) trivial fun reply hreply => ?_
        obtain ⟨d, rfl, hvalid⟩ := hreply
        exact .ret hvalid
      refine hdigest.bind fun digest hvalid => ih.2.bind fun pins hpins => .ret ?_
      exact List.forall_mem_cons.mpr ⟨hvalid, hpins⟩

/-- The files that a fresh layout leaves. -/
theorem isFile_of_layOut {compose : Str} {state : RelayState}
    (h : H.env.Runs w (self.layOut opts compose state) tr (.ok ()) w')
    (hfresh : (H.tree w).isDir (place opts.installPath) = false) :
    ∀ name ∈ installFiles, (H.tree w').isFile (place opts.installPath ++ [name]) = true := by
  obtain ⟨w₃, w₄, w₅, text, hmkdir, hmkdata, hmkbackups, hcompose, henv, -, hstate⟩ := runs_layOut h
  have hframe₁ := runs_writeFile_frame hcompose isName_composeName
  have hframe₂ := runs_writeFile_frame henv (by decide)
  have hframe₃ := runs_writeFile_frame hstate isName_stateName
  -- no name of a file is taken by a directory
  have hmissing : ∀ name ∈ installFiles,
      (H.tree w₃).isDir (place opts.installPath ++ [name]) = false := by
    intro name hname
    have hnames : name ≠ "data".toList ∧ name ≠ "backups".toList := by
      simp only [installFiles, List.mem_cons, List.not_mem_nil, or_false] at hname
      rcases hname with rfl | rfl | rfl <;> decide
    rw [isDir, node_of_mkdirs hmkdir hmkdata hmkbackups hnames, node_below hfresh _ (by simp)]
    rfl
  have hkeep : ∀ x y : Str, x ++ Commands.tmpSuffix ≠ y → x ≠ y →
      ¬ (Below (place opts.installPath ++ [x ++ Commands.tmpSuffix]) (place opts.installPath ++ [y]) ∨
        Below (place opts.installPath ++ [x]) (place opts.installPath ++ [y])) :=
    fun x y h₁ h₂ => not_or.mpr ⟨not_below_of_ne h₁ [], not_below_of_ne h₂ []⟩
  have hdir₄ : (H.tree w₄).isDir (place opts.installPath ++ [".env".toList]) = false := by
    rw [isDir, hframe₁ _ (hkeep _ _ (by decide) (by decide))]
    exact hmissing _ (by decide)
  have hdir₅ : (H.tree w₅).isDir (place opts.installPath ++ [stateName]) = false := by
    rw [isDir, hframe₂ _ (hkeep _ _ (by decide) (by decide)),
      hframe₁ _ (hkeep _ _ (by decide) (by decide))]
    exact hmissing _ (by decide)
  have hfile₁ := (runs_writeFile_ok hcompose compose_not_below_scratch).1.file
    (by rw [place_composePath]; exact hmissing _ (by decide))
  have hscratch : ¬ Below (scratchPlace (envPath opts.installPath))
      (place (envPath opts.installPath)) := by
    rw [place_envPath]
    exact not_below_scratch _ (by decide) (by decide)
  have hfile₂ := (runs_writeFile_ok henv hscratch).1.file (by rw [place_envPath]; exact hdir₄)
  have hfile₃ := (runs_writeFile_ok hstate state_not_below_scratch).1.file
    (by rw [place_statePath]; exact hdir₅)
  rw [place_composePath] at hfile₁
  rw [place_envPath] at hfile₂
  rw [place_statePath] at hfile₃
  intro name hname
  simp only [installFiles, List.mem_cons, List.not_mem_nil, or_false] at hname
  rcases hname with rfl | rfl | rfl
  · refine isFile_iff.mpr ⟨Utf8.encode compose, ?_⟩
    rw [fileAt_congr (hframe₃ _ (hkeep _ _ (by decide) (by decide))),
      fileAt_congr (hframe₂ _ (hkeep _ _ (by decide) (by decide)))]
    exact hfile₁
  · refine isFile_iff.mpr ⟨Utf8.encode opts.envContents, ?_⟩
    rw [fileAt_congr (hframe₃ _ (hkeep _ _ (by decide) (by decide)))]
    exact hfile₂
  · exact isFile_iff.mpr ⟨_, hfile₃⟩

/-- **A fresh install with which everything is right** starts the relay. -/
theorem runs_settle_now {os : OsKind} {now : DateTime} {pins : List ImagePin} {compose : Str}
    {r : Except RustmoteError BootstrapReport} (htoml : self.toml.Total)
    (hs : Commands.validateRemotePath opts.installPath = .ok s)
    (hfresh : (H.tree w).isDir (place opts.installPath) = false)
    (h : H.env.Runs w (self.settle opts os now pins compose) tr r w')
    (hnow : ∀ e ∈ tr, SucceedsNow opts.installPath e) :
    (∃ report, r = .ok report) ∧ StartedUp H opts.installPath w tr := by
  unfold settle at h
  obtain ⟨_, t₁, s₁, w₁, rfl, hlayout, h₁⟩ := Env.runs_bind_of_errors h
    (errors_layOut_of_working (E := fun _ => False) working_succeedsNow htoml hs _ _) hnow
    fun _ _ => not_false
  have hnow₁ := (List.forall_mem_append.mp hnow).2
  obtain ⟨out, t₂, s₂, w₂, rfl, hup, h₂⟩ := Env.runs_bind_of_errors h₁
    (errors_composeUp_of_working (E := fun _ => False) working_succeedsNow hs) hnow₁
    fun _ _ => not_false
  have hnow₂ := (List.forall_mem_append.mp hnow₁).2
  obtain ⟨_, t₃, s₃, w₃, rfl, hcheck, h₃⟩ := Env.runs_bind_of_errors h₂
    (errors_healthCheck_of_probing (E := fun _ => False) probing_succeedsNow _) hnow₂
    fun _ _ => not_false
  have hkey : Errors (fun _ => True) (fun _ => False) (publicKey opts.installPath) :=
    (errors_attempt _).bind fun _ => .ret
  obtain ⟨key, t₄, s₄, w₄, -, -, h₄⟩ := Env.runs_bind_of_errors h₃ hkey (fun _ _ => trivial)
    fun _ _ => not_false
  obtain ⟨-, hr, -⟩ := Env.runs_ret_iff.mp h₄
  refine ⟨⟨_, hr⟩, ?_⟩
  obtain ⟨cmd, hcmd, hreply, hstep⟩ := runs_execBuilt_ok hup
  obtain ⟨out', hout', hcode⟩ := hstep.zero
  obtain rfl := Except.ok.inj (hout'.symm.trans hreply)
  have htrace := hstep.trace
  rw [hreply] at htrace
  subst htrace
  refine ⟨t₁, cmd, out', t₃ ++ s₃, rfl, hcmd, hcode, ?_, ?_⟩
  · rw [hlayout.2.2]
    exact isFile_of_layOut hlayout hfresh
  · rcases (runs_healthCheck hcheck).2 with ⟨-, hends⟩ | ⟨⟨e, he⟩, -⟩
    · exact someRoundUp_of_endsUp hends _
    · cases he

/-- What happens behind other events. -/
theorem StartedUp.behind {t₁ t₂ : List Event} (h : StartedUp H p (H.env.final w t₁) t₂) :
    StartedUp H p w (t₁ ++ t₂) := by
  obtain ⟨a, cmd, out, b, rfl, hcmd, hcode, hfiles, hround⟩ := h
  refine ⟨t₁ ++ a, cmd, out, b, (List.append_assoc _ _ _).symm, hcmd, hcode, ?_, hround⟩
  rw [Env.final_append]
  exact hfiles

/-- **A bootstrap of a fresh host with which everything is right** starts the relay. -/
theorem runs_bootstrap_now {r : Except RustmoteError BootstrapReport} (htruth : H.Truthful)
    (htoml : self.toml.Total) (hs : Commands.validateRemotePath opts.installPath = .ok s)
    (hos : OsKnown opts.osHint (H.tree w))
    (hfresh : (H.tree w).isDir (place opts.installPath) = false)
    (h : H.env.Runs w (self.bootstrap opts) tr r w')
    (hnow : ∀ e ∈ tr, SucceedsNow opts.installPath e) :
    (∃ report, r = .ok report) ∧ StartedUp H opts.installPath w tr := by
  unfold bootstrap at h
  rcases Env.runs_bind_iff.mp h with ⟨e, -, hrun⟩ | ⟨os, t₁, s₁, w₁, rfl, hrun, h₁⟩
  · obtain ⟨os, hok⟩ := runs_osOf_now hos hrun hnow
    cases hok
  have htree₁ := runs_tree hrun (always_osOf (p := opts.installPath) opts.osHint)
  have hnow₁ := (List.forall_mem_append.mp hnow).2
  obtain ⟨_, t₂, s₂, w₂, rfl, hdocker, h₂⟩ := Env.runs_bind_of_errors h₁
    (errors_ensureDockerStack (E := fun _ => False) external_of_succeedsNow) hnow₁
    fun _ _ => not_false
  have htree₂ := runs_tree hdocker (always_ensureDockerStack (p := opts.installPath))
  have hnow₂ := (List.forall_mem_append.mp hnow₁).2
  obtain ⟨found, t₃, s₃, w₃, rfl, hfound, h₃⟩ := Env.runs_bind_of_errors h₂
    (errors_dirExists_now (E := fun _ => False) hs) hnow₂ fun _ _ => not_false
  have hnow₃ := (List.forall_mem_append.mp hnow₂).2
  obtain ⟨hdir, htree₃, -⟩ := htruth.runs_dirExists hfound
  rw [htree₂, htree₁, hfresh] at hdir
  subst hdir
  replace h₃ : H.env.Runs w₃ (self.bootstrapFresh opts os) s₃ r w' := h₃
  unfold bootstrapFresh at h₃
  obtain ⟨s₄, rfl, h₄⟩ := Env.runs_request_iff.mp h₃
  have htree₄ : H.tree (H.env.answer w₃ .now).2 = H.tree w₃ := H.quiet w₃ .now fun _ h => by cases h
  have hnow₄ := (List.forall_mem_cons.mp hnow₃).2
  obtain ⟨pins, t₅, s₅, w₅, rfl, hpins, h₅⟩ := Env.runs_bind_of_errors h₄
    (resolvePins_now (E := fun _ => False) _ _ _ _).1 hnow₄ fun _ _ => not_false
  obtain ⟨hnow₅, hnow₆⟩ := List.forall_mem_append.mp hnow₄
  have htree₅ := runs_tree hpins (always_resolvePins (C := Reads opts.installPath) _ _ _ _)
  have hvalid := ((resolvePins_now (E := fun _ => False) _ _ _ _).2.run hpins.1 hnow₅).2 pins rfl
  have hrender : renderComposeWithPins opts.composeTemplate pins =
      .ok ((freshPins [] pins).foldl insertDigest opts.composeTemplate) :=
    renderComposeWithPins_eq_ok_iff.mpr ⟨hvalid, rfl⟩
  rw [hrender] at h₅
  replace h₅ : H.env.Runs w₅ (self.settle opts os (H.env.answer w₃ .now).1 pins _) s₅ r w' := h₅
  have hfresh₅ : (H.tree w₅).isDir (place opts.installPath) = false := by
    rw [htree₅, htree₄, htree₃, htree₂, htree₁]
    exact hfresh
  obtain ⟨hok, hstarted⟩ := runs_settle_now htoml hs hfresh₅ h₅ hnow₆
  refine ⟨hok, ?_⟩
  have hfinal : H.env.final w (t₁ ++ (t₂ ++ (t₃ ++ ⟨.now, (H.env.answer w₃ .now).1⟩ :: t₅))) =
      w₅ := by
    rw [Env.final_append, hrun.2.2, Env.final_append, hdocker.2.2, Env.final_append, hfound.2.2,
      Env.final_cons, Env.after]
    exact hpins.2.2
  rw [← hfinal] at hstarted
  have hbehind := hstarted.behind
  simp only [List.append_assoc, List.cons_append] at hbehind
  exact hbehind

/-! ### Two runs -/

/-- The second run returns, and the relay that it reports was started in one of the runs. -/
def SafeRerun (H : Host) (p : PathBuf) (w w₁ : H.World) (t₁ t₂ : List Event)
    (r : Except RustmoteError BootstrapReport) : Prop :=
  (∃ report, r = .ok report) ∧ (StartedUp H p w t₁ ∨ StartedUp H p w₁ t₂)

/-- **Bootstrap is safe to run again** exactly when the run that failed did not leave the install
directory. -/
theorem bootstrap_rerun_iff (H : Host) (self : RelayLifecycle) (opts : BootstrapOptions) (s : Str)
    (w w₁ w₂ : H.World) (t₁ : List Event) (e : RustmoteError) (htruth : H.Truthful)
    (htoml : self.toml.Total) (hrounds : self.healthCheckTimeout < self.rounds)
    (hs : Commands.validateRemotePath opts.installPath = .ok s)
    (hfirst : H.env.Runs w (self.bootstrap opts) t₁ (.error e) w₁)
    (hsame : H.tree w₂ = H.tree w₁) (hos : OsKnown opts.osHint (H.tree w₂)) :
    H.env.Ends w₂ (self.bootstrap opts) ∧
      ∀ t₂ r w₃, H.env.Runs w₂ (self.bootstrap opts) t₂ r w₃ →
        (∀ e ∈ t₂, SucceedsNow opts.installPath e) →
          (SafeRerun H opts.installPath w w₂ t₁ t₂ r ↔
            (H.tree w₁).isDir (place opts.installPath) = false) := by
  refine ⟨ends_bootstrap opts hrounds, fun t₂ r w₃ hsecond hnow => ?_⟩
  rw [← hsame]
  constructor
  · rintro ⟨-, hstarted | hstarted⟩
    · exact absurd hstarted (not_startedUp (silent_of_failed hfirst))
    · by_contra hdir
      rw [Bool.not_eq_false] at hdir
      exact not_startedUp (silent_of_isDir htruth hsecond hdir) hstarted
  · intro hfresh
    obtain ⟨hok, hstarted⟩ := runs_bootstrap_now htruth htoml hs hos hfresh hsecond hnow
    exact ⟨hok, .inr hstarted⟩

/-! ### Two runs on a simulated host -/

instance (p : PathBuf) : DecidablePred (SucceedsNow p) := fun
  | ⟨.exec cmd, .ok out⟩ =>
    decidable_of_iff (Commands.testDirExists p ≠ .ok cmd →
      Commands.testFileExists (statePath p) ≠ .ok cmd → Commands.catFile (keyPath p) ≠ .ok cmd →
        Clean ⟨.exec cmd, .ok out⟩) ⟨fun h => ⟨⟨out, rfl⟩, h⟩, And.right⟩
  | ⟨.exec _, .error _⟩ => isFalse fun ⟨⟨_, h⟩, _⟩ => nomatch h
  | ⟨.resolveDigest repo tag, .ok d⟩ =>
    decidable_of_iff (Commands.ValidRef repo tag d) ⟨fun h => ⟨d, rfl, h⟩, fun ⟨_, h, hvalid⟩ => by
      cases h
      exact hvalid⟩
  | ⟨.resolveDigest _ _, .error _⟩ => isFalse fun ⟨_, h, _⟩ => nomatch h
  | ⟨.listTags _, _⟩ | ⟨.now, _⟩ | ⟨.instant, _⟩ | ⟨.sleep _, _⟩ => isTrue trivial

/-- The sample host, on which the commands that start with `stops` do nothing and the registry is
down, each up to a time. -/
def recoveringHost (stops : String) (heals back : Nat) : Host :=
  Script.host { Sample.script (fun time cmd =>
      if time < heals ∧ stops.toList <+: cmd then some 0 else none) with
    digest := fun time _ _ =>
      if time < back then .error (.registryApi "down".toList) else .ok (Sample.digest 'b') }

/-- The events of the bootstrap there. -/
def recoveringTrace (stops : String) (heals back : Nat) (w : Script.World) : List Event :=
  (recoveringHost stops heals back).env.trace w (bootstrapRelay.bootstrap bootstrapOptions)

/-- The host behind the first bootstrap. -/
def recoveringEnd (stops : String) (heals back : Nat) : Script.World :=
  (recoveringHost stops heals back).env.final emptyStart (recoveringTrace stops heals back emptyStart)

theorem truthful_recoveringHost {stops : String} (heals back : Nat)
    (hstops : ∀ cmd, "test".toList <+: cmd → ¬ stops.toList <+: cmd) :
    (recoveringHost stops heals back).Truthful := by
  refine truthful_script fun time cmd htest => ?_
  show (if time < heals ∧ stops.toList <+: cmd then some 0 else none).getD 3 ≠ 0
  rw [if_neg fun h => hstops cmd htest h.2]
  exact Nat.succ_ne_zero 2

/-- The sample bootstrap made again, after the registry was down. -/
theorem bootstrap_rerun_sample :
    ∃ r, SafeRerun (recoveringHost "none" 0 4) Sample.path emptyStart (recoveringEnd "none" 0 4)
      (recoveringTrace "none" 0 4 emptyStart)
      (recoveringTrace "none" 0 4 (recoveringEnd "none" 0 4)) r := by
  have hruns : ((recoveringHost "none" 0 4).env.failure emptyStart
        (bootstrapRelay.bootstrap bootstrapOptions)).isSome = true ∧
      ((recoveringHost "none" 0 4).env.value (recoveringEnd "none" 0 4)
        (bootstrapRelay.bootstrap bootstrapOptions)).isSome = true ∧
      (∀ e ∈ recoveringTrace "none" 0 4 (recoveringEnd "none" 0 4), SucceedsNow Sample.path e) ∧
      (recoveringEnd "none" 0 4).tree.isDir (place Sample.path) = false := by
    decide +kernel
  obtain ⟨hfirst, hsecond, hnow, hfresh⟩ := hruns
  obtain ⟨e, he⟩ := Option.isSome_iff_exists.mp hfirst
  obtain ⟨report, hreport⟩ := Option.isSome_iff_exists.mp hsecond
  have htruth : (recoveringHost "none" 0 4).Truthful :=
    truthful_recoveringHost 0 4 fun cmd htest hnone => by
      have hlen := List.prefix_of_prefix_length_le htest hnone (by decide)
      exact absurd hlen (by decide)
  have hall := bootstrap_rerun_iff (recoveringHost "none" 0 4) bootstrapRelay bootstrapOptions
    "/srv/relay".toList emptyStart (recoveringEnd "none" 0 4) (recoveringEnd "none" 0 4) _ e htruth
    (Toml.total_ofTable _) (by decide) (by decide) (Env.runs_failure he) rfl nofun
  exact ⟨_, (hall.2 _ _ _ (Env.runs_value hreport) hnow).mpr hfresh⟩

/-- **Its own leftovers stop it**: when the first bootstrap could not write the compose file the
next one is refused, though all works by then. -/
theorem leftovers_refused :
    ¬ ∀ (H : Host) (self : RelayLifecycle) (opts : BootstrapOptions) w w₁ t₁ e, H.Truthful →
      self.toml.Total → (H.tree w).isDir (place opts.installPath) = false →
        H.env.Runs w (self.bootstrap opts) t₁ (.error e) w₁ → OsKnown opts.osHint (H.tree w₁) →
          ∀ t₂ r w₂, H.env.Runs w₁ (self.bootstrap opts) t₂ r w₂ →
            (∀ e ∈ t₂, SucceedsNow opts.installPath e) →
              SafeRerun H opts.installPath w w₁ t₁ t₂ r := by
  intro hclaim
  have hruns : ((recoveringHost "printf" 8 0).env.failure emptyStart
        (bootstrapRelay.bootstrap bootstrapOptions)).isSome = true ∧
      ((recoveringHost "printf" 8 0).env.failure (recoveringEnd "printf" 8 0)
        (bootstrapRelay.bootstrap bootstrapOptions)).isSome = true ∧
      (∀ e ∈ recoveringTrace "printf" 8 0 (recoveringEnd "printf" 8 0),
        SucceedsNow Sample.path e) ∧
      emptyStart.tree.isDir (place Sample.path) = false := by
    decide +kernel
  obtain ⟨hfirst, hsecond, hnow, hfresh⟩ := hruns
  obtain ⟨e, he⟩ := Option.isSome_iff_exists.mp hfirst
  obtain ⟨e₂, he₂⟩ := Option.isSome_iff_exists.mp hsecond
  have htruth : (recoveringHost "printf" 8 0).Truthful :=
    truthful_recoveringHost 8 0 fun cmd htest hprintf => by
      have hlen := List.prefix_of_prefix_length_le htest hprintf (by decide)
      exact absurd hlen (by decide)
  obtain ⟨⟨report, hok⟩, -⟩ := hclaim (recoveringHost "printf" 8 0) bootstrapRelay
    bootstrapOptions emptyStart (recoveringEnd "printf" 8 0) (recoveringTrace "printf" 8 0 emptyStart)
    e htruth (Toml.total_ofTable _) hfresh (Env.runs_failure he) nofun
    (recoveringTrace "printf" 8 0 (recoveringEnd "printf" 8 0)) _ _ (Env.runs_failure he₂) hnow
  cases hok

end RelayLifecycle

end Rustmote
