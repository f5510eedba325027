import Rustmote.Foundations.Utilities
import Rustmote.RelayLifecycle.CommandShape

/-!
# The remote host

A host with files, a clock, and a shell that runs the commands it gets. The commands are read as
a shell reads them; what the utilities in them do to the files is `Carried`, and how far a
command gets, what Docker and the probes do, and what is listed is left open. So is the
registry.
-/

namespace Rustmote

open Interaction (Env)
open Interaction.Prog (Always)
open FileTree

/-! ### The actions of the commands -/

theorem actions_testDirExists {path : PathBuf} {cmd : Str}
    (h : Commands.testDirExists path = .ok cmd) : actions cmd = some [.testDir (place path)] := by
  obtain ⟨p, hstr, -, hlex⟩ := lex_testDirExists h
  rw [actions_of_lex hlex, place_of_toStr hstr]
  simp [Shell.parseTokens, Template.tokens, Template.word, pipelineAction, simpleAction]

theorem actions_testFileExists {path : PathBuf} {cmd : Str}
    (h : Commands.testFileExists path = .ok cmd) : actions cmd = some [.testFile (place path)] := by
  obtain ⟨p, hstr, -, hlex⟩ := lex_testFileExists h
  rw [actions_of_lex hlex, place_of_toStr hstr]
  simp [Shell.parseTokens, Template.tokens, Template.word, pipelineAction, simpleAction]

theorem actions_mkdirP {path : PathBuf} {cmd : Str} (h : Commands.mkdirP path = .ok cmd) :
    actions cmd = some [.mkdir (place path)] := by
  obtain ⟨p, hstr, -, hlex⟩ := lex_mkdirP h
  rw [actions_of_lex hlex, place_of_toStr hstr]
  simp [Shell.parseTokens, Template.tokens, Template.word, pipelineAction, simpleAction]

theorem actions_catFile {path : PathBuf} {cmd : Str} (h : Commands.catFile path = .ok cmd) :
    actions cmd = some [.cat (place path)] := by
  obtain ⟨p, hstr, -, hlex⟩ := lex_catFile h
  rw [actions_of_lex hlex, place_of_toStr hstr]
  simp [Shell.parseTokens, Template.tokens, Template.word, pipelineAction, simpleAction]

theorem actions_remove {path : PathBuf} {p : Str} (h : Commands.validateRemotePath path = .ok p) :
    actions ("rm -rf ".toList ++ p) = some [.remove (place path)] := by
  obtain ⟨hstr, -, hlex⟩ := lex_remove h
  rw [actions_of_lex hlex, place_of_toStr hstr]
  simp [Shell.parseTokens, Template.tokens, Template.word, pipelineAction, simpleAction]

theorem actions_copyFile {src dst : PathBuf} {cmd : Str}
    (h : Commands.copyFile src dst = .ok cmd) :
    actions cmd = some [.copy (place src) (place dst)] := by
  obtain ⟨s, d, hsrc, hdst, -, -, hlex⟩ := lex_copyFile h
  rw [actions_of_lex hlex, place_of_toStr hsrc, place_of_toStr hdst]
  simp [Shell.parseTokens, Template.tokens, Template.word, pipelineAction, simpleAction]

theorem actions_writeFile {path : PathBuf} {content : Bytes} {cmd : Str}
    (h : Commands.writeFile path content = .ok cmd) :
    actions cmd = some [.decode (Base64.encode content) (scratchPlace path),
      .move (scratchPlace path) (place path), .chmod (place path)] := by
  obtain ⟨p, hstr, -, hlex⟩ := lex_writeFile h
  have hscratch : scratchPlace path = resolve (p ++ Commands.tmpSuffix) := by
    rw [scratchPlace, PathBuf.toStringLossy_of_toStr hstr]
  rw [actions_of_lex hlex, place_of_toStr hstr, hscratch]
  by_cases hnil : Base64.encode content = []
  · simp [Shell.parseTokens, Template.tokens, Template.word, pipelineAction, simpleAction,
      printed, hnil]
  · simp [Shell.parseTokens, Template.tokens, Template.word, pipelineAction, simpleAction,
      printed, hnil]

theorem actions_compose (verb : ComposeVerb) {arguments : Str} {path : PathBuf} {cmd : Str}
    (harguments : Shell.lex arguments = some (verb.words.map Template.word))
    (h : Commands.compose arguments path = .ok cmd) :
    actions cmd = some [.chdir (place path), .external] := by
  obtain ⟨p, hstr, -, hlex⟩ := lex_compose verb harguments h
  rw [actions_of_lex hlex, place_of_toStr hstr]
  cases verb <;>
    simp [Shell.parseTokens, Template.tokens, Template.word, ComposeVerb.words, pipelineAction,
      simpleAction]

theorem actions_tcpProbe (port : Nat) : actions (Commands.tcpProbe port) = some [.external] := by
  rw [actions_of_lex (lex_tcpProbe port)]
  simp [Shell.parseTokens, Template.tokens, Template.word, pipelineAction]

theorem actions_findBackups {backups : PathBuf} {cmd : Str}
    (h : RelayLifecycle.findBackups backups = .ok cmd) : actions cmd = some [.external] := by
  obtain ⟨p, -, -, hlex⟩ := lex_findBackups h
  rw [actions_of_lex hlex]
  simp [Shell.parseTokens, Template.tokens, Template.word, pipelineAction, simpleAction]

/-- A command that reads changes neither the files nor their modes. -/
theorem looks_of_reads {p : PathBuf} {cmd : Str} (h : Reads p cmd) :
    ∃ as, actions cmd = some as ∧ ∀ a ∈ as, a.Still = true ∧ ∀ q, a ≠ .chmod q := by
  cases h with
  | readOsRelease =>
    exact ⟨[.cat ["etc".toList, "os-release".toList]], by decide, by simp [Action.Still]⟩
  | checkDockerPresent => exact ⟨[.external], by decide, by simp [Action.Still]⟩
  | checkDockerComposeV2 => exact ⟨[.external], by decide, by simp [Action.Still]⟩
  | checkDockerComposeV1 => exact ⟨[.external], by decide, by simp [Action.Still]⟩
  | tcpProbe port => exact ⟨_, actions_tcpProbe port, by simp [Action.Still]⟩
  | testDir h => exact ⟨_, actions_testDirExists h, by simp [Action.Still]⟩
  | testFile h => exact ⟨_, actions_testFileExists h, by simp [Action.Still]⟩
  | cat h => exact ⟨_, actions_catFile h, by simp [Action.Still]⟩
  | composeUp h => exact ⟨_, actions_compose .up (by decide) h, by simp [Action.Still]⟩
  | composePull h => exact ⟨_, actions_compose .pull (by decide) h, by simp [Action.Still]⟩
  | composeConfig h => exact ⟨_, actions_compose .config (by decide) h, by simp [Action.Still]⟩
  | composePs h => exact ⟨_, actions_compose .ps (by decide) h, by simp [Action.Still]⟩
  | find h => exact ⟨_, actions_findBackups h, by simp [Action.Still]⟩

/-- **A command that reads leaves the files alone.** -/
theorem still_of_reads {p : PathBuf} {cmd : Str} (h : Reads p cmd) :
    ∃ as, actions cmd = some as ∧ ∀ a ∈ as, a.Still = true := by
  obtain ⟨as, has, hall⟩ := looks_of_reads h
  exact ⟨as, has, fun a ha => (hall a ha).1⟩

/-! ### Hosts -/

/-- A remote host, with the registry and the clocks: it answers every request from its state.
What is known of it are the shell and the utilities, and that time does not run backwards. -/
structure Host where
  /-- The states. -/
  World : Type
  /-- The answers. -/
  env : Env Request.Reply World
  /-- The files. -/
  tree : World → FileTree
  /-- The monotonic clock. -/
  clock : World → Nat
  /-- How many actions of a command are done. -/
  done : World → Str → Nat
  /-- A command does what its actions do. -/
  carried : ∀ w cmd as, actions cmd = some as →
    Carried as (done w cmd) (tree w) (tree (env.answer w (.exec cmd)).2)
  /-- The status is zero when all actions are done. -/
  status : ∀ w cmd as out, actions cmd = some as → (env.answer w (.exec cmd)).1 = .ok out →
    (out.exitCode = 0 ↔ as.length ≤ done w cmd)
  /-- `cat` prints the file. -/
  printed : ∀ w cmd p out, actions cmd = some [.cat p] → (env.answer w (.exec cmd)).1 = .ok out →
    out.exitCode = 0 → (tree w).fileAt p = some out.stdout
  /-- Only commands change files. -/
  quiet : ∀ w q, (∀ cmd, q ≠ .exec cmd) → tree (env.answer w q).2 = tree w
  /-- Time does not run backwards. -/
  forward : ∀ w q, clock w ≤ clock (env.answer w q).2
  /-- `Instant::now` reads the clock. -/
  instant : ∀ w, (env.answer w .instant).1 = clock (env.answer w .instant).2
  /-- A command takes time. -/
  takes : ∀ w cmd, clock w < clock (env.answer w (.exec cmd)).2

namespace Host

variable (H : Host)

/-- The reply to a command. -/
abbrev reply (w : H.World) (cmd : Str) : Except TransportError ExecOutput :=
  (H.env.answer w (.exec cmd)).1

/-- The state behind a command. -/
abbrev next (w : H.World) (cmd : Str) : H.World := (H.env.answer w (.exec cmd)).2

variable {H} {w w' : H.World} {cmd : Str}

/-- A command that reads leaves the files alone. -/
theorem tree_next_of_reads {p : PathBuf} (h : Reads p cmd) : H.tree (H.next w cmd) = H.tree w := by
  obtain ⟨as, has, hstill⟩ := still_of_reads h
  exact (H.carried w cmd as has).eq_of_still hstill

/-! ### Frames -/

/-- The command changes files of `R` only, however far it gets. -/
def Stays (R : Path → Prop) (cmd : Str) : Prop :=
  ∃ as, actions cmd = some as ∧ ∀ a ∈ as, ∀ q, a.Touches q → R q

theorem Stays.mono {R R' : Path → Prop} (h : Stays R cmd) (hR : ∀ q, R q → R' q) :
    Stays R' cmd := by
  obtain ⟨as, has, htouches⟩ := h
  exact ⟨as, has, fun a ha q hq => hR q (htouches a ha q hq)⟩

theorem Stays.sameFiles {R : Path → Prop} (h : Stays R cmd) :
    SameFiles R (H.tree w) (H.tree (H.next w cmd)) := by
  obtain ⟨as, has, htouches⟩ := h
  refine (H.carried w cmd as has).sameFiles.mono fun q hq => ?_
  obtain ⟨a, ha, hq⟩ := hq
  exact htouches a ha q hq

theorem stays_of_reads {p : PathBuf} {R : Path → Prop} (h : Reads p cmd) : Stays R cmd := by
  obtain ⟨as, has, hstill⟩ := still_of_reads h
  refine ⟨as, has, fun a ha q hq => ?_⟩
  have ha := hstill a ha
  cases a with
  | mkdir | copy | decode | move | remove => cases ha
  | _ => exact hq.elim

theorem stays_mkdirP {path : PathBuf} {R : Path → Prop} (h : Commands.mkdirP path = .ok cmd) :
    Stays R cmd := by
  refine ⟨_, actions_mkdirP h, fun a ha q hq => ?_⟩
  rw [List.mem_singleton] at ha
  subst ha
  exact hq.elim

theorem stays_copyFile {src dst : PathBuf} (h : Commands.copyFile src dst = .ok cmd) :
    Stays (Below (place dst)) cmd := by
  refine ⟨_, actions_copyFile h, fun a ha q hq => ?_⟩
  rw [List.mem_singleton] at ha
  subst ha
  exact hq

theorem stays_writeFile {path : PathBuf} {content : Bytes}
    (h : Commands.writeFile path content = .ok cmd) :
    Stays (fun q => Below (scratchPlace path) q ∨ Below (place path) q) cmd := by
  refine ⟨_, actions_writeFile h, fun a ha q hq => ?_⟩
  simp only [List.mem_cons, List.not_mem_nil, or_false] at ha
  rcases ha with rfl | rfl | rfl
  · exact .inl hq
  · exact hq
  · exact hq.elim

/-- **The frame of a run**: files outside of `R` stay as long as every command leaves them
alone. -/
theorem runs_sameFiles {α : Type} {prog : Relay α} {Q : α → Prop} {R : Path → Prop}
    {tr : List Event} {r : Except RustmoteError α} (hrun : H.env.Runs w prog tr r w')
    (h : Always (fun _ => True) (Asks True True (Stays R)) prog Q) : SameFiles R (H.tree w) (H.tree w') := by
  refine hrun.rel h (R := fun w w' => SameFiles R (H.tree w) (H.tree w'))
    (fun w => SameFiles.refl _ _) (fun _ _ _ h₁ h₂ => h₁.trans h₂) fun w q hq => ?_
  cases q with
  | exec cmd => exact Stays.sameFiles hq
  | _ =>
    rw [H.quiet w _ fun _ h => by cases h]
    exact SameFiles.refl _ _

/-- The command changes places of `R` only, however far it gets. -/
def Keeps (R : Path → Prop) (cmd : Str) : Prop :=
  ∃ as, actions cmd = some as ∧ ∀ a ∈ as, ∀ q, a.Makes q → R q

/-- Commands that read leave the files alone. -/
theorem tree_final {p : PathBuf} {timed online : Prop} {tr : List Event}
    (h : ∀ e ∈ tr, Asks timed online (Reads p) e.request) :
    H.tree (H.env.final w tr) = H.tree w := by
  refine H.env.final_rel (P := Asks timed online (Reads p))
    (R := fun w w' => H.tree w' = H.tree w) (fun w => rfl) (fun _ _ _ h₁ h₂ => h₂.trans h₁)
    (fun w q hq => ?_) h w
  cases q with
  | exec cmd => exact tree_next_of_reads hq
  | _ => exact H.quiet w _ fun _ h => by cases h

/-- A run of commands that read leaves the files alone. -/
theorem runs_tree {α : Type} {prog : Relay α} {Q : α → Prop} {p : PathBuf} {tr : List Event}
    {r : Except RustmoteError α} (hrun : H.env.Runs w prog tr r w')
    (h : Always (fun _ => True) (Asks True True (Reads p)) prog Q) : H.tree w' = H.tree w := by
  rw [← hrun.2.2]
  exact tree_final (hrun.requests h)

/-- The event is a command that exited with zero, or no command. -/
def Clean : Event → Prop
  | ⟨.exec _, reply⟩ => ∃ out, reply = .ok out ∧ out.exitCode = 0
  | _ => True

instance : DecidablePred Clean := fun
  | ⟨.exec _, .ok out⟩ =>
    if h : out.exitCode = 0 then isTrue ⟨out, rfl, h⟩
    else isFalse fun ⟨_, hout, hzero⟩ => h (Except.ok.inj hout ▸ hzero)
  | ⟨.exec _, .error _⟩ => isFalse fun ⟨_, hout, _⟩ => nomatch hout
  | ⟨.listTags _, _⟩ => isTrue trivial
  | ⟨.resolveDigest _ _, _⟩ => isTrue trivial
  | ⟨.now, _⟩ => isTrue trivial
  | ⟨.instant, _⟩ => isTrue trivial
  | ⟨.sleep _, _⟩ => isTrue trivial

/-! ### Running a command -/

open RelayLifecycle (exec execOk execBuilt)

/-- The run of one command. -/
theorem runs_exec_iff {tr : List Event} {r : Except RustmoteError ExecOutput} :
    H.env.Runs w (exec cmd) tr r w' ↔
      tr = [⟨.exec cmd, H.reply w cmd⟩] ∧ w' = H.next w cmd ∧
        r = (H.reply w cmd).mapError TransportError.toError := by
  unfold exec
  constructor
  · intro h
    obtain ⟨tr', htr, h⟩ := Env.runs_ask_iff.mp h
    obtain ⟨rfl, hr, hw⟩ := Env.runs_ofExcept_iff.mp h
    exact ⟨htr, hw, hr⟩
  · rintro ⟨rfl, rfl, rfl⟩
    exact Env.runs_ask_iff.mpr ⟨[], rfl, Env.runs_ofExcept_iff.mpr ⟨rfl, rfl, rfl⟩⟩

theorem eq_ok_of_mapError {reply : Except TransportError ExecOutput} {out : ExecOutput}
    (h : .ok out = reply.mapError TransportError.toError) : reply = .ok out := by
  cases reply with
  | ok out' => cases h; rfl
  | error e => cases h

/-- A command that exited with zero, as it ran. -/
structure Stepped (H : Host) (w : H.World) (cmd : Str) (tr : List Event) (w' : H.World) : Prop where
  /-- It is all that happened. -/
  trace : tr = [⟨.exec cmd, H.reply w cmd⟩]
  /-- The state behind it. -/
  world : w' = H.next w cmd
  /-- It exited with zero. -/
  zero : ∃ out, H.reply w cmd = .ok out ∧ out.exitCode = 0

/-- A command that did not exit with zero, as it ran. -/
structure Failed (H : Host) (w : H.World) (cmd : Str) (tr : List Event) (w' : H.World) : Prop where
  /-- It is all that happened. -/
  trace : tr = [⟨.exec cmd, H.reply w cmd⟩]
  /-- The state behind it. -/
  world : w' = H.next w cmd
  /-- It did not exit with zero. -/
  not_clean : ¬ Clean ⟨.exec cmd, H.reply w cmd⟩

/-- A required command exits with zero, or there is an error that is no failed health check. -/
theorem runs_execOk {tr : List Event} {r : Except RustmoteError ExecOutput}
    (h : H.env.Runs w (execOk cmd) tr r w') :
    (∃ out, r = .ok out ∧ H.reply w cmd = .ok out ∧ H.Stepped w cmd tr w') ∨
      (∃ e, r = .error e ∧ e ≠ .relayHealthCheckFailed ∧ H.Failed w cmd tr w') := by
  unfold execOk at h
  rcases Env.runs_bind_iff.mp h with ⟨e, rfl, hp⟩ | ⟨out, t₁, t₂, w₁, rfl, hp, hf⟩
  · obtain ⟨htr, hw, he⟩ := runs_exec_iff.mp hp
    cases hreply : H.reply w cmd with
    | ok out => rw [hreply] at he; cases he
    | error e' =>
      rw [hreply] at he
      obtain rfl := Except.error.inj he
      refine .inr ⟨_, rfl, by simp [TransportError.toError], htr, hw, ?_⟩
      rintro ⟨out, hout, -⟩
      rw [hreply] at hout
      cases hout
  · obtain ⟨rfl, rfl, hout⟩ := runs_exec_iff.mp hp
    obtain ⟨rfl, hr, rfl⟩ := Env.runs_ofExcept_iff.mp hf
    have hreply : H.reply w cmd = .ok out := by
      cases hreply : H.reply w cmd with
      | ok out' => rw [hreply] at hout; cases hout; rfl
      | error e' => rw [hreply] at hout; cases hout
    by_cases hcode : out.exitCode = 0
    · refine .inl ⟨out, ?_, hreply, rfl, rfl, out, hreply, hcode⟩
      rw [hr]
      exact ExecOutput.okFor_eq_ok_iff.mpr ⟨hcode, rfl⟩
    · refine .inr ⟨.remoteCommandFailed cmd out.exitCode out.stderrString, ?_, by simp, rfl, rfl, ?_⟩
      · rw [hr, ExecOutput.okFor, if_neg hcode]
        rfl
      · rintro ⟨out', hout', hcode'⟩
        rw [hreply] at hout'
        cases hout'
        exact hcode hcode'

/-- **A required command of a builder**: its arguments are refused, it exits with zero, or it
fails. -/
theorem runs_execBuilt {built : Except RustmoteError Str} {tr : List Event}
    {r : Except RustmoteError ExecOutput} (h : H.env.Runs w (execBuilt built) tr r w') :
    (∃ e, built = .error e ∧ r = .error e ∧ tr = [] ∧ w' = w) ∨
      ∃ cmd, built = .ok cmd ∧
        ((∃ out, r = .ok out ∧ H.reply w cmd = .ok out ∧ H.Stepped w cmd tr w') ∨
          ∃ e, r = .error e ∧ e ≠ .relayHealthCheckFailed ∧ H.Failed w cmd tr w') := by
  unfold execBuilt at h
  rcases Env.runs_bind_iff.mp h with ⟨e, rfl, hp⟩ | ⟨cmd, t₁, t₂, w₁, rfl, hp, hf⟩
  · obtain ⟨rfl, he, rfl⟩ := Env.runs_ofExcept_iff.mp hp
    exact .inl ⟨e, he.symm, rfl, rfl, rfl⟩
  · obtain ⟨rfl, hcmd, rfl⟩ := Env.runs_ofExcept_iff.mp hp
    exact .inr ⟨cmd, hcmd.symm, runs_execOk hf⟩

/-- A required command that returned. -/
theorem runs_execBuilt_ok {built : Except RustmoteError Str} {tr : List Event} {out : ExecOutput}
    (h : H.env.Runs w (execBuilt built) tr (.ok out) w') :
    ∃ cmd, built = .ok cmd ∧ H.reply w cmd = .ok out ∧ H.Stepped w cmd tr w' := by
  rcases runs_execBuilt h with ⟨e, -, h, -, -⟩ | ⟨cmd, hcmd, ⟨out', hout, hreply, hstep⟩ | ⟨e, h, -, -⟩⟩
  · cases h
  · cases hout
    exact ⟨cmd, hcmd, hreply, hstep⟩
  · cases h

/-- All actions of a command that exited with zero are done. -/
theorem Stepped.carried {tr : List Event} {as : List Action} (h : H.Stepped w cmd tr w')
    (has : actions cmd = some as) :
    Carried as (H.done w cmd) (H.tree w) (H.tree w') ∧ as.length ≤ H.done w cmd := by
  obtain ⟨out, hout, hcode⟩ := h.zero
  rw [h.world]
  exact ⟨H.carried w cmd as has, (H.status w cmd as out has hout).mp hcode⟩

/-- The one action of a command that exited with zero is done. -/
theorem Stepped.action {tr : List Event} {a : Action} (h : H.Stepped w cmd tr w')
    (ha : actions cmd = some [a]) : a.Done (H.tree w) (H.tree w') := by
  obtain ⟨hcarried, hlen⟩ := h.carried ha
  exact carried_one hcarried hlen

end Host

end Rustmote
