import Rustmote.RelayLifecycle.Effects

/-!
# Runs of bootstrap

`bootstrap` looks at the host, and on a host without the install directory it resolves and
renders the pins before it changes anything. `runs_bootstrap` splits a run there: it was
refused, or it found an install, or it goes on with pins that the renderer has accepted.
-/

namespace Rustmote

open Interaction (Env)
open Interaction.Prog (Always)
open FileTree

/-! ### Digests -/

/-- The digests that the registry answered. -/
def digests (tr : List Event) : List Str :=
  tr.filterMap fun
    | ⟨.resolveDigest _ _, .ok digest⟩ => some digest
    | _ => none

theorem digests_append (t₁ t₂ : List Event) : digests (t₁ ++ t₂) = digests t₁ ++ digests t₂ :=
  List.filterMap_append

/-- Without the registry there are none. -/
theorem digests_of_offline {timed : Prop} {C : Str → Prop} {tr : List Event}
    (h : ∀ e ∈ tr, Asks timed False C e.request) : digests tr = [] := by
  rw [digests, List.filterMap_eq_nil_iff]
  rintro ⟨q, reply⟩ he
  cases q with
  | resolveDigest repo tag => exact (h _ he).elim
  | _ => rfl

/-- The pins of a bootstrap, one for each service. -/
def resolvedPins (opts : BootstrapOptions) (now : DateTime) (found : List Str) : List ImagePin :=
  List.zipWith (fun service digest => ⟨service, opts.repo, opts.tag, digest, now⟩) opts.services found

namespace Host

open RelayLifecycle

variable {H : Host} {w w' : H.World} {tr : List Event} {self : RelayLifecycle}
  {opts : BootstrapOptions}

/-- **The pins are the registry's answers**, one for each service. -/
theorem runs_resolvePins_ok {repo tag : Str} {now : DateTime} {services : List Str}
    {pins : List ImagePin}
    (h : H.env.Runs w (resolvePins repo tag now services) tr (.ok pins) w') :
    (digests tr).length = services.length ∧
      pins = List.zipWith (fun service digest => ⟨service, repo, tag, digest, now⟩) services
        (digests tr) := by
  induction services generalizing w w' tr pins with
  | nil =>
    obtain ⟨rfl, hr, -⟩ := Env.runs_ret_iff.mp h
    cases hr
    exact ⟨rfl, rfl⟩
  | cons service services ih =>
    unfold resolvePins at h
    obtain ⟨digest, t₁, t₂, w₁, rfl, hdigest, h₁⟩ := Env.runs_bind_ok h
    obtain ⟨rest, t₃, t₄, w₂, rfl, hrest, h₂⟩ := Env.runs_bind_ok h₁
    obtain ⟨rfl, hr, -⟩ := Env.runs_ret_iff.mp h₂
    cases hr
    have ht₁ : digests t₁ = [digest] := by
      unfold resolveDigest at hdigest
      obtain ⟨t₅, rfl, hreply⟩ := Env.runs_request_iff.mp hdigest
      obtain ⟨rfl, heq, -⟩ := Env.runs_ofExcept_iff.mp hreply
      cases hanswer : (H.env.answer w (.resolveDigest repo tag)).1 with
      | ok d =>
        rw [hanswer] at heq
        cases heq
        rfl
      | error e =>
        rw [hanswer] at heq
        cases heq
    obtain ⟨hlen, rfl⟩ := ih hrest
    rw [List.append_nil, digests_append, ht₁]
    exact ⟨by simp [hlen], rfl⟩

/-- The test of a directory goes by the exit code. -/
theorem runs_pathExists_ok {path : PathBuf} {found : Bool}
    (h : H.env.Runs w (pathExists path true) tr (.ok found) w') :
    ∃ cmd out, Commands.testDirExists path = .ok cmd ∧ H.reply w cmd = .ok out ∧
      found = decide (out.exitCode = 0) := by
  unfold pathExists at h
  obtain ⟨cmd, t₁, t₂, w₁, -, hlift, h₁⟩ := Env.runs_bind_ok h
  obtain ⟨-, hcmd, rfl⟩ := Env.runs_lift_ok hlift
  obtain ⟨out, t₃, t₄, w₂, -, hexec, h₂⟩ := Env.runs_bind_ok h₁
  obtain ⟨-, -, hreply⟩ := runs_exec_iff.mp hexec
  obtain ⟨-, hfound, -⟩ := Env.runs_ret_iff.mp h₂
  exact ⟨cmd, out, hcmd, eq_ok_of_mapError hreply, Except.ok.inj hfound⟩

/-- A directory that was found is there. -/
theorem runs_dirExists {path : PathBuf}
    (h : H.env.Runs w (pathExists path true) tr (.ok true) w') :
    (H.tree w).isDir (place path) = true := by
  obtain ⟨cmd, out, hcmd, hreply, hzero⟩ := runs_pathExists_ok h
  have hactions := actions_testDirExists hcmd
  have hcode : out.exitCode = 0 := of_decide_eq_true hzero.symm
  have hdone := (H.status w cmd _ out hactions hreply).mp hcode
  exact (carried_one (H.carried w cmd _ hactions) hdone).1

/-- How a run of `bootstrap` came to its end. -/
inductive Boots (H : Host) (relay : RelayLifecycle) (opts : BootstrapOptions) (w w' : H.World)
    (tr : List Event) (r : Except RustmoteError BootstrapReport) : Prop where
  /-- It was refused before anything was changed. -/
  | refused {e : RustmoteError} (hr : r = .error e)
      (hreads : ∀ e ∈ tr, Asks False True (Inspects opts.installPath) e.request)
  /-- It found an install. -/
  | existing {t₁ t₂ : List Event} {w₁ : H.World} {os : OsKind} (htr : tr = t₁ ++ t₂)
      (hreads : ∀ e ∈ t₁, Asks False False (Inspects opts.installPath) e.request)
      (hfinal : H.env.final w t₁ = w₁) (hdir : (H.tree w).isDir (place opts.installPath) = true)
      (hrun : H.env.Runs w₁ (relay.bootstrapExisting opts os) t₂ r w')
  /-- It goes on with pins that the renderer has accepted. -/
  | fresh {t₁ t₂ : List Event} {w₁ : H.World} {os : OsKind} {now : DateTime}
      {pins : List ImagePin} {compose : Str} (htr : tr = t₁ ++ t₂)
      (hreads : ∀ e ∈ t₁, Asks False True (Inspects opts.installPath) e.request)
      (hfinal : H.env.final w t₁ = w₁) (hnow : Shown t₁ now)
      (hlen : (digests t₁).length = opts.services.length)
      (hpins : pins = resolvedPins opts now (digests t₁))
      (hrender : renderComposeWithPins opts.composeTemplate pins = .ok compose)
      (hrun : H.env.Runs w₁ (relay.settle opts os now pins compose) t₂ r w')

/-- **A run of `bootstrap`**. -/
theorem runs_bootstrap {r : Except RustmoteError BootstrapReport}
    (h : H.env.Runs w (self.bootstrap opts) tr r w') : Boots H self opts w w' tr r := by
  have hwiden : ∀ {t : List Event},
      (∀ e ∈ t, Asks False False (Inspects opts.installPath) e.request) →
        ∀ e ∈ t, Asks False True (Inspects opts.installPath) e.request :=
    fun ht e he => Asks.widen id (fun h => h.elim) _ (ht e he)
  unfold bootstrap at h
  rcases Env.runs_bind_iff.mp h with ⟨e, hr, hos⟩ | ⟨os, t₁, s₁, w₁, htr, hos, h₁⟩
  · exact .refused hr (hos.requests (inspects_osOf _))
  have hreads₁ : ∀ e ∈ t₁, Asks False False (Inspects opts.installPath) e.request :=
    hos.requests (inspects_osOf _)
  rcases Env.runs_bind_iff.mp h₁ with ⟨e, hr, hdocker⟩ | ⟨u, t₂, s₂, w₂, rfl, hdocker, h₂⟩
  · refine .refused hr ?_
    rw [htr]
    exact List.forall_mem_append.mpr ⟨hwiden hreads₁, hdocker.requests inspects_ensureDockerStack⟩
  have hreads₂ : ∀ e ∈ t₂, Asks False False (Inspects opts.installPath) e.request :=
    hdocker.requests inspects_ensureDockerStack
  rcases Env.runs_bind_iff.mp h₂ with ⟨e, hr, hfound⟩ | ⟨found, t₃, s₃, w₃, rfl, hfound, h₃⟩
  · refine .refused hr ?_
    rw [htr]
    exact List.forall_mem_append.mpr ⟨hwiden hreads₁,
      List.forall_mem_append.mpr ⟨hwiden hreads₂, hfound.requests inspects_installExists⟩⟩
  have hreads : ∀ e ∈ t₁ ++ (t₂ ++ t₃), Asks False False (Inspects opts.installPath) e.request :=
    List.forall_mem_append.mpr ⟨hreads₁,
      List.forall_mem_append.mpr ⟨hreads₂, hfound.requests inspects_installExists⟩⟩
  have hfinal : H.env.final w (t₁ ++ (t₂ ++ t₃)) = w₃ := by
    rw [Env.final_append, hos.2.2, Env.final_append, hdocker.2.2, hfound.2.2]
  cases found with
  | true =>
    have hdir := runs_dirExists hfound
    rw [runs_tree hdocker (always_ensureDockerStack (p := opts.installPath)),
      runs_tree hos (always_osOf (p := opts.installPath) _)] at hdir
    exact .existing (by rw [htr]; simp) hreads hfinal hdir h₃
  | false =>
  replace h₃ : H.env.Runs w₃ (self.bootstrapFresh opts os) s₃ r w' := h₃
  unfold bootstrapFresh at h₃
  obtain ⟨s₄, rfl, h₄⟩ := Env.runs_request_iff.mp h₃
  rcases Env.runs_bind_iff.mp h₄ with ⟨e, hr, hpins⟩ | ⟨pins, t₅, s₅, w₅, rfl, hpins, h₅⟩
  · refine .refused hr ?_
    rw [htr, ← List.append_assoc t₂, ← List.append_assoc]
    refine List.forall_mem_append.mpr ⟨hwiden hreads, List.forall_mem_cons.mpr ⟨trivial, ?_⟩⟩
    exact hpins.requests (always_resolvePins _ _ _ _)
  have hpinned : ∀ e ∈ t₅, Asks False True (Inspects opts.installPath) e.request :=
    hpins.requests (always_resolvePins _ _ _ _)
  obtain ⟨hlen, hresolved⟩ := runs_resolvePins_ok hpins
  generalize hnow : (H.env.answer w₃ .now).1 = now at *
  have hall : ∀ e ∈ (t₁ ++ (t₂ ++ t₃)) ++ ⟨.now, now⟩ :: t₅,
      Asks False True (Inspects opts.installPath) e.request :=
    List.forall_mem_append.mpr ⟨hwiden hreads, List.forall_mem_cons.mpr ⟨trivial, hpinned⟩⟩
  rcases Env.runs_bind_iff.mp h₅ with ⟨e, hr, hrender⟩ | ⟨compose, t₆, s₆, w₆, rfl, hrender, h₆⟩
  · obtain ⟨rfl, -, -⟩ := Env.runs_ofExcept_iff.mp hrender
    refine .refused hr ?_
    rw [htr]
    simpa using hall
  obtain ⟨rfl, hcompose, rfl⟩ := Env.runs_lift_ok hrender
  have hdigests : digests ((t₁ ++ (t₂ ++ t₃)) ++ ⟨.now, now⟩ :: t₅) = digests t₅ := by
    rw [digests_append, digests_of_offline hreads]
    rfl
  refine .fresh ?_ hall ?_ ?_ ?_ ?_ hcompose h₆
  · rw [htr]
    simp
  · rw [Env.final_append, hfinal, Env.final_cons, Env.after]
    exact hpins.2.2
  · simp [Shown]
  · rw [hdigests]
    exact hlen
  · rw [hdigests]
    exact hresolved

/-! ### Behind the renderer -/

/-- How a layout went through: three directories are made, and then three files are written, one
behind the other. -/
inductive LaysOut (H : Host) (relay : RelayLifecycle) (opts : BootstrapOptions) (compose : Str)
    (state : RelayState) (w w' : H.World) : Prop where
  | through {w₁ w₂ : H.World} (w₃ w₄ w₅ : H.World) {t₁ t₂ t₃ : List Event}
      {out₁ out₂ out₃ : ExecOutput} (text : Str)
      (hinstall : (H.tree w).mkdirs (place opts.installPath) = some (H.tree w₁))
      (hdata : (H.tree w₁).mkdirs (place opts.installPath ++ ["data".toList]) = some (H.tree w₂))
      (hbackups : (H.tree w₂).mkdirs (place opts.installPath ++ ["backups".toList]) =
        some (H.tree w₃))
      (hcompose : H.env.Runs w₃ (execBuilt (Commands.writeFile (composePath opts.installPath)
        (Utf8.encode compose))) t₁ (.ok out₁) w₄)
      (henv : H.env.Runs w₄ (execBuilt (Commands.writeFile (envPath opts.installPath)
        (Utf8.encode opts.envContents))) t₂ (.ok out₂) w₅)
      (htext : state.toTomlString relay.toml = .ok text)
      (hstate : H.env.Runs w₅ (execBuilt (Commands.writeFile (statePath opts.installPath)
        (Utf8.encode text))) t₃ (.ok out₃) w')

/-- A directory is not below its names. -/
theorem not_below_child (d : Path) (x : Str) : ¬ Below (d ++ [x]) d := by
  intro hbelow
  have hlen := hbelow.length_le
  rw [List.length_append, List.length_singleton] at hlen
  omega

/-- The directories of a layout are in no file's place. -/
theorem node_of_mkdirs {t t₁ t₂ t₃ : FileTree} {d : Path} (hinstall : t.mkdirs d = some t₁)
    (hdata : t₁.mkdirs (d ++ ["data".toList]) = some t₂)
    (hbackups : t₂.mkdirs (d ++ ["backups".toList]) = some t₃) {x : Str}
    (hx : x ≠ "data".toList ∧ x ≠ "backups".toList) : t₃.node (d ++ [x]) = t.node (d ++ [x]) := by
  rw [mkdirs_eq_some hbackups, if_neg, mkdirs_eq_some hdata, if_neg, mkdirs_eq_some hinstall,
    if_neg]
  · exact not_below_child d x
  · rw [List.prefix_append_right_inj]
    simpa using hx.1
  · rw [List.prefix_append_right_inj]
    simpa using hx.2

/-- **A layout that went through**. -/
theorem runs_layOut {compose : Str} {state : RelayState}
    (h : H.env.Runs w (self.layOut opts compose state) tr (.ok ()) w') :
    LaysOut H self opts compose state w w' := by
  unfold layOut at h
  obtain ⟨_, t₁, _, w₁, -, hinstall, h₁⟩ := Env.runs_bind_ok h
  obtain ⟨_, t₂, _, w₂, -, hdata, h₂⟩ := Env.runs_bind_ok h₁
  obtain ⟨_, t₃, _, w₃, -, hbackups, h₃⟩ := Env.runs_bind_ok h₂
  obtain ⟨_, t₄, _, w₄, -, hcompose, h₄⟩ := Env.runs_bind_ok h₃
  obtain ⟨_, t₅, _, w₅, -, henv, h₅⟩ := Env.runs_bind_ok h₄
  obtain ⟨text, t₆, _, w₆, -, hlift, h₆⟩ := Env.runs_bind_ok h₅
  obtain ⟨-, htext, rfl⟩ := Env.runs_lift_ok hlift
  obtain ⟨_, t₇, _, w₇, -, hstate, h₇⟩ := Env.runs_bind_ok h₆
  obtain ⟨-, -, rfl⟩ := Env.runs_ret_iff.mp h₇
  have hmkdata := runs_mkdirP_ok hdata
  have hmkbackups := runs_mkdirP_ok hbackups
  rw [place_dataPath] at hmkdata
  rw [place_backupsPath] at hmkbackups
  exact .through _ _ _ text (runs_mkdirP_ok hinstall) hmkdata hmkbackups hcompose henv htext hstate

/-- **What a bootstrap changes, its layout has changed**: what comes behind it only reads. -/
theorem runs_settle_ok {os : OsKind} {now : DateTime} {pins : List ImagePin} {compose : Str}
    {report : BootstrapReport}
    (h : H.env.Runs w (self.settle opts os now pins compose) tr (.ok report) w') :
    report.state = .newBootstrap now opts.rustmoteVersion pins ∧
      ∃ t w₁, H.env.Runs w (self.layOut opts compose report.state) t (.ok ()) w₁ ∧
        H.tree w' = H.tree w₁ := by
  unfold settle at h
  obtain ⟨_, t₁, s₁, w₁, -, hlayout, h₁⟩ := Env.runs_bind_ok h
  obtain ⟨_, t₂, s₂, w₂, -, hup, h₂⟩ := Env.runs_bind_ok h₁
  obtain ⟨_, t₃, s₃, w₃, -, hcheck, h₃⟩ := Env.runs_bind_ok h₂
  obtain ⟨key, t₄, s₄, w₄, -, hkey, h₄⟩ := Env.runs_bind_ok h₃
  obtain ⟨-, hreport, rfl⟩ := Env.runs_ret_iff.mp h₄
  cases hreport
  refine ⟨rfl, t₁, w₁, hlayout, ?_⟩
  rw [runs_tree hkey (always_publicKey (p := opts.installPath)),
    runs_tree hcheck (always_healthCheck (p := opts.installPath) _),
    runs_compose_ok (fun _ => .composeUp) hup]

/-- Behind the renderer the registry is not asked. -/
theorem digests_settle {os : OsKind} {now : DateTime} {pins : List ImagePin} {compose : Str}
    {r : Except RustmoteError BootstrapReport}
    (hrender : renderComposeWithPins opts.composeTemplate pins = .ok compose)
    (h : H.env.Runs w (self.settle opts os now pins compose) tr r w') : digests tr = [] := by
  have hasks : Always (fun _ => True) (Asks True False (Issued opts.installPath
      (Written self.toml opts.installPath opts.composeTemplate) fun _ => True))
      (self.settle opts os now pins compose) fun _ => True := always_settle opts os now hrender
  exact digests_of_offline (h.requests hasks)

end Host

end Rustmote
