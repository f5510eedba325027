import Rustmote.RegistryClient.Http
import Rustmote.RelayLifecycle.Lineage

/-!
# Where the pins come from

A relay that was bootstrapped has pins that the registry has answered, and an update pins what it
was answered: `always_bootstrap_answered` and `pins_of_operates` say it of the events of an
operation. The registry client stands between the relay and the registry: what it returns it has
been given by the transport, now or by an earlier process (`Registry.returned_given`).

`pins_accounted` puts the two together: each digest that the state file ever pins was exchanged
with the registry, for the repository and the tag of the pin.
-/

namespace Rustmote

open Interaction (Env)
open Interaction.Prog (Always Run)
open Registry (ClientState ClientRun Logged HttpTransport RegistryCall CacheStore Initially)
open Host

/-- The registry has answered the digest, for the repository and the tag. -/
def AnsweredDigest (tr : List Event) (repo tag digest : Str) : Prop :=
  ⟨.resolveDigest repo tag, .ok digest⟩ ∈ tr

/-- The registry has answered the pin. -/
def AnsweredPin (tr : List Event) (pin : ImagePin) : Prop :=
  AnsweredDigest tr pin.repo pin.tag pin.digest

namespace RelayLifecycle

variable {self : RelayLifecycle} {log : List Event}

/-! ### What the programs return -/

theorem always_resolveDigest_answered (repo tag : Str) :
    Always (· ∈ log) (fun _ => True) (resolveDigest repo tag)
      (AnsweredDigest log repo tag) := by
  unfold resolveDigest
  refine Always.request trivial fun reply hreply => ?_
  cases reply with
  | ok digest => exact .ret hreply
  | error e => exact .fail

theorem always_resolvePins_answered (repo tag : Str) (now : DateTime) (services : List Str) :
    Always (· ∈ log) (fun _ => True) (resolvePins repo tag now services)
      fun pins => ∀ pin ∈ pins, AnsweredPin log pin := by
  induction services with
  | nil => exact .ret fun _ h => nomatch h
  | cons service services ih =>
    unfold resolvePins
    refine (always_resolveDigest_answered repo tag).bind fun digest hdigest => ?_
    exact ih.bind fun pins hpins => .ret (List.forall_mem_cons.mpr ⟨hdigest, hpins⟩)

theorem always_checkImages_answered (pins : List ImagePin) :
    Always (· ∈ log) (fun _ => True) (checkImages pins)
      fun updates => ∀ u ∈ updates, AnsweredDigest log u.repo u.latestTag u.latestDigest := by
  induction pins with
  | nil => exact .ret fun _ h => nomatch h
  | cons pin pins ih =>
    unfold checkImages
    refine .after (fun _ => trivial) fun tags => ?_
    refine (always_resolveDigest_answered pin.repo _).bind fun digest hdigest => ?_
    exact ih.bind fun updates hupdates => .ret (List.forall_mem_cons.mpr ⟨hdigest, hupdates⟩)

/-- What `check_updates` reports is answered. -/
theorem always_checkUpdates_answered (p : PathBuf) :
    Always (· ∈ log) (fun _ => True) (self.checkUpdates p)
      fun report => ∀ u ∈ report.images, AnsweredDigest log u.repo u.latestTag u.latestDigest := by
  unfold checkUpdates
  refine .after (fun _ => trivial) fun state => ?_
  exact (always_checkImages_answered state.images).bind fun images himages => .ret himages

/-- What a bootstrap of a fresh host reports is answered. -/
theorem always_bootstrap_answered (opts : BootstrapOptions) :
    Always (· ∈ log) (fun _ => True) (self.bootstrap opts) fun report =>
      report.alreadyInstalled = false → ∀ pin ∈ report.state.images, AnsweredPin log pin := by
  have hany : ∀ _ : Request, True := fun _ => trivial
  unfold bootstrap
  refine .after hany fun os => .after hany fun _ => .after hany fun found => ?_
  cases found with
  | true =>
    -- the report says that it is no fresh host
    show Always _ _ (self.bootstrapExisting opts os) _
    unfold bootstrapExisting
    refine .after hany fun found => ?_
    cases found with
    | true => exact .after hany fun state => .after hany fun key => .ret fun h => nomatch h
    | false => exact .fail
  | false =>
    show Always _ _ (self.bootstrapFresh opts os) _
    unfold bootstrapFresh settle
    refine .after hany fun now => ?_
    refine (always_resolvePins_answered _ _ now _).bind fun pins hpins => ?_
    refine .after hany fun compose => .after hany fun _ => .after hany fun _ => ?_
    exact .after hany fun _ => .after hany fun key => .ret fun _ => hpins

/-! ### What the state file pins -/

variable {H : Host} {p : PathBuf} {tr : List Event} {w w' : H.World} {state : RelayState}

/-- The new pins of an update are answered. -/
theorem answered_newPins {opts : UpdateOptions} {r : Except RustmoteError UpdateReport}
    {found : CheckUpdatesReport} {now : DateTime} {new : RelayState}
    (h : Applies H self opts w w' tr r found now new) :
    ∀ pin ∈ found.images.map (ImageUpdate.newPin now), AnsweredPin tr pin := by
  obtain ⟨t, w₁, hprefix, hchecked⟩ := h.checked
  intro pin hpin
  obtain ⟨u, hu, rfl⟩ := List.mem_map.mp hpin
  exact ((always_checkUpdates_answered opts.installPath).run hchecked.1
    fun e he => hprefix.subset he).2 found rfl u hu

/-- **What an operation pins** was pinned before, or the registry has answered it. -/
theorem pins_of_operates {seen : Observation} (hround : self.toml.RoundTrips)
    (h : Operates H self p w tr seen w') (hstate : HoldsState self.toml (H.tree w) p state) :
    ∃ state', HoldsState self.toml (H.tree w') p state' ∧
      ∀ pin ∈ state'.images, pin ∈ state.images ∨ AnsweredPin tr pin := by
  -- the files are left alone
  have hkeeps : H.tree w' = H.tree w →
      ∃ state', HoldsState self.toml (H.tree w') p state' ∧
        ∀ pin ∈ state'.images, pin ∈ state.images ∨ AnsweredPin tr pin := fun htree =>
    ⟨state, by rwa [htree], fun _ hpin => .inl hpin⟩
  cases h with
  | checkUpdates hrun => exact hkeeps (runs_tree hrun always_checkUpdates)
  | status hrun => exact hkeeps (runs_tree hrun always_status)
  | bootstrap hpath htruth hrun =>
    subst hpath
    exact hkeeps (runs_bootstrap_found htruth hrun (isDir_of_holdsState hstate)).1
  | update hpath hlists hrestores hrun =>
    subst hpath
    rcases runs_update_applies hrun hstate with ⟨hleading, -⟩ | ⟨found, now, happlies⟩
    · have hsame := stateFile_of_leading (H := H) (w := w) hleading
      rw [hrun.2.2] at hsame
      exact ⟨state, hstate.congr hsame.symm, fun _ hpin => .inl hpin⟩
    · obtain ⟨raw, hraw, hparse⟩ := hstate
      rcases stateFile_of_applies happlies hraw hlists hrestores with ⟨hwrites, -⟩ | ⟨-, hsame⟩
      · exact ⟨_, hwrites.holdsState hround, fun pin hpin =>
          .inr (answered_newPins happlies pin hpin)⟩
      · exact ⟨state, ⟨raw, hsame, hparse⟩, fun _ hpin => .inl hpin⟩

/-- **What operations one after another pin** was pinned before, or the registry has answered it to
one of them. -/
theorem pins_of_history {seen : List Observation} (hround : self.toml.RoundTrips)
    (h : History H self p w tr seen w') (hstate : HoldsState self.toml (H.tree w) p state) :
    ∃ final, HoldsState self.toml (H.tree w') p final ∧
      ∀ pin ∈ final.images, pin ∈ state.images ∨ AnsweredPin tr pin := by
  induction h generalizing state with
  | nil => exact ⟨state, hstate, fun _ hpin => .inl hpin⟩
  | cons hop hsame _ ih =>
    obtain ⟨middle, hmiddle, hpins⟩ := pins_of_operates hround hop hstate
    obtain ⟨final, hfinal, hrest⟩ := ih (hmiddle.congr hsame.symm)
    refine ⟨final, hfinal, fun pin hpin => ?_⟩
    rcases hrest pin hpin with hpin | hanswered
    · exact (hpins pin hpin).imp_right (List.mem_append_left _)
    · exact .inr (List.mem_append_right _ hanswered)

/-! ### Through the client -/

/-- An answer with a digest is what the client returned. -/
def Served (log : List Logged) : Event → Prop
  | ⟨.resolveDigest repo tag, .ok digest⟩ =>
    ∃ l ∈ log, l.returned = some ⟨.resolveDigest repo tag, .ok digest⟩
  | _ => True

instance decidableServed (log : List Logged) : (e : Event) → Decidable (Served log e)
  | ⟨.resolveDigest repo tag, .ok digest⟩ =>
    inferInstanceAs (Decidable (∃ l ∈ log, l.returned = some ⟨.resolveDigest repo tag, .ok digest⟩))
  | ⟨.resolveDigest _ _, .error _⟩ => isTrue trivial
  | ⟨.listTags _, _⟩ => isTrue trivial
  | ⟨.exec _, _⟩ => isTrue trivial
  | ⟨.now, _⟩ => isTrue trivial
  | ⟨.instant, _⟩ => isTrue trivial
  | ⟨.sleep _, _⟩ => isTrue trivial

/-- The digest of the pin was there when the client was built, or it was exchanged for the
repository and the tag of the pin. -/
def Accounted (toml : TomlFormat CacheStore) (start : ClientState) (transport : HttpTransport)
    (log : List Logged) (pin : ImagePin) : Prop :=
  Initially toml start (.resolveDigest pin.repo pin.tag) pin.digest ∨
    ∃ l ∈ log, ∃ i files tr,
      l.event = .answered i (.resolveDigest pin.repo pin.tag) (.ok pin.digest) files ∧
        transport.Exchanged (.resolveDigest pin.repo pin.tag) pin.digest tr

variable {toml : TomlFormat CacheStore} {start s : ClientState} {transport : HttpTransport}
  {calls : List Logged}

/-- What is answered to the relay is accounted for. -/
theorem accounted_of_answered (hround : toml.RoundTrips) (hidle : start.pending = [])
    (hrun : ClientRun toml start calls s)
    (haccepted : ∀ l ∈ calls, ∀ call now, l.event = .called call now → call.Accepted)
    (hexchanges : ∀ l ∈ calls, ∀ i call answer files, l.event = .answered i call answer files →
      ∃ tr, Run (transport.perform call) tr (some answer))
    {pin : ImagePin} (hserved : ∀ e ∈ tr, Served calls e) (h : AnsweredPin tr pin) :
    Accounted toml start transport calls pin := by
  obtain ⟨l, hl, hreturned⟩ := hserved _ h
  obtain ⟨pre, post, hcalls⟩ := List.append_of_mem hl
  refine (Registry.returned_given hround hidle hrun haccepted hcalls hreturned).imp_right
    fun hgiven => Registry.exchanged_of_given ?_ hexchanges
  rw [hcalls, ← List.singleton_append, ← List.append_assoc]
  exact hgiven.append post

/-- **Every pin is accounted for**: behind a bootstrap that has installed the relay, and behind any
operations and failures since, each digest that the state file pins was exchanged with the
registry for the repository and the tag of its pin, or the client was built with it. -/
theorem pins_accounted (hround : self.toml.RoundTrips) (hcache : toml.RoundTrips)
    (hidle : start.pending = []) (hrun : ClientRun toml start calls s)
    (haccepted : ∀ l ∈ calls, ∀ call now, l.event = .called call now → call.Accepted)
    (hexchanges : ∀ l ∈ calls, ∀ i call answer files, l.event = .answered i call answer files →
      ∃ tr, Run (transport.perform call) tr (some answer))
    (htruth : H.Truthful) {opts : BootstrapOptions} {report : BootstrapReport}
    {w₁ w₂ w₃ : H.World} {first rest : List Event} {seen : List Observation}
    (hbootstrap : H.env.Runs w (self.bootstrap opts) first (.ok report) w₁)
    (hnew : report.alreadyInstalled = false)
    (hsame : (H.tree w₂).fileAt (place (statePath opts.installPath)) =
      (H.tree w₁).fileAt (place (statePath opts.installPath)))
    (hhistory : History H self opts.installPath w₂ rest seen w₃)
    (hserved : ∀ e ∈ first ++ rest, Served calls e) :
    ∃ final, HoldsState self.toml (H.tree w₃) opts.installPath final ∧
      ∀ pin ∈ final.images, Accounted toml start transport calls pin := by
  have hinstalled := (runs_bootstrap_installed hround htruth hbootstrap hnew).state
  obtain ⟨final, hfinal, hpins⟩ := pins_of_history hround hhistory (hinstalled.congr hsame.symm)
  refine ⟨final, hfinal, fun pin hpin => ?_⟩
  have hanswered : AnsweredPin (first ++ rest) pin := by
    rcases hpins pin hpin with hold | hnow
    · have hfirst := ((@always_bootstrap_answered self first opts).run hbootstrap.1
        fun _ he => he).2 report rfl
      exact List.mem_append_left _ (hfirst hnew pin hold)
    · exact List.mem_append_right _ hnow
  exact accounted_of_answered hcache hidle hrun haccepted hexchanges hserved hanswered

/-- The call of the sample bootstrap. -/
def digestCall : RegistryCall := .resolveDigest Sample.repo "1.1.10".toList

/-- The store behind it. -/
def digestStore : CacheStore :=
  CacheStore.empty.putDigest Sample.repo "1.1.10".toList (Sample.digest 'b') Sample.updatedAt

/-- That store as a file. -/
def digestText : Str :=
  "[tags]\n\n[digests.\"rustdesk/rustdesk-server:1.1.10\"]\n".toList ++
    "cached_at = \"2026-04-19T12:34:56Z\"\ndigest = \"".toList ++ Sample.digest 'b' ++ "\"\n".toList

/-- `toml`, with this text for that store. -/
def digestToml : TomlFormat CacheStore := .ofTable [(digestStore, digestText)]

/-- The client before the call. -/
def digestStart : ClientState := Registry.freshClient Registry.cacheFile 3600000000000

/-- The client while the call waits. -/
def digestWaiting : ClientState :=
  { digestStart with pending := [(digestCall, Sample.updatedAt)] }

/-- The client that has its answer. -/
def digestEnd : ClientState :=
  ⟨⟨digestStore, some Registry.cacheFile, 3600000000000⟩, some digestText, []⟩

/-- The call, and its answer. -/
def digestLog : List Logged :=
  [⟨digestStart, .called digestCall Sample.updatedAt, none, digestWaiting⟩,
    ⟨digestWaiting, .answered 0 digestCall (.ok (Sample.digest 'b')) .succeed,
      some ⟨digestCall, .ok (Sample.digest 'b')⟩, digestEnd⟩]

theorem digestLog_run : ClientRun digestToml digestStart digestLog digestEnd := by
  have h₀ : ClientRun digestToml digestStart [] _ := .start
  have h₁ := h₀.step (show Registry.step digestToml _ (.called digestCall Sample.updatedAt) =
    some (digestWaiting, none) by decide +kernel)
  exact h₁.step (show Registry.step digestToml digestWaiting
    (.answered 0 digestCall (.ok (Sample.digest 'b')) .succeed) =
      some (digestEnd, some ⟨digestCall, .ok (Sample.digest 'b')⟩) by decide +kernel)

/-- The response with the digest. -/
def digestResponse : Registry.HttpResponse :=
  ⟨⟨200, "200 OK".toList⟩, fun name =>
    if name = "Docker-Content-Digest".toList then some (Utf8.encode (Sample.digest 'b')) else none,
    .ok []⟩

theorem exchanged_digest : ∃ tr,
    HttpTransport.hub.Exchanged digestCall (Sample.digest 'b') tr :=
  ⟨_, Registry.HttpTransport.okResponse Registry.HttpTransport.tokenBody, "t".toList,
    digestResponse, rfl, ⟨rfl, by decide⟩, rfl, by
      show Registry.HttpTransport.contentDigest digestResponse = some (Sample.digest 'b') ∧
        "sha256:".toList <+: Sample.digest 'b'
      decide +kernel⟩

/-- The events of a status behind the sample bootstrap. -/
def statusTrace : List Event :=
  (Sample.host fun _ _ => none).env.trace bootstrapEnd (bootstrapRelay.status Sample.path)

/-- The host behind it. -/
def statusEnd : Script.World :=
  (Sample.host fun _ _ => none).env.final bootstrapEnd statusTrace

/-- What the sample bootstrap pins, and a status behind it leaves, was exchanged. -/
theorem pins_accounted_sample :
    ∃ w final, HoldsState bootstrapRelay.toml w Sample.path final ∧
      ∀ pin ∈ final.images,
        Accounted digestToml digestStart HttpTransport.hub digestLog pin := by
  have hcomputed : ((Sample.host fun _ _ => none).env.value emptyStart
      (bootstrapRelay.bootstrap bootstrapOptions)).map BootstrapReport.alreadyInstalled =
        some false ∧
      ((Sample.host fun _ _ => none).env.value bootstrapEnd
        (bootstrapRelay.status Sample.path)).isSome = true ∧
      ∀ e ∈ bootstrapTrace emptyStart ++ statusTrace, Served digestLog e := by
    decide +kernel
  obtain ⟨report, hreport, hnew⟩ := Option.map_eq_some_iff.mp hcomputed.1
  obtain ⟨found, hfound⟩ := Option.isSome_iff_exists.mp hcomputed.2.1
  have hround : bootstrapRelay.toml.RoundTrips := by
    refine Toml.roundTrips_ofTable ?_ ?_
    · decide +kernel
    · decide +kernel
  have hcache : digestToml.RoundTrips := by
    refine TomlFormat.roundTrips_ofTable (fun e he e' he' _ => ?_) fun e he => ?_
    · rw [List.mem_singleton.mp he, List.mem_singleton.mp he']
    · rw [List.mem_singleton.mp he]
      decide +kernel
  have hidle : digestStart.pending = [] := rfl
  have haccepted : ∀ l ∈ digestLog, ∀ call now, l.event = .called call now → call.Accepted := by
    intro l hl call now hevent
    simp only [digestLog, List.mem_cons, List.not_mem_nil, or_false] at hl
    rcases hl with rfl | rfl
    · cases hevent
      exact ⟨Sample.repo, by decide⟩
    · cases hevent
  have hexchanges : ∀ l ∈ digestLog, ∀ i call answer files,
      l.event = .answered i call answer files →
        ∃ tr, Run (HttpTransport.hub.perform call) tr (some answer) := by
    intro l hl i call answer files hevent
    simp only [digestLog, List.mem_cons, List.not_mem_nil, or_false] at hl
    rcases hl with rfl | rfl
    · cases hevent
    · cases hevent
      exact exchanged_digest.imp fun _ => Registry.HttpTransport.run_perform_ok_iff.mpr
  have hfirst : (Sample.host fun _ _ => none).env.Runs emptyStart
      (bootstrapRelay.bootstrap bootstrapOptions) (bootstrapTrace emptyStart) (.ok report)
      bootstrapEnd := Env.runs_value hreport
  have hruns : (Sample.host fun _ _ => none).env.Runs bootstrapEnd
      (bootstrapRelay.status Sample.path) statusTrace (.ok found) statusEnd := Env.runs_value hfound
  have hstatus := Operates.status hruns
  have hrest := History.next hstatus .nil
  have hsame := Eq.refl (((Sample.host fun _ _ => none).tree bootstrapEnd).fileAt
    (place (statePath bootstrapOptions.installPath)))
  have hserved : ∀ e ∈ bootstrapTrace emptyStart ++ (statusTrace ++ []), Served digestLog e := by
    rw [List.append_nil]
    exact hcomputed.2.2
  obtain ⟨final, hfinal, hpins⟩ := pins_accounted hround hcache hidle digestLog_run haccepted
    hexchanges truthful_sample hfirst hnew hsame hrest hserved
  exact ⟨_, final, hfinal, hpins⟩

end RelayLifecycle

end Rustmote
