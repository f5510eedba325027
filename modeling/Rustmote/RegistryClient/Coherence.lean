import Rustmote.RegistryClient.Calls
import Rustmote.RelayLifecycle.Commands

/-!
# The two copies of the cache

A client with a cache path keeps its store twice, in memory and in the file. Behind every step of
a run from a missing file the file loads to the store (`Coherent`), so a restart loses nothing;
what the store holds is what the transport answered; and a step touches the entry of its own call
only.
-/

namespace Rustmote

namespace Registry

variable {toml : TomlFormat CacheStore} {s s' : ClientState} {event : ClientEvent}
  {returned : Option Returned} {log : List Logged} {path : PathBuf} {ttl : Nat}

/-- The transport gave this answer to this call. -/
def Given (log : List Logged) (call : RegistryCall) (reply : call.Reply) : Prop :=
  ∃ l ∈ log, ∃ i files, l.event = .answered i call (.ok reply) files

theorem Given.append {call : RegistryCall} {reply : call.Reply} (h : Given log call reply)
    (more : List Logged) : Given (log ++ more) call reply := by
  obtain ⟨l, hl, i, files, hevent⟩ := h
  exact ⟨l, List.mem_append_left _ hl, i, files, hevent⟩

/-- A repository that `validate_repo` accepts. -/
def RegistryCall.Accepted (call : RegistryCall) : Prop :=
  ∃ repo, Commands.validateRepo call.repo = .ok repo

/-- Calls are about accepted repositories, and file operations succeed. -/
def ClientEvent.Orderly : ClientEvent → Prop
  | .called call _ => call.Accepted
  | .answered _ _ _ files => files = .succeed
  | .restarted read => read = .ok ()

/-- An accepted repository has no colon. -/
theorem RegistryCall.Accepted.colon {call : RegistryCall} (h : call.Accepted) :
    ':' ∉ call.repo := by
  obtain ⟨repo, hrepo⟩ := h
  intro hmem
  unfold Commands.validateRepo at hrepo
  split_ifs at hrepo with _ hany
  · exact hany (List.any_eq_true.mpr ⟨':', hmem, by decide⟩)

/-- What holds behind every step. -/
structure Coherent (toml : TomlFormat CacheStore) (path : PathBuf) (log : List Logged)
    (s : ClientState) : Prop where
  /-- The client has its path. -/
  hasPath : s.client.cachePath = some path
  /-- The file loads to the store in memory. -/
  loads : CacheStore.loadFrom toml path (.ok ()) s.file = .ok s.client.cache
  /-- The store holds what the transport answered. -/
  given : ∀ call : RegistryCall, call.Accepted → ∀ cachedAt reply,
    s.client.cache.entry call = some (cachedAt, reply) → Given log call reply
  /-- The calls that wait are about accepted repositories. -/
  pending : ∀ waiting ∈ s.pending, waiting.1.Accepted

/-- A flush that succeeds writes what loads to the store. -/
theorem loadFrom_flush (hround : toml.RoundTrips) (htotal : toml.Total) {client : RegistryClient}
    (hpath : client.cachePath = some path) (file : Option Str) :
    CacheStore.loadFrom toml path (.ok ()) (client.flush toml .succeed file).2 =
      .ok client.cache := by
  obtain ⟨text, htext⟩ := htotal client.cache
  have hsave : client.cache.saveTo toml .succeed = .ok text := by
    unfold CacheStore.saveTo
    rw [htext]
    rfl
  unfold RegistryClient.flush
  rw [hpath]
  simp only [hsave]
  rw [CacheStore.loadFrom, hround _ _ htext]

/-- The entry of another call is left as it is. -/
theorem entry_put_of_ne (store : CacheStore) (now : DateTime) {call other : RegistryCall}
    (reply : call.Reply) (hcall : call.Accepted) (hother : other.Accepted) (hne : other ≠ call) :
    (RegistryClient.put store now call reply).entry other = store.entry other :=
  RegistryClient.entry_put_of_not_sameKey store now reply fun hkey =>
    hne (RegistryCall.eq_of_sameKey hother.colon hcall.colon hkey)

/-- **A step keeps the two copies together.** -/
theorem coherent_step (hround : toml.RoundTrips) (htotal : toml.Total)
    (hs : Coherent toml path log s) (horderly : event.Orderly)
    (h : step toml s event = some (s', returned)) :
    Coherent toml path (log ++ [⟨s, event, returned, s'⟩]) s' := by
  cases event with
  | called call now =>
    rcases step_called h with ⟨reply, _, rfl, _⟩ | ⟨_, rfl, _⟩
    · exact ⟨hs.hasPath, hs.loads, fun c hc t r hentry => (hs.given c hc t r hentry).append _, hs.pending⟩
    · refine ⟨hs.hasPath, hs.loads, fun c hc t r hentry => (hs.given c hc t r hentry).append _, ?_⟩
      intro waiting hwaiting
      rcases List.mem_append.mp hwaiting with hwaiting | hwaiting
      · exact hs.pending waiting hwaiting
      · rw [List.mem_singleton.mp hwaiting]
        exact horderly
  | answered i call answer files =>
    obtain rfl : files = .succeed := horderly
    obtain ⟨now, result, client, file, hpending, hfinish, rfl, _⟩ := step_answered h
    have hcall : call.Accepted := hs.pending _ (List.mem_of_getElem? hpending)
    have hrest : ∀ waiting ∈ s.pending.eraseIdx i, waiting.1.Accepted := fun waiting hwaiting =>
      hs.pending waiting (List.mem_of_mem_eraseIdx hwaiting)
    rcases finish_cases hfinish with ⟨e, _, _, rfl, rfl⟩ | ⟨reply, rfl, rfl, rfl, _⟩
    · exact ⟨hs.hasPath, hs.loads, fun c hc t r hentry => (hs.given c hc t r hentry).append _, hrest⟩
    · have hpath : (RegistryClient.mk (RegistryClient.put s.client.cache now call reply)
          s.client.cachePath s.client.ttl).cachePath = some path := hs.hasPath
      refine ⟨hpath, loadFrom_flush hround htotal hpath s.file, ?_, hrest⟩
      intro c hc cachedAt r hentry
      by_cases hne : c = call
      · -- the entry that was put is the answer of this step
        obtain rfl := hne
        rw [RegistryClient.entry_put_self] at hentry
        obtain ⟨-, rfl⟩ := Prod.mk.inj (Option.some.inj hentry)
        exact ⟨_, List.mem_append_right _ (List.mem_singleton_self _), i, .succeed, rfl⟩
      · have hkept := entry_put_of_ne s.client.cache now reply hcall hc hne
        exact (hs.given c hc cachedAt r (hkept ▸ hentry)).append _
  | restarted read =>
    obtain rfl : read = .ok () := horderly
    obtain ⟨_, _, hfile, hpending, _, hpath, hload⟩ := step_restarted h
    have hcache : s'.client.cache = s.client.cache := hload path _ hs.hasPath hs.loads
    refine ⟨hpath.trans hs.hasPath, by rw [hfile, hcache]; exact hs.loads, ?_, ?_⟩
    · intro c hc t r hentry
      rw [hcache] at hentry
      exact (hs.given c hc t r hentry).append _
    · rw [hpending]
      exact fun waiting hwaiting => absurd hwaiting List.not_mem_nil

/-- The client before its first call: the file is missing. -/
def freshClient (path : PathBuf) (ttl : Nat) : ClientState := ⟨⟨.empty, some path, ttl⟩, none, []⟩

/-- **Every run keeps the two copies together.** -/
theorem coherent_of_run (hround : toml.RoundTrips) (htotal : toml.Total)
    (hrun : ClientRun toml (freshClient path ttl) log s)
    (horderly : ∀ l ∈ log, l.event.Orderly) : Coherent toml path log s := by
  induction hrun with
  | start =>
    refine ⟨rfl, rfl, fun call _ t r hentry => ?_, fun w hw => absurd hw List.not_mem_nil⟩
    exact absurd hentry (by simp [freshClient])
  | step _ hstep ih =>
    have hs := ih fun l hl => horderly l (List.mem_append_left _ hl)
    exact coherent_step hround htotal hs
      (horderly _ (List.mem_append_right _ (List.mem_singleton_self _))) hstep

/-- What a step returns was given for this call. -/
theorem given_of_returned (hs : Coherent toml path log s) (horderly : event.Orderly)
    (h : step toml s event = some (s', returned)) {call : RegistryCall} {reply : call.Reply}
    (hreturned : returned = some ⟨call, .ok reply⟩) :
    Given (log ++ [⟨s, event, returned, s'⟩]) call reply := by
  cases event with
  | called call' now =>
    rcases step_called h with ⟨reply', hread, _, hret⟩ | ⟨_, _, hret⟩
    · rw [hreturned] at hret
      cases hret
      obtain ⟨cachedAt, hentry, _⟩ := RegistryClient.cacheRead_eq_some hread
      exact (hs.given call horderly cachedAt reply hentry).append _
    · rw [hreturned] at hret
      cases hret
  | answered i call' answer files =>
    obtain ⟨now, result, client, file, _, hfinish, rfl, hret⟩ := step_answered h
    rw [hreturned] at hret
    cases hret
    rcases finish_cases hfinish with ⟨e, _, hresult, _, _⟩ | ⟨reply', rfl, _, _, hresult⟩
    · cases hresult
    · obtain rfl := hresult reply rfl
      exact ⟨_, List.mem_append_right _ (List.mem_singleton_self _), i, files, rfl⟩
  | restarted read =>
    obtain ⟨_, hret, _⟩ := step_restarted h
    rw [hreturned] at hret
    cases hret

/-- **The cache is coherent**, over all runs of calls, answers and restarts. -/
theorem cache_coherent (hround : toml.RoundTrips) (htotal : toml.Total)
    (hrun : ClientRun toml (freshClient path ttl) log s)
    (horderly : ∀ l ∈ log, l.event.Orderly) :
    CacheStore.loadFrom toml path (.ok ()) s.file = .ok s.client.cache ∧
    (∀ pre l post, log = pre ++ l :: post → ∀ call reply, l.returned = some ⟨call, .ok reply⟩ →
      Given (pre ++ [l]) call reply) ∧
    (∀ l ∈ log, ∀ i call e files, l.event = .answered i call (.error e) files →
      l.after.client = l.before.client ∧ l.after.file = l.before.file) ∧
    (∀ l ∈ log, ∀ call : RegistryCall, call.Accepted →
      (∀ i answer files, l.event ≠ .answered i call answer files) →
        l.after.client.cache.entry call = l.before.client.cache.entry call) := by
  refine ⟨(coherent_of_run hround htotal hrun horderly).loads, ?_, ?_, ?_⟩
  · rintro pre ⟨before, event, returned, after⟩ post rfl call reply hreturned
    obtain ⟨hbefore, hstep⟩ := hrun.split
    have hs := coherent_of_run hround htotal hbefore fun l hl =>
      horderly l (List.mem_append_left _ hl)
    exact given_of_returned hs (horderly _ (List.mem_append_right _ List.mem_cons_self)) hstep
      hreturned
  · rintro ⟨before, event, returned, after⟩ hl i call e files rfl
    obtain ⟨pre, post, rfl⟩ := List.append_of_mem hl
    have hstep : step toml before (.answered i call (.error e) files) = some (after, returned) :=
      hrun.split.2
    obtain ⟨now, result, client, file, _, hfinish, rfl, _⟩ := step_answered hstep
    cases hfinish
    exact ⟨rfl, rfl⟩
  · rintro ⟨before, event, returned, after⟩ hl other hother hne
    obtain ⟨pre, post, rfl⟩ := List.append_of_mem hl
    have hstep : step toml before event = some (after, returned) := hrun.split.2
    have hs : Coherent toml path pre before :=
      coherent_of_run hround htotal hrun.split.1 fun l hl => horderly l (List.mem_append_left _ hl)
    cases event with
    | called call now =>
      rcases step_called hstep with ⟨reply, _, rfl, _⟩ | ⟨_, rfl, _⟩
      · rfl
      · rfl
    | answered i call answer files =>
      obtain ⟨now, result, client, file, hpending, hfinish, rfl, _⟩ := step_answered hstep
      have hcall : call.Accepted := hs.pending _ (List.mem_of_getElem? hpending)
      rcases finish_cases hfinish with ⟨e, _, _, rfl, _⟩ | ⟨reply, _, rfl, _, _⟩
      · rfl
      · refine entry_put_of_ne before.client.cache now reply hcall hother ?_
        rintro rfl
        exact hne i answer files rfl
    | restarted read =>
      obtain rfl : read = .ok () := horderly _ (List.mem_append_right _ List.mem_cons_self)
      obtain ⟨_, _, _, _, _, _, hload⟩ := step_restarted hstep
      rw [show after.client.cache = before.client.cache from hload path _ hs.hasPath hs.loads]

/-! ### A cache that is read back -/

instance encodableTagsEntry : Encodable TagsEntry :=
  Encodable.ofLeftInverse (fun e => (e.cachedAt, e.tags)) (fun x => ⟨x.1, x.2⟩) fun _ => rfl

instance encodableDigestEntry : Encodable DigestEntry :=
  Encodable.ofLeftInverse (fun e => (e.cachedAt, e.digest)) (fun x => ⟨x.1, x.2⟩) fun _ => rfl

instance encodableCacheStore : Encodable CacheStore :=
  Encodable.ofLeftInverse (fun store => (store.tags, store.digests)) (fun x => ⟨x.1, x.2⟩)
    fun _ => rfl

/-- The repository of the relay's image. -/
def relayRepo : Str := "rustdesk/rustdesk-server".toList

/-- A store with its tags. -/
def taggedStore : CacheStore :=
  CacheStore.empty.putTagList relayRepo ["1.1.11".toList, "latest".toList] ⟨1776513600, 0⟩

/-- That store as a file. -/
def taggedText : Str :=
  ("[tags.\"rustdesk/rustdesk-server\"]\ncached_at = \"2026-04-18T12:00:00Z\"\n" ++
    "tags = [\n    \"1.1.11\",\n    \"latest\",\n]\n\n[digests]\n").toList

/-- `toml`, with this text for that store. -/
def taggedToml : TomlFormat CacheStore := .ofTable [(taggedStore, taggedText)]

theorem taggedToml_roundTrips : taggedToml.RoundTrips := by
  refine TomlFormat.roundTrips_ofTable (fun e he e' he' _ => ?_) fun e he => ?_
  · rw [List.mem_singleton.mp he, List.mem_singleton.mp he']
  · rw [List.mem_singleton.mp he]
    decide +kernel

/-- The path of the cache file. -/
def cacheFile : PathBuf := .fromStr "docker-hub-cache.toml".toList

/-- `list_tags` of the repository. -/
def tagsCall : RegistryCall := .listTags relayRepo

/-- The client while its first call waits. -/
def waitingClient : ClientState :=
  { freshClient cacheFile 3600000000000 with pending := [(tagsCall, ⟨1776513600, 0⟩)] }

/-- The client that has its answer. -/
def taggedClient : ClientState :=
  ⟨⟨taggedStore, some cacheFile, 3600000000000⟩, some taggedText, []⟩

/-- A call, its answer, a restart, and the call again. -/
def taggedLog : List Logged :=
  [⟨freshClient cacheFile 3600000000000, .called tagsCall ⟨1776513600, 0⟩, none, waitingClient⟩,
    ⟨waitingClient, .answered 0 tagsCall (.ok ["1.1.11".toList, "latest".toList]) .succeed,
      some ⟨tagsCall, .ok ["1.1.11".toList, "latest".toList]⟩, taggedClient⟩,
    ⟨taggedClient, .restarted (.ok ()), none, taggedClient⟩,
    ⟨taggedClient, .called tagsCall ⟨1776515400, 0⟩,
      some ⟨tagsCall, .ok ["1.1.11".toList, "latest".toList]⟩, taggedClient⟩]

theorem taggedLog_run :
    ClientRun taggedToml (freshClient cacheFile 3600000000000) taggedLog taggedClient := by
  have h₀ : ClientRun taggedToml (freshClient cacheFile 3600000000000) [] _ := .start
  have h₁ := h₀.step (show step taggedToml _ (.called tagsCall ⟨1776513600, 0⟩) =
    some (waitingClient, none) by decide +kernel)
  have h₂ := h₁.step (show step taggedToml waitingClient
    (.answered 0 tagsCall (.ok ["1.1.11".toList, "latest".toList]) .succeed) =
      some (taggedClient, some ⟨tagsCall, .ok ["1.1.11".toList, "latest".toList]⟩) by decide +kernel)
  have h₃ := h₂.step (show step taggedToml taggedClient (.restarted (.ok ())) =
    some (taggedClient, none) by decide +kernel)
  exact h₃.step (show step taggedToml taggedClient (.called tagsCall ⟨1776515400, 0⟩) =
    some (taggedClient, some ⟨tagsCall, .ok ["1.1.11".toList, "latest".toList]⟩) by decide +kernel)

theorem cache_coherent_restart :
    CacheStore.loadFrom taggedToml cacheFile (.ok ()) (some taggedText) = .ok taggedStore := by
  refine (cache_coherent taggedToml_roundTrips (TomlFormat.total_ofTable _) taggedLog_run ?_).1
  intro l hl
  have hrepo : tagsCall.Accepted := ⟨relayRepo, by decide⟩
  rcases List.mem_cons.mp hl with rfl | hl
  · exact hrepo
  rcases List.mem_cons.mp hl with rfl | hl
  · rfl
  rcases List.mem_cons.mp hl with rfl | hl
  · rfl
  · rw [List.mem_singleton.mp hl]
    exact hrepo

end Registry

end Rustmote
