import Rustmote.RegistryClient.CacheStore

/-!
# The client over all runs

A client with the file of its cache, and calls that wait for the transport. A step is one half of
a call, or a restart: the client is dropped while no call waits, and a new one is built on the
same path. `ClientRun` is what any number of steps leads to, with the log of them.

`step_called`, `step_answered` and `step_restarted` say once what a step can do, and
`finish_cases` what becomes of the cache: an answer is put into it, stamped with the clock reading
of its call, and a failure changes nothing.
-/

namespace Rustmote

namespace Registry

/-- A client, its file, and the calls that wait, each with the clock reading it took. -/
structure ClientState where
  client : RegistryClient
  file : Option Str
  pending : List (RegistryCall × DateTime)
  deriving DecidableEq

/-- A step from outside. -/
inductive ClientEvent where
  /-- A call is made; the clock reads `now`. -/
  | called (call : RegistryCall) (now : DateTime)
  /-- The transport answers the waiting call number `i`. -/
  | answered (i : Nat) (call : RegistryCall) (answer : Except RustmoteError call.Reply)
      (files : FileOps)
  /-- The client is dropped, and a new one built. -/
  | restarted (read : FileOutcome)

/-- What a call returns. -/
structure Returned where
  call : RegistryCall
  result : Except RustmoteError call.Reply
  deriving DecidableEq

/-- One step, and what it returns. -/
def step (toml : TomlFormat CacheStore) (s : ClientState) :
    ClientEvent → Option (ClientState × Option Returned)
  | .called call now =>
    match s.client.cacheRead now call with
    | some cached => some (s, some ⟨call, .ok cached⟩)
    | none => some ({ s with pending := s.pending ++ [(call, now)] }, none)
  | .answered i call answer files =>
    match s.pending[i]? with
    | some (waiting, now) =>
      if waiting = call then
        let (result, client, file) := s.client.finish toml call now answer files s.file
        some (⟨client, file, s.pending.eraseIdx i⟩, some ⟨call, result⟩)
      else none
    | none => none
  | .restarted read =>
    if s.pending = [] then
      let client : RegistryClient := ⟨.empty, none, s.client.ttl⟩
      match s.client.cachePath with
      | some path => some ({ s with client := client.withCachePath toml path read s.file }, none)
      | none => some ({ s with client := client }, none)
    else none

/-- A step with the states around it. -/
structure Logged where
  before : ClientState
  event : ClientEvent
  returned : Option Returned
  after : ClientState

/-- The states that are reached, with the log of the steps. -/
inductive ClientRun (toml : TomlFormat CacheStore) (start : ClientState) :
    List Logged → ClientState → Prop where
  /-- No step. -/
  | start : ClientRun toml start [] start
  /-- One step more. -/
  | step {log : List Logged} {s s' : ClientState} {event : ClientEvent}
      {returned : Option Returned} : ClientRun toml start log s →
      Registry.step toml s event = some (s', returned) →
      ClientRun toml start (log ++ [⟨s, event, returned, s'⟩]) s'

/-! ### The entry of a call -/

namespace CacheStore

/-- The entry of a call, with its stamp. -/
def entry (store : CacheStore) : (call : RegistryCall) → Option (DateTime × call.Reply)
  | .listTags repo => (store.tags.get repo).map fun e => (e.cachedAt, e.tags)
  | .resolveDigest repo tag =>
    (store.digests.get (digestKey repo tag)).map fun e => (e.cachedAt, e.digest)

@[simp] theorem entry_empty (call : RegistryCall) : empty.entry call = none := by
  cases call with
  | listTags repo => rfl
  | resolveDigest repo tag => rfl

end CacheStore

/-- Two calls have two keys: their tables differ, or the keys do. -/
def RegistryCall.SameKey : RegistryCall → RegistryCall → Prop
  | .listTags repo, .listTags repo' => repo = repo'
  | .resolveDigest repo tag, .resolveDigest repo' tag' => digestKey repo tag = digestKey repo' tag'
  | _, _ => False

/-- **The key of a digest tells repository and tag apart**: an accepted repository has no colon. -/
theorem digestKey_injective {repo repo' tag tag' : Str} (hrepo : ':' ∉ repo) (hrepo' : ':' ∉ repo')
    (h : digestKey repo tag = digestKey repo' tag') : repo = repo' ∧ tag = tag' := by
  unfold digestKey at h
  rw [List.append_assoc, List.append_assoc] at h
  exact Text.append_cons_inj_of_not_mem_left hrepo hrepo' h

theorem RegistryCall.eq_of_sameKey {call call' : RegistryCall} (hrepo : ':' ∉ call.repo)
    (hrepo' : ':' ∉ call'.repo) (h : call.SameKey call') : call = call' := by
  cases call with
  | listTags repo =>
    cases call' with
    | listTags repo' => exact congrArg RegistryCall.listTags h
    | resolveDigest repo' tag' => exact h.elim
  | resolveDigest repo tag =>
    cases call' with
    | listTags repo' => exact h.elim
    | resolveDigest repo' tag' =>
      obtain ⟨rfl, rfl⟩ := digestKey_injective hrepo hrepo' h
      rfl

namespace RegistryClient

variable {toml : TomlFormat CacheStore}

/-- An answer that was put is found. -/
theorem entry_put_self (store : CacheStore) (now : DateTime) (call : RegistryCall)
    (reply : call.Reply) : (put store now call reply).entry call = some (now, reply) := by
  cases call with
  | listTags repo => simp [put, CacheStore.putTagList, CacheStore.entry]
  | resolveDigest repo tag => simp [put, CacheStore.putDigest, CacheStore.entry]

/-- And nothing else is changed. -/
theorem entry_put_of_not_sameKey (store : CacheStore) (now : DateTime) {call other : RegistryCall}
    (reply : call.Reply) (hkey : ¬ other.SameKey call) :
    (put store now call reply).entry other = store.entry other := by
  cases call with
  | listTags repo =>
    cases other with
    | listTags repo' =>
      simp only [put, CacheStore.putTagList, CacheStore.entry]
      rw [BTreeMap.get_insert_of_ne _ _ hkey]
    | resolveDigest repo' tag' => rfl
  | resolveDigest repo tag =>
    cases other with
    | listTags repo' => rfl
    | resolveDigest repo' tag' =>
      simp only [put, CacheStore.putDigest, CacheStore.entry]
      rw [BTreeMap.get_insert_of_ne _ _ hkey]

/-- **The cache is read where the entry is fresh.** -/
theorem cacheRead_eq (client : RegistryClient) (now : DateTime) (call : RegistryCall) :
    client.cacheRead now call =
      match client.cache.entry call with
      | none => none
      | some (cachedAt, reply) => if isFresh cachedAt client.ttl now then some reply else none := by
  cases call with
  | listTags repo =>
    simp only [cacheRead, CacheStore.tagListIfFresh, CacheStore.entry]
    cases client.cache.tags.get repo with
    | none => rfl
    | some e => rfl
  | resolveDigest repo tag =>
    simp only [cacheRead, CacheStore.digestIfFresh, CacheStore.entry]
    cases client.cache.digests.get (digestKey repo tag) with
    | none => rfl
    | some e => rfl

theorem cacheRead_eq_some {client : RegistryClient} {now : DateTime} {call : RegistryCall}
    {reply : call.Reply} (h : client.cacheRead now call = some reply) :
    ∃ cachedAt, client.cache.entry call = some (cachedAt, reply) ∧
      isFresh cachedAt client.ttl now = true := by
  rw [cacheRead_eq] at h
  cases hentry : client.cache.entry call with
  | none => rw [hentry] at h; cases h
  | some e =>
    rw [hentry] at h
    simp only at h
    split_ifs at h with hfresh
    obtain rfl := Option.some.inj h
    exact ⟨e.1, rfl, hfresh⟩

end RegistryClient

/-! ### One step -/

variable {toml : TomlFormat CacheStore} {s s' : ClientState} {event : ClientEvent}
  {returned : Option Returned}

/-- What a call does: it is served from the cache, or waits. -/
theorem step_called {call : RegistryCall} {now : DateTime}
    (h : step toml s (.called call now) = some (s', returned)) :
    (∃ reply, s.client.cacheRead now call = some reply ∧ s' = s ∧
      returned = some ⟨call, .ok reply⟩) ∨
    (s.client.cacheRead now call = none ∧
      s' = { s with pending := s.pending ++ [(call, now)] } ∧ returned = none) := by
  simp only [step] at h
  cases hread : s.client.cacheRead now call with
  | some reply =>
    rw [hread] at h
    obtain ⟨rfl, rfl⟩ := Prod.mk.inj (Option.some.inj h)
    exact .inl ⟨reply, rfl, rfl, rfl⟩
  | none =>
    rw [hread] at h
    obtain ⟨rfl, rfl⟩ := Prod.mk.inj (Option.some.inj h)
    exact .inr ⟨rfl, rfl, rfl⟩

/-- What an answer does: the call that waited for it is finished. -/
theorem step_answered {i : Nat} {call : RegistryCall} {answer : Except RustmoteError call.Reply}
    {files : FileOps} (h : step toml s (.answered i call answer files) = some (s', returned)) :
    ∃ now result client file, s.pending[i]? = some (call, now) ∧
      s.client.finish toml call now answer files s.file = (result, client, file) ∧
      s' = ⟨client, file, s.pending.eraseIdx i⟩ ∧ returned = some ⟨call, result⟩ := by
  simp only [step] at h
  cases hpending : s.pending[i]? with
  | none => rw [hpending] at h; cases h
  | some waiting =>
    obtain ⟨waiting, now⟩ := waiting
    rw [hpending] at h
    simp only at h
    split_ifs at h with hcall
    obtain rfl := hcall
    obtain ⟨rfl, rfl⟩ := Prod.mk.inj (Option.some.inj h)
    exact ⟨now, _, _, _, rfl, rfl, rfl, rfl⟩

/-- What a restart does: no call waits, and the cache is what the file loads to. -/
theorem step_restarted {read : FileOutcome}
    (h : step toml s (.restarted read) = some (s', returned)) :
    s.pending = [] ∧ returned = none ∧ s'.file = s.file ∧ s'.pending = [] ∧
      s'.client.ttl = s.client.ttl ∧ s'.client.cachePath = s.client.cachePath ∧
      ∀ path store, s.client.cachePath = some path →
        CacheStore.loadFrom toml path read s.file = .ok store → s'.client.cache = store := by
  simp only [step] at h
  split_ifs at h with hpending
  cases hpath : s.client.cachePath with
  | none =>
    rw [hpath] at h
    obtain ⟨rfl, rfl⟩ := Prod.mk.inj (Option.some.inj h)
    exact ⟨hpending, rfl, rfl, hpending, rfl, rfl, fun path store hsome => by cases hsome⟩
  | some path =>
    rw [hpath] at h
    obtain ⟨rfl, rfl⟩ := Prod.mk.inj (Option.some.inj h)
    refine ⟨hpending, rfl, rfl, hpending, ?_⟩
    unfold RegistryClient.withCachePath
    cases hload : CacheStore.loadFrom toml path read s.file with
    | error e =>
      refine ⟨rfl, rfl, fun path' store hsome hload' => ?_⟩
      cases hsome
      rw [hload] at hload'
      cases hload'
    | ok loaded =>
      refine ⟨rfl, rfl, fun path' store hsome hload' => ?_⟩
      cases hsome
      rw [hload] at hload'
      exact Except.ok.inj hload'

/-- **What finishing a call can do**: an error of the transport changes nothing, and an answer is
put into the cache, whatever becomes of the file. -/
theorem finish_cases {client client' : RegistryClient} {call : RegistryCall} {now : DateTime}
    {answer result : Except RustmoteError call.Reply} {files : FileOps} {file file' : Option Str}
    (h : client.finish toml call now answer files file = (result, client', file')) :
    (∃ e, answer = .error e ∧ result = .error e ∧ client' = client ∧ file' = file) ∨
    (∃ reply, answer = .ok reply ∧
      client' = { client with cache := RegistryClient.put client.cache now call reply } ∧
      file' = (client'.flush toml files file).2 ∧ ∀ r, result = .ok r → r = reply) := by
  cases answer with
  | error e =>
    cases h
    exact .inl ⟨e, rfl, rfl, rfl, rfl⟩
  | ok reply =>
    refine .inr ⟨reply, rfl, ?_⟩
    simp only [RegistryClient.finish, RegistryClient.cacheWrite] at h
    generalize hput : { client with cache := RegistryClient.put client.cache now call reply } =
      written at h ⊢
    rcases hflush : written.flush toml files file with ⟨_ | ⟨⟨⟩⟩, flushed⟩
    · rw [hflush] at h
      cases h
      exact ⟨rfl, by rw [hflush], fun r hr => by cases hr⟩
    · rw [hflush] at h
      cases h
      exact ⟨rfl, by rw [hflush], fun r hr => (Except.ok.inj hr).symm⟩

/-! ### All steps -/

/-- The states around a step of a run: the one before was reached by the steps before. -/
theorem ClientRun.split {start : ClientState} {pre post : List Logged} {l : Logged}
    (h : ClientRun toml start (pre ++ l :: post) s) :
    ClientRun toml start pre l.before ∧
      Registry.step toml l.before l.event = some (l.after, l.returned) := by
  generalize hlog : pre ++ l :: post = log at h
  induction h generalizing post with
  | start => exact absurd (congrArg List.length hlog) (by simp)
  | @step log s s' event returned hrun hstep ih =>
    rcases List.eq_nil_or_concat post with rfl | ⟨post', x, rfl⟩
    · obtain ⟨rfl, hl⟩ := List.append_inj' hlog rfl
      obtain rfl := List.head_eq_of_cons_eq hl
      exact ⟨hrun, hstep⟩
    · have happend : (pre ++ l :: post') ++ [x] = log ++ [⟨s, event, returned, s'⟩] := by
        simpa using hlog
      exact ih (List.append_inj' happend rfl).1

end Registry

end Rustmote
