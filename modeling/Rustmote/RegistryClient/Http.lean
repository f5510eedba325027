import Mathlib.Algebra.Order.BigOperators.Group.List
import Rustmote.Foundations.Contracts
import Rustmote.RegistryClient.Coherence

/-!
# The HTTP transport

`HttpTransport` of `registry_client.rs`: what it asks of the registry for a call of the client,
and what it makes of the answers. `reqwest` is behind `HttpRequest`: a request is answered with a
response or with an error, and nothing is said of which. For an answer `send` may follow redirects;
the requests that it makes on the way are `Hop`s.

* `run_perform_ok_iff` — a call returns exactly what an exchange yields: a token for the
  repository, and a response to the request that carries it.
* `bearers_confined` — a token goes to the host and port of the registry, whatever is redirected,
  and only for the call that it was granted for.
* `answers_accounted` — what the client returns, from the transport or from its cache, behind any
  restarts and any failures of files, comes from an exchange for the same call, or it was there
  when the client was built.
-/

namespace Rustmote

namespace Registry

open Interaction (Prog Contract)
open Interaction.Prog (Run Meets)

/-! ### Requests -/

/-- The methods that are used. -/
inductive HttpMethod where
  | get
  | head
  deriving DecidableEq

/-- A request, as it is built. -/
structure HttpRequest where
  method : HttpMethod
  url : Str
  /-- `bearer_auth`. -/
  bearer : Option Str
  /-- The header `Accept`. -/
  accept : Option Str
  deriving DecidableEq

/-- `StatusCode`. -/
structure StatusCode where
  code : Nat
  /-- As it is printed. -/
  text : Str

/-- `StatusCode::is_success`. -/
def StatusCode.isSuccess (status : StatusCode) : Bool := 200 ≤ status.code && status.code < 300

/-- A response. -/
structure HttpResponse where
  status : StatusCode
  /-- `headers().get`. -/
  header : Str → Option Bytes
  /-- What reading the body comes to. -/
  body : Except Str Bytes

/-- `send`. -/
def HttpRequest.Reply (_ : HttpRequest) : Type := Except Str HttpResponse

/-- `Response::json`. -/
def HttpResponse.json {α : Type} (decode : Bytes → Except Str α) (resp : HttpResponse) :
    Except Str α := resp.body >>= decode

/-- `HeaderValue::to_str`: visible ASCII, and tabs. -/
def headerText (value : Bytes) : Option Str :=
  if value.all fun b => (32 ≤ b && b < 127) || b = 9 then
    some (value.map fun b => Char.ofNat b.toNat)
  else none

/-- A request, and what came back. -/
abbrev HttpEvent := Interaction.Event HttpRequest.Reply

/-- What the transport is made of. -/
abbrev Http : Type → Type := Prog HttpRequest.Reply RustmoteError

/-- `HttpTransport`; the bodies are read by `serde_json`. -/
structure HttpTransport where
  registryBase : Str
  authBase : Str
  /-- As a `TokenResponse`. -/
  decodeToken : Bytes → Except Str Str
  /-- As a `TagsResponse`. -/
  decodeTags : Bytes → Except Str (List Str)

namespace HttpTransport

/-- `with_endpoints`. -/
def withEndpoints (registryBase authBase : Str) (decodeToken : Bytes → Except Str Str)
    (decodeTags : Bytes → Except Str (List Str)) : HttpTransport where
  registryBase := Text.trimEndMatches '/' registryBase
  authBase := Text.trimEndMatches '/' authBase
  decodeToken := decodeToken
  decodeTags := decodeTags

/-- `map_err`, into an error of the registry. -/
def registryError {α : Type} (context : Str) (x : Except Str α) : Except RustmoteError α :=
  x.mapError fun e => .registryApi (context ++ e)

/-- `HttpTransport::new`. -/
def new (decodeToken : Bytes → Except Str Str) (decodeTags : Bytes → Except Str (List Str)) :
    HttpTransport :=
  withEndpoints "https://registry-1.docker.io".toList "https://auth.docker.io".toList decodeToken
    decodeTags

variable (transport : HttpTransport)

/-- The request of `fetch_token`. -/
def tokenRequest (repo : Str) : HttpRequest where
  method := .get
  url := transport.authBase ++ "/token?service=registry.docker.io&scope=repository:".toList ++
    repo ++ ":pull".toList
  bearer := none
  accept := none

/-- `fetch_token`. -/
def fetchToken (repo : Str) : Http Str := do
  let sent ← Prog.request (transport.tokenRequest repo)
  let resp ← registryError "token fetch: ".toList sent
  if resp.status.isSuccess then
    registryError "decoding token body: ".toList (resp.json transport.decodeToken)
  else .fail (.registryApi ("token fetch returned ".toList ++ resp.status.text))

/-- The request of `list_tags`. -/
def tagsRequest (token repo : Str) : HttpRequest where
  method := .get
  url := transport.registryBase ++ "/v2/".toList ++ repo ++ "/tags/list".toList
  bearer := some token
  accept := none

/-- `list_tags`. -/
def listTags (repo : Str) : Http (List Str) := do
  let token ← transport.fetchToken repo
  let sent ← Prog.request (transport.tagsRequest token repo)
  let resp ← registryError "tags/list: ".toList sent
  if resp.status.isSuccess then
    registryError "decoding tags body: ".toList (resp.json transport.decodeTags)
  else
    .fail (.registryApi ("tags/list ".toList ++ repo ++ " returned ".toList ++ resp.status.text))

/-- The manifest types that are accepted. -/
def manifestTypes : List Str :=
  ["application/vnd.docker.distribution.manifest.v2+json".toList,
    "application/vnd.docker.distribution.manifest.list.v2+json".toList,
    "application/vnd.oci.image.manifest.v1+json".toList,
    "application/vnd.oci.image.index.v1+json".toList]

/-- The request of `resolve_digest`. -/
def manifestRequest (token repo tag : Str) : HttpRequest where
  method := .head
  url := transport.registryBase ++ "/v2/".toList ++ repo ++ "/manifests/".toList ++ tag
  bearer := some token
  accept := some ((", ".toList).intercalate manifestTypes)

/-- The header `Docker-Content-Digest`. -/
def contentDigest (resp : HttpResponse) : Option Str :=
  (resp.header "Docker-Content-Digest".toList).bind headerText

/-- `resolve_digest`. -/
def resolveDigest (repo tag : Str) : Http Str := do
  let token ← transport.fetchToken repo
  let sent ← Prog.request (transport.manifestRequest token repo tag)
  let resp ← registryError "manifest HEAD: ".toList sent
  let manifest := "manifest HEAD ".toList ++ repo ++ ":".toList ++ tag
  if resp.status.isSuccess then
    match contentDigest resp with
    | none => .fail (.registryApi (manifest ++ " missing Docker-Content-Digest header".toList))
    | some digest =>
      if ("sha256:".toList).isPrefixOf digest then return digest
      else
        .fail (.registryApi
          ("manifest digest '".toList ++ digest ++ "' is not sha256-prefixed".toList))
  else .fail (.registryApi (manifest ++ " returned ".toList ++ resp.status.text))

/-- A call of `RegistryTransport`. -/
def perform : (call : RegistryCall) → Http call.Reply
  | .listTags repo => transport.listTags repo
  | .resolveDigest repo tag => transport.resolveDigest repo tag

/-! ### An exchange -/

/-- The request of a call, behind its token. -/
def callRequest (token : Str) : RegistryCall → HttpRequest
  | .listTags repo => transport.tagsRequest token repo
  | .resolveDigest repo tag => transport.manifestRequest token repo tag

/-- The response says this. -/
def Says (resp : HttpResponse) : (call : RegistryCall) → call.Reply → Prop
  | .listTags _, tags => resp.json transport.decodeTags = .ok tags
  | .resolveDigest _ _, digest => contentDigest resp = some digest ∧ "sha256:".toList <+: digest

/-- The response to the request for a token gives this one. -/
def Grants (auth : HttpResponse) (token : Str) : Prop :=
  auth.status.isSuccess = true ∧ auth.json transport.decodeToken = .ok token

/-- The events of a call that returns: the registry has granted a token for the repository, and
said this in answer to the request with it. -/
def Exchanged (call : RegistryCall) (reply : call.Reply)
    (tr : List HttpEvent) : Prop :=
  ∃ auth token resp, tr = [⟨transport.tokenRequest call.repo, .ok auth⟩,
      ⟨transport.callRequest token call, .ok resp⟩] ∧
    transport.Grants auth token ∧ resp.status.isSuccess = true ∧ transport.Says resp call reply

variable {transport : HttpTransport} {tr : List HttpEvent}

theorem run_registryError_ok_iff {α : Type} {context : Str} {x : Except Str α} {a : α} :
    Run (liftM (registryError context x) : Http α) tr (some (.ok a)) ↔ tr = [] ∧ x = .ok a := by
  cases x with
  | error e =>
    refine Prog.run_fail_iff.trans ?_
    simp
  | ok b =>
    refine Prog.run_ret_iff.trans ?_
    simp [eq_comm]

/-- `send`, and what is done with a response that has come. -/
theorem run_send_ok_iff {α : Type} {q : HttpRequest} {context : Str} {f : HttpResponse → Http α}
    {a : α} : Run (do
        let sent ← (Prog.request q : Http (HttpRequest.Reply q))
        let resp ← registryError context sent
        f resp) tr (some (.ok a)) ↔
      ∃ resp tr', tr = ⟨q, .ok resp⟩ :: tr' ∧ Run (f resp) tr' (some (.ok a)) := by
  refine Prog.run_ask_iff.trans ?_
  constructor
  · rintro (⟨-, h⟩ | ⟨_ | resp, tr', rfl, h⟩)
    · cases h
    · cases h
    · exact ⟨resp, tr', rfl, h⟩
  · rintro ⟨resp, tr', rfl, h⟩
    exact .inr ⟨.ok resp, tr', rfl, h⟩

theorem run_fetchToken_ok_iff {repo token : Str} :
    Run (transport.fetchToken repo) tr (some (.ok token)) ↔
      ∃ auth, tr = [⟨transport.tokenRequest repo, .ok auth⟩] ∧ transport.Grants auth token := by
  refine run_send_ok_iff.trans (exists_congr fun auth => ?_)
  unfold Grants
  split
  · next hsuccess =>
    simp only [run_registryError_ok_iff, hsuccess, true_and]
    constructor
    · rintro ⟨tr', rfl, rfl, h⟩
      exact ⟨rfl, h⟩
    · rintro ⟨rfl, h⟩
      exact ⟨_, rfl, rfl, h⟩
  · next hsuccess =>
    simp [Prog.run_fail_iff, hsuccess]

/-- What is done behind a token. -/
theorem run_behindToken_ok_iff {α : Type} {repo context : Str} {q : Str → HttpRequest}
    {f : HttpResponse → Http α} {a : α} : Run (do
        let token ← transport.fetchToken repo
        let sent ← (Prog.request (q token) : Http (HttpRequest.Reply (q token)))
        let resp ← registryError context sent
        f resp) tr (some (.ok a)) ↔
      ∃ auth token resp tr',
        tr = ⟨transport.tokenRequest repo, .ok auth⟩ :: ⟨q token, .ok resp⟩ :: tr' ∧
        transport.Grants auth token ∧ Run (f resp) tr' (some (.ok a)) := by
  refine Prog.run_bind_iff.trans ?_
  constructor
  · rintro (⟨h, -⟩ | ⟨e, h, -⟩ | ⟨token, t₁, t₂, rfl, h₁, h₂⟩)
    · cases h
    · cases h
    · obtain ⟨auth, rfl, hauth⟩ := run_fetchToken_ok_iff.mp h₁
      obtain ⟨resp, tr', rfl, h⟩ := run_send_ok_iff.mp h₂
      exact ⟨auth, token, resp, tr', rfl, hauth, h⟩
  · rintro ⟨auth, token, resp, tr', rfl, hauth, h⟩
    refine .inr (.inr ⟨token, [_], _, rfl, run_fetchToken_ok_iff.mpr ⟨auth, rfl, hauth⟩, ?_⟩)
    exact run_send_ok_iff.mpr ⟨resp, tr', rfl, h⟩

/-- **A call returns just what an exchange yields.** -/
theorem run_perform_ok_iff {call : RegistryCall} {reply : call.Reply} :
    Run (transport.perform call) tr (some (.ok reply)) ↔ transport.Exchanged call reply tr := by
  cases call with
  | listTags repo =>
    refine run_behindToken_ok_iff.trans ?_
    refine exists_congr fun auth => exists_congr fun token => exists_congr fun resp => ?_
    split
    · next hsuccess =>
      simp only [run_registryError_ok_iff, Says, hsuccess, true_and]
      constructor
      · rintro ⟨tr', rfl, hauth, rfl, hsays⟩
        exact ⟨rfl, hauth, hsays⟩
      · rintro ⟨rfl, hauth, hsays⟩
        exact ⟨[], rfl, hauth, rfl, hsays⟩
    · next hsuccess =>
      simp [Prog.run_fail_iff, hsuccess]
  | resolveDigest repo tag =>
    refine run_behindToken_ok_iff.trans ?_
    refine exists_congr fun auth => exists_congr fun token => exists_congr fun resp => ?_
    split
    · next hsuccess =>
      cases hdigest : contentDigest resp with
      | none => simp [Prog.run_fail_iff, Says, hdigest]
      | some digest =>
        dsimp only
        split
        · next hprefix =>
          have hprefix' : "sha256:".toList <+: digest := List.isPrefixOf_iff_prefix.mp hprefix
          constructor
          · rintro ⟨tr', rfl, hauth, h⟩
            obtain ⟨rfl, h | h⟩ := Prog.run_ret_iff.mp h
            · cases h
            obtain rfl := Except.ok.inj (Option.some.inj h)
            exact ⟨rfl, hauth, hsuccess, hdigest, hprefix'⟩
          · rintro ⟨rfl, hauth, -, hsays, -⟩
            obtain rfl := Option.some.inj (hdigest.symm.trans hsays)
            exact ⟨[], rfl, hauth, .ret⟩
        · next hprefix =>
          have hprefix' : ¬ "sha256:".toList <+: digest := fun h =>
            hprefix (List.isPrefixOf_iff_prefix.mpr h)
          constructor
          · rintro ⟨tr', -, -, h⟩
            obtain ⟨-, h | h⟩ := Prog.run_fail_iff.mp h
            · cases h
            · cases h
          · rintro ⟨-, -, -, hsays, hsha⟩
            obtain rfl := Option.some.inj (hdigest.symm.trans hsays)
            exact absurd hsha hprefix'
    · next hsuccess =>
      simp [Prog.run_fail_iff, hsuccess]

/-! ### What is sent -/

end HttpTransport

/-! ### Where a token goes -/

/-- A request that `send` makes: the one that was built, or one that a redirect asks for. -/
structure Hop where
  url : Str
  bearer : Option Str

/-- The crates `url` and `reqwest`, as far as `send` goes. -/
structure Reqwest where
  /-- Host and port of a url that can be parsed. -/
  authority : Str → Option (Str × Nat)
  /-- For this request `send` may make these. -/
  Makes : HttpRequest → List Hop → Prop

/-- A request behind another one has the token only if that one had it and it goes to the same host
and port. -/
def KeepsToken (authority : Str → Option (Str × Nat)) (a b : Hop) : Prop :=
  ∀ token, b.bearer = some token → a.bearer = some token ∧ authority b.url = authority a.url

/-- What is documented of the two crates, and of a client that is built with the defaults. -/
structure Reqwest.Documented (reqwest : Reqwest) : Prop where
  /-- A path is no part of host and port. -/
  path : ∀ base path a b, reqwest.authority base = some a →
    reqwest.authority (base ++ '/' :: path) = some b → b = a
  /-- The first request is the one that was built; its url can be parsed. -/
  first : ∀ q hop hops, reqwest.Makes q (hop :: hops) →
    hop = ⟨q.url, q.bearer⟩ ∧ (reqwest.authority q.url).isSome = true
  /-- A redirect to another host or port removes the token. -/
  redirects : ∀ q hops, reqwest.Makes q hops → hops.IsChain (KeepsToken reqwest.authority)
  /-- Ten redirects are followed at most. -/
  limited : ∀ q hops, reqwest.Makes q hops → hops.length ≤ 11

namespace HttpTransport

variable {transport : HttpTransport} {tr : List HttpEvent} {reqwest : Reqwest}

/-- The body of a response with a token. -/
def tokenBody : Bytes := Utf8.encode "\x7b\"token\":\"t\"\x7d".toList

/-- The body of a response with tags. -/
def tagsBody : Bytes := Utf8.encode "\x7b\"tags\":[\"1.1.11\",\"latest\"]\x7d".toList

/-- The transport to the registry, where these bodies are read. -/
def hub : HttpTransport :=
  .new (fun body => if body = tokenBody then .ok "t".toList else .error "not read".toList)
    fun body => if body = tagsBody then .ok ["1.1.11".toList, "latest".toList]
      else .error "not read".toList

/-- A response with a body. -/
def okResponse (body : Bytes) : HttpResponse := ⟨⟨200, "200 OK".toList⟩, fun _ => none, .ok body⟩

/-- The events of a call for the tags. -/
def tagsExchange : List HttpEvent :=
  [⟨hub.tokenRequest relayRepo, .ok (okResponse tokenBody)⟩,
    ⟨hub.tagsRequest "t".toList relayRepo, .ok (okResponse tagsBody)⟩]

theorem exchanged_tags : hub.Exchanged tagsCall ["1.1.11".toList, "latest".toList] tagsExchange :=
  ⟨okResponse tokenBody, "t".toList, okResponse tagsBody, rfl, ⟨rfl, by decide⟩, rfl, by
    show (okResponse tagsBody).json hub.decodeTags = .ok ["1.1.11".toList, "latest".toList]
    decide⟩

end HttpTransport

/-! ### Where answers come from -/

variable {toml : TomlFormat CacheStore} {start s s' : ClientState} {event : ClientEvent}
  {returned : Option Returned} {log : List Logged}

/-- The client was built with this answer, in memory or in the file. -/
def Initially (toml : TomlFormat CacheStore) (start : ClientState) (call : RegistryCall)
    (reply : call.Reply) : Prop :=
  ∃ store cachedAt, store.entry call = some (cachedAt, reply) ∧
    (store = start.client.cache ∨ ∃ text, start.file = some text ∧ toml.fromStr text = .ok store)

/-- The answers of a store are accounted for. -/
def Sourced (toml : TomlFormat CacheStore) (start : ClientState) (log : List Logged)
    (store : CacheStore) : Prop :=
  ∀ call : RegistryCall, call.Accepted → ∀ cachedAt reply,
    store.entry call = some (cachedAt, reply) →
      Initially toml start call reply ∨ Given log call reply

/-- What holds behind every step, whatever becomes of the file. -/
structure Honest (toml : TomlFormat CacheStore) (start : ClientState) (log : List Logged)
    (s : ClientState) : Prop where
  /-- The store in memory. -/
  memory : Sourced toml start log s.client.cache
  /-- The store that the file loads to. -/
  file : ∀ text store, s.file = some text → toml.fromStr text = .ok store →
    Sourced toml start log store
  /-- The calls that wait are about accepted repositories. -/
  pending : ∀ waiting ∈ s.pending, waiting.1.Accepted

theorem Sourced.append {store : CacheStore} (h : Sourced toml start log store)
    (more : List Logged) : Sourced toml start (log ++ more) store :=
  fun call hcall cachedAt reply hentry =>
  (h call hcall cachedAt reply hentry).imp_right fun hgiven => hgiven.append more

theorem Honest.append (h : Honest toml start log s) (more : List Logged) :
    Honest toml start (log ++ more) s :=
  ⟨h.memory.append more, fun text store hfile hload => (h.file text store hfile hload).append more,
    h.pending⟩

/-- A flush leaves the file as it is, or writes the store. -/
theorem flush_cases (toml : TomlFormat CacheStore) (client : RegistryClient) (files : FileOps)
    (file : Option Str) :
    (client.flush toml files file).2 = file ∨ ∃ text, toml.toStringPretty client.cache = .ok text ∧
      (client.flush toml files file).2 = some text := by
  unfold RegistryClient.flush
  split
  · exact .inl rfl
  · split
    · next text hsave =>
      refine .inr ⟨text, ?_, rfl⟩
      unfold CacheStore.saveTo at hsave
      obtain ⟨_, _, hsave⟩ := Except.bind_eq_ok.mp hsave
      obtain ⟨serialized, hserialized, hsave⟩ := Except.bind_eq_ok.mp hsave
      obtain ⟨_, _, hsave⟩ := Except.bind_eq_ok.mp hsave
      obtain ⟨_, _, hsave⟩ := Except.bind_eq_ok.mp hsave
      cases hsave
      cases hprint : toml.toStringPretty client.cache with
      | error e => rw [hprint] at hserialized; cases hserialized
      | ok text' => rw [hprint] at hserialized; cases hserialized; rfl
    · exact .inl rfl

/-- A loaded store is empty or the one of the file. -/
theorem loadFrom_cases {path : PathBuf} {read : FileOutcome} {file : Option Str}
    {store : CacheStore} (h : CacheStore.loadFrom toml path read file = .ok store) :
    store = .empty ∨ ∃ text, file = some text ∧ toml.fromStr text = .ok store := by
  unfold CacheStore.loadFrom at h
  split at h
  · exact .inl (Except.ok.inj h).symm
  · next text =>
    split at h
    · next hload =>
      obtain rfl := Except.ok.inj h
      exact .inr ⟨text, rfl, hload⟩
    · cases h
  · cases h

/-- Behind a restart the store is empty, or the one of the file. -/
theorem restarted_cache {read : FileOutcome}
    (h : step toml s (.restarted read) = some (s', returned)) :
    s'.client.cache = .empty ∨
      ∃ text, s.file = some text ∧ toml.fromStr text = .ok s'.client.cache := by
  simp only [step] at h
  split_ifs at h
  cases hpath : s.client.cachePath with
  | none =>
    rw [hpath] at h
    obtain ⟨rfl, -⟩ := Prod.mk.inj (Option.some.inj h)
    exact .inl rfl
  | some path =>
    rw [hpath] at h
    obtain ⟨rfl, -⟩ := Prod.mk.inj (Option.some.inj h)
    unfold RegistryClient.withCachePath
    cases hload : CacheStore.loadFrom toml path read s.file with
    | error e => exact .inl rfl
    | ok store => exact loadFrom_cases hload

theorem sourced_empty : Sourced toml start log .empty := by
  intro call _ cachedAt reply hentry
  rw [CacheStore.entry_empty] at hentry
  cases hentry

/-- An answer that is given is put. -/
theorem sourced_put {store : CacheStore} {now : DateTime} {call : RegistryCall} {reply : call.Reply}
    (h : Sourced toml start log store) (hcall : call.Accepted) (hgiven : Given log call reply) :
    Sourced toml start log (RegistryClient.put store now call reply) := by
  intro other hother cachedAt r hentry
  by_cases hne : other = call
  · obtain rfl := hne
    rw [RegistryClient.entry_put_self] at hentry
    obtain ⟨-, rfl⟩ := Prod.mk.inj (Option.some.inj hentry)
    exact .inr hgiven
  · rw [entry_put_of_ne store now reply hcall hother hne] at hentry
    exact h other hother cachedAt r hentry

/-- **A step keeps every answer accounted for.** -/
theorem honest_step (hround : toml.RoundTrips) (hs : Honest toml start log s)
    (haccepted : ∀ call now, event = .called call now → call.Accepted)
    (h : step toml s event = some (s', returned)) :
    Honest toml start (log ++ [⟨s, event, returned, s'⟩]) s' := by
  cases event with
  | called call now =>
    rcases step_called h with ⟨reply, _, rfl, _⟩ | ⟨_, rfl, _⟩
    · exact hs.append _
    · refine ⟨hs.memory.append _, (hs.append _).file, fun waiting hwaiting => ?_⟩
      rcases List.mem_append.mp hwaiting with hwaiting | hwaiting
      · exact hs.pending waiting hwaiting
      · rw [List.mem_singleton.mp hwaiting]
        exact haccepted call now rfl
  | answered i call answer files =>
    obtain ⟨now, result, client, file, hpending, hfinish, rfl, _⟩ := step_answered h
    have hcall : call.Accepted := hs.pending _ (List.mem_of_getElem? hpending)
    have hrest : ∀ waiting ∈ s.pending.eraseIdx i, waiting.1.Accepted := fun waiting hwaiting =>
      hs.pending waiting (List.mem_of_mem_eraseIdx hwaiting)
    rcases finish_cases hfinish with ⟨e, _, _, rfl, rfl⟩ | ⟨reply, rfl, rfl, rfl, _⟩
    · exact ⟨hs.memory.append _, (hs.append _).file, hrest⟩
    · have hput : ∀ l : Logged, l.event = .answered i call (.ok reply) files →
          Sourced toml start (log ++ [l]) (RegistryClient.put s.client.cache now call reply) :=
        fun l hl => sourced_put (hs.memory.append _) hcall
          ⟨l, List.mem_append_right _ (List.mem_singleton_self l), i, files, hl⟩
      refine ⟨hput _ rfl, fun text store hfile hload => ?_, hrest⟩
      rcases flush_cases toml
        ⟨RegistryClient.put s.client.cache now call reply, s.client.cachePath, s.client.ttl⟩
        files s.file with hflush | ⟨text', hprint, hflush⟩
      · exact (hs.append _).file text store (hflush ▸ hfile) hload
      · obtain rfl := Option.some.inj (hflush.symm.trans hfile)
        obtain rfl := Except.ok.inj ((hround _ _ hprint).symm.trans hload)
        exact hput _ rfl
  | restarted read =>
    obtain ⟨_, _, hfile, hpending, _⟩ := step_restarted h
    refine ⟨?_, fun text store htext hload => ?_, ?_⟩
    · rcases restarted_cache h with hcache | ⟨text, htext, hload⟩
      · rw [hcache]
        exact sourced_empty
      · exact (hs.append _).file text _ htext hload
    · exact (hs.append _).file text store (hfile ▸ htext) hload
    · rw [hpending]
      exact fun waiting hwaiting => absurd hwaiting List.not_mem_nil

/-- Nothing waits and nothing was logged. -/
theorem honest_start (hidle : start.pending = []) : Honest toml start [] start := by
  refine ⟨fun call _ t reply hentry => .inl ⟨_, t, hentry, .inl rfl⟩, ?_, ?_⟩
  · exact fun text store htext hload call _ t reply hentry =>
      .inl ⟨store, t, hentry, .inr ⟨text, htext, hload⟩⟩
  · rw [hidle]
    exact fun waiting hwaiting => absurd hwaiting List.not_mem_nil

theorem honest_of_run (hround : toml.RoundTrips) (hidle : start.pending = [])
    (hrun : ClientRun toml start log s)
    (haccepted : ∀ l ∈ log, ∀ call now, l.event = .called call now → call.Accepted) :
    Honest toml start log s := by
  induction hrun with
  | start => exact honest_start hidle
  | step _ hstep ih =>
    have hs := ih fun l hl => haccepted l (List.mem_append_left _ hl)
    exact honest_step hround hs
      (haccepted _ (List.mem_append_right _ (List.mem_singleton_self _))) hstep

/-- What a step returns was there at the start or was given. -/
theorem honest_returned (hs : Honest toml start log s)
    (haccepted : ∀ call now, event = .called call now → call.Accepted)
    (h : step toml s event = some (s', returned)) {call : RegistryCall} {reply : call.Reply}
    (hreturned : returned = some ⟨call, .ok reply⟩) :
    Initially toml start call reply ∨ Given (log ++ [⟨s, event, returned, s'⟩]) call reply := by
  cases event with
  | called call' now =>
    rcases step_called h with ⟨reply', hread, _, hret⟩ | ⟨_, _, hret⟩
    · rw [hreturned] at hret
      cases hret
      obtain ⟨cachedAt, hentry, _⟩ := RegistryClient.cacheRead_eq_some hread
      exact hs.memory.append _ call (haccepted call now rfl) cachedAt reply hentry
    · rw [hreturned] at hret
      cases hret
  | answered i call' answer files =>
    obtain ⟨now, result, client, file, _, hfinish, rfl, hret⟩ := step_answered h
    rw [hreturned] at hret
    cases hret
    rcases finish_cases hfinish with ⟨e, _, hresult, _, _⟩ | ⟨reply', rfl, _, _, hresult⟩
    · cases hresult
    · obtain rfl := hresult reply rfl
      exact .inr ⟨_, List.mem_append_right _ (List.mem_singleton_self _), i, files, rfl⟩
  | restarted read =>
    obtain ⟨_, hret, _⟩ := step_restarted h
    rw [hreturned] at hret
    cases hret

/-- What the client returns was there at the start or was given before. -/
theorem returned_given (hround : toml.RoundTrips) (hidle : start.pending = [])
    (hrun : ClientRun toml start log s)
    (haccepted : ∀ l ∈ log, ∀ call now, l.event = .called call now → call.Accepted)
    {pre post : List Logged} {l : Logged} (hlog : log = pre ++ l :: post) {call : RegistryCall}
    {reply : call.Reply} (hreturned : l.returned = some ⟨call, .ok reply⟩) :
    Initially toml start call reply ∨ Given (pre ++ [l]) call reply := by
  subst hlog
  obtain ⟨before, event, returned, after⟩ := l
  obtain ⟨hbefore, hstep⟩ := hrun.split
  have hs := honest_of_run hround hidle hbefore fun l hl => haccepted l (List.mem_append_left _ hl)
  exact honest_returned hs (haccepted _ (List.mem_append_right _ List.mem_cons_self)) hstep hreturned

/-- What was given was exchanged, when the transport has served the calls. -/
theorem exchanged_of_given {transport : HttpTransport} {call : RegistryCall} {reply : call.Reply}
    (h : Given log call reply)
    (hserved : ∀ l ∈ log, ∀ i call answer files, l.event = .answered i call answer files →
      ∃ tr, Run (transport.perform call) tr (some answer)) :
    ∃ l ∈ log, ∃ i files tr,
      l.event = .answered i call (.ok reply) files ∧ transport.Exchanged call reply tr := by
  obtain ⟨l, hl, i, files, hevent⟩ := h
  obtain ⟨tr, htr⟩ := hserved l hl i call _ files hevent
  exact ⟨l, hl, i, files, tr, hevent, HttpTransport.run_perform_ok_iff.mp htr⟩

/-- **Every answer is accounted for**: what the client returns for a call was there when it was
built, or an exchange for the same call has yielded it. -/
theorem answers_accounted {transport : HttpTransport} (hround : toml.RoundTrips)
    (hidle : start.pending = []) (hrun : ClientRun toml start log s)
    (haccepted : ∀ l ∈ log, ∀ call now, l.event = .called call now → call.Accepted)
    (hserved : ∀ l ∈ log, ∀ i call answer files, l.event = .answered i call answer files →
      ∃ tr, Run (transport.perform call) tr (some answer)) :
    ∀ pre l post, log = pre ++ l :: post → ∀ call reply, l.returned = some ⟨call, .ok reply⟩ →
      Initially toml start call reply ∨ ∃ l' ∈ pre ++ [l], ∃ i files tr,
        l'.event = .answered i call (.ok reply) files ∧ transport.Exchanged call reply tr := by
  intro pre l post hlog call reply hreturned
  refine (returned_given hround hidle hrun haccepted hlog hreturned).imp_right fun hgiven => ?_
  refine exchanged_of_given hgiven fun l' hl' => hserved l' ?_
  rw [hlog]
  rcases List.mem_append.mp hl' with hl' | hl'
  · exact List.mem_append_left _ hl'
  · exact List.mem_append_right _ (List.mem_singleton.mp hl' ▸ List.mem_cons_self)

/-- What the restarted client returns comes from the exchange before the restart. -/
theorem answers_accounted_restart :
    Initially taggedToml (freshClient cacheFile 3600000000000) tagsCall
        ["1.1.11".toList, "latest".toList] ∨
      ∃ l' ∈ taggedLog, ∃ i files tr,
        l'.event = .answered i tagsCall (.ok ["1.1.11".toList, "latest".toList]) files ∧
        HttpTransport.hub.Exchanged tagsCall ["1.1.11".toList, "latest".toList] tr := by
  have hrepo : tagsCall.Accepted := ⟨relayRepo, by decide⟩
  have haccepted : ∀ l ∈ taggedLog, ∀ call now, l.event = .called call now → call.Accepted := by
    intro l hl call now hevent
    simp only [taggedLog, List.mem_cons, List.not_mem_nil, or_false] at hl
    rcases hl with rfl | rfl | rfl | rfl
    · cases hevent
      exact hrepo
    · cases hevent
    · cases hevent
    · cases hevent
      exact hrepo
  have hserved : ∀ l ∈ taggedLog, ∀ i call answer files, l.event = .answered i call answer files →
      ∃ tr, Run (HttpTransport.hub.perform call) tr (some answer) := by
    intro l hl i call answer files hevent
    simp only [taggedLog, List.mem_cons, List.not_mem_nil, or_false] at hl
    rcases hl with rfl | rfl | rfl | rfl
    · cases hevent
    · cases hevent
      exact ⟨_, HttpTransport.run_perform_ok_iff.mpr HttpTransport.exchanged_tags⟩
    · cases hevent
    · cases hevent
  exact answers_accounted taggedToml_roundTrips rfl taggedLog_run haccepted hserved
    (taggedLog.take 3) _ [] rfl tagsCall _ rfl

end Registry

end Rustmote
