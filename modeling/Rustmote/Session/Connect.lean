import Rustmote.Session.KnownHosts

/-!
# Connecting

How a host key gets from the handshake into `known_hosts.toml`: `check_server_key` pins it in
memory, `Session::open` reports through a shared slot that it did, and `rustmote connect`
saves the store when `open` has returned.

A run is a function of what the other side does, its `Attempt`, and of the file. Between the
pin and the save stand the authentication and the port forward; a run in which one of them
fails has accepted a key and leaves no trace of it. `connectRuns` is a sequence of runs, with
the keys that `check_server_key` accepted.
-/

namespace Rustmote

/-- What a server and the network do in one run. -/
structure Attempt where
  /-- The key the server shows. -/
  observed : HostKey
  /-- How the handshake goes on behind `check_server_key`. -/
  handshake : Except RustmoteError Unit
  /-- What `authenticate` returns. -/
  authenticate : Except RustmoteError Unit
  /-- What `spawn_forwarder` returns: the local port. -/
  spawnForwarder : Except RustmoteError Nat

namespace Session

/-- `HostKeyHandler::check_server_key`, behind `verify_or_pin`: what it returns for an
outcome. -/
def checkServerKey (host : Str) (port : Nat) : TofuOutcome → Except RustmoteError Bool
  | .matched | .pinned => .ok true
  | .mismatch expected actual => .error (.hostKeyMismatch host port expected.fingerprint actual)
  | .unknownRejected => .error (.hostKeyUnknown host port)

/-- `Session::open`: the result with the local port and whether a key was newly pinned, the
store as the handshake leaves it, and whether the key was accepted. -/
def openSession (host : Str) (port : Nat) (kh : KnownHosts) (policy : TofuPolicy) (attempt : Attempt) :
    Except RustmoteError (Nat × Bool) × KnownHosts × Bool :=
  let (outcome, kh) := kh.verifyOrPin host port attempt.observed policy
  match checkServerKey host port outcome with
  | .error e => (.error e, kh, false)
  | .ok accepted =>
    (do
      attempt.handshake
      attempt.authenticate
      let localPort ← attempt.spawnForwarder
      return (localPort, outcome = .pinned), kh, accepted)

end Session

/-- `connect::run`, from loading `known_hosts.toml` to where a new pin has been saved: the
file as the run leaves it, and the key that was accepted. -/
def connectRun (toml : KnownHostsToml) (path : PathBuf) (host : Str) (port : Nat)
    (file : Option Str) (attempt : Attempt) : Option Str × Option HostKey :=
  match KnownHosts.loadFrom toml path file with
  | .error _ => (file, none)
  | .ok kh =>
    let (result, kh, accepted) := Session.openSession host port kh .trustOnFirstUse attempt
    let shown := if accepted then some attempt.observed else none
    match result with
    | .ok (_, true) =>
      match kh.saveTo toml with
      | .ok text => (some text, shown)
      | .error _ => (file, shown)
    | _ => (file, shown)

/-- One run behind the other: the keys that were accepted, in order. -/
def connectRuns (toml : KnownHostsToml) (path : PathBuf) (host : Str) (port : Nat) :
    Option Str → List Attempt → List HostKey
  | _, [] => []
  | file, attempt :: attempts =>
    let (file, accepted) := connectRun toml path host port file attempt
    accepted.toList ++ connectRuns toml path host port file attempts

/-! ### One run -/

/-- The run gets to where a new pin is saved. -/
def Attempt.Succeeds (attempt : Attempt) : Prop :=
  attempt.handshake = .ok () ∧ attempt.authenticate = .ok () ∧
    ∃ localPort, attempt.spawnForwarder = .ok localPort

variable {toml : KnownHostsToml} {path : PathBuf} {host : Str} {port : Nat} {file : Option Str}
  {kh : KnownHosts}

/-- Without a readable file no key is looked at. -/
theorem connectRun_unreadable {e : RustmoteError}
    (hload : KnownHosts.loadFrom toml path file = .error e) (attempt : Attempt) :
    connectRun toml path host port file attempt = (file, none) := by
  unfold connectRun
  rw [hload]

/-- A pinned endpoint accepts the pinned fingerprint only, and the file stays as it is. -/
theorem connectRun_pinned {existing : HostKey} (hload : KnownHosts.loadFrom toml path file = .ok kh)
    (hget : kh.get host port = some existing) (attempt : Attempt) :
    connectRun toml path host port file attempt =
      (file, if existing.fingerprint = attempt.observed.fingerprint then some attempt.observed
        else none) := by
  unfold connectRun Session.openSession
  rw [hload]
  simp only [KnownHosts.verifyOrPin_of_get hget]
  by_cases hfp : existing.fingerprint = attempt.observed.fingerprint
  · -- matched: whatever happens then, nothing is newly pinned
    simp only [if_pos hfp, Session.checkServerKey]
    cases attempt.handshake with
    | error e => rfl
    | ok u =>
      cases attempt.authenticate with
      | error e => rfl
      | ok u =>
        cases attempt.spawnForwarder with
        | error e => rfl
        | ok localPort => rfl
  · simp only [if_neg hfp, Session.checkServerKey]
    rfl

/-- An endpoint that is not pinned accepts any key, and a run that fails later leaves the
file as it is. -/
theorem connectRun_new_of_not_succeeds (hload : KnownHosts.loadFrom toml path file = .ok kh)
    (hget : kh.get host port = none) {attempt : Attempt} (hfail : ¬ attempt.Succeeds) :
    connectRun toml path host port file attempt = (file, some attempt.observed) := by
  unfold connectRun Session.openSession
  rw [hload]
  simp only [KnownHosts.verifyOrPin_of_get_none hget, Session.checkServerKey]
  cases h₁ : attempt.handshake with
  | error e => rfl
  | ok u =>
    cases h₂ : attempt.authenticate with
    | error e => rfl
    | ok u =>
      cases h₃ : attempt.spawnForwarder with
      | error e => rfl
      | ok localPort => exact absurd ⟨h₁, h₂, localPort, h₃⟩ hfail

/-- A run that succeeds pins the key. -/
theorem connectRun_new_of_succeeds {text : Str}
    (hload : KnownHosts.loadFrom toml path file = .ok kh) (hget : kh.get host port = none)
    {attempt : Attempt} (hok : attempt.Succeeds)
    (hsave : (kh.insert (KnownHosts.endpoint host port) attempt.observed).saveTo toml = .ok text) :
    connectRun toml path host port file attempt = (some text, some attempt.observed) := by
  obtain ⟨h₁, h₂, localPort, h₃⟩ := hok
  unfold connectRun Session.openSession
  rw [hload]
  simp only [KnownHosts.verifyOrPin_of_get_none hget, Session.checkServerKey, h₁, h₂, h₃]
  show (match (KnownHosts.insert kh (KnownHosts.endpoint host port) attempt.observed).saveTo toml with
    | .ok text => (some text, some attempt.observed)
    | .error _ => (file, some attempt.observed)) = _
  rw [hsave]

/-! ### All runs -/

/-- The keys have one fingerprint. -/
def OneFingerprint (keys : List HostKey) : Prop :=
  ∀ k ∈ keys, ∀ k' ∈ keys, k.fingerprint = k'.fingerprint

instance (keys : List HostKey) : Decidable (OneFingerprint keys) :=
  inferInstanceAs (Decidable (∀ k ∈ keys, ∀ k' ∈ keys, k.fingerprint = k'.fingerprint))

instance (attempt : Attempt) : Decidable attempt.Succeeds :=
  match attempt with
  | ⟨_, .ok (), .ok (), .ok localPort⟩ => .isTrue ⟨rfl, rfl, localPort, rfl⟩
  | ⟨_, .error _, _, _⟩ => .isFalse fun h => nomatch h.1
  | ⟨_, _, .error _, _⟩ => .isFalse fun h => nomatch h.2.1
  | ⟨_, _, _, .error _⟩ => .isFalse fun h => nomatch h.2.2

/-- The keys that are shown up to the first run that succeeds. -/
def shownUntilSuccess : List Attempt → List HostKey
  | [] => []
  | attempt :: attempts =>
    if attempt.Succeeds then [attempt.observed]
    else attempt.observed :: shownUntilSuccess attempts

/-- The file pins the endpoint, or cannot be read. -/
def Settled (toml : KnownHostsToml) (path : PathBuf) (host : Str) (port : Nat)
    (file : Option Str) : Prop :=
  ∀ kh, KnownHosts.loadFrom toml path file = .ok kh → kh.get host port ≠ none

/-- **From a pin on** only the pinned fingerprint is accepted. -/
theorem connectRuns_pinned {existing : HostKey}
    (hload : KnownHosts.loadFrom toml path file = .ok kh)
    (hget : kh.get host port = some existing) (attempts : List Attempt) :
    ∀ k ∈ connectRuns toml path host port file attempts,
      k.fingerprint = existing.fingerprint := by
  induction attempts with
  | nil => exact fun k hk => absurd hk List.not_mem_nil
  | cons attempt attempts ih =>
    intro k hk
    rw [connectRuns, connectRun_pinned hload hget] at hk
    rcases List.mem_append.mp hk with hk | hk
    · split_ifs at hk with hfp
      · rw [Option.toList_some, List.mem_singleton] at hk
        rw [hk, hfp]
      · cases hk
    · exact ih k hk

/-- **Up to the first success** every key is accepted, and from then on only that one. -/
theorem connectRuns_new (htoml : toml.RoundTrips)
    (hload : KnownHosts.loadFrom toml path file = .ok kh) (hget : kh.get host port = none)
    {attempts : List Attempt}
    (hsave : ∀ attempt ∈ attempts, ∃ text,
      (kh.insert (KnownHosts.endpoint host port) attempt.observed).saveTo toml = .ok text) :
    ∃ rest, connectRuns toml path host port file attempts = shownUntilSuccess attempts ++ rest ∧
      ∀ k ∈ rest, ∃ k' ∈ shownUntilSuccess attempts, k.fingerprint = k'.fingerprint := by
  induction attempts with
  | nil => exact ⟨[], rfl, fun k hk => absurd hk List.not_mem_nil⟩
  | cons attempt attempts ih =>
    rw [connectRuns, shownUntilSuccess]
    by_cases hok : attempt.Succeeds
    · obtain ⟨text, htext⟩ := hsave attempt List.mem_cons_self
      have hload' := KnownHosts.loadFrom_of_saveTo htoml path htext
      rw [connectRun_new_of_succeeds hload hget hok htext, if_pos hok]
      refine ⟨connectRuns toml path host port (some text) attempts, rfl, fun k hk => ?_⟩
      have hfp := connectRuns_pinned hload' (KnownHosts.get_insert kh host port _) attempts k hk
      exact ⟨attempt.observed, List.mem_singleton_self _, hfp⟩
    · obtain ⟨rest, hrest, hall⟩ := ih fun a ha => hsave a (List.mem_cons_of_mem _ ha)
      rw [connectRun_new_of_not_succeeds hload hget hok, if_neg hok]
      refine ⟨rest, congrArg (attempt.observed :: ·) hrest, fun k hk => ?_⟩
      obtain ⟨k', hk', hfp⟩ := hall k hk
      exact ⟨k', List.mem_cons_of_mem _ hk', hfp⟩

/-- **When trust on first use holds across connections**: exactly when the file pins the
endpoint, or all keys shown up to the first run that succeeds have one fingerprint. -/
theorem connectRuns_oneFingerprint_iff (htoml : toml.RoundTrips) {attempts : List Attempt}
    (hsave : ∀ kh, KnownHosts.loadFrom toml path file = .ok kh → ∀ attempt ∈ attempts,
      ∃ text, (kh.insert (KnownHosts.endpoint host port) attempt.observed).saveTo toml =
        .ok text) :
    OneFingerprint (connectRuns toml path host port file attempts) ↔
      Settled toml path host port file ∨ OneFingerprint (shownUntilSuccess attempts) := by
  cases hload : KnownHosts.loadFrom toml path file with
  | error e =>
    have hnone : ∀ as : List Attempt, connectRuns toml path host port file as = [] := by
      intro as
      induction as with
      | nil => rfl
      | cons a as ih => rw [connectRuns, connectRun_unreadable hload]; exact ih
    rw [hnone]
    have hsettled : Settled toml path host port file := by
      intro kh h
      rw [hload] at h
      cases h
    exact ⟨fun _ => .inl hsettled, fun _ k hk => absurd hk List.not_mem_nil⟩
  | ok kh =>
    cases hget : kh.get host port with
    | some existing =>
      have hpinned := connectRuns_pinned hload hget attempts
      have hsettled : Settled toml path host port file := by
        intro kh' h
        rw [hload] at h
        cases h
        rw [hget]
        exact Option.some_ne_none existing
      exact ⟨fun _ => .inl hsettled, fun _ k hk k' hk' =>
        (hpinned k hk).trans (hpinned k' hk').symm⟩
    | none =>
      obtain ⟨rest, hruns, hrest⟩ := connectRuns_new htoml hload hget (hsave kh hload)
      rw [hruns]
      constructor
      · intro h
        exact .inr fun k hk k' hk' =>
          h k (List.mem_append_left _ hk) k' (List.mem_append_left _ hk')
      · rintro (h | h)
        · exact absurd hget (h kh hload)
        · have hrep : ∀ k ∈ shownUntilSuccess attempts ++ rest,
              ∃ k' ∈ shownUntilSuccess attempts, k.fingerprint = k'.fingerprint := by
            intro k hk
            rcases List.mem_append.mp hk with hk | hk
            · exact ⟨k, hk, rfl⟩
            · exact hrest k hk
          intro k hk k' hk'
          obtain ⟨m, hm, hkm⟩ := hrep k hk
          obtain ⟨m', hm', hkm'⟩ := hrep k' hk'
          rw [hkm, hkm', h m hm m' hm']

/-! ### Two servers -/

/-- The key of the first server. -/
def sampleKey : HostKey := ⟨"SHA256:uKzM".toList, "ssh-ed25519".toList, ⟨1776556800, 0⟩⟩

/-- The key of a second server under the same address. -/
def otherKey : HostKey := ⟨"SHA256:9fQx".toList, "ssh-ed25519".toList, ⟨1776643200, 0⟩⟩

/-- The store with one key pinned. -/
def hostsWith (key : HostKey) : KnownHosts :=
  KnownHosts.empty.insert (KnownHosts.endpoint "zima".toList 22) key

/-- That store as a file. -/
def hostsText (fingerprint firstSeen : String) : Str :=
  ("[entries.\"zima:22\"]\nfingerprint = \"" ++ fingerprint ++
    "\"\nkey_type = \"ssh-ed25519\"\nfirst_seen = \"" ++ firstSeen ++ "\"\n").toList

/-- The file with the first key. -/
def sampleText : Str := hostsText "SHA256:uKzM" "2026-04-19T00:00:00Z"

/-- The file with the second key. -/
def otherText : Str := hostsText "SHA256:9fQx" "2026-04-20T00:00:00Z"

/-- `toml`, as far as these two files go. -/
def sampleHostsToml : KnownHostsToml where
  toStringPretty kh :=
    if kh = hostsWith sampleKey then .ok sampleText
    else if kh = hostsWith otherKey then .ok otherText
    else .error []
  fromStr raw :=
    if raw = sampleText then .ok (hostsWith sampleKey)
    else if raw = otherText then .ok (hostsWith otherKey)
    else .error []

theorem sampleHostsToml_roundTrips : sampleHostsToml.RoundTrips := by
  have hne : otherText ≠ sampleText := by decide
  intro kh text h
  simp only [sampleHostsToml] at h ⊢
  split_ifs at h with h₁ h₂
  · cases h
    rw [if_pos rfl, h₁]
  · cases h
    rw [if_neg hne, if_pos rfl, h₂]

/-- The first run succeeds; the other server that answers the second run is refused. -/
theorem connectRuns_oneFingerprint_second_server :
    OneFingerprint (connectRuns sampleHostsToml (.fromStr "known_hosts.toml".toList) "zima".toList
      22 none [⟨sampleKey, .ok (), .ok (), .ok 40001⟩, ⟨otherKey, .ok (), .ok (), .ok 40002⟩]) := by
  refine (connectRuns_oneFingerprint_iff sampleHostsToml_roundTrips fun kh hload attempt h => ?_).mpr
    (.inr (by decide))
  cases hload
  rcases List.mem_cons.mp h with rfl | h
  · exact ⟨sampleText, by decide⟩
  · rw [List.mem_singleton] at h
    exact ⟨otherText, by rw [h]; decide⟩

/-- Two servers under one address, and authentication fails at both: both keys were accepted. -/
theorem connectRuns_two_keys :
    ¬ OneFingerprint (connectRuns sampleHostsToml (.fromStr "known_hosts.toml".toList)
      "zima".toList 22 none
      [⟨sampleKey, .ok (), .error (.sshAuthFailed [] [] [] []), .ok 40001⟩,
        ⟨otherKey, .ok (), .error (.sshAuthFailed [] [] [] []), .ok 40001⟩]) := by
  decide

end Rustmote
