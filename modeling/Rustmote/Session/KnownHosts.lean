import Rustmote.Error
import Rustmote.Foundations.Civil
import Rustmote.Foundations.SortedMap

/-!
# Known hosts

The store of pinned host keys, `session/known_hosts.rs`. The file is TOML, which the
repository does not print or read itself: `KnownHostsToml` is what it uses.
-/

namespace Rustmote

/-- `HostKey`. -/
structure HostKey where
  /-- `SHA256:` and the digest of the public key. -/
  fingerprint : Str
  keyType : Str
  firstSeen : DateTime
  deriving DecidableEq

/-- `KnownHosts`: the pinned key of each endpoint. -/
structure KnownHosts where
  /-- Keyed by `host:port`. -/
  entries : BTreeMap Str HostKey
  deriving DecidableEq

/-- `TofuOutcome`. -/
inductive TofuOutcome where
  | pinned
  | matched
  | mismatch (expected : HostKey) (actualFingerprint : Str)
  | unknownRejected
  deriving DecidableEq

/-- `TofuPolicy`. -/
inductive TofuPolicy where
  | trustOnFirstUse | strict
  deriving DecidableEq

/-- The `toml` crate, for a store of host keys. -/
structure KnownHostsToml where
  /-- `toml::to_string_pretty`. -/
  toStringPretty : KnownHosts → Except Str Str
  /-- `toml::from_str`. -/
  fromStr : Str → Except Str KnownHosts

/-- What is printed is read back. -/
def KnownHostsToml.RoundTrips (toml : KnownHostsToml) : Prop :=
  ∀ kh text, toml.toStringPretty kh = .ok text → toml.fromStr text = .ok kh

namespace KnownHosts

/-- `KnownHosts::default`. -/
def empty : KnownHosts := ⟨.empty⟩

/-- `KnownHosts::endpoint`. -/
def endpoint (host : Str) (port : Nat) : Str := host ++ ":".toList ++ Text.decimal port

/-- `KnownHosts::get`. -/
def get (kh : KnownHosts) (host : Str) (port : Nat) : Option HostKey :=
  kh.entries.get (endpoint host port)

/-- The store with a key pinned. -/
def insert (kh : KnownHosts) (key : Str) (value : HostKey) : KnownHosts :=
  ⟨kh.entries.insert key value⟩

/-- `KnownHosts::verify_or_pin`: the outcome, and the store behind it. -/
def verifyOrPin (kh : KnownHosts) (host : Str) (port : Nat) (observed : HostKey)
    (policy : TofuPolicy) : TofuOutcome × KnownHosts :=
  match kh.get host port with
  | some existing =>
    if existing.fingerprint = observed.fingerprint then (.matched, kh)
    else (.mismatch existing observed.fingerprint, kh)
  | none =>
    match policy with
    | .trustOnFirstUse => (.pinned, kh.insert (endpoint host port) observed)
    | .strict => (.unknownRejected, kh)

/-- `KnownHosts::load_from`: `none` is a file that does not exist. -/
def loadFrom (toml : KnownHostsToml) (path : PathBuf) (file : Option Str) :
    Except RustmoteError KnownHosts :=
  match file with
  | none => .ok empty
  | some raw =>
    match toml.fromStr raw with
    | .ok kh => .ok kh
    | .error e => .error (.configParse path e)

/-- `KnownHosts::save_to`: what the file then holds. -/
def saveTo (toml : KnownHostsToml) (kh : KnownHosts) : Except RustmoteError Str :=
  match toml.toStringPretty kh with
  | .ok text => .ok text
  | .error e => .error (.configSerialize e)

/-- A pinned endpoint is only ever matched, and the store stays as it is. -/
theorem verifyOrPin_of_get {kh : KnownHosts} {host : Str} {port : Nat} {existing observed : HostKey}
    {policy : TofuPolicy} (h : kh.get host port = some existing) :
    kh.verifyOrPin host port observed policy =
      (if existing.fingerprint = observed.fingerprint then .matched
        else .mismatch existing observed.fingerprint, kh) := by
  unfold verifyOrPin
  rw [h]
  by_cases hfp : existing.fingerprint = observed.fingerprint
  · simp only [if_pos hfp]
  · simp only [if_neg hfp]

/-- An endpoint that is not pinned is pinned on first use. -/
theorem verifyOrPin_of_get_none {kh : KnownHosts} {host : Str} {port : Nat} {observed : HostKey}
    (h : kh.get host port = none) :
    kh.verifyOrPin host port observed .trustOnFirstUse =
      (.pinned, kh.insert (endpoint host port) observed) := by
  unfold verifyOrPin
  rw [h]

/-- And refused under the strict policy. -/
theorem verifyOrPin_of_get_none_strict {kh : KnownHosts} {host : Str} {port : Nat}
    {observed : HostKey} (h : kh.get host port = none) :
    kh.verifyOrPin host port observed .strict = (.unknownRejected, kh) := by
  unfold verifyOrPin
  rw [h]

@[simp] theorem get_insert (kh : KnownHosts) (host : Str) (port : Nat) (value : HostKey) :
    (kh.insert (endpoint host port) value).get host port = some value :=
  kh.entries.get_insert_self _ value

/-- **What is saved is loaded.** -/
theorem loadFrom_of_saveTo {toml : KnownHostsToml} (h : toml.RoundTrips) (path : PathBuf)
    {kh : KnownHosts} {text : Str} (hsave : kh.saveTo toml = .ok text) :
    loadFrom toml path (some text) = .ok kh := by
  unfold saveTo at hsave
  cases hprint : toml.toStringPretty kh with
  | error e => rw [hprint] at hsave; cases hsave
  | ok text' =>
    rw [hprint] at hsave
    obtain rfl := Except.ok.inj hsave
    rw [loadFrom, h kh text' hprint]

end KnownHosts

end Rustmote
