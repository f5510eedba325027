import Rustmote.Error
import Rustmote.Foundations.SortedMap
import Rustmote.Foundations.TomlFormat

/-!
# The registry client and its cache

`registry_client.rs`. A call of `RegistryClient` reads the clock once and looks into the cache;
only if it finds nothing fresh does it await the transport, and what the transport answers is put
into the cache and written to the file with the time of the call. The two halves are `begin` and
`finish`: between them other calls of the client run.

A `RegistryCall` is `list_tags` or `resolve_digest` with its arguments. Each has a table of the
store, and the table's entries are stamped.
-/

namespace Rustmote

/-- What a file operation comes to: nothing, or the message of an I/O error. -/
abbrev FileOutcome := Except Str Unit

/-- The file operations of an atomic save: how each of them ends. -/
structure FileOps where
  /-- `std::fs::create_dir_all`. -/
  createDirAll : FileOutcome
  /-- `std::fs::write`, of the temporary file. -/
  write : FileOutcome
  /-- `std::fs::rename`, over the file. -/
  rename : FileOutcome

/-- All of them succeed. -/
def FileOps.succeed : FileOps := ⟨.ok (), .ok (), .ok ()⟩

/-- `?` on a file operation. -/
def FileOutcome.check (outcome : FileOutcome) : Except RustmoteError Unit :=
  match outcome with
  | .ok () => .ok ()
  | .error e => .error (.ioError e)

namespace Registry

/-- `TagsEntry`. -/
structure TagsEntry where
  cachedAt : DateTime
  tags : List Str
  deriving DecidableEq

/-- `DigestEntry`. -/
structure DigestEntry where
  cachedAt : DateTime
  digest : Str
  deriving DecidableEq

/-- `CacheStore`. -/
structure CacheStore where
  /-- Keyed by `repo`. -/
  tags : BTreeMap Str TagsEntry
  /-- Keyed by `repo:tag`. -/
  digests : BTreeMap Str DigestEntry
  deriving DecidableEq

/-- `digest_key`. -/
def digestKey (repo tag : Str) : Str := repo ++ ":".toList ++ tag

/-- `chrono::Duration::from_std`, in nanoseconds: a `chrono::Duration` has at most `i64::MAX`
milliseconds. -/
def fromStd (ttl : Nat) : Option Int :=
  if ttl ≤ 9223372036854775807 * 1000000 then some ttl else none

/-- `is_fresh`. -/
def isFresh (cachedAt : DateTime) (ttl : Nat) (now : DateTime) : Bool :=
  match fromStd ttl with
  | none => true
  | some ttlChrono => now.signedDurationSince cachedAt < ttlChrono

namespace CacheStore

/-- `CacheStore::default`. -/
def empty : CacheStore := ⟨.empty, .empty⟩

/-- `CacheStore::load_from`: what reading the file comes to, and `none` for no file. -/
def loadFrom (toml : TomlFormat CacheStore) (path : PathBuf) (read : FileOutcome)
    (file : Option Str) : Except RustmoteError CacheStore :=
  match file, read with
  | none, _ => .ok empty
  | some raw, .ok () =>
    match toml.fromStr raw with
    | .ok store => .ok store
    | .error e => .error (.configParse path e)
  | some _, .error e => .error (.ioError e)

/-- `CacheStore::save_to`: what the file then holds. -/
def saveTo (toml : TomlFormat CacheStore) (store : CacheStore) (files : FileOps) :
    Except RustmoteError Str := do
  files.createDirAll.check
  let serialized ← (toml.toStringPretty store).mapError .configSerialize
  files.write.check
  files.rename.check
  return serialized

/-- `CacheStore::tag_list_if_fresh`. -/
def tagListIfFresh (store : CacheStore) (repo : Str) (ttl : Nat) (now : DateTime) :
    Option (List Str) :=
  match store.tags.get repo with
  | none => none
  | some entry => if isFresh entry.cachedAt ttl now then some entry.tags else none

/-- `CacheStore::digest_if_fresh`. -/
def digestIfFresh (store : CacheStore) (repo tag : Str) (ttl : Nat) (now : DateTime) :
    Option Str :=
  match store.digests.get (digestKey repo tag) with
  | none => none
  | some entry => if isFresh entry.cachedAt ttl now then some entry.digest else none

/-- `CacheStore::put_tag_list`. -/
def putTagList (store : CacheStore) (repo : Str) (tags : List Str) (now : DateTime) : CacheStore :=
  { store with tags := store.tags.insert repo ⟨now, tags⟩ }

/-- `CacheStore::put_digest`. -/
def putDigest (store : CacheStore) (repo tag digest : Str) (now : DateTime) : CacheStore :=
  { store with digests := store.digests.insert (digestKey repo tag) ⟨now, digest⟩ }

end CacheStore

/-! ### Calls -/

/-- A call of the client, which is also what it asks the transport. -/
inductive RegistryCall where
  /-- `list_tags`. -/
  | listTags (repo : Str)
  /-- `resolve_digest`. -/
  | resolveDigest (repo tag : Str)
  deriving DecidableEq

namespace RegistryCall

/-- What a call returns. -/
abbrev Reply : RegistryCall → Type
  | .listTags _ => List Str
  | .resolveDigest _ _ => Str

instance decidableEqReply : (call : RegistryCall) → DecidableEq call.Reply
  | .listTags _ => inferInstanceAs (DecidableEq (List Str))
  | .resolveDigest _ _ => inferInstanceAs (DecidableEq Str)

/-- The repository a call is about. -/
def repo : RegistryCall → Str
  | .listTags repo => repo
  | .resolveDigest repo _ => repo

end RegistryCall

/-- `RegistryClient`, without its transport. -/
structure RegistryClient where
  cache : CacheStore
  cachePath : Option PathBuf
  /-- In nanoseconds. -/
  ttl : Nat
  deriving DecidableEq

namespace RegistryClient

/-- `cache_read_tags` and `cache_read_digest`. -/
def cacheRead (client : RegistryClient) (now : DateTime) :
    (call : RegistryCall) → Option call.Reply
  | .listTags repo => client.cache.tagListIfFresh repo client.ttl now
  | .resolveDigest repo tag => client.cache.digestIfFresh repo tag client.ttl now

/-- `flush`: the result, and the file as it is then. -/
def flush (toml : TomlFormat CacheStore) (client : RegistryClient) (files : FileOps)
    (file : Option Str) : Except RustmoteError Unit × Option Str :=
  match client.cachePath with
  | none => (.ok (), file)
  | some _ =>
    match client.cache.saveTo toml files with
    | .ok text => (.ok (), some text)
    | .error e => (.error e, file)

/-- The store with an answer put in: `put_tag_list` or `put_digest`. -/
def put (store : CacheStore) (now : DateTime) : (call : RegistryCall) → call.Reply → CacheStore
  | .listTags repo, tags => store.putTagList repo tags now
  | .resolveDigest repo tag, digest => store.putDigest repo tag digest now

/-- `cache_write_tags` and `cache_write_digest`. -/
def cacheWrite (toml : TomlFormat CacheStore) (client : RegistryClient) (call : RegistryCall)
    (reply : call.Reply) (now : DateTime) (files : FileOps) (file : Option Str) :
    Except RustmoteError Unit × RegistryClient × Option Str :=
  let client := { client with cache := put client.cache now call reply }
  let (result, file) := client.flush toml files file
  (result, client, file)

/-- `list_tags` and `resolve_digest` from the transport's answer on. -/
def finish (toml : TomlFormat CacheStore) (client : RegistryClient) (call : RegistryCall)
    (now : DateTime) (answer : Except RustmoteError call.Reply) (files : FileOps)
    (file : Option Str) : Except RustmoteError call.Reply × RegistryClient × Option Str :=
  match answer with
  | .error e => (.error e, client, file)
  | .ok reply =>
    match client.cacheWrite toml call reply now files file with
    | (.ok (), client, file) => (.ok reply, client, file)
    | (.error e, client, file) => (.error e, client, file)

/-- `with_cache_path`: a file that cannot be loaded leaves the cache as it is. -/
def withCachePath (toml : TomlFormat CacheStore) (client : RegistryClient) (path : PathBuf)
    (read : FileOutcome) (file : Option Str) : RegistryClient :=
  match CacheStore.loadFrom toml path read file with
  | .ok store => { client with cache := store, cachePath := some path }
  | .error _ => { client with cachePath := some path }

end RegistryClient

end Registry

end Rustmote
