import Rustmote.Config.Registry
import Rustmote.Foundations.SortedMap

/-!
# Stored passwords

`credentials.rs`. A `CredentialStore` asks for a password each time, or keeps it in the OS
keyring, or in a file. The keyring is a map from service and account, as the crate documents it,
and file operations succeed; what the modules do with the two is below.

`mapOutcomes` is what a store is for: a map from pairs of server and user. The keyring and the
file are both that map (`stores_agree`), although they know the pair only as one text.
-/

namespace Rustmote

/-- The OS keyring: a map from service and account. -/
abbrev Keyring := Str × Str → Option Str

/-- `UnsafeFile`. -/
structure UnsafeFile where
  /-- Keyed by `server:user`. -/
  passwords : BTreeMap Str Str
  deriving DecidableEq

/-- `CredentialStore`. -/
inductive CredentialStore where
  | prompt
  | keychain
  | unsafeFile (path : PathBuf)

/-- A file with its mode. -/
structure ModeFile where
  text : Str
  mode : Nat
  deriving DecidableEq

/-- What the stores work on. -/
structure CredentialWorld where
  keyring : Keyring
  /-- The file at the store's path. -/
  file : Option ModeFile
  /-- What the terminal gives for a prompt. -/
  terminal : Str → Except Str Str

namespace Credentials

/-- `KEYRING_SERVICE`. -/
def keyringService : Str := "rustmote".toList

/-- `keyring_account`. -/
def keyringAccount (server user : Str) : Str := server ++ ":".toList ++ user

/-- `split_account_server`. -/
def splitAccountServer (account : Str) : Str :=
  match Text.splitOnce ':' account with
  | some (server, _) => server
  | none => account

/-- `split_account_user`. -/
def splitAccountUser (account : Str) : Str :=
  match Text.splitOnce ':' account with
  | some (_, user) => user
  | none => []

/-- `SystemKeyring::get`. -/
def keyringGet (keyring : Keyring) (service account : Str) : Except RustmoteError Str :=
  match keyring (service, account) with
  | some password => .ok password
  | none => .error (.noStoredCredential (splitAccountServer account) (splitAccountUser account))

/-- `SystemKeyring::set`. -/
def keyringSet (keyring : Keyring) (service account password : Str) : Keyring :=
  Function.update keyring (service, account) (some password)

/-- `SystemKeyring::delete`; a missing entry is a success. -/
def keyringDelete (keyring : Keyring) (service account : Str) : Keyring :=
  Function.update keyring (service, account) none

/-- `check_unsafe_permissions`: `0600`, or no file yet. -/
def checkUnsafePermissions (file : Option ModeFile) : Except RustmoteError Unit :=
  match file with
  | none => .ok ()
  | some file =>
    if file.mode % 0o1000 = 0o600 then .ok () else .error (.insecureCredentialsFile (file.mode % 0o1000))

/-- `read_unsafe_file`. -/
def readUnsafeFile (toml : TomlFormat UnsafeFile) (path : PathBuf) (file : Option ModeFile) :
    Except RustmoteError UnsafeFile := do
  checkUnsafePermissions file
  match file with
  | none => return ⟨.empty⟩
  | some file =>
    match toml.fromStr file.text with
    | .ok passwords => return passwords
    | .error e => .error (.configParse path e)

/-- `write_unsafe_file`: a new file gets mode `0600`, and another one keeps its mode. -/
def writeUnsafeFile (toml : TomlFormat UnsafeFile) (passwords : UnsafeFile)
    (file : Option ModeFile) : Except RustmoteError Unit × Option ModeFile :=
  match toml.toStringPretty passwords with
  | .error e => (.error (.configSerialize e), file)
  | .ok serialized =>
    match file with
    | none => (.ok (), some ⟨serialized, 0o600⟩)
    | some file => (.ok (), some ⟨serialized, file.mode⟩)

/-- `prompt_for_password`. -/
def promptForPassword (terminal : Str → Except Str Str) (server user : Str) :
    Except RustmoteError Str :=
  (terminal ("Password for ".toList ++ user ++ "@".toList ++ server ++ ": ".toList)).mapError
    .ioError

/-- `CredentialStore::get_password`. -/
def getPassword (toml : TomlFormat UnsafeFile) (store : CredentialStore) (w : CredentialWorld)
    (server user : Str) : Except RustmoteError Str :=
  match store with
  | .prompt => promptForPassword w.terminal server user
  | .keychain => keyringGet w.keyring keyringService (keyringAccount server user)
  | .unsafeFile path => do
    let file ← readUnsafeFile toml path w.file
    match file.passwords.get (keyringAccount server user) with
    | some password => return password
    | none => .error (.noStoredCredential server user)

/-- Reading the file, an edit of the passwords, and writing the file. -/
def rewrite (toml : TomlFormat UnsafeFile) (path : PathBuf) (w : CredentialWorld)
    (edit : BTreeMap Str Str → BTreeMap Str Str) : Except RustmoteError Unit × CredentialWorld :=
  match readUnsafeFile toml path w.file with
  | .error e => (.error e, w)
  | .ok file =>
    let (result, file) := writeUnsafeFile toml ⟨edit file.passwords⟩ w.file
    (result, { w with file := file })

/-- `CredentialStore::set_password`. -/
def setPassword (toml : TomlFormat UnsafeFile) (store : CredentialStore) (w : CredentialWorld)
    (server user password : Str) : Except RustmoteError Unit × CredentialWorld :=
  match store with
  | .prompt => (.ok (), w)
  | .keychain =>
    let keyring := keyringSet w.keyring keyringService (keyringAccount server user) password
    (.ok (), { w with keyring := keyring })
  | .unsafeFile path => rewrite toml path w fun m => m.insert (keyringAccount server user) password

/-- `CredentialStore::delete_password`. -/
def deletePassword (toml : TomlFormat UnsafeFile) (store : CredentialStore) (w : CredentialWorld)
    (server user : Str) : Except RustmoteError Unit × CredentialWorld :=
  match store with
  | .prompt => (.ok (), w)
  | .keychain =>
    let keyring := keyringDelete w.keyring keyringService (keyringAccount server user)
    (.ok (), { w with keyring := keyring })
  | .unsafeFile path => rewrite toml path w fun m => m.remove (keyringAccount server user)

end Credentials

/-! ### Calls, and the map they are for -/

/-- A call of the store. -/
inductive CredentialCall where
  | set (server user password : Str)
  | get (server user : Str)
  | delete (server user : Str)

/-- The server a call is about. -/
def CredentialCall.server : CredentialCall → Str
  | .set server _ _ => server
  | .get server _ => server
  | .delete server _ => server

/-- What a call returns. -/
inductive CredentialOutcome where
  | done (result : Except RustmoteError Unit)
  | password (result : Except RustmoteError Str)
  deriving DecidableEq

namespace Credentials

/-- One call of a store. -/
def call (toml : TomlFormat UnsafeFile) (store : CredentialStore) (w : CredentialWorld) :
    CredentialCall → CredentialOutcome × CredentialWorld
  | .set server user password =>
    let (result, w) := setPassword toml store w server user password
    (.done result, w)
  | .get server user => (.password (getPassword toml store w server user), w)
  | .delete server user =>
    let (result, w) := deletePassword toml store w server user
    (.done result, w)

/-- What the calls return, one behind the other. -/
def outcomes (toml : TomlFormat UnsafeFile) (store : CredentialStore) :
    CredentialWorld → List CredentialCall → List CredentialOutcome
  | _, [] => []
  | w, c :: calls => (call toml store w c).1 :: outcomes toml store (call toml store w c).2 calls

/-- What a store is for: a map from pairs of server and user. -/
abbrev PasswordMap := Str × Str → Option Str

/-- A call of the map. -/
def mapCall (m : PasswordMap) : CredentialCall → CredentialOutcome × PasswordMap
  | .set server user password => (.done (.ok ()), Function.update m (server, user) (some password))
  | .get server user =>
    match m (server, user) with
    | some password => (.password (.ok password), m)
    | none => (.password (.error (.noStoredCredential server user)), m)
  | .delete server user => (.done (.ok ()), Function.update m (server, user) none)

/-- What the map's calls return. -/
def mapOutcomes : PasswordMap → List CredentialCall → List CredentialOutcome
  | _, [] => []
  | m, c :: calls => (mapCall m c).1 :: mapOutcomes (mapCall m c).2 calls

/-- The password a pair was last given and has not lost since, with `now` what it has before. -/
def lastSet (server user : Str) : Option Str → List CredentialCall → Option Str
  | now, [] => now
  | now, .set s u password :: calls =>
    lastSet server user (if s = server ∧ u = user then some password else now) calls
  | now, .get _ _ :: calls => lastSet server user now calls
  | now, .delete s u :: calls =>
    lastSet server user (if s = server ∧ u = user then none else now) calls

/-! ### The account of a pair -/

/-- A name that is valid has no colon. -/
theorem colon_not_mem_of_validateName {server : Str}
    (h : RemoteServer.validateName server = .ok ()) : ':' ∉ server := by
  unfold RemoteServer.validateName at h
  split_ifs at h with hname
  intro hmem
  exact absurd (List.all_eq_true.mp hname.2.2 ':' hmem) (by decide)

/-- **The account tells server and user apart**, whatever the user's name. -/
theorem keyringAccount_injective {server server' user user' : Str} (h : ':' ∉ server)
    (h' : ':' ∉ server') (heq : keyringAccount server user = keyringAccount server' user') :
    (server, user) = (server', user') := by
  unfold keyringAccount at heq
  rw [List.append_assoc, List.append_assoc] at heq
  obtain ⟨rfl, rfl⟩ := Text.append_cons_inj_of_not_mem_left h h' heq
  rfl

/-- And is split into them again. -/
theorem splitOnce_keyringAccount {server : Str} (user : Str) (h : ':' ∉ server) :
    Text.splitOnce ':' (keyringAccount server user) = some (server, user) := by
  unfold keyringAccount
  rw [List.append_assoc]
  exact Text.splitOnce_append_cons h

/-- A missing entry of the keyring is reported for the pair. -/
theorem keyringGet_keyringAccount (keyring : Keyring) {server : Str} (user : Str)
    (h : ':' ∉ server) :
    keyringGet keyring keyringService (keyringAccount server user) =
      match keyring (keyringService, keyringAccount server user) with
      | some password => .ok password
      | none => .error (.noStoredCredential server user) := by
  unfold keyringGet splitAccountServer splitAccountUser
  rw [splitOnce_keyringAccount user h]

/-! ### Both stores simulate the map -/

/-- The file can be read and holds the passwords of a map. -/
structure FileHolds (toml : TomlFormat UnsafeFile) (path : PathBuf) (file : Option ModeFile)
    (passwords : UnsafeFile) : Prop where
  permitted : checkUnsafePermissions file = .ok ()
  reads : readUnsafeFile toml path file = .ok passwords

/-- What a lookup of accounts makes of the pairs with a valid server is the map. -/
def Simulates (lookup : Str → Option Str) (m : PasswordMap) : Prop :=
  ∀ server user, RemoteServer.validateName server = .ok () →
    lookup (keyringAccount server user) = m (server, user)

variable {toml : TomlFormat UnsafeFile} {path : PathBuf} {w : CredentialWorld} {m : PasswordMap}

/-- An entry that is changed in both is changed at one pair. -/
theorem Simulates.update {lookup lookup' : Str → Option Str} (h : Simulates lookup m)
    {server user : Str} (hserver : RemoteServer.validateName server = .ok ()) (value : Option Str)
    (hself : lookup' (keyringAccount server user) = value)
    (hother : ∀ account, account ≠ keyringAccount server user → lookup' account = lookup account) :
    Simulates lookup' (Function.update m (server, user) value) := by
  intro s u hs
  by_cases heq : (s, u) = (server, user)
  · obtain ⟨rfl, rfl⟩ := Prod.mk.inj heq
    rw [Function.update_self]
    exact hself
  · rw [Function.update_of_ne heq, hother, h s u hs]
    intro haccount
    exact heq (keyringAccount_injective (colon_not_mem_of_validateName hs)
      (colon_not_mem_of_validateName hserver) haccount)

/-- Rewriting a file that holds passwords succeeds, and it holds the edited ones. -/
theorem rewrite_of_fileHolds (hround : toml.RoundTrips) (htotal : toml.Total)
    {passwords : UnsafeFile} (h : FileHolds toml path w.file passwords)
    (edit : BTreeMap Str Str → BTreeMap Str Str) :
    ∃ file, rewrite toml path w edit = (.ok (), { w with file := file }) ∧
      FileHolds toml path file ⟨edit passwords.passwords⟩ := by
  obtain ⟨text, htext⟩ := htotal ⟨edit passwords.passwords⟩
  have hparse := hround _ _ htext
  have hreads : ∀ mode, checkUnsafePermissions (some ⟨text, mode⟩) = .ok () →
      FileHolds toml path (some ⟨text, mode⟩) ⟨edit passwords.passwords⟩ := by
    intro mode hmode
    refine ⟨hmode, ?_⟩
    unfold readUnsafeFile
    rw [hmode]
    simp only [hparse]
    rfl
  unfold rewrite
  rw [h.reads]
  simp only [writeUnsafeFile, htext]
  cases hfile : w.file with
  | none => exact ⟨some ⟨text, 0o600⟩, rfl, hreads 0o600 rfl⟩
  | some file =>
    refine ⟨some ⟨text, file.mode⟩, rfl, hreads file.mode ?_⟩
    have hpermitted := h.permitted
    rw [hfile] at hpermitted
    exact hpermitted

/-- **The file is the map**, over all calls. -/
theorem outcomes_unsafeFile (hround : toml.RoundTrips) (htotal : toml.Total)
    {passwords : UnsafeFile} (hfile : FileHolds toml path w.file passwords)
    (hsim : Simulates passwords.passwords.get m) {calls : List CredentialCall}
    (hvalid : ∀ c ∈ calls, RemoteServer.validateName c.server = .ok ()) :
    outcomes toml (.unsafeFile path) w calls = mapOutcomes m calls := by
  induction calls generalizing w m passwords with
  | nil => rfl
  | cons c calls ih =>
    have hc : RemoteServer.validateName c.server = .ok () := hvalid c List.mem_cons_self
    have hrest := fun c' hc' => hvalid c' (List.mem_cons_of_mem _ hc')
    cases c with
    | set server user password =>
      have hserver : RemoteServer.validateName server = .ok () := hc
      obtain ⟨file, hrewrite, hfile'⟩ := rewrite_of_fileHolds hround htotal hfile
        fun m => m.insert (keyringAccount server user) password
      have hsim' := hsim.update hserver (some password)
        (BTreeMap.get_insert_self passwords.passwords (keyringAccount server user) password)
        fun _ hne => BTreeMap.get_insert_of_ne _ password hne
      simp only [outcomes, call, setPassword, hrewrite, mapOutcomes, mapCall]
      rw [ih hfile' hsim' hrest]
    | get server user =>
      have hlookup := hsim server user hc
      have hget : getPassword toml (.unsafeFile path) w server user =
          match m (server, user) with
          | some password => .ok password
          | none => .error (.noStoredCredential server user) := by
        simp only [getPassword, hfile.reads]
        rw [← hlookup]
        rfl
      simp only [outcomes, call, hget, mapOutcomes, mapCall]
      rw [ih hfile hsim hrest]
      cases m (server, user) with
      | some password => rfl
      | none => rfl
    | delete server user =>
      have hserver : RemoteServer.validateName server = .ok () := hc
      obtain ⟨file, hrewrite, hfile'⟩ := rewrite_of_fileHolds hround htotal hfile
        fun m => m.remove (keyringAccount server user)
      have hsim' := hsim.update hserver none
        (BTreeMap.get_remove_self passwords.passwords (keyringAccount server user))
        fun _ hne => BTreeMap.get_remove_of_ne _ hne
      simp only [outcomes, call, deletePassword, hrewrite, mapOutcomes, mapCall]
      rw [ih hfile' hsim' hrest]

/-- **The keyring is the map**, over all calls. -/
theorem outcomes_keychain
    (hsim : Simulates (fun account => w.keyring (keyringService, account)) m)
    {calls : List CredentialCall}
    (hvalid : ∀ c ∈ calls, RemoteServer.validateName c.server = .ok ()) :
    outcomes toml .keychain w calls = mapOutcomes m calls := by
  induction calls generalizing w m with
  | nil => rfl
  | cons c calls ih =>
    have hc : RemoteServer.validateName c.server = .ok () := hvalid c List.mem_cons_self
    have hrest := fun c' hc' => hvalid c' (List.mem_cons_of_mem _ hc')
    -- an entry of another account is left as it is
    have hother : ∀ (account : Str) (value : Option Str) (other : Str), other ≠ account →
        Function.update w.keyring (keyringService, account) value (keyringService, other) =
          w.keyring (keyringService, other) := by
      intro account value other hne
      exact Function.update_of_ne (fun h => hne (Prod.mk.inj h).2) value w.keyring
    cases c with
    | set server user password =>
      have hsim' : Simulates (fun account => keyringSet w.keyring keyringService
          (keyringAccount server user) password (keyringService, account))
          (Function.update m (server, user) (some password)) :=
        hsim.update hc (some password) (Function.update_self _ _ _) fun other hne =>
          hother _ _ other hne
      simp only [outcomes, call, setPassword, mapOutcomes, mapCall]
      rw [ih hsim' hrest]
    | get server user =>
      have hserver : RemoteServer.validateName server = .ok () := hc
      have hlookup : w.keyring (keyringService, keyringAccount server user) = m (server, user) :=
        hsim server user hserver
      have hget := keyringGet_keyringAccount w.keyring user (colon_not_mem_of_validateName hserver)
      rw [hlookup] at hget
      simp only [outcomes, call, getPassword, hget, mapOutcomes, mapCall]
      rw [ih hsim hrest]
      cases m (server, user) with
      | some password => rfl
      | none => rfl
    | delete server user =>
      have hsim' : Simulates (fun account => keyringDelete w.keyring keyringService
          (keyringAccount server user) (keyringService, account))
          (Function.update m (server, user) none) :=
        hsim.update hc none (Function.update_self _ _ _) fun other hne => hother _ _ other hne
      simp only [outcomes, call, deletePassword, mapOutcomes, mapCall]
      rw [ih hsim' hrest]

/-! ### The two stores -/

/-- **What the map gives is what a pair was last given.** -/
theorem mapOutcomes_get {m : PasswordMap} {pre post : List CredentialCall} {server user : Str} :
    (mapOutcomes m (pre ++ .get server user :: post))[pre.length]? =
      match lastSet server user (m (server, user)) pre with
      | some password => some (.password (.ok password))
      | none => some (.password (.error (.noStoredCredential server user))) := by
  induction pre generalizing m with
  | nil =>
    simp only [List.nil_append, mapOutcomes, lastSet, List.length_nil, List.getElem?_cons_zero,
      mapCall]
    cases m (server, user) with
    | some password => rfl
    | none => rfl
  | cons c pre ih =>
    have hupdate : ∀ s u (value : Option Str), Function.update m (s, u) value (server, user) =
        if s = server ∧ u = user then value else m (server, user) := by
      intro s u value
      by_cases h : s = server ∧ u = user
      · rw [if_pos h, h.1, h.2, Function.update_self]
      · rw [if_neg h, Function.update_of_ne]
        rintro heq
        obtain ⟨rfl, rfl⟩ := Prod.mk.inj heq
        exact h ⟨rfl, rfl⟩
    rw [List.cons_append, mapOutcomes, List.length_cons, List.getElem?_cons_succ, ih]
    cases c with
    | set s u password => simp only [mapCall, lastSet, hupdate]
    | get s u =>
      have hsame : (mapCall m (.get s u)).2 = m := by
        simp only [mapCall]
        split
        · rfl
        · rfl
      rw [hsame, lastSet]
    | delete s u => simp only [mapCall, lastSet, hupdate]

/-- **Unsafe mode and keychain mode are the same map**: from a missing file and from an empty
keyring, all calls return the same, which is what the map of pairs returns. -/
theorem stores_agree (hround : toml.RoundTrips) (htotal : toml.Total) (path : PathBuf)
    {w w' : CredentialWorld} (hfile : w.file = none) (hkeyring : w'.keyring = fun _ => none)
    {calls : List CredentialCall}
    (hvalid : ∀ c ∈ calls, RemoteServer.validateName c.server = .ok ()) :
    outcomes toml (.unsafeFile path) w calls = outcomes toml .keychain w' calls ∧
    outcomes toml .keychain w' calls = mapOutcomes (fun _ => none) calls ∧
    ∀ pre server user post, calls = pre ++ .get server user :: post →
      (outcomes toml .keychain w' calls)[pre.length]? =
        match lastSet server user none pre with
        | some password => some (.password (.ok password))
        | none => some (.password (.error (.noStoredCredential server user))) := by
  have hplain : outcomes toml (.unsafeFile path) w calls = mapOutcomes (fun _ => none) calls := by
    have hholds : FileHolds toml path w.file ⟨.empty⟩ := by
      rw [hfile]
      exact ⟨rfl, rfl⟩
    exact outcomes_unsafeFile hround htotal hholds (fun _ _ _ => rfl) hvalid
  have hkeychain : outcomes toml .keychain w' calls = mapOutcomes (fun _ => none) calls := by
    refine outcomes_keychain (fun server user _ => ?_) hvalid
    rw [hkeyring]
  refine ⟨hplain.trans hkeychain.symm, hkeychain, ?_⟩
  rintro pre server user post rfl
  rw [hkeychain]
  exact mapOutcomes_get

/-! ### A user with a colon -/

instance encodableUnsafeFile : Encodable UnsafeFile :=
  Encodable.ofLeftInverse (fun file => file.passwords) (fun passwords => ⟨passwords⟩) fun _ => rfl

/-- The password of a user with a colon in its name, as a file. -/
def sampleText : Str := "[passwords]\n\"zima:ops:night\" = \"hunter2\"\n".toList

/-- `toml`, with this text for that password. -/
def sampleToml : TomlFormat UnsafeFile :=
  .ofTable [(⟨BTreeMap.empty.insert (keyringAccount "zima".toList "ops:night".toList)
    "hunter2".toList⟩, sampleText)]

theorem sampleToml_roundTrips : sampleToml.RoundTrips := by
  refine TomlFormat.roundTrips_ofTable (fun e he e' he' _ => ?_) fun e he => ?_
  · rw [List.mem_singleton.mp he, List.mem_singleton.mp he']
  · rw [List.mem_singleton.mp he]
    decide +kernel

/-- A world with nothing in it. -/
def emptyWorld : CredentialWorld := ⟨fun _ => none, none, fun _ => .error []⟩

/-- The pair of server and user is found, and another one at the same server is not. -/
theorem stores_agree_colon :
    outcomes sampleToml (.unsafeFile (.fromStr "credentials.toml".toList)) emptyWorld
        [.set "zima".toList "ops:night".toList "hunter2".toList,
          .get "zima".toList "ops:night".toList, .get "zima".toList "ops".toList] =
      outcomes sampleToml .keychain emptyWorld
        [.set "zima".toList "ops:night".toList "hunter2".toList,
          .get "zima".toList "ops:night".toList, .get "zima".toList "ops".toList] := by
  refine (stores_agree sampleToml_roundTrips (TomlFormat.total_ofTable _) _ rfl rfl ?_).1
  intro c hc
  have hzima : RemoteServer.validateName "zima".toList = .ok () := by decide
  rcases List.mem_cons.mp hc with rfl | hc
  · exact hzima
  rcases List.mem_cons.mp hc with rfl | hc
  · exact hzima
  · rw [List.mem_singleton.mp hc]
    exact hzima

end Credentials

end Rustmote
