import Rustmote.Config.Credentials

/-!
# Keys and passwords

How `rustmote connect` authenticates. `resolve_password` decides whether there is a password at
all, by whether a default key file is there; then `authenticate` tries the key files that exist,
in order, and behind them the password, if it was given one.

What is there and what the server accepts is an `AuthSetting`. `authenticate` returns its result
and the trace of what it offered.
-/

namespace Rustmote

/-- The key files, and what the server accepts. -/
structure AuthSetting (KeyPair : Type) where
  /-- `home_dir`. -/
  homeDir : Option PathBuf
  /-- `Path::exists`. -/
  existsAt : PathBuf → Bool
  /-- `Path::is_file`. -/
  isFile : PathBuf → Bool
  /-- `load_secret_key`, with a passphrase. -/
  loadSecretKey : PathBuf → Option Str → Except Str KeyPair
  /-- `authenticate_publickey`, for a user. -/
  authenticatePublickey : Str → KeyPair → Except Str Bool
  /-- `authenticate_password`, for a user. -/
  authenticatePassword : Str → Str → Except Str Bool

/-- `AuthMaterial`. -/
structure AuthMaterial where
  extraKeyPaths : List PathBuf
  keyPassphrase : Option Str
  password : Option Str

/-- Something `authenticate` did. -/
inductive AuthStep where
  /-- A key file could not be loaded. -/
  | loadFailed (path : PathBuf) (e : Str)
  /-- A key was offered, and this was the answer. -/
  | keyOffered (path : PathBuf) (answer : Except Str Bool)
  /-- The password was offered. -/
  | passwordOffered (password : Str) (answer : Except Str Bool)
  deriving DecidableEq

/-- `Path::join`, of one component that is not absolute. -/
def PathBuf.join (path : PathBuf) (component : Str) : PathBuf :=
  if path.bytes.getLast? = some 0x2F ∨ path.bytes = [] then ⟨path.bytes ++ Utf8.encode component⟩
  else ⟨path.bytes ++ 0x2F :: Utf8.encode component⟩

namespace Session

variable {KeyPair : Type}

/-- `~/.ssh/id_ed25519` and `~/.ssh/id_rsa`. -/
def sshKeys (home : PathBuf) : List PathBuf :=
  [(home.join ".ssh".toList).join "id_ed25519".toList,
    (home.join ".ssh".toList).join "id_rsa".toList]

/-- `default_key_paths`. -/
def defaultKeyPaths (setting : AuthSetting KeyPair) (extras : List PathBuf) : List PathBuf :=
  match setting.homeDir with
  | some home => extras ++ sshKeys home
  | none => extras

/-- The loop of `authenticate` over the candidates: whether one was accepted, the methods that
were tried, the last error, and the trace. -/
def offerKeys (setting : AuthSetting KeyPair) (user : Str) (passphrase : Option Str) :
    List PathBuf → List Str → Str → Bool × List Str × Str × List AuthStep
  | [], tried, lastError => (false, tried, lastError, [])
  | path :: paths, tried, lastError =>
    if setting.existsAt path then
      let tried := tried ++ ["publickey".toList]
      match setting.loadSecretKey path passphrase with
      | .ok key =>
        let answer := setting.authenticatePublickey user key
        match answer with
        | .ok true => (true, tried, lastError, [.keyOffered path answer])
        | .ok false =>
          let lastError := "server rejected key ".toList ++ path.toStringLossy
          let (accepted, tried, lastError, steps) :=
            offerKeys setting user passphrase paths tried lastError
          (accepted, tried, lastError, .keyOffered path answer :: steps)
        | .error e =>
          let lastError := "publickey auth error with ".toList ++ path.toStringLossy ++
            ": ".toList ++ e
          let (accepted, tried, lastError, steps) :=
            offerKeys setting user passphrase paths tried lastError
          (accepted, tried, lastError, .keyOffered path answer :: steps)
      | .error e =>
        let lastError := "could not load ".toList ++ path.toStringLossy ++ ": ".toList ++ e
        let (accepted, tried, lastError, steps) :=
          offerKeys setting user passphrase paths tried lastError
        (accepted, tried, lastError, .loadFailed path e :: steps)
    else offerKeys setting user passphrase paths tried lastError

/-- The texts with commas between them. -/
def commas : List Str → Str
  | [] => []
  | [s] => s
  | s :: rest => s ++ ",".toList ++ commas rest

/-- `SshAuthFailed`, with the methods that were tried. -/
def authFailed (user host : Str) (tried : List Str) (lastError : Str) : RustmoteError :=
  .sshAuthFailed user host
    (if tried = [] then "(none — no key found, no password supplied)".toList else commas tried)
    lastError

/-- `authenticate`, for a user at a host. -/
def authenticate (setting : AuthSetting KeyPair) (user host : Str) (auth : AuthMaterial) :
    Except RustmoteError Unit × List AuthStep :=
  let candidates := defaultKeyPaths setting auth.extraKeyPaths
  let (accepted, tried, lastError, steps) :=
    offerKeys setting user auth.keyPassphrase candidates [] []
  if accepted then (.ok (), steps)
  else
    match auth.password with
    | none => (.error (authFailed user host tried lastError), steps)
    | some password =>
      let tried := tried ++ ["password".toList]
      let answer := setting.authenticatePassword user password
      let steps := steps ++ [.passwordOffered password answer]
      match answer with
      | .ok true => (.ok (), steps)
      | .ok false => (.error (authFailed user host tried "server rejected password".toList), steps)
      | .error e =>
        (.error (authFailed user host tried ("password auth error: ".toList ++ e)), steps)

end Session

namespace Connect

variable {KeyPair : Type}

/-- `has_default_ssh_keys`. -/
def hasDefaultSshKeys (setting : AuthSetting KeyPair) : Bool :=
  match setting.homeDir with
  | none => false
  | some home => (Session.sshKeys home).any setting.isFile

/-- `resolve_password`: `stored` is what the configured credential store yields. -/
def resolvePassword (setting : AuthSetting KeyPair) (stored : Except RustmoteError Str) :
    Except RustmoteError (Option Str) :=
  if hasDefaultSshKeys setting then .ok none
  else
    match stored with
    | .ok password => .ok (some password)
    | .error (.noStoredCredential _ _) => .ok none
    | .error e => .error e

/-- The authentication of `connect::run`: the password, and behind it `authenticate`. -/
def authenticate (setting : AuthSetting KeyPair) (user host : Str)
    (stored : Except RustmoteError Str) : Except RustmoteError Unit × List AuthStep :=
  match resolvePassword setting stored with
  | .error e => (.error e, [])
  | .ok password => Session.authenticate setting user host ⟨[], none, password⟩

end Connect

/-! ### The loop over the keys -/

namespace AuthSetting

variable {KeyPair : Type}

/-- A key file that gets the user in. -/
def Usable (setting : AuthSetting KeyPair) (user : Str) (passphrase : Option Str)
    (path : PathBuf) : Prop :=
  setting.existsAt path = true ∧ ∃ key, setting.loadSecretKey path passphrase = .ok key ∧
    setting.authenticatePublickey user key = .ok true

end AuthSetting

/-- A key that was of no use: its file did not load, or the server did not accept it. -/
def AuthStep.Refused (path : PathBuf) (step : AuthStep) : Prop :=
  (∃ e, step = .loadFailed path e) ∨ ∃ answer, step = .keyOffered path answer ∧ answer ≠ .ok true

namespace Session

variable {KeyPair : Type} {setting : AuthSetting KeyPair} {user : Str} {passphrase : Option Str}

/-- **What the loop does with its first candidate**: it is passed over, it ends the loop, or it
leaves a step that says how it failed. -/
theorem offerKeys_cons (setting : AuthSetting KeyPair) (user : Str) (passphrase : Option Str)
    (path : PathBuf) (paths : List PathBuf) (tried : List Str) (lastError : Str) :
    (setting.existsAt path = false ∧
      offerKeys setting user passphrase (path :: paths) tried lastError =
        offerKeys setting user passphrase paths tried lastError) ∨
    (setting.Usable user passphrase path ∧
      (offerKeys setting user passphrase (path :: paths) tried lastError).1 = true ∧
      (offerKeys setting user passphrase (path :: paths) tried lastError).2.2.2 =
        [.keyOffered path (.ok true)]) ∨
    (setting.existsAt path = true ∧ ¬ setting.Usable user passphrase path ∧
      ∃ step tried' lastError', step.Refused path ∧
        offerKeys setting user passphrase (path :: paths) tried lastError =
          let rest := offerKeys setting user passphrase paths tried' lastError'
          (rest.1, rest.2.1, rest.2.2.1, step :: rest.2.2.2)) := by
  cases hexists : setting.existsAt path with
  | false =>
    refine .inl ⟨rfl, ?_⟩
    rw [offerKeys, hexists]
    rfl
  | true =>
    right
    cases hload : setting.loadSecretKey path passphrase with
    | error e =>
      refine .inr ⟨rfl, ?_, .loadFailed path e, tried ++ ["publickey".toList],
        "could not load ".toList ++ path.toStringLossy ++ ": ".toList ++ e, .inl ⟨e, rfl⟩, ?_⟩
      · rintro ⟨-, key, hkey, -⟩
        rw [hload] at hkey
        cases hkey
      · rw [offerKeys, hexists, if_pos rfl, hload]
    | ok key =>
      have hsame : ∀ {key' : KeyPair}, setting.loadSecretKey path passphrase = .ok key' →
          key' = key := fun hkey => by rw [hload] at hkey; exact (Except.ok.inj hkey).symm
      cases hanswer : setting.authenticatePublickey user key with
      | error e =>
        refine .inr ⟨rfl, ?_, .keyOffered path (.error e), tried ++ ["publickey".toList],
          "publickey auth error with ".toList ++ path.toStringLossy ++ ": ".toList ++ e,
          .inr ⟨_, rfl, by simp⟩, ?_⟩
        · rintro ⟨-, key', hkey, hok⟩
          rw [hsame hkey, hanswer] at hok
          cases hok
        · rw [offerKeys, hexists, if_pos rfl, hload]
          simp only [hanswer]
      | ok accepted =>
        cases accepted with
        | true =>
          refine .inl ⟨⟨hexists, key, hload, hanswer⟩, ?_, ?_⟩
          · rw [offerKeys, hexists, if_pos rfl, hload]
            simp only [hanswer]
          · rw [offerKeys, hexists, if_pos rfl, hload]
            simp only [hanswer]
        | false =>
          refine .inr ⟨rfl, ?_, .keyOffered path (.ok false), tried ++ ["publickey".toList],
            "server rejected key ".toList ++ path.toStringLossy, .inr ⟨_, rfl, by simp⟩, ?_⟩
          · rintro ⟨-, key', hkey, hok⟩
            rw [hsame hkey, hanswer] at hok
            cases hok
          · rw [offerKeys, hexists, if_pos rfl, hload]
            simp only [hanswer]

/-- **The loop succeeds exactly when a candidate is usable.** -/
theorem offerKeys_accepted_iff (paths : List PathBuf) (tried : List Str) (lastError : Str) :
    (offerKeys setting user passphrase paths tried lastError).1 = true ↔
      ∃ path ∈ paths, setting.Usable user passphrase path := by
  induction paths generalizing tried lastError with
  | nil => simp [offerKeys]
  | cons path paths ih =>
    simp only [List.mem_cons, exists_eq_or_imp]
    rcases offerKeys_cons setting user passphrase path paths
      tried lastError with ⟨hexists, heq⟩ | ⟨husable, hok, _⟩ | ⟨_, hnot, _, _, _, _, heq⟩
    · rw [heq, ih]
      constructor
      · exact .inr
      · rintro (⟨hpath, -⟩ | h)
        · rw [hexists] at hpath
          cases hpath
        · exact h
    · exact ⟨fun _ => .inl husable, fun _ => hok⟩
    · rw [heq, ih]
      exact ⟨.inr, fun h => h.resolve_left hnot⟩

/-- The loop offers no password. -/
theorem password_not_mem_offerKeys (paths : List PathBuf) (tried : List Str) (lastError : Str) :
    ∀ password answer, AuthStep.passwordOffered password answer ∉
      (offerKeys setting user passphrase paths tried lastError).2.2.2 := by
  induction paths generalizing tried lastError with
  | nil => exact fun password answer h => absurd h List.not_mem_nil
  | cons path paths ih =>
    intro password answer h
    rcases offerKeys_cons setting user passphrase path paths
      tried lastError with ⟨_, heq⟩ | ⟨_, _, hsteps⟩ | ⟨_, _, step, tried', e', hrefused, heq⟩
    · rw [heq] at h
      exact ih _ _ password answer h
    · rw [hsteps, List.mem_singleton] at h
      cases h
    · rw [heq] at h
      rcases List.mem_cons.mp h with rfl | h
      · rcases hrefused with ⟨e, he⟩ | ⟨a, ha, _⟩
        · cases he
        · cases ha
      · exact ih _ _ password answer h

/-- **A loop that fails has refused every candidate that exists.** -/
theorem refused_of_offerKeys {paths : List PathBuf} {tried : List Str} {lastError : Str}
    (h : (offerKeys setting user passphrase paths tried lastError).1 = false) {path : PathBuf}
    (hpath : path ∈ paths) (hexists : setting.existsAt path = true) :
    ∃ step ∈ (offerKeys setting user passphrase paths tried lastError).2.2.2,
      step.Refused path := by
  induction paths generalizing tried lastError with
  | nil => exact absurd hpath List.not_mem_nil
  | cons first paths ih =>
    rcases offerKeys_cons setting user passphrase first paths
      tried lastError with ⟨hmissing, heq⟩ | ⟨_, hok, _⟩ | ⟨_, _, step, tried', e', hrefused, heq⟩
    · rw [heq] at h ⊢
      rcases List.mem_cons.mp hpath with rfl | hpath
      · rw [hmissing] at hexists
        cases hexists
      · exact ih h hpath
    · rw [hok] at h
      cases h
    · rw [heq] at h ⊢
      rcases List.mem_cons.mp hpath with rfl | hpath
      · exact ⟨step, List.mem_cons_self, hrefused⟩
      · obtain ⟨s, hs, hsrefused⟩ := ih h hpath
        exact ⟨s, List.mem_cons_of_mem _ hs, hsrefused⟩

/-- `authenticate` gets in with a key that is usable, or else with a password the server
accepts. -/
theorem authenticate_eq_ok_iff {host : Str} {auth : AuthMaterial} :
    (authenticate setting user host auth).1 = .ok () ↔
      (∃ path ∈ defaultKeyPaths setting auth.extraKeyPaths,
        setting.Usable user auth.keyPassphrase path) ∨
      ∃ password, auth.password = some password ∧
        setting.authenticatePassword user password = .ok true := by
  rw [← offerKeys_accepted_iff _ [] []]
  unfold authenticate
  cases haccepted : (offerKeys setting user auth.keyPassphrase
      (defaultKeyPaths setting auth.extraKeyPaths) [] []).1 with
  | true => simp [haccepted]
  | false =>
    cases hpassword : auth.password with
    | none => simp [haccepted]
    | some password =>
      cases hanswer : setting.authenticatePassword user password with
      | error e => simp [haccepted, hanswer]
      | ok accepted =>
        cases accepted with
        | true => simp [haccepted, hanswer]
        | false => simp [haccepted, hanswer]

/-- **A password is the last thing that is offered**: every candidate that exists has failed to
load or been refused before it. -/
theorem refused_before_password {host : Str} {auth : AuthMaterial} {pre post : List AuthStep}
    {password : Str} {answer : Except Str Bool}
    (h : (authenticate setting user host auth).2 = pre ++ .passwordOffered password answer :: post)
    {path : PathBuf} (hpath : path ∈ defaultKeyPaths setting auth.extraKeyPaths)
    (hexists : setting.existsAt path = true) : ∃ step ∈ pre, step.Refused path := by
  generalize hloop : offerKeys setting user auth.keyPassphrase
    (defaultKeyPaths setting auth.extraKeyPaths) [] [] = loop at *
  have hno : ∀ password answer, AuthStep.passwordOffered password answer ∉ loop.2.2.2 := by
    rw [← hloop]
    exact password_not_mem_offerKeys _ _ _
  have hmem : ∀ {steps : List AuthStep}, steps = pre ++ .passwordOffered password answer :: post →
      AuthStep.passwordOffered password answer ∈ steps := by
    rintro steps rfl
    exact List.mem_append_right _ List.mem_cons_self
  unfold authenticate at h
  simp only [hloop] at h
  cases haccepted : loop.1 with
  | true =>
    rw [haccepted] at h
    exact absurd (hmem h) (hno password answer)
  | false =>
    have hrefused : ∃ step ∈ loop.2.2.2, step.Refused path := by
      rw [← hloop] at haccepted ⊢
      exact refused_of_offerKeys haccepted hpath hexists
    rw [haccepted] at h
    cases hpassword : auth.password with
    | none =>
      rw [hpassword] at h
      exact absurd (hmem h) (hno password answer)
    | some offered =>
      rw [hpassword] at h
      -- whatever the answer, the loop's steps and the offer are all there is
      have hsteps : loop.2.2.2 ++
          [.passwordOffered offered (setting.authenticatePassword user offered)] =
            pre ++ .passwordOffered password answer :: post := by
        rw [← h]
        simp only [Bool.false_eq_true, if_false]
        split
        · rfl
        · rfl
        · rfl
      rcases List.eq_nil_or_concat post with rfl | ⟨post', x, rfl⟩
      · rw [(List.append_inj' hsteps rfl).1] at hrefused
        exact hrefused
      · have happend : loop.2.2.2 ++ [.passwordOffered offered
            (setting.authenticatePassword user offered)] =
              (pre ++ .passwordOffered password answer :: post') ++ [x] := by simpa using hsteps
        have hin : AuthStep.passwordOffered password answer ∈ loop.2.2.2 := by
          rw [(List.append_inj' happend rfl).1]
          exact List.mem_append_right _ List.mem_cons_self
        exact absurd hin (hno password answer)

end Session

namespace Connect

variable {KeyPair : Type} {setting : AuthSetting KeyPair} {user host : Str}
  {stored : Except RustmoteError Str}

/-- Password authentication is a working fallback: a stored password that the server accepts gets
in, and a password is offered only after every key file that is there. -/
def PasswordFallback (setting : AuthSetting KeyPair) (user host : Str)
    (stored : Except RustmoteError Str) : Prop :=
  (∀ password, stored = .ok password → setting.authenticatePassword user password = .ok true →
    (authenticate setting user host stored).1 = .ok ()) ∧
  ∀ pre password answer post,
    (authenticate setting user host stored).2 = pre ++ .passwordOffered password answer :: post →
      ∀ path ∈ Session.defaultKeyPaths setting [], setting.existsAt path = true →
        ∃ step ∈ pre, step.Refused path

/-- **When password authentication is a working fallback**: exactly when, with a stored password
that the server accepts, no default key file is present or one of them is usable. -/
theorem passwordFallback_iff :
    PasswordFallback setting user host stored ↔
      ∀ password, stored = .ok password →
        setting.authenticatePassword user password = .ok true →
          hasDefaultSshKeys setting = false ∨
            ∃ path ∈ Session.defaultKeyPaths setting [], setting.Usable user none path := by
  constructor
  · intro h password hstored haccepts
    have hok := h.1 password hstored haccepts
    cases hdefault : hasDefaultSshKeys setting with
    | false => exact .inl rfl
    | true =>
      -- the password is not even fetched
      right
      unfold authenticate resolvePassword at hok
      rw [hdefault, if_pos rfl] at hok
      rcases Session.authenticate_eq_ok_iff.mp hok with husable | ⟨_, hnone, _⟩
      · exact husable
      · cases hnone
  · intro h
    constructor
    · intro password hstored haccepts
      unfold authenticate resolvePassword
      cases hdefault : hasDefaultSshKeys setting with
      | false =>
        rw [if_neg (by simp), hstored]
        exact Session.authenticate_eq_ok_iff.mpr (.inr ⟨password, rfl, haccepts⟩)
      | true =>
        rcases h password hstored haccepts with hfalse | husable
        · rw [hdefault] at hfalse
          cases hfalse
        · rw [if_pos rfl]
          exact Session.authenticate_eq_ok_iff.mpr (.inl husable)
    · intro pre password answer post hsteps path hpath hexists
      unfold authenticate at hsteps
      cases hresolved : resolvePassword setting stored with
      | error e =>
        rw [hresolved] at hsteps
        exact absurd hsteps (by simp)
      | ok resolved =>
        rw [hresolved] at hsteps
        exact Session.refused_before_password hsteps hpath hexists

/-! ### A key the server does not know -/

/-- An `~/.ssh/id_rsa` that loads and is refused, and a server that accepts a password. -/
def strangeKey : AuthSetting Unit where
  homeDir := some (.fromStr "/home/charles".toList)
  existsAt path := path = .fromStr "/home/charles/.ssh/id_rsa".toList
  isFile path := path = .fromStr "/home/charles/.ssh/id_rsa".toList
  loadSecretKey _ _ := .ok ()
  authenticatePublickey _ _ := .ok false
  authenticatePassword _ password := .ok (password = "hunter2".toList)

/-- The password is stored, and is never offered. -/
theorem passwordFallback_strange_key :
    ¬ PasswordFallback strangeKey "charles".toList "10.0.0.1".toList (.ok "hunter2".toList) := by
  intro h
  have hok := h.1 "hunter2".toList rfl (by decide)
  exact absurd hok (by decide +kernel)

end Connect

end Rustmote
