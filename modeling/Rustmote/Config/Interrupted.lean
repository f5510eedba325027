import Rustmote.Config.Credentials
import Rustmote.Config.Saves

/-!
# Interrupted writes of the credentials file

The other stores are saved through a temporary file. The credentials file is opened itself, which
leaves it empty, and then written: a process that is killed in between, or a disk that is full,
leaves the first bytes of the new text. The passwords of all other accounts are on that file too.

* `fileBehind_eq` — what is left of the file behind any number of the steps.
* `survives_iff` — no cut loses another account's password only where no other account has one;
  before the file is opened and behind its last byte nothing is lost.
-/

namespace Rustmote

namespace Credentials

/-! ### Changes -/

/-- A change of the stored passwords. -/
inductive PasswordChange where
  | set (server user password : Str)
  | delete (server user : Str)

/-- The account whose password changes. -/
def PasswordChange.account : PasswordChange → Str
  | .set server user _ => keyringAccount server user
  | .delete server user => keyringAccount server user

/-- What becomes of the passwords. -/
def PasswordChange.edit : PasswordChange → BTreeMap Str Str → BTreeMap Str Str
  | .set server user password, passwords => passwords.insert (keyringAccount server user) password
  | .delete server user, passwords => passwords.remove (keyringAccount server user)

/-- Another account keeps its password. -/
theorem get_edit_of_ne (change : PasswordChange) {account : Str} (h : account ≠ change.account)
    (passwords : BTreeMap Str Str) : (change.edit passwords).get account = passwords.get account := by
  cases change with
  | set server user password => exact BTreeMap.get_insert_of_ne _ password h
  | delete server user => exact BTreeMap.get_remove_of_ne _ h

/-! ### The file on the disk -/

/-- The file at the store's path, byte by byte. -/
structure DiskFile where
  bytes : Bytes
  mode : Nat
  deriving DecidableEq

/-- A file whose content is a text. -/
def onDisk (file : ModeFile) : DiskFile := ⟨Utf8.encode file.text, file.mode⟩

/-- `read_unsafe_file`, of a file that may not be UTF-8. -/
def readDisk (toml : TomlFormat UnsafeFile) (path : PathBuf) (disk : Option DiskFile) :
    Except RustmoteError UnsafeFile :=
  match disk with
  | none => readUnsafeFile toml path none
  | some file =>
    match Utf8.decode file.bytes with
    | some text => readUnsafeFile toml path (some ⟨text, file.mode⟩)
    | none => do
      checkUnsafePermissions (some ⟨[], file.mode⟩)
      .error (.ioError "stream did not contain valid UTF-8".toList)

/-- `CredentialStore::get_password`, from the disk. -/
def passwordOnDisk (toml : TomlFormat UnsafeFile) (path : PathBuf) (disk : Option DiskFile)
    (server user : Str) : Except RustmoteError Str := do
  let file ← readDisk toml path disk
  match file.passwords.get (keyringAccount server user) with
  | some password => return password
  | none => .error (.noStoredCredential server user)

variable {toml : TomlFormat UnsafeFile} {disk : Option DiskFile}

theorem readDisk_onDisk (path : PathBuf) (file : Option ModeFile) :
    readDisk toml path (file.map onDisk) = readUnsafeFile toml path file := by
  cases file with
  | none => rfl
  | some file =>
    show (match Utf8.decode (Utf8.encode file.text) with
      | some text => readUnsafeFile toml path (some ⟨text, file.mode⟩)
      | none => _) = _
    rw [Utf8.decode_encode]

/-- Of a file that is a text, the disk gives what the store gives. -/
theorem passwordOnDisk_onDisk (path : PathBuf) (w : CredentialWorld) (server user : Str) :
    passwordOnDisk toml path (w.file.map onDisk) server user =
      getPassword toml (.unsafeFile path) w server user := by
  rw [passwordOnDisk, readDisk_onDisk]
  rfl

theorem passwordOnDisk_eq_ok_iff {path : PathBuf} {server user password : Str} :
    passwordOnDisk toml path disk server user = .ok password ↔
      ∃ file, readDisk toml path disk = .ok file ∧
        file.passwords.get (keyringAccount server user) = some password := by
  rw [passwordOnDisk]
  cases readDisk toml path disk with
  | error e => simp [bind, Except.bind]
  | ok file =>
    simp only [bind, Except.bind, Except.ok.injEq, exists_eq_left']
    cases file.passwords.get (keyringAccount server user) with
    | none => simp
    | some p => simp [pure, Except.pure]

/-- A file that can be read is its owner's only. -/
theorem mode_of_readDisk {path : PathBuf} {file : DiskFile} {passwords : UnsafeFile}
    (h : readDisk toml path (some file) = .ok passwords) : file.mode % 0o1000 = 0o600 := by
  by_contra hmode
  have hrefused : ∀ text, checkUnsafePermissions (some ⟨text, file.mode⟩) =
      .error (.insecureCredentialsFile (file.mode % 0o1000)) := fun text => if_neg hmode
  rw [readDisk] at h
  cases hdecode : Utf8.decode file.bytes with
  | none =>
    simp only [hdecode, hrefused] at h
    cases h
  | some text =>
    simp only [hdecode, readUnsafeFile, hrefused] at h
    cases h

theorem readDisk_of_mode {path : PathBuf} {text : Str} {mode : Nat} (h : mode % 0o1000 = 0o600) :
    readDisk toml path (some ⟨Utf8.encode text, mode⟩) =
      (toml.fromStr text).mapError (.configParse path) := by
  have hpermitted : checkUnsafePermissions (some ⟨text, mode⟩) = .ok () := if_pos h
  rw [readDisk, Utf8.decode_encode]
  simp only [readUnsafeFile, hpermitted]
  cases toml.fromStr text with
  | ok passwords => rfl
  | error e => rfl

/-- The mode of the file once it is opened for writing. -/
def modeOpened (disk : Option DiskFile) : Nat :=
  match disk with
  | none => 0o600
  | some file => file.mode

theorem modeOpened_of_readDisk {path : PathBuf} {passwords : UnsafeFile}
    (h : readDisk toml path disk = .ok passwords) : modeOpened disk % 0o1000 = 0o600 := by
  cases disk with
  | none => rfl
  | some file => exact mode_of_readDisk h

/-! ### A change, step by step -/

/-- What a change does on the disk: the file is read and its new text printed before it is
opened. -/
def changeSteps (toml : TomlFormat UnsafeFile) (path : FilePath) (change : PasswordChange)
    (disk : Option DiskFile) : List (FileStep PathBuf) :=
  match readDisk toml path.toPathBuf disk with
  | .error _ => []
  | .ok file =>
    match toml.toStringPretty ⟨change.edit file.passwords⟩ with
    | .error _ => [.createDirAll path.parent]
    | .ok serialized =>
      .createDirAll path.parent :: writeSteps path.toPathBuf (Utf8.encode serialized)

/-- The files of a disk with this one at the store's path. -/
def filesWith (path : FilePath) (disk : Option DiskFile) : Files PathBuf :=
  Function.update (fun _ => none) path.toPathBuf (disk.map DiskFile.bytes)

/-- The file behind the first `n` of the steps. -/
def fileBehind (toml : TomlFormat UnsafeFile) (path : FilePath) (change : PasswordChange)
    (disk : Option DiskFile) (n : Nat) : Option DiskFile :=
  (perform (filesWith path disk) ((changeSteps toml path change disk).take n)
    path.toPathBuf).map fun bytes => ⟨bytes, modeOpened disk⟩

theorem filesWith_self (path : FilePath) (disk : Option DiskFile) :
    ((filesWith path disk path.toPathBuf).map fun bytes => ⟨bytes, modeOpened disk⟩) = disk := by
  rw [filesWith, Function.update_self]
  cases disk with
  | none => rfl
  | some file => rfl

/-- **What a cut leaves**: the file as it was up to its opening, and then the first bytes of the new
text. -/
theorem fileBehind_eq {path : FilePath} {change : PasswordChange} {file : UnsafeFile}
    {serialized : Str} (hread : readDisk toml path.toPathBuf disk = .ok file)
    (hprint : toml.toStringPretty ⟨change.edit file.passwords⟩ = .ok serialized) (n : Nat) :
    fileBehind toml path change disk n =
      if n ≤ 1 then disk
      else some ⟨(Utf8.encode serialized).take (n - 2), modeOpened disk⟩ := by
  have hsteps : changeSteps toml path change disk =
      .createDirAll path.parent :: writeSteps path.toPathBuf (Utf8.encode serialized) := by
    rw [changeSteps, hread]
    simp only [hprint]
  rw [fileBehind, hsteps]
  cases n with
  | zero =>
    rw [if_pos (Nat.zero_le 1), List.take_zero]
    exact filesWith_self path disk
  | succ n =>
    have hdir : perform (filesWith path disk) ((.createDirAll path.parent ::
        writeSteps path.toPathBuf (Utf8.encode serialized)).take (n + 1)) =
        perform (filesWith path disk)
          ((writeSteps path.toPathBuf (Utf8.encode serialized)).take n) := rfl
    rw [hdir, perform_take_writeSteps]
    by_cases hn : n = 0
    · rw [if_pos hn, if_pos (by omega)]
      exact filesWith_self path disk
    · rw [if_neg hn, if_neg (by omega)]
      rfl

/-- With all steps done, the file is what the store's own call leaves. -/
theorem fileBehind_complete {path : FilePath} {change : PasswordChange} (w : CredentialWorld)
    {n : Nat} (h : (changeSteps toml path change (w.file.map onDisk)).length ≤ n) :
    fileBehind toml path change (w.file.map onDisk) n =
      (rewrite toml path.toPathBuf w change.edit).2.file.map onDisk := by
  have hdisk := @readDisk_onDisk toml path.toPathBuf w.file
  rw [rewrite]
  cases hread : readUnsafeFile toml path.toPathBuf w.file with
  | error e =>
    rw [hread] at hdisk
    have hsteps : changeSteps toml path change (w.file.map onDisk) = [] := by
      rw [changeSteps, hdisk]
    rw [fileBehind, hsteps, List.take_nil]
    exact filesWith_self path _
  | ok file =>
    rw [hread] at hdisk
    cases hprint : toml.toStringPretty ⟨change.edit file.passwords⟩ with
    | error e =>
      have hsteps : changeSteps toml path change (w.file.map onDisk) =
          [.createDirAll path.parent] := by
        rw [changeSteps, hdisk]
        simp only [hprint]
      rw [fileBehind, List.take_of_length_le h, hsteps]
      simp only [writeUnsafeFile, hprint]
      exact filesWith_self path _
    | ok serialized =>
      have hlen : (Utf8.encode serialized).length + 2 ≤ n := by
        rw [changeSteps, hdisk] at h
        simp only [hprint, List.length_cons, length_writeSteps] at h
        omega
      rw [fileBehind_eq hdisk hprint, if_neg (by omega), List.take_of_length_le (by omega)]
      simp only [writeUnsafeFile, hprint]
      cases w.file with
      | none => rfl
      | some file => rfl

/-! ### What survives -/

/-- Every other account still has its password behind the first `n` steps. -/
def Survives (toml : TomlFormat UnsafeFile) (path : FilePath) (change : PasswordChange)
    (disk : Option DiskFile) (n : Nat) : Prop :=
  ∀ server user password, keyringAccount server user ≠ change.account →
    passwordOnDisk toml path.toPathBuf disk server user = .ok password →
      passwordOnDisk toml path.toPathBuf (fileBehind toml path change disk n) server user =
        .ok password

/-- No other account has a password. -/
def Alone (toml : TomlFormat UnsafeFile) (path : FilePath) (change : PasswordChange)
    (disk : Option DiskFile) : Prop :=
  ∀ server user password, keyringAccount server user ≠ change.account →
    passwordOnDisk toml path.toPathBuf disk server user ≠ .ok password

/-- Nothing is lost before the file is opened, nor behind its last byte. -/
theorem survives_of_complete (hround : toml.RoundTrips) (htotal : toml.Total) {path : FilePath}
    {change : PasswordChange} {n : Nat}
    (h : n ≤ 1 ∨ (changeSteps toml path change disk).length ≤ n) :
    Survives toml path change disk n := by
  intro server user password hother hpassword
  obtain ⟨file, hread, hget⟩ := passwordOnDisk_eq_ok_iff.mp hpassword
  obtain ⟨serialized, hprint⟩ := htotal ⟨change.edit file.passwords⟩
  rw [fileBehind_eq hread hprint]
  split_ifs with hn
  · exact hpassword
  · have hlen : (Utf8.encode serialized).length ≤ n - 2 := by
      have hsteps := h.resolve_left hn
      rw [changeSteps, hread] at hsteps
      simp only [hprint, List.length_cons, length_writeSteps] at hsteps
      omega
    rw [List.take_of_length_le hlen, passwordOnDisk_eq_ok_iff,
      readDisk_of_mode (modeOpened_of_readDisk hread), hround _ _ hprint]
    refine ⟨_, rfl, ?_⟩
    show (change.edit file.passwords).get _ = _
    rw [get_edit_of_ne change hother, hget]

/-- Once the file is opened, everything is lost. -/
theorem not_survives_opened (htotal : toml.Total) (hempty : toml.fromStr [] = .ok ⟨.empty⟩)
    {path : FilePath} {change : PasswordChange} {server user password : Str}
    (hother : keyringAccount server user ≠ change.account)
    (hpassword : passwordOnDisk toml path.toPathBuf disk server user = .ok password) :
    ¬ Survives toml path change disk 2 := by
  intro hsurvives
  obtain ⟨file, hread, -⟩ := passwordOnDisk_eq_ok_iff.mp hpassword
  obtain ⟨serialized, hprint⟩ := htotal ⟨change.edit file.passwords⟩
  have hafter := hsurvives server user password hother hpassword
  rw [fileBehind_eq hread hprint, if_neg (by decide), passwordOnDisk_eq_ok_iff] at hafter
  have hnothing : readDisk toml path.toPathBuf (some ⟨[], modeOpened disk⟩) = .ok ⟨.empty⟩ := by
    have hmode := @readDisk_of_mode toml path.toPathBuf [] _ (modeOpened_of_readDisk hread)
    rw [hempty] at hmode
    exact hmode
  obtain ⟨left, hleft, hget⟩ := hafter
  rw [Nat.sub_self, List.take_zero, hnothing, Except.ok.injEq] at hleft
  rw [← hleft] at hget
  cases hget

/-- **Which passwords survive a write that is cut short**: whatever the cut, those of the other
accounts exactly where there are none; and all of them, when the cut is before the opening of the
file or behind its last byte. -/
theorem survives_iff (hround : toml.RoundTrips) (htotal : toml.Total)
    (hempty : toml.fromStr [] = .ok ⟨.empty⟩) (path : FilePath) (change : PasswordChange)
    (disk : Option DiskFile) :
    ((∀ n, Survives toml path change disk n) ↔ Alone toml path change disk) ∧
      ∀ n, n ≤ 1 ∨ (changeSteps toml path change disk).length ≤ n →
        Survives toml path change disk n := by
  refine ⟨⟨fun hall => ?_, fun halone n => ?_⟩, fun n => survives_of_complete hround htotal⟩
  · intro server user password hother hpassword
    exact not_survives_opened htotal hempty hother hpassword (hall 2)
  · intro server user password hother hpassword
    exact absurd hpassword (halone server user password hother)

/-! ### Two accounts -/

/-- The passwords of two accounts. -/
def twoPasswords : UnsafeFile :=
  ⟨(BTreeMap.empty.insert (keyringAccount "nas".toList "ops".toList) "swordfish".toList).insert
    (keyringAccount "zima".toList "ops".toList) "hunter2".toList⟩

/-- The password of the second is changed. -/
def changeZima : PasswordChange := .set "zima".toList "ops".toList "hunter3".toList

/-- Their file. -/
def twoText : Str := "[passwords]\n\"nas:ops\" = \"swordfish\"\n\"zima:ops\" = \"hunter2\"\n".toList

/-- Their file with the change. -/
def changedText : Str :=
  "[passwords]\n\"nas:ops\" = \"swordfish\"\n\"zima:ops\" = \"hunter3\"\n".toList

/-- `toml`, with these texts. -/
def twoToml : TomlFormat UnsafeFile :=
  .ofTable [(twoPasswords, twoText), (⟨changeZima.edit twoPasswords.passwords⟩, changedText)]

theorem twoToml_roundTrips : twoToml.RoundTrips := by
  have htexts : twoText ≠ changedText := by decide +kernel
  refine TomlFormat.roundTrips_ofTable (fun e he e' he' heq => ?_) fun e he => ?_
  · rcases List.mem_cons.mp he with rfl | he
    · rcases List.mem_cons.mp he' with rfl | he'
      · rfl
      · rw [List.mem_singleton.mp he'] at heq
        exact absurd heq htexts
    · rw [List.mem_singleton.mp he] at heq ⊢
      rcases List.mem_cons.mp he' with rfl | he'
      · exact absurd heq.symm htexts
      · rw [List.mem_singleton.mp he']
  · rcases List.mem_cons.mp he with rfl | he
    · decide +kernel
    · rw [List.mem_singleton.mp he]
      decide +kernel

/-- An empty text has no passwords. -/
theorem twoToml_empty : twoToml.fromStr [] = .ok ⟨.empty⟩ := by decide +kernel

/-- The credentials file. -/
def credentialsPath : FilePath where
  dir := []
  name := Utf8.encode "credentials.toml".toList
  dir_slash := .inl rfl
  name_ne := by decide
  slash_not_mem := by decide

/-- The first password of all, cut short behind the opening of the file: there is no other account
to lose one. -/
theorem survives_first : Survives twoToml credentialsPath changeZima none 2 :=
  (survives_iff twoToml_roundTrips (TomlFormat.total_ofTable _) twoToml_empty credentialsPath
    changeZima none).1.mpr (fun server user password _ hpassword => by
      obtain ⟨file, hread, hget⟩ := passwordOnDisk_eq_ok_iff.mp hpassword
      obtain rfl := Except.ok.inj hread
      cases hget) 2

/-- **A lost password**: the write of one account's password is cut short behind the opening of the
file, and the other account's is gone. -/
theorem password_lost :
    passwordOnDisk twoToml credentialsPath.toPathBuf
        (fileBehind twoToml credentialsPath changeZima (some ⟨Utf8.encode twoText, 0o600⟩) 2)
        "nas".toList "ops".toList =
      .error (.noStoredCredential "nas".toList "ops".toList) ∧
    ¬ Survives twoToml credentialsPath changeZima (some ⟨Utf8.encode twoText, 0o600⟩) 2 := by
  have hbefore : passwordOnDisk twoToml credentialsPath.toPathBuf
      (some ⟨Utf8.encode twoText, 0o600⟩) "nas".toList "ops".toList = .ok "swordfish".toList := by
    decide +kernel
  have hafter : passwordOnDisk twoToml credentialsPath.toPathBuf
      (fileBehind twoToml credentialsPath changeZima (some ⟨Utf8.encode twoText, 0o600⟩) 2)
      "nas".toList "ops".toList =
        .error (.noStoredCredential "nas".toList "ops".toList) := by
    decide +kernel
  refine ⟨hafter, fun hsurvives => ?_⟩
  have hkept := hsurvives "nas".toList "ops".toList "swordfish".toList (by decide) hbefore
  rw [hafter] at hkept
  cases hkept

end Credentials

end Rustmote
