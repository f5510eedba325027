import Rustmote.Error
import Rustmote.Foundations.Base64
import Rustmote.Foundations.Shell

/-!
# Command strings

The validators and the builders of `relay_lifecycle/commands.rs`. A builder validates its
arguments and puts them into a fixed text.

* `validateRemotePath_eq_ok_iff` — a path is accepted exactly when it is UTF-8 and a
  `RemotePath`: absolute, of allowed characters, without a `..` component.
* `ValidRef` — what the three checks behind `pinnedImageRef` accept, and
  `pinnedImageRef_eq_ok_iff`.
-/

namespace Rustmote.Commands

/-! ### Validators -/

/-- The characters of a remote path. -/
def isPathChar (c : Char) : Bool := c.isAlphanum || c = '/' || c = '.' || c = '_' || c = '-'

/-- The parent directory as a component. -/
def dotDot : Str := ['.', '.']

/-- `validate_remote_path`. -/
def validateRemotePath (path : PathBuf) : Except RustmoteError Str :=
  match path.toStr with
  | none => .error (.invalidRelayPath path.toStringLossy)
  | some s =>
    if s.head? ≠ some '/' then .error (.invalidRelayPath s)
    else if s.any (fun c => !isPathChar c) then .error (.invalidRelayPath s)
    else if dotDot ∈ s.splitOn '/' then .error (.invalidRelayPath s)
    else .ok s

/-- The characters of a repository name. -/
def isRepoChar (c : Char) : Bool :=
  c.isLower || c.isDigit || c = '.' || c = '_' || c = '-' || c = '/'

/-- The characters a repository name may not start or end with. -/
def isRepoSeparator (c : Char) : Bool := c = '/' || c = '.' || c = '-' || c = '_'

/-- `validate_repo`. -/
def validateRepo (repo : Str) : Except RustmoteError Str :=
  let refused := RustmoteError.invalidImageRef ("repo=".toList ++ repo)
  if repo = [] ∨ Utf8.len repo > 255 then .error refused
  else if repo.any (fun c => !isRepoChar c) then .error refused
  else if repo.head?.any isRepoSeparator ∨ repo.getLast?.any isRepoSeparator then .error refused
  else if dotDot ∈ repo.splitOn '/' then .error refused
  else .ok repo

/-- The characters of a tag. -/
def isTagChar (c : Char) : Bool := c.isAlphanum || c = '_' || c = '.' || c = '-'

/-- `validate_tag`. -/
def validateTag (tag : Str) : Except RustmoteError Str :=
  let refused := RustmoteError.invalidImageRef ("tag=".toList ++ tag)
  if tag = [] ∨ Utf8.len tag > 128 then .error refused
  else if tag.head? = some '.' ∨ tag.head? = some '-' then .error refused
  else if tag.any (fun c => !isTagChar c) then .error refused
  else .ok tag

/-- `char::is_ascii_hexdigit`. -/
def isAsciiHexDigit (c : Char) : Bool :=
  c.isDigit || ('a' ≤ c && c ≤ 'f') || ('A' ≤ c && c ≤ 'F')

/-- `validate_digest`. -/
def validateDigest (digest : Str) : Except RustmoteError Str :=
  let refused := RustmoteError.invalidImageRef ("digest=".toList ++ digest)
  match Text.stripPrefix "sha256:".toList digest with
  | none => .error refused
  | some hex =>
    if Utf8.len hex ≠ 64 ∨ !hex.all (fun c => isAsciiHexDigit c && !c.isUpper) then
      .error refused
    else .ok digest

/-! ### Command builders -/

/-- `read_os_release`. -/
def readOsRelease : Str := "cat /etc/os-release".toList

/-- `check_docker_present`. -/
def checkDockerPresent : Str := "command -v docker".toList

/-- `check_docker_compose_v2`. -/
def checkDockerComposeV2 : Str := "docker compose version".toList

/-- `check_docker_compose_v1`. -/
def checkDockerComposeV1 : Str := "docker-compose --version".toList

/-- A command whose last word is a path. -/
def onPath (utility : Str) (path : PathBuf) : Except RustmoteError Str := do
  let p ← validateRemotePath path
  return utility ++ p

/-- `test_dir_exists`. -/
def testDirExists : PathBuf → Except RustmoteError Str := onPath "test -d ".toList

/-- `test_file_exists`. -/
def testFileExists : PathBuf → Except RustmoteError Str := onPath "test -f ".toList

/-- `mkdir_p`. -/
def mkdirP : PathBuf → Except RustmoteError Str := onPath "mkdir -p ".toList

/-- `cat_file`. -/
def catFile : PathBuf → Except RustmoteError Str := onPath "cat ".toList

/-- `copy_file`. -/
def copyFile (src dst : PathBuf) : Except RustmoteError Str := do
  let s ← validateRemotePath src
  let d ← validateRemotePath dst
  return "cp -a ".toList ++ s ++ " ".toList ++ d

/-- What `write_file` appends to a path for the file it writes first. -/
def tmpSuffix : Str := ".rustmote-tmp".toList

/-- `write_file`: decode the content into a scratch file, move it into place, set its mode. -/
def writeFile (path : PathBuf) (content : Bytes) : Except RustmoteError Str := do
  let p ← validateRemotePath path
  let encoded := Base64.encode content
  return "printf %s ".toList ++ encoded ++ " | base64 -d > ".toList ++ p ++ tmpSuffix ++
    " && mv ".toList ++ p ++ tmpSuffix ++ " ".toList ++ p ++ " && chmod 0644 ".toList ++ p

/-- A Compose command, run in the install directory. -/
def compose (arguments : Str) (installPath : PathBuf) : Except RustmoteError Str := do
  let p ← validateRemotePath installPath
  return "cd ".toList ++ p ++ " && docker compose ".toList ++ arguments

/-- `compose_up`. -/
def composeUp : PathBuf → Except RustmoteError Str := compose "up -d".toList

/-- `compose_pull`. -/
def composePull : PathBuf → Except RustmoteError Str := compose "pull".toList

/-- `compose_config`. -/
def composeConfig : PathBuf → Except RustmoteError Str := compose "config".toList

/-- `compose_ps_json`. -/
def composePsJson : PathBuf → Except RustmoteError Str := compose "ps --format json".toList

/-- The single quote, in a command. -/
def quote : Str := [Shell.singleQuote]

/-- `tcp_probe`. -/
def tcpProbe (port : Nat) : Str :=
  "bash -c ".toList ++ quote ++ "exec 3<>/dev/tcp/127.0.0.1/".toList ++ Text.decimal port ++
    quote ++ " 2>/dev/null".toList

/-- `pinned_image_ref`. -/
def pinnedImageRef (repo tag digest : Str) : Except RustmoteError Str := do
  let r ← validateRepo repo
  let t ← validateTag tag
  let d ← validateDigest digest
  return r ++ ":".toList ++ t ++ "@".toList ++ d

/-! ### Accepted arguments -/

/-- A path that may go into a command. -/
structure RemotePath (s : Str) : Prop where
  /-- It is absolute. -/
  absolute : s.head? = some '/'
  /-- It has allowed characters only. -/
  chars : ∀ c ∈ s, isPathChar c = true
  /-- It has no `..` component. -/
  no_dotDot : dotDot ∉ s.splitOn '/'

/-- **Which paths are accepted.** -/
theorem validateRemotePath_eq_ok_iff {path : PathBuf} {s : Str} :
    validateRemotePath path = .ok s ↔ path.toStr = some s ∧ RemotePath s := by
  unfold validateRemotePath
  constructor
  · intro h
    split at h
    · cases h
    · next u hu =>
      split_ifs at h with h₁ h₂ h₃
      cases h
      refine ⟨hu, not_not.mp h₁, fun c hc => ?_, h₃⟩
      by_contra hpath
      exact h₂ (List.any_eq_true.mpr ⟨c, hc, by simpa using hpath⟩)
  · rintro ⟨hu, h₁, h₂, h₃⟩
    have hgood : ¬ (s.any fun c => !isPathChar c) = true := by
      intro hbad
      obtain ⟨c, hc, hpath⟩ := List.any_eq_true.mp hbad
      simp [h₂ c hc] at hpath
    rw [hu]
    simp only [h₁, ne_eq, not_true_eq_false, if_false, if_neg hgood, if_neg h₃]

/-- The builders fail only when a path is refused. -/
theorem onPath_of_accepted {path : PathBuf} {s : Str} (h : validateRemotePath path = .ok s)
    (utility : Str) : onPath utility path = .ok (utility ++ s) := by
  rw [onPath, h]
  rfl

theorem copyFile_of_accepted {src dst : PathBuf} {s d : Str} (hsrc : validateRemotePath src = .ok s)
    (hdst : validateRemotePath dst = .ok d) : ∃ cmd, copyFile src dst = .ok cmd := by
  rw [copyFile, hsrc, hdst]
  exact ⟨_, rfl⟩

theorem writeFile_of_accepted {path : PathBuf} {s : Str} (h : validateRemotePath path = .ok s)
    (content : Bytes) : ∃ cmd, writeFile path content = .ok cmd := by
  rw [writeFile, h]
  exact ⟨_, rfl⟩

theorem compose_of_accepted {path : PathBuf} {s : Str} (h : validateRemotePath path = .ok s)
    (arguments : Str) : ∃ cmd, compose arguments path = .ok cmd := by
  rw [compose, h]
  exact ⟨_, rfl⟩

/-- What a copy takes it takes the other way round. -/
theorem copyFile_swap {src dst : PathBuf} {cmd : Str} (h : copyFile src dst = .ok cmd) :
    ∃ cmd', copyFile dst src = .ok cmd' := by
  obtain ⟨s, hs, h⟩ := Except.bind_eq_ok.mp h
  obtain ⟨d, hd, -⟩ := Except.bind_eq_ok.mp h
  exact copyFile_of_accepted hd hs

/-- What a validator accepts it returns. -/
theorem eq_of_validateRepo {repo r : Str} (h : validateRepo repo = .ok r) : r = repo := by
  unfold validateRepo at h
  split_ifs at h
  cases h
  rfl

theorem eq_of_validateTag {tag t : Str} (h : validateTag tag = .ok t) : t = tag := by
  unfold validateTag at h
  split_ifs at h
  cases h
  rfl

theorem eq_of_validateDigest {digest d : Str} (h : validateDigest digest = .ok d) :
    d = digest := by
  unfold validateDigest at h
  split at h
  · cases h
  · split_ifs at h
    cases h
    rfl

/-- The three parts of an image reference are accepted. -/
structure ValidRef (repo tag digest : Str) : Prop where
  /-- `validate_repo` accepts. -/
  repo : validateRepo repo = .ok repo
  /-- `validate_tag` accepts. -/
  tag : validateTag tag = .ok tag
  /-- `validate_digest` accepts. -/
  digest : validateDigest digest = .ok digest

instance (repo tag digest : Str) : Decidable (ValidRef repo tag digest) :=
  decidable_of_iff (validateRepo repo = .ok repo ∧ validateTag tag = .ok tag ∧
    validateDigest digest = .ok digest)
    ⟨fun h => ⟨h.1, h.2.1, h.2.2⟩, fun h => ⟨h.repo, h.tag, h.digest⟩⟩

/-- An image reference, as it stands behind `image:` in a compose file. -/
def imageRef (repo tag digest : Str) : Str := repo ++ ":".toList ++ tag ++ "@".toList ++ digest

/-- **Which image references are built.** -/
theorem pinnedImageRef_eq_ok_iff {repo tag digest s : Str} :
    pinnedImageRef repo tag digest = .ok s ↔
      ValidRef repo tag digest ∧ s = imageRef repo tag digest := by
  unfold pinnedImageRef
  constructor
  · intro h
    obtain ⟨r, hr, h₁⟩ := Except.bind_eq_ok.mp h
    obtain ⟨t, ht, h₂⟩ := Except.bind_eq_ok.mp h₁
    obtain ⟨d, hd, h₃⟩ := Except.bind_eq_ok.mp h₂
    obtain rfl := eq_of_validateRepo hr
    obtain rfl := eq_of_validateTag ht
    obtain rfl := eq_of_validateDigest hd
    exact ⟨⟨hr, ht, hd⟩, (Except.ok.inj h₃).symm⟩
  · rintro ⟨⟨hr, ht, hd⟩, rfl⟩
    rw [hr, ht, hd]
    rfl

/-- What a builder with one path returns. -/
theorem onPath_eq_ok_iff {utility cmd : Str} {path : PathBuf} :
    onPath utility path = .ok cmd ↔
      ∃ s, path.toStr = some s ∧ RemotePath s ∧ cmd = utility ++ s := by
  unfold onPath
  constructor
  · intro h
    obtain ⟨s, hs, h⟩ := Except.bind_eq_ok.mp h
    obtain ⟨hstr, hpath⟩ := validateRemotePath_eq_ok_iff.mp hs
    cases h
    exact ⟨s, hstr, hpath, rfl⟩
  · rintro ⟨s, hstr, hpath, rfl⟩
    rw [validateRemotePath_eq_ok_iff.mpr ⟨hstr, hpath⟩]
    rfl

/-! ### The characters of an image reference -/

theorem isRepoChar_of_valid {repo r : Str} (h : validateRepo repo = .ok r) :
    ∀ c ∈ repo, isRepoChar c = true := by
  unfold validateRepo at h
  split_ifs at h with h₁ h₂
  intro c hc
  by_contra hbad
  exact h₂ (List.any_eq_true.mpr ⟨c, hc, by simpa using hbad⟩)

theorem isTagChar_of_valid {tag t : Str} (h : validateTag tag = .ok t) :
    ∀ c ∈ tag, isTagChar c = true := by
  unfold validateTag at h
  split_ifs at h with h₁ h₂ h₃
  intro c hc
  by_contra hbad
  exact h₃ (List.any_eq_true.mpr ⟨c, hc, by simpa using hbad⟩)

theorem not_mem_of_validRepo {repo r : Str} (h : validateRepo repo = .ok r) {c : Char}
    (hc : isRepoChar c = false) : c ∉ repo := by
  intro hmem
  rw [isRepoChar_of_valid h c hmem] at hc
  cases hc

theorem not_mem_of_validTag {tag t : Str} (h : validateTag tag = .ok t) {c : Char}
    (hc : isTagChar c = false) : c ∉ tag := by
  intro hmem
  rw [isTagChar_of_valid h c hmem] at hc
  cases hc

/-- A digest is its prefix and 64 lower-case hex digits. -/
theorem validDigest {digest d : Str} (h : validateDigest digest = .ok d) :
    ∃ hex, digest = "sha256:".toList ++ hex ∧ Utf8.len hex = 64 ∧
      ∀ c ∈ hex, isAsciiHexDigit c = true ∧ c.isUpper = false := by
  unfold validateDigest at h
  split at h
  · cases h
  · next hex hstarts =>
    split_ifs at h with hbad
    obtain ⟨hlen, hall⟩ := not_or.mp hbad
    rw [Text.stripPrefix] at hstarts
    split_ifs at hstarts with hpre
    rw [List.isPrefixOf_iff_prefix] at hpre
    obtain ⟨rest, rfl⟩ := hpre
    rw [List.drop_left, Option.some.injEq] at hstarts
    subst hstarts
    refine ⟨rest, rfl, not_not.mp hlen, fun c hc => ?_⟩
    rw [Bool.not_eq_true, Bool.not_eq_eq_eq_not, Bool.not_false, List.all_eq_true] at hall
    have hc := Bool.and_eq_true_iff.mp (hall c hc)
    exact ⟨hc.1, Bool.not_eq_eq_eq_not.mp hc.2⟩

theorem not_mem_of_validDigest {digest d : Str} (h : validateDigest digest = .ok d) {c : Char}
    (hstarts : c ∉ "sha256:".toList) (hc : isAsciiHexDigit c = false) : c ∉ digest := by
  obtain ⟨hex, rfl, -, hall⟩ := validDigest h
  intro hmem
  rcases List.mem_append.mp hmem with hmem | hmem
  · exact hstarts hmem
  · rw [(hall c hmem).1] at hc
    cases hc

/-- No digest goes on behind another. -/
theorem eq_of_digest_append {d₁ d₂ r₁ r₂ rest : Str} (h₁ : validateDigest d₁ = .ok r₁)
    (h₂ : validateDigest d₂ = .ok r₂) (h : d₁ ++ rest = d₂) : rest = [] := by
  obtain ⟨hex₁, rfl, hlen₁, -⟩ := validDigest h₁
  obtain ⟨hex₂, rfl, hlen₂, -⟩ := validDigest h₂
  rw [List.append_assoc] at h
  rw [← List.append_cancel_left h, Utf8.len_append] at hlen₂
  exact Utf8.eq_nil_of_len_eq_zero (by omega)

end Rustmote.Commands
