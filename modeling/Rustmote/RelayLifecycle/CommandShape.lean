import Mathlib.Tactic.IntervalCases
import Rustmote.RelayLifecycle.Issued

/-!
# The shape of a command

Every command is what one of the builders returned for its arguments. `Template.tokens` is what
a shell reads in it, with each argument as one literal word; `lex_…` says so for each builder.

* `Builder` — the builders with their arguments: the command each returns, and its template.
* `lex_command` — the shell reads in a command the template of its own builder, with the
  arguments of that call.
* `commands_injection_free` — so it does in every command of every run.

An accepted path is made of characters that mean nothing to a shell, and so is the payload of a
write, which is Base64. Only the arguments of `find` and the script of the port probe are
quoted, and they are fixed but for the number of the port.
-/

namespace Rustmote

open Shell (Token Operator literal quotedWord isPlain Prefixes)

/-- The Compose commands. -/
inductive ComposeVerb where
  | up | pull | config | ps
  deriving DecidableEq

/-- The words of a Compose command behind `docker compose`. -/
def ComposeVerb.words : ComposeVerb → List String
  | .up => ["up", "-d"]
  | .pull => ["pull"]
  | .config => ["config"]
  | .ps => ["ps", "--format", "json"]

/-- The commands, with their arguments. -/
inductive Template where
  | readOsRelease
  | checkDockerPresent
  | checkDockerComposeV2
  | checkDockerComposeV1
  | testDir (path : Str)
  | testFile (path : Str)
  | mkdir (path : Str)
  | cat (path : Str)
  | copy (src dst : Str)
  | write (path payload : Str)
  | compose (verb : ComposeVerb) (installPath : Str)
  | probe (port : Nat)
  | find (backups : Str)
  | remove (path : Str)

namespace Template

/-- A fixed word. -/
def word (s : String) : Token := literal s.toList

/-- The script of the port probe. -/
def probeScript (port : Nat) : Str := "exec 3<>/dev/tcp/127.0.0.1/".toList ++ Text.decimal port

/-- The words, operators and redirections of a template; an empty payload is no word. -/
def tokens : Template → List Token
  | readOsRelease => [word "cat", word "/etc/os-release"]
  | checkDockerPresent => [word "command", word "-v", word "docker"]
  | checkDockerComposeV2 => [word "docker", word "compose", word "version"]
  | checkDockerComposeV1 => [word "docker-compose", word "--version"]
  | testDir path => [word "test", word "-d", literal path]
  | testFile path => [word "test", word "-f", literal path]
  | mkdir path => [word "mkdir", word "-p", literal path]
  | cat path => [word "cat", literal path]
  | copy src dst => [word "cp", word "-a", literal src, literal dst]
  | write path payload =>
    [word "printf", word "%s"] ++ (if payload = [] then [] else [literal payload]) ++
      [.op .pipe, word "base64", word "-d", .op .great, literal (path ++ Commands.tmpSuffix),
        .op .andIf, word "mv", literal (path ++ Commands.tmpSuffix), literal path,
        .op .andIf, word "chmod", word "0644", literal path]
  | compose verb installPath =>
    [word "cd", literal installPath, .op .andIf, word "docker", word "compose"] ++
      verb.words.map word
  | probe port =>
    [word "bash", word "-c", quotedWord (probeScript port), .ioNumber "2".toList, .op .great,
      word "/dev/null"]
  | find backups =>
    [word "find", literal backups, word "-mindepth", word "1", word "-maxdepth", word "1",
      word "-type", word "d", word "-name", quotedWord "pre-update-*".toList, word "-printf",
      quotedWord "%T@\\t%p\\n".toList]
  | remove path => [word "rm", word "-rf", literal path]

/-- The paths that were put in. -/
def paths : Template → List Str
  | testDir path | testFile path | mkdir path | cat path | write path _ | compose _ path
  | find path | remove path => [path]
  | copy src dst => [src, dst]
  | _ => []

end Template

/-- The builders, each with its arguments. -/
inductive Builder where
  | readOsRelease
  | checkDockerPresent
  | checkDockerComposeV2
  | checkDockerComposeV1
  | testDirExists (path : PathBuf)
  | testFileExists (path : PathBuf)
  | mkdirP (path : PathBuf)
  | catFile (path : PathBuf)
  | copyFile (src dst : PathBuf)
  | writeFile (path : PathBuf) (content : Bytes)
  | compose (verb : ComposeVerb) (installPath : PathBuf)
  | tcpProbe (port : Nat)
  | findBackups (backups : PathBuf)
  | remove (path : PathBuf)

namespace Builder

/-- The command that is built. -/
def command : Builder → Except RustmoteError Str
  | readOsRelease => .ok Commands.readOsRelease
  | checkDockerPresent => .ok Commands.checkDockerPresent
  | checkDockerComposeV2 => .ok Commands.checkDockerComposeV2
  | checkDockerComposeV1 => .ok Commands.checkDockerComposeV1
  | testDirExists path => Commands.testDirExists path
  | testFileExists path => Commands.testFileExists path
  | mkdirP path => Commands.mkdirP path
  | catFile path => Commands.catFile path
  | copyFile src dst => Commands.copyFile src dst
  | writeFile path content => Commands.writeFile path content
  | compose .up installPath => Commands.composeUp installPath
  | compose .pull installPath => Commands.composePull installPath
  | compose .config installPath => Commands.composeConfig installPath
  | compose .ps installPath => Commands.composePsJson installPath
  | tcpProbe port => .ok (Commands.tcpProbe port)
  | findBackups backups => RelayLifecycle.findBackups backups
  | remove path => (Commands.validateRemotePath path).map ("rm -rf ".toList ++ ·)

/-- Its template, with the texts of its own arguments; there is none where a path is no text. -/
def template : Builder → Option Template
  | readOsRelease => some .readOsRelease
  | checkDockerPresent => some .checkDockerPresent
  | checkDockerComposeV2 => some .checkDockerComposeV2
  | checkDockerComposeV1 => some .checkDockerComposeV1
  | testDirExists path => path.toStr.map .testDir
  | testFileExists path => path.toStr.map .testFile
  | mkdirP path => path.toStr.map .mkdir
  | catFile path => path.toStr.map .cat
  | copyFile src dst => do return .copy (← src.toStr) (← dst.toStr)
  | writeFile path content => path.toStr.map fun p => .write p (Base64.encode content)
  | compose verb installPath => installPath.toStr.map (.compose verb)
  | tcpProbe port => some (.probe port)
  | findBackups backups => backups.toStr.map .find
  | remove path => path.toStr.map .remove

end Builder

/-- The shell reads in the command the template of the builder, with the arguments of the call as
they were given. -/
def Reading (b : Builder) (cmd : Str) : Prop :=
  ∃ t, b.template = some t ∧ (∀ path ∈ t.paths, Commands.RemotePath path) ∧
    Shell.lex cmd = some t.tokens

/-- The command was built, and it is read as its own builder's template. -/
def Shaped (cmd : Str) : Prop := ∃ b : Builder, b.command = .ok cmd ∧ Reading b cmd

/-! ### Arguments -/

theorem Commands.RemotePath.ne_nil {s : Str} (h : Commands.RemotePath s) : s ≠ [] := by
  rintro rfl
  cases h.absolute

/-- The characters that mean something to the shell. -/
theorem not_isPlain_cases {c : Char} (h : isPlain c = false) :
    c ∈ [' ', '\t', Shell.singleQuote, Shell.doubleQuote, Shell.backslash, '#', '$',
      Shell.backquote, '*', '?', '[', '~', '&', '|', ';', '<', '>', '(', ')', '\n'] := by
  have hop : (Shell.startOperator c).isSome →
      c ∈ ['&', '|', ';', '<', '>', '(', ')', '\n'] := by
    unfold Shell.startOperator
    split <;> simp
  simp only [isPlain, Shell.isSpecial, Bool.not_eq_false', Bool.or_eq_true,
    decide_eq_true_eq] at h
  rcases h with ((((((rfl | rfl) | rfl) | rfl) | rfl) | rfl) | h) | h
  · simp
  · simp
  · simp
  · simp
  · simp
  · simp
  · rcases h with ((((rfl | rfl) | rfl) | rfl) | rfl) | rfl <;> simp
  · exact List.mem_append_right [' ', '\t', Shell.singleQuote, Shell.doubleQuote, Shell.backslash,
      '#', '$', Shell.backquote, '*', '?', '[', '~'] (hop h)

/-- **A path means nothing to the shell.** -/
theorem isPlain_of_isPathChar {c : Char} (h : Commands.isPathChar c = true) :
    isPlain c = true := by
  by_contra hplain
  rw [Bool.not_eq_true] at hplain
  have hall : ([' ', '\t', Shell.singleQuote, Shell.doubleQuote, Shell.backslash, '#', '$',
      Shell.backquote, '*', '?', '[', '~', '&', '|', ';', '<', '>', '(', ')', '\n'].all
      fun d => !Commands.isPathChar d) = true := by decide
  have hc := List.all_eq_true.mp hall c (not_isPlain_cases hplain)
  simp [h] at hc

/-- **A payload means nothing to the shell.** -/
theorem isPlain_of_mem_encode {content : Bytes} {c : Char} (h : c ∈ Base64.encode content) :
    isPlain c = true := by
  rcases Base64.mem_encode h with ⟨n, hn, rfl⟩ | rfl
  · interval_cases n <;> decide
  · decide

theorem isPlain_of_mem_decimal {n : Nat} {c : Char} (h : c ∈ Text.decimal n) :
    isPlain c = true := by
  have hdigit := Text.isDigit_of_mem_decimal h
  refine isPlain_of_isPathChar ?_
  simp [Commands.isPathChar, Char.isAlphanum, hdigit]

/-- A path and the blank behind it. -/
theorem prefixes_path {p : Str} (h : Commands.RemotePath p) :
    Prefixes (p ++ [' ']) [literal p] :=
  Shell.prefixes_word h.ne_nil fun c hc => isPlain_of_isPathChar (h.chars c hc)

theorem isPlain_tmp {p : Str} (h : Commands.RemotePath p) :
    ∀ c ∈ p ++ Commands.tmpSuffix, isPlain c = true := by
  intro c hc
  rcases List.mem_append.mp hc with hc | hc
  · exact isPlain_of_isPathChar (h.chars c hc)
  · exact List.all_eq_true.mp (by decide : Commands.tmpSuffix.all isPlain = true) c hc

theorem prefixes_tmp {p : Str} (h : Commands.RemotePath p) :
    Prefixes (p ++ Commands.tmpSuffix ++ [' ']) [literal (p ++ Commands.tmpSuffix)] :=
  Shell.prefixes_word (List.append_ne_nil_of_left_ne_nil h.ne_nil _) (isPlain_tmp h)

/-- A fixed beginning and a path at the end. -/
theorem lex_append_path {s p : Str} (ts : List Token) (hs : Prefixes s ts)
    (h : Commands.RemotePath p) : Shell.lex (s ++ p) = some (ts ++ [literal p]) :=
  Shell.lex_append_word hs h.ne_nil fun c hc => isPlain_of_isPathChar (h.chars c hc)

/-! ### The builders -/

theorem lex_onPath {utility : Str} {t : Str → Template} {path : PathBuf} {cmd : Str}
    (ts : List Token) (hutility : Prefixes utility ts)
    (htokens : ∀ p, (t p).tokens = ts ++ [literal p])
    (h : Commands.onPath utility path = .ok cmd) :
    ∃ p, path.toStr = some p ∧ Commands.RemotePath p ∧ Shell.lex cmd = some (t p).tokens := by
  obtain ⟨p, hstr, hp, rfl⟩ := Commands.onPath_eq_ok_iff.mp h
  exact ⟨p, hstr, hp, by rw [htokens, lex_append_path ts hutility hp]⟩

theorem lex_testDirExists {path : PathBuf} {cmd : Str}
    (h : Commands.testDirExists path = .ok cmd) :
    ∃ p, path.toStr = some p ∧ Commands.RemotePath p ∧
      Shell.lex cmd = some (Template.testDir p).tokens :=
  lex_onPath [Template.word "test", Template.word "-d"] (by decide) (fun _ => rfl) h

theorem lex_testFileExists {path : PathBuf} {cmd : Str}
    (h : Commands.testFileExists path = .ok cmd) :
    ∃ p, path.toStr = some p ∧ Commands.RemotePath p ∧
      Shell.lex cmd = some (Template.testFile p).tokens :=
  lex_onPath [Template.word "test", Template.word "-f"] (by decide) (fun _ => rfl) h

theorem lex_mkdirP {path : PathBuf} {cmd : Str} (h : Commands.mkdirP path = .ok cmd) :
    ∃ p, path.toStr = some p ∧ Commands.RemotePath p ∧
      Shell.lex cmd = some (Template.mkdir p).tokens :=
  lex_onPath [Template.word "mkdir", Template.word "-p"] (by decide) (fun _ => rfl) h

theorem lex_catFile {path : PathBuf} {cmd : Str} (h : Commands.catFile path = .ok cmd) :
    ∃ p, path.toStr = some p ∧ Commands.RemotePath p ∧
      Shell.lex cmd = some (Template.cat p).tokens :=
  lex_onPath [Template.word "cat"] (by decide) (fun _ => rfl) h

theorem lex_remove {path : PathBuf} {p : Str} (h : Commands.validateRemotePath path = .ok p) :
    path.toStr = some p ∧ Commands.RemotePath p ∧
      Shell.lex ("rm -rf ".toList ++ p) = some (Template.remove p).tokens := by
  obtain ⟨hstr, hp⟩ := Commands.validateRemotePath_eq_ok_iff.mp h
  exact ⟨hstr, hp, lex_append_path [Template.word "rm", Template.word "-rf"] (by decide) hp⟩

theorem lex_copyFile {src dst : PathBuf} {cmd : Str} (h : Commands.copyFile src dst = .ok cmd) :
    ∃ s d, src.toStr = some s ∧ dst.toStr = some d ∧ Commands.RemotePath s ∧
      Commands.RemotePath d ∧ Shell.lex cmd = some (Template.copy s d).tokens := by
  unfold Commands.copyFile at h
  obtain ⟨s, hs, h⟩ := Except.bind_eq_ok.mp h
  obtain ⟨d, hd, h⟩ := Except.bind_eq_ok.mp h
  obtain ⟨hsrc, hs⟩ := Commands.validateRemotePath_eq_ok_iff.mp hs
  obtain ⟨hdst, hd⟩ := Commands.validateRemotePath_eq_ok_iff.mp hd
  obtain rfl := Except.ok.inj h
  refine ⟨s, d, hsrc, hdst, hs, hd, ?_⟩
  have hpieces : Prefixes ("cp -a ".toList ++ (s ++ [' ']))
      ([Template.word "cp", Template.word "-a"] ++ [literal s]) :=
    Prefixes.append (by decide) (prefixes_path hs)
  rw [show "cp -a ".toList ++ s ++ " ".toList ++ d = "cp -a ".toList ++ (s ++ [' ']) ++ d by simp]
  exact lex_append_path _ hpieces hd

theorem lex_compose (verb : ComposeVerb) {arguments : Str} {path : PathBuf} {cmd : Str}
    (harguments : Shell.lex arguments = some (verb.words.map Template.word))
    (h : Commands.compose arguments path = .ok cmd) :
    ∃ p, path.toStr = some p ∧ Commands.RemotePath p ∧
      Shell.lex cmd = some (Template.compose verb p).tokens := by
  unfold Commands.compose at h
  obtain ⟨p, hp, h⟩ := Except.bind_eq_ok.mp h
  obtain ⟨hstr, hp⟩ := Commands.validateRemotePath_eq_ok_iff.mp hp
  obtain rfl := Except.ok.inj h
  refine ⟨p, hstr, hp, ?_⟩
  have hpieces : Prefixes ("cd ".toList ++ (p ++ [' ']) ++ "&& docker compose ".toList)
      ([Template.word "cd"] ++ [literal p] ++
        [.op .andIf, Template.word "docker", Template.word "compose"]) :=
    Prefixes.append (Prefixes.append (by decide) (prefixes_path hp)) (by decide)
  rw [show "cd ".toList ++ p ++ " && docker compose ".toList ++ arguments =
    "cd ".toList ++ (p ++ [' ']) ++ "&& docker compose ".toList ++ arguments by simp]
  rw [Shell.lex_append hpieces harguments]
  simp [Template.tokens]

/-- **A write**: the payload is one word, or none, and it decodes to the content. -/
theorem lex_writeFile {path : PathBuf} {content : Bytes} {cmd : Str}
    (h : Commands.writeFile path content = .ok cmd) :
    ∃ p, path.toStr = some p ∧ Commands.RemotePath p ∧
      Shell.lex cmd = some (Template.write p (Base64.encode content)).tokens := by
  unfold Commands.writeFile at h
  obtain ⟨p, hp, h⟩ := Except.bind_eq_ok.mp h
  obtain ⟨hstr, hp⟩ := Commands.validateRemotePath_eq_ok_iff.mp hp
  obtain rfl := Except.ok.inj h
  refine ⟨p, hstr, hp, ?_⟩
  have hpayload : Prefixes ("printf %s ".toList ++ (Base64.encode content ++ [' ']))
      ([Template.word "printf", Template.word "%s"] ++
        if Base64.encode content = [] then [] else [literal (Base64.encode content)]) := by
    refine Prefixes.append (by decide) ?_
    split_ifs with hnil
    · rw [hnil]
      decide
    · exact Shell.prefixes_word hnil fun c hc => isPlain_of_mem_encode hc
  have hrest : Prefixes ("| base64 -d > ".toList ++ (p ++ Commands.tmpSuffix ++ [' ']) ++
      "&& mv ".toList ++ (p ++ Commands.tmpSuffix ++ [' ']) ++ (p ++ [' ']) ++
      "&& chmod 0644 ".toList)
      ([.op .pipe, Template.word "base64", Template.word "-d", .op .great] ++
        [literal (p ++ Commands.tmpSuffix)] ++ [.op .andIf, Template.word "mv"] ++
        [literal (p ++ Commands.tmpSuffix)] ++ [literal p] ++
        [.op .andIf, Template.word "chmod", Template.word "0644"]) :=
    ((((Prefixes.append (by decide) (prefixes_tmp hp)).append (by decide)).append
      (prefixes_tmp hp)).append (prefixes_path hp)).append (by decide)
  have hcmd := lex_append_path _ (hpayload.append hrest) hp
  simp only [List.append_assoc, List.cons_append, List.nil_append, String.toList] at hcmd ⊢
  rw [Template.tokens]
  simp only [List.cons_append, List.nil_append]
  exact hcmd

/-- The script of the probe has no quote of its own. -/
theorem singleQuote_not_mem_probeScript (port : Nat) :
    Shell.singleQuote ∉ Template.probeScript port := by
  unfold Template.probeScript
  intro h
  rcases List.mem_append.mp h with h | h
  · exact absurd h (by decide)
  · exact absurd (isPlain_of_mem_decimal h) (by decide)

theorem lex_tcpProbe (port : Nat) :
    Shell.lex (Commands.tcpProbe port) = some (Template.probe port).tokens := by
  have hpieces : Prefixes ("bash -c ".toList ++
      (Shell.singleQuote :: (Template.probeScript port ++ [Shell.singleQuote, ' '])))
      ([Template.word "bash", Template.word "-c"] ++ [quotedWord (Template.probeScript port)]) :=
    Prefixes.append (by decide) (Shell.prefixes_quoted (singleQuote_not_mem_probeScript port))
  have hlast : Shell.lex "2>/dev/null".toList =
      some [.ioNumber "2".toList, .op .great, Template.word "/dev/null"] := by decide
  have hcmd := Shell.lex_append hpieces hlast
  unfold Template.probeScript at hcmd
  unfold Commands.tcpProbe
  simp only [List.append_assoc, List.cons_append, List.nil_append, Commands.quote] at hcmd ⊢
  exact hcmd

/-- What `bash` reads in the script of the probe: the port is the end of the redirection's
target. -/
theorem lex_probeScript (port : Nat) :
    Shell.lex (Template.probeScript port) = some [Template.word "exec", .ioNumber "3".toList,
      .op .lessGreat, literal ("/dev/tcp/127.0.0.1/".toList ++ Text.decimal port)] := by
  have hstart : Shell.scan (.bare none) "exec 3<>/dev/tcp/127.0.0.1/".toList =
      ([Template.word "exec", .ioNumber "3".toList, .op .lessGreat],
        .bare (some ("/dev/tcp/127.0.0.1/".toList.map .plain).reverse)) := by decide
  have hport := Shell.scan_plain (w := Text.decimal port)
    (fun c hc => isPlain_of_mem_decimal hc) ("/dev/tcp/127.0.0.1/".toList.map .plain).reverse
  unfold Shell.lex Template.probeScript
  simp only [Shell.scan_append, hstart, hport, Shell.finish, Shell.flush, Option.map_some,
    List.append_nil, List.reverse_append, List.reverse_reverse, literal, List.map_append]
  rfl

theorem lex_findBackups {backups : PathBuf} {cmd : Str}
    (h : RelayLifecycle.findBackups backups = .ok cmd) :
    ∃ p, backups.toStr = some p ∧ Commands.RemotePath p ∧
      Shell.lex cmd = some (Template.find p).tokens := by
  unfold RelayLifecycle.findBackups at h
  obtain ⟨p, hp, h⟩ := Except.bind_eq_ok.mp h
  obtain ⟨hstr, hp⟩ := Commands.validateRemotePath_eq_ok_iff.mp hp
  obtain rfl := Except.ok.inj h
  refine ⟨p, hstr, hp, ?_⟩
  have hpieces : Prefixes ("find ".toList ++ (p ++ [' '])) ([Template.word "find"] ++ [literal p]) :=
    Prefixes.append (by decide) (prefixes_path hp)
  have hlast : Shell.lex ("-mindepth 1 -maxdepth 1 -type d -name ".toList ++ Commands.quote ++
      "pre-update-*".toList ++ Commands.quote ++ " -printf ".toList ++ Commands.quote ++
      "%T@\\t%p\\n".toList ++ Commands.quote) =
      some [Template.word "-mindepth", Template.word "1", Template.word "-maxdepth",
        Template.word "1", Template.word "-type", Template.word "d", Template.word "-name",
        quotedWord "pre-update-*".toList, Template.word "-printf",
        quotedWord "%T@\\t%p\\n".toList] := by decide
  have hcmd := Shell.lex_append hpieces hlast
  simp only [List.append_assoc, List.cons_append, List.nil_append, String.toList] at hcmd ⊢
  exact hcmd

/-! ### Every command -/

/-- A template with one path. -/
theorem reading_of_path {b : Builder} {path : PathBuf} {t : Str → Template} {cmd : Str}
    (htemplate : b.template = path.toStr.map t) (hpaths : ∀ p, (t p).paths = [p])
    (h : ∃ p, path.toStr = some p ∧ Commands.RemotePath p ∧ Shell.lex cmd = some (t p).tokens) :
    Reading b cmd := by
  obtain ⟨p, hstr, hp, hlex⟩ := h
  refine ⟨t p, by rw [htemplate, hstr]; rfl, fun q hq => ?_, hlex⟩
  rw [hpaths, List.mem_singleton] at hq
  rw [hq]
  exact hp

/-- A template without a path. -/
theorem reading_of_fixed {b : Builder} {t : Template} {cmd : Str} (htemplate : b.template = some t)
    (hpaths : t.paths = []) (hlex : Shell.lex cmd = some t.tokens) : Reading b cmd :=
  ⟨t, htemplate, by simp [hpaths], hlex⟩

/-- **What a builder returns is read as its template**, with the arguments it was given. -/
theorem lex_command {b : Builder} {cmd : Str} (h : b.command = .ok cmd) : Reading b cmd := by
  cases b with
  | readOsRelease =>
    obtain rfl := Except.ok.inj h
    exact reading_of_fixed rfl rfl (by decide)
  | checkDockerPresent =>
    obtain rfl := Except.ok.inj h
    exact reading_of_fixed rfl rfl (by decide)
  | checkDockerComposeV2 =>
    obtain rfl := Except.ok.inj h
    exact reading_of_fixed rfl rfl (by decide)
  | checkDockerComposeV1 =>
    obtain rfl := Except.ok.inj h
    exact reading_of_fixed rfl rfl (by decide)
  | testDirExists path => exact reading_of_path rfl (fun _ => rfl) (lex_testDirExists h)
  | testFileExists path => exact reading_of_path rfl (fun _ => rfl) (lex_testFileExists h)
  | mkdirP path => exact reading_of_path rfl (fun _ => rfl) (lex_mkdirP h)
  | catFile path => exact reading_of_path rfl (fun _ => rfl) (lex_catFile h)
  | copyFile src dst =>
    obtain ⟨s, d, hsrc, hdst, hs, hd, hlex⟩ := lex_copyFile h
    exact ⟨.copy s d, by simp [Builder.template, hsrc, hdst],
      by simpa [Template.paths] using ⟨hs, hd⟩, hlex⟩
  | writeFile path content => exact reading_of_path rfl (fun _ => rfl) (lex_writeFile h)
  | compose verb installPath =>
    cases verb with
    | up => exact reading_of_path rfl (fun _ => rfl) (lex_compose .up (by decide) h)
    | pull => exact reading_of_path rfl (fun _ => rfl) (lex_compose .pull (by decide) h)
    | config => exact reading_of_path rfl (fun _ => rfl) (lex_compose .config (by decide) h)
    | ps => exact reading_of_path rfl (fun _ => rfl) (lex_compose .ps (by decide) h)
  | tcpProbe port =>
    obtain rfl := Except.ok.inj h
    exact reading_of_fixed rfl rfl (lex_tcpProbe port)
  | findBackups backups => exact reading_of_path rfl (fun _ => rfl) (lex_findBackups h)
  | remove path =>
    obtain ⟨p, hp, rfl⟩ := Except.map_eq_ok.mp h
    exact reading_of_path rfl (fun _ => rfl) ⟨p, lex_remove hp⟩

theorem shaped_of_command {b : Builder} {cmd : Str} (h : b.command = .ok cmd) : Shaped cmd :=
  ⟨b, h, lex_command h⟩

theorem shaped_of_reads {p : PathBuf} {cmd : Str} (h : Reads p cmd) : Shaped cmd := by
  cases h with
  | readOsRelease => exact shaped_of_command (b := .readOsRelease) rfl
  | checkDockerPresent => exact shaped_of_command (b := .checkDockerPresent) rfl
  | checkDockerComposeV2 => exact shaped_of_command (b := .checkDockerComposeV2) rfl
  | checkDockerComposeV1 => exact shaped_of_command (b := .checkDockerComposeV1) rfl
  | tcpProbe port => exact shaped_of_command (b := .tcpProbe port) rfl
  | testDir h => exact shaped_of_command (b := .testDirExists _) h
  | testFile h => exact shaped_of_command (b := .testFileExists _) h
  | cat h => exact shaped_of_command (b := .catFile _) h
  | composeUp h => exact shaped_of_command (b := .compose .up _) h
  | composePull h => exact shaped_of_command (b := .compose .pull _) h
  | composeConfig h => exact shaped_of_command (b := .compose .config _) h
  | composePs h => exact shaped_of_command (b := .compose .ps _) h
  | find h => exact shaped_of_command (b := .findBackups _) h

/-- **Every command that is issued has the shape of its template.** -/
theorem shaped_of_issued {p : PathBuf} {W : PathBuf → Bytes → Prop} {D : PathBuf → Prop}
    {cmd : Str} (h : Issued p W D cmd) : Shaped cmd := by
  cases h with
  | reads h => exact shaped_of_reads h
  | saves h =>
    cases h with
    | mkdir h => exact shaped_of_command (b := .mkdirP _) h
    | copy _ h => exact shaped_of_command (b := .copyFile _ _) h
    | snapshot h => exact shaped_of_command (b := .writeFile _ _) h
  | restores _ h => exact shaped_of_command (b := .copyFile _ _) h
  | mkdir _ h => exact shaped_of_command (b := .mkdirP _) h
  | writes _ h => exact shaped_of_command (b := .writeFile _ _) h
  | removes _ h => exact shaped_of_command (b := .remove _) (Except.map_eq_ok.mpr ⟨_, h, rfl⟩)

/-- In every run of the program every command has the shape of its template. -/
def AllShaped {α : Type} (prog : Relay α) : Prop :=
  ∀ (tr : List Event) (r : Option (Except RustmoteError α)), Interaction.Prog.Run prog tr r →
    ∀ e ∈ tr, ∀ cmd, e.request = .exec cmd → Shaped cmd

theorem allShaped_of_always {α : Type} {prog : Relay α} {C : Str → Prop}
    (hC : ∀ cmd, C cmd → Shaped cmd)
    (h : Interaction.Prog.Always (fun _ => True) (Asks True True C) prog fun _ => True) :
    AllShaped prog := by
  intro tr r hrun e he cmd hcmd
  have hasks := (h.run hrun fun _ _ => trivial).1 e he
  rw [hcmd] at hasks
  exact hC cmd hasks

/-- **No command can be injected into**: whatever the options and the replies, every command is
what a builder returned, and the shell reads in it the fixed words, operators and redirections of
that builder's template and each argument of the call as one literal word; and the payload of a
write decodes to the content. -/
theorem commands_injection_free (self : RelayLifecycle) :
    (∀ opts, AllShaped (self.bootstrap opts)) ∧ (∀ path, AllShaped (self.checkUpdates path)) ∧
      (∀ opts, AllShaped (self.update opts)) ∧ (∀ path, AllShaped (self.status path)) ∧
      ∀ path content cmd, Commands.writeFile path content = .ok cmd →
        ∃ p payload, path.toStr = some p ∧ Base64.decode payload = some content ∧
          Shell.lex cmd = some (Template.write p payload).tokens := by
  refine ⟨fun opts => ?_, fun path => ?_, fun opts => ?_, fun path => ?_,
    fun path content cmd h => ?_⟩
  · exact allShaped_of_always (fun _ => shaped_of_issued (D := fun _ => True))
      (RelayLifecycle.always_bootstrap opts)
  · exact allShaped_of_always (fun _ => shaped_of_reads) RelayLifecycle.always_checkUpdates
  · refine allShaped_of_always (fun _ => shaped_of_issued) (Interaction.Prog.Always.weaken
      (RelayLifecycle.always_update (T := fun _ => True) (D := fun _ => True) opts)
      (fun e _ => ?_) fun _ h => h)
    match e with
    | ⟨.now, _⟩ => trivial
    | ⟨.exec _, _⟩ => exact fun _ _ _ _ _ _ _ _ => trivial
    | ⟨.listTags _, _⟩ => trivial
    | ⟨.resolveDigest _ _, _⟩ => trivial
    | ⟨.instant, _⟩ => trivial
    | ⟨.sleep _, _⟩ => trivial
  · exact allShaped_of_always (fun _ => shaped_of_reads) RelayLifecycle.always_status
  · obtain ⟨p, hstr, -, hlex⟩ := lex_writeFile h
    exact ⟨p, Base64.encode content, hstr, Base64.decode_encode content, hlex⟩

end Rustmote
