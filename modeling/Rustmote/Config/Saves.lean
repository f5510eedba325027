import Rustmote.Config.Registry
import Rustmote.Foundations.FileSteps
import Rustmote.RegistryClient.CacheStore
import Rustmote.Session.KnownHosts

/-!
# Interrupted saves

The config, the known hosts and the cache of the registry client are each saved through a
temporary file in the same directory, which is then renamed. The config names it by what it adds
to the path (`tmpPath`), the others by another extension (`FilePath.withExtension`); in both cases
it is another file. So a process that is killed in a save leaves the file as it was, and a
temporary file that the next save opens anew: `load_interrupted`.
-/

namespace Rustmote

/-! ### Paths of files -/

/-- The byte of `/`. -/
def slash : UInt8 := 47

/-- The byte of `.`. -/
def dot : UInt8 := 46

/-- The path of a file: a directory, and the name of an entry. -/
structure FilePath where
  /-- What comes before the name. -/
  dir : Bytes
  /-- `Path::file_name`. -/
  name : Bytes
  /-- The directory ends with a slash, if it is written. -/
  dir_slash : dir = [] ∨ dir.getLast? = some slash
  /-- The name is one of an entry, … -/
  name_ne : name ≠ [] ∧ name ≠ [dot] ∧ name ≠ [dot, dot]
  /-- … and has no slash. -/
  slash_not_mem : slash ∉ name

namespace FilePath

/-- The path. -/
def toPathBuf (path : FilePath) : PathBuf := ⟨path.dir ++ path.name⟩

/-- `Path::parent`. -/
def parent (path : FilePath) : PathBuf := ⟨path.dir⟩

/-- `Path::file_stem`: what comes before the last dot, if that is not the first byte. -/
def fileStem (path : FilePath) : Bytes :=
  match path.name.reverse.dropWhile (· ≠ dot) with
  | [] => path.name
  | [_] => path.name
  | _ :: before => before.reverse

/-- `Path::with_extension`, of an extension that is not empty. -/
def withExtension (path : FilePath) (extension : Bytes) : PathBuf :=
  ⟨path.dir ++ path.fileStem ++ dot :: extension⟩

/-- A name is its stem, or its stem with an extension that has no dot. -/
theorem name_eq_fileStem (path : FilePath) :
    path.name = path.fileStem ∨
      ∃ extension, dot ∉ extension ∧ path.name = path.fileStem ++ dot :: extension := by
  unfold fileStem
  split
  · exact .inl rfl
  · exact .inl rfl
  · rename_i d before _ hdrop
    right
    refine ⟨(path.name.reverse.takeWhile (· ≠ dot)).reverse, ?_, ?_⟩
    · intro hmem
      have hne := List.mem_takeWhile_imp (List.mem_reverse.mp hmem)
      simp at hne
    · have hd : d = dot := by
        have hhead := List.head?_dropWhile_not (· ≠ dot) path.name.reverse
        rw [hdrop] at hhead
        simpa using hhead
      have hsplit := List.takeWhile_append_dropWhile (p := (· ≠ dot)) (l := path.name.reverse)
      rw [hdrop, hd] at hsplit
      have hrev := congrArg List.reverse hsplit
      rw [List.reverse_reverse] at hrev
      refine hrev.symm.trans ?_
      rw [List.reverse_append, List.reverse_cons, List.append_assoc]
      rfl

end FilePath

/-- What `tmp_path` pushes. -/
def tmpSuffix : Bytes := Utf8.encode ".tmp".toList

/-- The extension of the temporary files of the other stores. -/
def tmpExtension : Bytes := Utf8.encode "toml.tmp".toList

/-- `tmp_path`. -/
def tmpPath (path : PathBuf) : PathBuf := ⟨path.bytes ++ tmpSuffix⟩

/-- The temporary file of the config is another file of the directory. -/
theorem tmpPath_ne (path : FilePath) :
    ∃ name, tmpPath path.toPathBuf = ⟨path.dir ++ name⟩ ∧ slash ∉ name ∧ name ≠ path.name := by
  refine ⟨path.name ++ tmpSuffix, ?_, ?_, ?_⟩
  · rw [tmpPath, FilePath.toPathBuf, List.append_assoc]
  · intro hmem
    rcases List.mem_append.mp hmem with hmem | hmem
    · exact path.slash_not_mem hmem
    · exact absurd hmem (by decide)
  · intro heq
    have hnil : tmpSuffix = [] := by simpa using heq
    exact absurd hnil (by decide)

/-- So is the one of the other stores: an extension has no dot. -/
theorem withExtension_ne (path : FilePath) :
    ∃ name, path.withExtension tmpExtension = ⟨path.dir ++ name⟩ ∧ slash ∉ name ∧
      name ≠ path.name := by
  have hsub : path.fileStem ⊆ path.name := by
    rcases path.name_eq_fileStem with heq | ⟨extension, -, heq⟩
    · rw [← heq]
      exact List.Subset.refl _
    · intro byte hmem
      rw [heq]
      exact List.mem_append_left _ hmem
  refine ⟨path.fileStem ++ dot :: tmpExtension, ?_, ?_, ?_⟩
  · rw [FilePath.withExtension, List.append_assoc]
  · intro hmem
    rcases List.mem_append.mp hmem with hmem | hmem
    · exact path.slash_not_mem (hsub hmem)
    · exact absurd hmem (by decide)
  · intro hname
    rcases path.name_eq_fileStem with heq | ⟨extension, hdot, heq⟩
    · rw [heq] at hname
      simp at hname
    · rw [heq] at hname
      have hext : dot :: tmpExtension = dot :: extension := List.append_cancel_left hname
      rw [List.cons.injEq] at hext
      refine hdot ?_
      rw [← hext.2]
      decide

/-- Files of one directory with different names are different files. -/
theorem toPathBuf_ne {path : FilePath} {tmp : PathBuf}
    (h : ∃ name, tmp = ⟨path.dir ++ name⟩ ∧ slash ∉ name ∧ name ≠ path.name) :
    tmp ≠ path.toPathBuf := by
  obtain ⟨name, rfl, -, hne⟩ := h
  intro heq
  rw [FilePath.toPathBuf, PathBuf.mk.injEq] at heq
  exact hne (List.append_cancel_left heq)

/-! ### The three stores -/

/-- `read_to_string`, in front of a loader: a file that is not UTF-8 is an I/O error. -/
def loadingString {α : Type} (load : Option Str → Except RustmoteError α) (file : Option Bytes) :
    Except RustmoteError α :=
  match file with
  | none => load none
  | some bytes =>
    match Utf8.decode bytes with
    | some raw => load (some raw)
    | none => .error (.ioError "stream did not contain valid UTF-8".toList)

theorem loadingString_encode {α : Type} (load : Option Str → Except RustmoteError α) (text : Str) :
    loadingString load (some (Utf8.encode text)) = load (some text) := by
  rw [loadingString, Utf8.decode_encode]

/-- `Config::load_from`, on the disk. -/
def Config.loadAt (toml : TomlFormat Config) (path : FilePath) (files : Files PathBuf) :
    Except RustmoteError Config :=
  loadingString (Config.loadFrom toml path.toPathBuf) (files path.toPathBuf)

/-- What `Config::save_to` does on the disk: it prints first. -/
def Config.saveSteps (toml : TomlFormat Config) (path : FilePath) (cfg : Config) :
    List (FileStep PathBuf) :=
  match cfg.serialize toml with
  | .error _ => []
  | .ok serialized =>
    atomicSave path.parent (tmpPath path.toPathBuf) path.toPathBuf (Utf8.encode serialized)

/-- `KnownHosts::load_from`, on the disk. -/
def KnownHosts.loadAt (toml : KnownHostsToml) (path : FilePath) (files : Files PathBuf) :
    Except RustmoteError KnownHosts :=
  loadingString (KnownHosts.loadFrom toml path.toPathBuf) (files path.toPathBuf)

/-- What `KnownHosts::save_to` does on the disk: it makes the directory first. -/
def KnownHosts.saveSteps (toml : KnownHostsToml) (path : FilePath) (kh : KnownHosts) :
    List (FileStep PathBuf) :=
  match kh.saveTo toml with
  | .error _ => [.createDirAll path.parent]
  | .ok serialized =>
    atomicSave path.parent (path.withExtension tmpExtension) path.toPathBuf
      (Utf8.encode serialized)

namespace Registry

/-- `CacheStore::load_from`, on the disk. -/
def CacheStore.loadAt (toml : TomlFormat CacheStore) (path : FilePath) (files : Files PathBuf) :
    Except RustmoteError CacheStore :=
  loadingString (CacheStore.loadFrom toml path.toPathBuf (.ok ())) (files path.toPathBuf)

/-- What `CacheStore::save_to` does on the disk. -/
def CacheStore.saveSteps (toml : TomlFormat CacheStore) (path : FilePath) (store : CacheStore) :
    List (FileStep PathBuf) :=
  match store.saveTo toml .succeed with
  | .error _ => [.createDirAll path.parent]
  | .ok serialized =>
    atomicSave path.parent (path.withExtension tmpExtension) path.toPathBuf
      (Utf8.encode serialized)

end Registry

/-- The bytes that are printed. -/
def printed? (result : Except RustmoteError Str) : Option Bytes := result.toOption.map Utf8.encode

/-- **A save is atomic**, where it goes through another file, and where no file changes when it
does not print. -/
theorem atomicallySaves_of_print {α : Type} {print : α → Except RustmoteError Str}
    {steps : α → List (FileStep PathBuf)} (dir : PathBuf) {tmp path : PathBuf} (hne : tmp ≠ path)
    (hok : ∀ value text, print value = .ok text →
      steps value = atomicSave dir tmp path (Utf8.encode text))
    (herror : ∀ value e, print value = .error e → ∀ step ∈ steps value, step.Spares path) :
    AtomicallySaves steps (fun value => printed? (print value)) path := by
  rintro files ⟨value, n⟩
  cases hprint : print value with
  | ok text =>
    have htook : TookEffect steps (fun value => printed? (print value)) (value, n) ↔
        (atomicSave dir tmp path (Utf8.encode text)).length ≤ n := by
      simp only [TookEffect, hprint, hok value text hprint]
      simp [printed?, Except.toOption]
    simp only [htook, hprint, hok value text hprint]
    exact perform_take_atomicSave hne files _ n
  | error e =>
    have htook : ¬ TookEffect steps (fun value => printed? (print value)) (value, n) := by
      simp [TookEffect, hprint, printed?, Except.toOption]
    rw [if_neg htook]
    exact perform_of_untouched fun step hstep =>
      herror value e hprint step (List.mem_of_mem_take hstep)

/-- **Loading behind any history of saves**, where what is printed is read back. -/
theorem loadingString_performAll {α : Type} {print : α → Except RustmoteError Str}
    {steps : α → List (FileStep PathBuf)} {path : PathBuf}
    {load : Option Str → Except RustmoteError α} {start : α}
    (hsaves : AtomicallySaves steps (fun value => printed? (print value)) path)
    (hstart : load none = .ok start)
    (hback : ∀ value text, print value = .ok text → load (some text) = .ok value)
    {files : Files PathBuf} (hnone : files path = none) (history : List (α × Nat)) :
    loadingString load (performAll steps files history path) =
      .ok ((lastSaved steps (fun value => printed? (print value)) history).getD start) := by
  rw [performAll_path hsaves]
  cases hlast : lastSaved steps (fun value => printed? (print value)) history with
  | none =>
    simp only [hnone]
    exact hstart
  | some value =>
    obtain ⟨bytes, hbytes⟩ := print_lastSaved hlast
    obtain ⟨text, htext, rfl⟩ := Option.map_eq_some_iff.mp hbytes
    cases hprint : print value with
    | error e =>
      rw [hprint] at htext
      cases htext
    | ok text' =>
      rw [hprint] at htext
      obtain rfl := Option.some.inj htext
      simp only [hprint]
      exact (loadingString_encode load text').trans (hback value text' hprint)

theorem Config.atomicallySaves (toml : TomlFormat Config) (path : FilePath) :
    AtomicallySaves (Config.saveSteps toml path)
      (fun cfg => printed? (cfg.serialize toml)) path.toPathBuf := by
  refine atomicallySaves_of_print path.parent (toPathBuf_ne (tmpPath_ne path)) (fun cfg text h => ?_)
    fun cfg e h step hstep => ?_
  · rw [Config.saveSteps, h]
  · rw [Config.saveSteps, h] at hstep
    exact absurd hstep List.not_mem_nil

theorem KnownHosts.atomicallySaves (toml : KnownHostsToml) (path : FilePath) :
    AtomicallySaves (KnownHosts.saveSteps toml path)
      (fun kh => printed? (kh.saveTo toml)) path.toPathBuf := by
  refine atomicallySaves_of_print path.parent (toPathBuf_ne (withExtension_ne path))
    (fun kh text h => ?_) fun kh e h step hstep => ?_
  · rw [KnownHosts.saveSteps, h]
  · rw [KnownHosts.saveSteps, h] at hstep
    rw [List.mem_singleton.mp hstep]
    trivial

theorem Registry.CacheStore.atomicallySaves (toml : TomlFormat Registry.CacheStore)
    (path : FilePath) :
    AtomicallySaves (Registry.CacheStore.saveSteps toml path)
      (fun store => printed? (store.saveTo toml .succeed)) path.toPathBuf := by
  refine atomicallySaves_of_print path.parent (toPathBuf_ne (withExtension_ne path))
    (fun store text h => ?_) fun store e h step hstep => ?_
  · rw [Registry.CacheStore.saveSteps, h]
  · rw [Registry.CacheStore.saveSteps, h] at hstep
    rw [List.mem_singleton.mp hstep]
    trivial

/-- A config that prints is what its text is read as. -/
theorem Config.loadFrom_of_serialize {toml : TomlFormat Config} (h : toml.RoundTrips)
    (path : PathBuf) (cfg : Config) (text : Str) (hprint : cfg.serialize toml = .ok text) :
    Config.loadFrom toml path (some text) = .ok cfg := by
  rw [Config.serialize] at hprint
  cases htext : toml.toStringPretty cfg with
  | error e =>
    rw [htext] at hprint
    cases hprint
  | ok text' =>
    rw [htext] at hprint
    obtain rfl := Except.ok.inj hprint
    rw [Config.loadFrom, h cfg text' htext]

theorem Registry.CacheStore.loadFrom_of_saveTo {toml : TomlFormat Registry.CacheStore}
    (h : toml.RoundTrips) (path : PathBuf) (store : Registry.CacheStore) (text : Str)
    (hprint : store.saveTo toml .succeed = .ok text) :
    Registry.CacheStore.loadFrom toml path (.ok ()) (some text) = .ok store := by
  cases htext : toml.toStringPretty store with
  | error e =>
    rw [Registry.CacheStore.saveTo, htext] at hprint
    cases hprint
  | ok text' =>
    rw [Registry.CacheStore.saveTo, htext] at hprint
    obtain rfl := Except.ok.inj hprint
    rw [Registry.CacheStore.loadFrom, h store text' htext]

/-- **Interrupted saves never corrupt a store.** Behind any history of saves on one path, each
complete or cut short anywhere, loading succeeds: it gives the value of the last save whose rename
took effect, or the default if there is none. -/
theorem load_interrupted {config : TomlFormat Config} {hosts : KnownHostsToml}
    {cache : TomlFormat Registry.CacheStore} (hconfig : config.RoundTrips)
    (hhosts : hosts.RoundTrips) (hcache : cache.RoundTrips) {path : FilePath}
    {files : Files PathBuf} (hnone : files path.toPathBuf = none) :
    (∀ history : List (Config × Nat),
      Config.loadAt config path (performAll (Config.saveSteps config path) files history) =
        .ok ((lastSaved (Config.saveSteps config path)
          (fun cfg => printed? (cfg.serialize config)) history).getD .empty)) ∧
    (∀ history : List (KnownHosts × Nat),
      KnownHosts.loadAt hosts path (performAll (KnownHosts.saveSteps hosts path) files history) =
        .ok ((lastSaved (KnownHosts.saveSteps hosts path)
          (fun kh => printed? (kh.saveTo hosts)) history).getD .empty)) ∧
    ∀ history : List (Registry.CacheStore × Nat),
      Registry.CacheStore.loadAt cache path
          (performAll (Registry.CacheStore.saveSteps cache path) files history) =
        .ok ((lastSaved (Registry.CacheStore.saveSteps cache path)
          (fun store => printed? (store.saveTo cache .succeed)) history).getD .empty) := by
  refine ⟨fun history => ?_, fun history => ?_, fun history => ?_⟩
  · exact loadingString_performAll (Config.atomicallySaves config path) rfl
      (Config.loadFrom_of_serialize hconfig path.toPathBuf) hnone history
  · exact loadingString_performAll (KnownHosts.atomicallySaves hosts path) rfl
      (fun _ _ => KnownHosts.loadFrom_of_saveTo hhosts path.toPathBuf) hnone history
  · exact loadingString_performAll (Registry.CacheStore.atomicallySaves cache path) rfl
      (Registry.CacheStore.loadFrom_of_saveTo hcache path.toPathBuf) hnone history

/-- `toml`, as far as one value and its text go. -/
def oneText {α : Type} [DecidableEq α] (value : α) (text : Str) : TomlFormat α where
  toStringPretty v := if v = value then .ok text else .error []
  fromStr raw := if raw = text then .ok value else .error []

theorem oneText_roundTrips {α : Type} [DecidableEq α] (value : α) (text : Str) :
    (oneText value text).RoundTrips := by
  intro v t h
  simp only [oneText] at h ⊢
  split_ifs at h with hv
  · cases h
    rw [if_pos rfl, hv]

/-- The text of the default config. -/
def defaultConfigToml : TomlFormat Config :=
  oneText .empty "[general]\ncredential_mode = \"prompt\"\nviewer_path = \"\"\n".toList

/-- The text of the default known hosts. -/
def defaultHostsToml : KnownHostsToml :=
  ⟨(oneText KnownHosts.empty "[entries]\n".toList).toStringPretty,
    (oneText KnownHosts.empty "[entries]\n".toList).fromStr⟩

/-- The text of the default cache. -/
def defaultCacheToml : TomlFormat Registry.CacheStore :=
  oneText .empty "[tags]\n\n[digests]\n".toList

/-- `config.toml`, in a directory. -/
def samplePath : FilePath where
  dir := Utf8.encode "rustmote/".toList
  name := Utf8.encode "config.toml".toList
  dir_slash := .inr (by decide)
  name_ne := by decide
  slash_not_mem := by decide

/-- One save, and another one that is cut short behind the first bytes of the temporary file. -/
theorem load_interrupted_default :
    Config.loadAt defaultConfigToml samplePath
      (performAll (Config.saveSteps defaultConfigToml samplePath) (fun _ => none)
        [(.empty, 100), (.empty, 5)]) = .ok .empty := by
  have hload := (@load_interrupted defaultConfigToml defaultHostsToml defaultCacheToml
    (oneText_roundTrips _ _) (oneText_roundTrips _ _) (oneText_roundTrips _ _) samplePath
    (fun _ => none) rfl).1 [(.empty, 100), (.empty, 5)]
  refine hload.trans (congrArg Except.ok ?_)
  decide +kernel

end Rustmote
