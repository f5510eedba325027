import Rustmote.Foundations.Civil
import Rustmote.Foundations.FileTree
import Rustmote.RelayLifecycle.Commands

/-!
# Paths on the relay

The path helpers of `relay_lifecycle/mod.rs`. `place` is where a path leads on the remote
host, and every helper is one or two names below the install directory: `place_composePath`
and its siblings.
-/

namespace Rustmote

open FileTree

/-- `posix_join`. -/
def posixJoin (base : PathBuf) (component : Str) : PathBuf :=
  .fromStr (Text.trimEndMatches '/' base.toStringLossy ++ "/".toList ++ component)

/-- `docker-compose.yml`. -/
def composeName : Str := "docker-compose.yml".toList

/-- `.rustmote-state.toml`. -/
def stateName : Str := ".rustmote-state.toml".toList

/-- `compose_path`. -/
def composePath (installPath : PathBuf) : PathBuf := posixJoin installPath composeName

/-- `env_path`. -/
def envPath (installPath : PathBuf) : PathBuf := posixJoin installPath ".env".toList

/-- `state_path`. -/
def statePath (installPath : PathBuf) : PathBuf := posixJoin installPath stateName

/-- `data_path`. -/
def dataPath (installPath : PathBuf) : PathBuf := posixJoin installPath "data".toList

/-- `backups_path`. -/
def backupsPath (installPath : PathBuf) : PathBuf := posixJoin installPath "backups".toList

/-- What the name of a backup directory starts with. -/
def backupStem : Str := "pre-update-".toList

/-- The name of the backup directory of a point in time. -/
def backupName (now : DateTime) : Str := backupStem ++ Civil.formatFileStamp now

/-- `backup_dir_for`. -/
def backupDirFor (installPath : PathBuf) (now : DateTime) : PathBuf :=
  posixJoin (backupsPath installPath) (backupName now)

/-! ### Where they lead -/

/-- Where a path leads on the remote host. -/
def place (path : PathBuf) : Path := resolve path.toStringLossy

theorem place_of_toStr {path : PathBuf} {s : Str} (h : path.toStr = some s) :
    place path = resolve s := by
  rw [place, PathBuf.toStringLossy_of_toStr h]

/-- **Joining a name** goes one level down. -/
theorem place_posixJoin (base : PathBuf) {x : Str} (h : IsName x) :
    place (posixJoin base x) = place base ++ [x] := by
  rw [place, posixJoin, PathBuf.toStringLossy_fromStr, List.append_assoc]
  exact (resolve_append_name _ h).trans (by rw [resolve_trimEndMatches, place])

@[simp] theorem place_composePath (p : PathBuf) :
    place (composePath p) = place p ++ [composeName] := place_posixJoin p (by decide)

@[simp] theorem place_envPath (p : PathBuf) :
    place (envPath p) = place p ++ [".env".toList] := place_posixJoin p (by decide)

@[simp] theorem place_statePath (p : PathBuf) :
    place (statePath p) = place p ++ [stateName] := place_posixJoin p (by decide)

@[simp] theorem place_dataPath (p : PathBuf) :
    place (dataPath p) = place p ++ ["data".toList] := place_posixJoin p (by decide)

@[simp] theorem place_backupsPath (p : PathBuf) :
    place (backupsPath p) = place p ++ ["backups".toList] := place_posixJoin p (by decide)

theorem isName_backupName (now : DateTime) : IsName (backupName now) := by
  have hstem : backupStem.length = 11 := by decide
  refine isName_append (List.ne_nil_of_length_pos (by omega)) ?_ ?_
  · rw [List.mem_append, not_or]
    exact ⟨by decide, Civil.slash_not_mem_formatFileStamp now⟩
  · rw [List.length_append]
    omega

@[simp] theorem place_backupDirFor (p : PathBuf) (now : DateTime) :
    place (backupDirFor p now) = place p ++ ["backups".toList, backupName now] := by
  rw [backupDirFor, place_posixJoin _ (isName_backupName now), place_backupsPath,
    List.append_assoc]
  rfl

/-! ### Which of them are accepted -/

/-- A name that may be joined to a path in a command. -/
def SafeName (x : Str) : Prop := x.all Commands.isPathChar = true ∧ '/' ∉ x ∧ x ≠ Commands.dotDot

instance (x : Str) : Decidable (SafeName x) := inferInstanceAs (Decidable (_ ∧ _ ∧ _))

/-- **The name of a backup** may be joined to a path up to the year 9999: later years have a sign,
which is no character of a path. -/
theorem safeName_backupName {now : DateTime} (h : Civil.year now ≤ 9999) :
    SafeName (backupName now) := by
  refine ⟨List.all_eq_true.mpr fun c hc => ?_, ?_, fun heq => ?_⟩
  · rcases List.mem_append.mp hc with hc | hc
    · exact List.all_eq_true.mp (by decide : backupStem.all Commands.isPathChar = true) c hc
    · rcases Civil.mem_formatFileStamp h hc with hdigit | hc
      · simp [Commands.isPathChar, Char.isAlphanum, hdigit]
      · exact List.all_eq_true.mp (by decide : ['-', 'T', 'Z'].all Commands.isPathChar = true) c hc
  · rw [backupName, List.mem_append, not_or]
    exact ⟨by decide, Civil.slash_not_mem_formatFileStamp now⟩
  · have hlen := congrArg List.length heq
    rw [backupName, List.length_append, show backupStem.length = 11 by decide] at hlen
    rw [show Commands.dotDot.length = 2 from rfl] at hlen
    omega

theorem splitOn_trimEndMatches_subset (s : Str) :
    (Text.trimEndMatches '/' s).splitOn '/' ⊆ s.splitOn '/' := by
  induction s using List.reverseRecOn with
  | nil => exact List.Subset.refl _
  | append_singleton s c ih =>
    by_cases hc : c = '/'
    · subst hc
      rw [Text.trimEndMatches, List.rdropWhile_concat_pos _ _ _ (by simp),
        List.splitOn_append_cons_self]
      exact List.subset_append_of_subset_left _ ih
    · rw [Text.trimEndMatches, List.rdropWhile_concat_neg _ _ _ (by simp [hc])]
      exact List.Subset.refl _

/-- **A safe name below an accepted path** is accepted. -/
theorem validateRemotePath_posixJoin {base : PathBuf} {s x : Str}
    (h : Commands.validateRemotePath base = .ok s) (hx : SafeName x) :
    Commands.validateRemotePath (posixJoin base x) =
      .ok (Text.trimEndMatches '/' s ++ "/".toList ++ x) := by
  obtain ⟨hstr, hpath⟩ := Commands.validateRemotePath_eq_ok_iff.mp h
  obtain ⟨hchars, hslash, hdots⟩ := hx
  have hlead : Text.trimEndMatches '/' s <+: s := List.rdropWhile_prefix _ _
  rw [posixJoin, PathBuf.toStringLossy_of_toStr hstr]
  refine Commands.validateRemotePath_eq_ok_iff.mpr ⟨PathBuf.toStr_fromStr _, ?_, ?_, ?_⟩
  · cases htrim : Text.trimEndMatches '/' s with
    | nil => rfl
    | cons c t =>
      obtain ⟨u, hu⟩ := hlead
      have habsolute := hpath.absolute
      rw [← hu, htrim] at habsolute
      exact habsolute
  · intro c hc
    rw [List.mem_append, List.mem_append] at hc
    rcases hc with (hc | hc) | hc
    · exact hpath.chars c (hlead.subset hc)
    · rw [show c = '/' by simpa using hc]
      rfl
    · exact List.all_eq_true.mp hchars c hc
  · rw [List.append_assoc, show "/".toList ++ x = '/' :: x from rfl, List.splitOn_append_cons_self,
      List.splitOn_eq_singleton hslash, List.mem_append, not_or]
    exact ⟨fun hmem => hpath.no_dotDot (splitOn_trimEndMatches_subset s hmem),
      fun hmem => hdots (List.mem_singleton.mp hmem).symm⟩

/-! ### Which of them are refused -/

/-- The path may not go into a command. -/
def Rejected (path : PathBuf) : Prop := ∃ e, Commands.validateRemotePath path = .error e

theorem rejected_iff {path : PathBuf} :
    Rejected path ↔ ∀ s, path.toStr = some s → ¬ Commands.RemotePath s := by
  constructor
  · rintro ⟨e, he⟩ s hs hpath
    rw [Commands.validateRemotePath_eq_ok_iff.mpr ⟨hs, hpath⟩] at he
    cases he
  · intro h
    cases hvalid : Commands.validateRemotePath path with
    | ok s =>
      obtain ⟨hs, hpath⟩ := Commands.validateRemotePath_eq_ok_iff.mp hvalid
      exact absurd hpath (h s hs)
    | error e => exact ⟨e, hvalid⟩

/-- Another character than the one that is trimmed stays. -/
theorem mem_trimEndMatches {c d : Char} {s : Str} (hc : c ∈ s) (hne : c ≠ d) :
    c ∈ Text.trimEndMatches d s := by
  induction s using List.reverseRecOn with
  | nil => exact hc
  | append_singleton s x ih =>
    by_cases hx : x = d
    · rw [Text.trimEndMatches, List.rdropWhile_concat_pos _ _ _ (by simp [hx])]
      rcases List.mem_append.mp hc with hc | hc
      · exact ih hc
      · exact absurd ((List.mem_singleton.mp hc).trans hx) hne
    · rwa [Text.trimEndMatches, List.rdropWhile_concat_neg _ _ _ (by simp [hx])]

/-- No component is trimmed but empty ones. -/
theorem mem_splitOn_trimEndMatches {x s : Str} (hx : x ∈ s.splitOn '/') (hne : x ≠ []) :
    x ∈ (Text.trimEndMatches '/' s).splitOn '/' := by
  induction s using List.reverseRecOn with
  | nil => exact hx
  | append_singleton s c ih =>
    by_cases hc : c = '/'
    · subst hc
      rw [Text.trimEndMatches, List.rdropWhile_concat_pos _ _ _ (by simp)]
      rw [List.splitOn_append_cons_self, List.mem_append] at hx
      rcases hx with hx | hx
      · exact ih hx
      · exact absurd (List.mem_singleton.mp hx) hne
    · rwa [Text.trimEndMatches, List.rdropWhile_concat_neg _ _ _ (by simp [hc])]

/-- What is joined to a text that is not empty is accepted only if that is. -/
theorem remotePath_of_join {s x : Str} (hne : s ≠ [])
    (h : Commands.RemotePath (Text.trimEndMatches '/' s ++ "/".toList ++ x)) :
    Commands.RemotePath s where
  absolute := by
    have hlead : Text.trimEndMatches '/' s <+: s := List.rdropWhile_prefix _ _
    obtain ⟨slashes, hslashes⟩ := hlead
    cases htrim : Text.trimEndMatches '/' s with
    | nil =>
      rw [Text.trimEndMatches, List.rdropWhile_eq_nil_iff] at htrim
      cases s with
      | nil => exact absurd rfl hne
      | cons c s => simpa using htrim c List.mem_cons_self
    | cons c t =>
      have habsolute := h.absolute
      rw [htrim] at habsolute
      rw [← hslashes, htrim]
      exact habsolute
  chars c hc := by
    by_cases hslash : c = '/'
    · rw [hslash]
      rfl
    · have hmem := mem_trimEndMatches hc hslash
      exact h.chars c (List.mem_append_left _ (List.mem_append_left _ hmem))
  no_dotDot hmem := by
    refine h.no_dotDot ?_
    rw [List.append_assoc, show "/".toList ++ x = '/' :: x from rfl, List.splitOn_append_cons_self]
    exact List.mem_append_left _ (mem_splitOn_trimEndMatches hmem (by decide))

/-- **A name below a refused path** is refused, unless the path is empty. -/
theorem rejected_posixJoin {base : PathBuf} (h : Rejected base) (hne : base ≠ ⟨[]⟩) (x : Str) :
    Rejected (posixJoin base x) := by
  rw [rejected_iff] at h ⊢
  intro s hs hpath
  rw [posixJoin, PathBuf.toStr_fromStr, Option.some.injEq] at hs
  subst hs
  cases hstr : base.toStr with
  | none =>
    -- the replacement character stays
    have hmem := mem_trimEndMatches (d := '/') (Utf8.replacement_mem_fromUtf8Lossy hstr) (by decide)
    have hchar := hpath.chars _ (List.mem_append_left _ (List.mem_append_left _ hmem))
    exact absurd hchar (by decide)
  | some s =>
    rw [PathBuf.toStringLossy_of_toStr hstr] at hpath
    refine h s hstr (remotePath_of_join ?_ hpath)
    rintro rfl
    refine hne ?_
    obtain ⟨bytes⟩ := base
    cases bytes with
    | nil => rfl
    | cons b bytes =>
      have hmap : Utf8.chunks 0 (b :: bytes) ≠ [] := by simp [Utf8.chunks]
      have hdecode := Utf8.fromUtf8Lossy_of_decode hstr
      rw [Utf8.fromUtf8Lossy, List.map_eq_nil_iff] at hdecode
      exact absurd hdecode hmap

/-! ### Scratch files -/

/-- Where `write_file` writes first. -/
def scratchPlace (path : PathBuf) : Path := resolve (path.toStringLossy ++ Commands.tmpSuffix)

/-- **The scratch file of a write** lies next to the file. -/
theorem scratchPlace_posixJoin (base : PathBuf) {x : Str} (h : IsName x) :
    scratchPlace (posixJoin base x) = place base ++ [x ++ Commands.tmpSuffix] := by
  have hsuffix : Commands.tmpSuffix.length = 13 := by decide
  have hx : IsName (x ++ Commands.tmpSuffix) := by
    refine isName_append h.2.1 ?_ ?_
    · rw [List.mem_append, not_or]
      exact ⟨h.1, by decide⟩
    · rw [List.length_append]
      omega
  rw [← place_posixJoin base hx]
  simp only [scratchPlace, place, posixJoin, PathBuf.toStringLossy_fromStr, List.append_assoc]

end Rustmote
