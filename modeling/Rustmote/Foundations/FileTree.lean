import Rustmote.Foundations.Text

/-!
# File trees

The files and directories of a host: a partial map from paths to nodes in which the root is
a directory and everything else lies in a directory. A tree that breaks one of the two cannot
be built, so the operations below fail where a file system would refuse.

* `mkdirs`, `put`, `remove`, `rename` — the operations of a file system, each with a lemma
  on the nodes behind it.
* `SameNodes R t t'` and `SameFiles R t t'` — outside of `R` the trees are the same, or hold
  the same files. Effects are framed with them: `SameFiles.trans` follows a run,
  `SameFiles.mono` widens the frame.
* `resolve` — the components of an absolute path.
-/

namespace Rustmote

/-- The components of an absolute path, from the root on. -/
abbrev Path := List Str

/-- What is found at a path. -/
inductive Node where
  /-- A regular file. -/
  | file (content : Bytes)
  /-- A directory. -/
  | dir
  deriving DecidableEq

/-- The files and directories of a host. -/
structure FileTree where
  /-- What is at a path. -/
  node : Path → Option Node
  /-- The root is a directory. -/
  root_dir : node [] = some .dir
  /-- What is not the root lies in a directory. -/
  parent_dir : ∀ p x, node (p ++ [x]) ≠ none → node p = some .dir

namespace FileTree

variable {t t' t₁ t₂ : FileTree} {p q : Path} {b : Bytes}

/-- The content of the file at a path. -/
def fileAt (t : FileTree) (p : Path) : Option Bytes :=
  match t.node p with
  | some (.file b) => some b
  | _ => none

/-- There is a directory at a path. -/
def isDir (t : FileTree) (p : Path) : Bool := t.node p = some .dir

/-- There is a regular file at a path. -/
def isFile (t : FileTree) (p : Path) : Bool := (t.fileAt p).isSome

theorem fileAt_eq_some : t.fileAt p = some b ↔ t.node p = some (.file b) := by
  unfold fileAt
  split
  · next h => rw [h]; simp
  · next h =>
    constructor
    · intro h'; cases h'
    · intro h'; exact absurd h' (h b)

theorem fileAt_congr (h : t'.node p = t.node p) : t'.fileAt p = t.fileAt p := by
  unfold fileAt
  rw [h]

theorem isDir_iff : t.isDir p = true ↔ t.node p = some .dir := by
  rw [isDir, decide_eq_true_eq]

theorem isFile_iff : t.isFile p = true ↔ ∃ b, t.fileAt p = some b := Option.isSome_iff_exists

theorem not_isDir_of_fileAt (h : t.fileAt p = some b) : t.isDir p = false := by
  rw [fileAt_eq_some] at h
  simp [isDir, h]

/-- Nothing lies below what is not a directory. -/
theorem node_below (h : t.isDir p = false) (r : Path) (hr : r ≠ []) : t.node (p ++ r) = none := by
  induction r using List.reverseRecOn with
  | nil => exact absurd rfl hr
  | append_singleton r x ih =>
    by_contra hx
    rw [← List.append_assoc] at hx
    have hdir := t.parent_dir _ _ hx
    cases r with
    | nil =>
      rw [List.append_nil] at hdir
      rw [isDir, hdir] at h
      simp at h
    | cons y r =>
      rw [ih (by simp)] at hdir
      cases hdir

/-! ### Operations -/

/-- `mkdir -p`: fails where the path runs into a file. -/
def mkdirs (t : FileTree) (p : Path) : Option FileTree :=
  if p.inits.all fun q => !t.isFile q then
    some {
      node := fun q => if q <+: p then some .dir else t.node q
      root_dir := if_pos (List.nil_prefix)
      parent_dir := by
        intro q x h
        by_cases hq : q <+: p
        · exact if_pos hq
        · have hqx : ¬ q ++ [x] <+: p := fun h' => hq ((List.prefix_append q [x]).trans h')
          rw [if_neg hqx] at h
          rw [if_neg hq]
          exact t.parent_dir q x h }
  else none

/-- Write a file: fails without a directory to put it in, and on a directory. -/
def put (t : FileTree) (p : Path) (b : Bytes) : Option FileTree :=
  if h : p ≠ [] ∧ t.node p.dropLast = some .dir ∧ t.node p ≠ some .dir then
    some {
      node := fun q => if q = p then some (.file b) else t.node q
      root_dir := by rw [if_neg (Ne.symm h.1)]; exact t.root_dir
      parent_dir := by
        intro q x hx
        by_cases hq : q = p
        · -- the file would lie below what is not a directory
          subst hq
          rw [if_neg (by simp)] at hx
          exact absurd (t.parent_dir q x hx) h.2.2
        · rw [if_neg hq]
          by_cases hqx : q ++ [x] = p
          · rw [← hqx, List.dropLast_concat] at h
            exact h.2.1
          · rw [if_neg hqx] at hx
            exact t.parent_dir q x hx }
  else none

/-- Remove what is at a path and below; the root stays. -/
def remove (t : FileTree) (p : Path) : Option FileTree :=
  if h : p ≠ [] then
    some {
      node := fun q => if p <+: q then none else t.node q
      root_dir := by
        rw [if_neg fun h' => h (List.prefix_nil.mp h')]
        exact t.root_dir
      parent_dir := by
        intro q x hx
        by_cases hqx : p <+: q ++ [x]
        · rw [if_pos hqx] at hx
          exact absurd rfl hx
        · rw [if_neg hqx] at hx
          rw [if_neg fun h' => hqx (h'.trans (List.prefix_append q [x]))]
          exact t.parent_dir q x hx }
  else none

/-- Where a file copied or moved to `dst` ends up: in `dst` if that is a directory. -/
def target (t : FileTree) (src dst : Path) : Path :=
  if t.isDir dst then dst ++ src.getLast?.toList else dst

/-- Rename a file. -/
def rename (t : FileTree) (src dst : Path) : Option FileTree := do
  let b ← t.fileAt src
  if t.target src dst = src then none
  else (← t.remove src).put (t.target src dst) b

theorem mkdirs_eq_some (h : t.mkdirs p = some t') (q : Path) :
    t'.node q = if q <+: p then some .dir else t.node q := by
  unfold mkdirs at h
  split at h
  · cases h; rfl
  · cases h

/-- Making directories touches no file. -/
theorem fileAt_mkdirs (h : t.mkdirs p = some t') (q : Path) : t'.fileAt q = t.fileAt q := by
  have hnode := mkdirs_eq_some h q
  by_cases hq : q <+: p
  · have hall : (p.inits.all fun q => !t.isFile q) = true := by
      unfold mkdirs at h
      split at h
      · assumption
      · cases h
    rw [List.all_eq_true] at hall
    have hfile := hall q ((List.mem_inits q p).mpr hq)
    rw [Bool.not_eq_true', isFile, Option.isSome_eq_false_iff, Option.isNone_iff_eq_none] at hfile
    rw [if_pos hq] at hnode
    rw [hfile, fileAt, hnode]
  · rw [if_neg hq] at hnode
    exact fileAt_congr hnode

theorem isDir_mkdirs (h : t.mkdirs p = some t') : t'.isDir p = true := by
  rw [isDir_iff, mkdirs_eq_some h, if_pos (List.prefix_refl p)]

theorem put_eq_some (h : t.put p b = some t') (q : Path) :
    t'.node q = if q = p then some (.file b) else t.node q := by
  unfold put at h
  split at h
  · cases h; rfl
  · cases h

theorem fileAt_put (h : t.put p b = some t') : t'.fileAt p = some b := by
  rw [fileAt_eq_some, put_eq_some h, if_pos rfl]

theorem node_put_of_ne (h : t.put p b = some t') (hq : q ≠ p) : t'.node q = t.node q := by
  rw [put_eq_some h, if_neg hq]

theorem remove_eq_some (h : t.remove p = some t') (q : Path) :
    t'.node q = if p <+: q then none else t.node q := by
  unfold remove at h
  split at h
  · cases h; rfl
  · cases h

theorem node_remove_of_not_below (h : t.remove p = some t') (hq : ¬ p <+: q) :
    t'.node q = t.node q := by
  rw [remove_eq_some h, if_neg hq]

/-- A renamed file is found at its new place with its content. -/
theorem rename_eq_some {src dst : Path} (h : t.rename src dst = some t') :
    ∃ b, t.fileAt src = some b ∧ t'.fileAt (t.target src dst) = some b ∧
      t.target src dst ≠ src ∧
      ∀ q, q ≠ t.target src dst → ¬ src <+: q → t'.node q = t.node q := by
  unfold rename at h
  cases hb : t.fileAt src with
  | none => rw [hb] at h; cases h
  | some b =>
    rw [hb] at h
    simp only [Option.bind_eq_bind, Option.bind_some] at h
    split at h
    · cases h
    next hne =>
    obtain ⟨t₁, h₁, h₂⟩ := Option.bind_eq_some_iff.mp h
    exact ⟨b, rfl, fileAt_put h₂, hne, fun q hq hsrc =>
      (node_put_of_ne h₂ hq).trans (node_remove_of_not_below h₁ hsrc)⟩

/-- Nothing is left at the old place. -/
theorem node_of_rename {src dst : Path} (h : t.rename src dst = some t') : t'.node src = none := by
  unfold rename at h
  obtain ⟨b, hb, h⟩ := Option.bind_eq_some_iff.mp h
  split at h
  · cases h
  next hne =>
  obtain ⟨t₁, h₁, h₂⟩ := Option.bind_eq_some_iff.mp h
  rw [node_put_of_ne h₂ (Ne.symm hne), remove_eq_some h₁, if_pos (List.prefix_refl src)]

/-- A file is not put over a directory. -/
theorem ne_of_put (h : t.put p b = some t') (hq : t.isDir q = true) : q ≠ p := by
  rw [isDir_iff] at hq
  unfold put at h
  split at h
  · next hcond =>
    intro heq
    rw [heq] at hq
    exact hcond.2.2 hq
  · cases h

theorem isDir_put (h : t.put p b = some t') (hq : t.isDir q = true) : t'.isDir q = true := by
  rw [isDir, node_put_of_ne h (ne_of_put h hq)]
  exact hq

/-- A directory that is not moved stays a directory. -/
theorem isDir_rename {src dst : Path} (h : t.rename src dst = some t') (hsrc : ¬ src <+: q)
    (hq : t.isDir q = true) : t'.isDir q = true := by
  unfold rename at h
  obtain ⟨b, hb, h⟩ := Option.bind_eq_some_iff.mp h
  split at h
  · cases h
  · obtain ⟨t₁, h₁, h₂⟩ := Option.bind_eq_some_iff.mp h
    refine isDir_put h₂ ?_
    rw [isDir, node_remove_of_not_below h₁ hsrc]
    exact hq

/-- What is not a directory is itself the target. -/
theorem target_of_not_isDir {src dst : Path} (h : t.isDir dst = false) :
    t.target src dst = dst := by
  rw [target, h]
  rfl

/-- A directory is never itself the target. -/
theorem ne_target {src dst : Path} (h : t.isDir dst = true) (hsrc : src ≠ []) :
    ¬ t.target src dst <+: dst := by
  rw [target, if_pos h, List.getLast?_eq_some_getLast hsrc, Option.toList_some]
  intro hlead
  have := hlead.length_le
  rw [List.length_append, List.length_singleton] at this
  omega

/-- A target lies at or below the place that was named. -/
theorem prefix_target (t : FileTree) (src dst : Path) : dst <+: t.target src dst := by
  unfold target
  split
  · exact List.prefix_append _ _
  · exact List.prefix_refl _

/-! ### Frames -/

/-- The path is at or below `p`. -/
def Below (p q : Path) : Prop := p <+: q

/-- Outside of `R` the trees are the same. -/
def SameNodes (R : Path → Prop) (t t' : FileTree) : Prop := ∀ q, ¬ R q → t'.node q = t.node q

/-- Outside of `R` the trees hold the same files. -/
def SameFiles (R : Path → Prop) (t t' : FileTree) : Prop :=
  ∀ q, ¬ R q → t'.fileAt q = t.fileAt q

theorem SameNodes.sameFiles {R : Path → Prop} (h : SameNodes R t t') : SameFiles R t t' :=
  fun q hq => fileAt_congr (h q hq)

theorem SameFiles.refl (R : Path → Prop) (t : FileTree) : SameFiles R t t := fun _ _ => rfl

theorem SameFiles.trans {R : Path → Prop} (h₁ : SameFiles R t t₁) (h₂ : SameFiles R t₁ t₂) :
    SameFiles R t t₂ := fun q hq => (h₂ q hq).trans (h₁ q hq)

theorem SameFiles.mono {R R' : Path → Prop} (h : SameFiles R t t') (hR : ∀ q, R q → R' q) :
    SameFiles R' t t' := fun q hq => h q fun h' => hq (hR q h')

theorem sameNodes_put (h : t.put p b = some t') : SameNodes (Below p) t t' := by
  intro q hq
  refine node_put_of_ne h fun hqp => hq ?_
  rw [hqp]
  exact List.prefix_refl p

theorem sameNodes_remove (h : t.remove p = some t') : SameNodes (Below p) t t' :=
  fun _ hq => node_remove_of_not_below h hq

/-- What is removed is gone, nothing appears. -/
theorem fileAt_of_remove (h : t.remove p = some t') {q : Path} {c : Bytes}
    (hq : t'.fileAt q = some c) : t.fileAt q = some c := by
  rw [fileAt_eq_some, remove_eq_some h] at hq
  split_ifs at hq
  exact fileAt_eq_some.mpr hq

/-- There is no file below what is no directory. -/
theorem fileAt_below {q : Path} (h : t.isDir p = false) (hbelow : Below p q) (hne : q ≠ p) :
    t.fileAt q = none := by
  obtain ⟨r, rfl⟩ := hbelow
  have hnode := node_below h r fun hr => hne (by rw [hr, List.append_nil])
  rw [fileAt, hnode]

/-- A name next to another one is not below it. -/
theorem not_below_of_ne {d : Path} {x y : Str} (h : x ≠ y) (r : Path) :
    ¬ Below (d ++ x :: r) (d ++ [y]) := by
  intro hbelow
  rw [Below, List.prefix_append_right_inj, List.cons_prefix_cons] at hbelow
  exact h hbelow.1

/-! ### Paths as texts -/

/-- The components of an absolute path: empty ones and `.` do not count. -/
def resolve (s : Str) : Path := (s.splitOn '/').filter fun c => c ≠ [] ∧ c ≠ ['.']

/-- A name that is a component of its own. -/
def IsName (x : Str) : Prop := '/' ∉ x ∧ x ≠ [] ∧ x ≠ ['.']

instance (x : Str) : Decidable (IsName x) := inferInstanceAs (Decidable (_ ∧ _ ∧ _))

/-- A name stays a name when more is put behind it, as long as that has no slash. -/
theorem isName_append {x y : Str} (hx : x ≠ []) (hslash : '/' ∉ x ++ y) (hy : 2 ≤ (x ++ y).length) :
    IsName (x ++ y) := by
  refine ⟨hslash, by simp [hx], fun h => ?_⟩
  rw [h] at hy
  simp at hy

theorem resolve_append_cons (a b : Str) : resolve (a ++ '/' :: b) = resolve a ++ resolve b := by
  rw [resolve, List.splitOn_append_cons_self, List.filter_append]
  rfl

theorem resolve_name {x : Str} (h : IsName x) : resolve x = [x] := by
  obtain ⟨h₁, h₂, h₃⟩ := h
  rw [resolve, List.splitOn_eq_singleton h₁]
  simp [h₂, h₃]

/-- A name behind a path is one more component. -/
theorem resolve_append_name (a : Str) {x : Str} (h : IsName x) :
    resolve (a ++ '/' :: x) = resolve a ++ [x] := by
  rw [resolve_append_cons, resolve_name h]

/-- Slashes at the end do not count. -/
theorem resolve_trimEndMatches (s : Str) : resolve (Text.trimEndMatches '/' s) = resolve s := by
  induction s using List.reverseRecOn with
  | nil => rfl
  | append_singleton s c ih =>
    by_cases hc : c = '/'
    · subst hc
      rw [Text.trimEndMatches, List.rdropWhile_concat_pos _ _ _ (by simp), resolve_append_cons]
      rw [show resolve [] = [] from rfl, List.append_nil]
      exact ih
    · rw [Text.trimEndMatches, List.rdropWhile_concat_neg _ _ _ (by simp [hc])]

end FileTree

end Rustmote
