import Rustmote.Foundations.Base64
import Rustmote.Foundations.FileTree
import Rustmote.Foundations.Shell

/-!
# What utilities do to files

A command line is an and-list of pipelines, and a pipeline of known utilities is an `Action` on
the files of the host; any other pipeline leaves them alone. `Action.Done` is what an action
that exits with zero does, `Action.Broken` is all that is known of one that fails or is cut
off: a `mv` inside a directory is one rename, everything else may leave part of its work.
`Carried as n` is an and-list of which the first `n` actions are done.

* `Carried.sameFiles` — whatever becomes of a command, files that it does not name stay.
* `actions_of_lex` — the actions of a command whose tokens are known.
-/

namespace Rustmote

open FileTree

/-- What a pipeline does to the files of the host. -/
inductive Action where
  /-- `test -d`. -/
  | testDir (p : Path)
  /-- `test -f`. -/
  | testFile (p : Path)
  /-- `cat`. -/
  | cat (p : Path)
  /-- `mkdir -p`. -/
  | mkdir (p : Path)
  /-- `cp -a`. -/
  | copy (src dst : Path)
  /-- `printf %s … | base64 -d > …`. -/
  | decode (payload : Str) (dst : Path)
  /-- `mv`. -/
  | move (src dst : Path)
  /-- `chmod`. -/
  | chmod (p : Path)
  /-- `cd`. -/
  | chdir (p : Path)
  /-- `rm -rf`. -/
  | remove (p : Path)
  /-- Anything else. -/
  | external
  deriving DecidableEq

/-- The action of a simple command without redirections. -/
def simpleAction : List Str → Action
  | [u, p] =>
    if u = "cat".toList then .cat (resolve p)
    else if u = "cd".toList then .chdir (resolve p)
    else .external
  | [u, x, p] =>
    if u = "test".toList ∧ x = "-d".toList then .testDir (resolve p)
    else if u = "test".toList ∧ x = "-f".toList then .testFile (resolve p)
    else if u = "mkdir".toList ∧ x = "-p".toList then .mkdir (resolve p)
    else if u = "rm".toList ∧ x = "-rf".toList then .remove (resolve p)
    else if u = "mv".toList then .move (resolve x) (resolve p)
    else if u = "chmod".toList then .chmod (resolve p)
    else .external
  | [u, x, s, d] =>
    if u = "cp".toList ∧ x = "-a".toList then .copy (resolve s) (resolve d) else .external
  | _ => .external

/-- The payload that `printf %s` prints: its argument, or nothing without one. -/
def printed : List Str → Option Str
  | [u, f] => if u = "printf".toList ∧ f = "%s".toList then some [] else none
  | [u, f, x] => if u = "printf".toList ∧ f = "%s".toList then some x else none
  | _ => none

/-- The action of a pipeline. -/
def pipelineAction : List Shell.Simple → Action
  | [⟨words, []⟩] => simpleAction words
  | [⟨words, []⟩, ⟨words', [⟨none, .great, target⟩]⟩] =>
    match printed words with
    | some payload =>
      if words' = ["base64".toList, "-d".toList] then .decode payload (resolve target)
      else .external
    | none => .external
  | _ => .external

/-- The actions of a command line, if it is an and-list. -/
def actions (cmd : Str) : Option (List Action) := (Shell.parse cmd).map (·.map pipelineAction)

namespace Action

/-- What an action that exits with zero does to the files. -/
def Done : Action → FileTree → FileTree → Prop
  | testDir p, t, t' => t.isDir p = true ∧ t' = t
  | testFile p, t, t' => t.isFile p = true ∧ t' = t
  | cat p, t, t' => t.isFile p = true ∧ t' = t
  | mkdir p, t, t' => t.mkdirs p = some t'
  | copy src dst, t, t' =>
    (∃ b, t.fileAt src = some b ∧ t.target src dst ≠ src ∧
      t.put (t.target src dst) b = some t') ∨
    -- a directory is copied with all that is in it, but not over a file
    (t.isDir src = true ∧ t.isFile (t.target src dst) = false ∧
      SameNodes (Below (t.target src dst)) t t')
  | decode payload dst, t, t' => ∃ b, Base64.decode payload = some b ∧ t.put dst b = some t'
  | move src dst, t, t' =>
    t.rename src dst = some t' ∨
    (t.isDir src = true ∧ t.isFile (t.target src dst) = false ∧
      SameNodes (fun q => Below src q ∨ Below (t.target src dst) q) t t')
  | chmod p, t, t' => t.node p ≠ none ∧ t' = t
  | chdir p, t, t' => t.isDir p = true ∧ t' = t
  | remove p, t, t' => t.remove p = some t'
  | external, t, t' => t' = t

/-- What is known of an action that fails or is cut off. -/
def Broken : Action → FileTree → FileTree → Prop
  | mkdir p, t, t' =>
    (∀ q, t'.node q = t.node q ∨ (q <+: p ∧ t.node q = none ∧ t'.node q = some .dir))
  | copy src dst, t, t' => SameNodes (Below (t.target src dst)) t t'
  | decode _ dst, t, t' => SameNodes (Below dst) t t'
  | move src dst, t, t' =>
    t' = t ∨ (t.isDir src = true ∧
      SameNodes (fun q => Below src q ∨ Below (t.target src dst) q) t t')
  | remove p, t, t' => SameNodes (Below p) t t' ∧ ∀ q, t'.node q = t.node q ∨ t'.node q = none
  | _, t, t' => t' = t

/-- The files an action can change. -/
def Touches : Action → Path → Prop
  | copy _ dst => Below dst
  | decode _ dst => Below dst
  | move src dst => fun q => Below src q ∨ Below dst q
  | remove p => Below p
  | _ => fun _ => False

/-- The places an action can change. -/
def Makes : Action → Path → Prop
  | mkdir p => fun q => q <+: p
  | a => a.Touches

/-- A file that an action can change is at such a place. -/
theorem makes_of_touches {a : Action} {q : Path} (h : a.Touches q) : a.Makes q := by
  cases a with
  | mkdir p => exact h.elim
  | _ => exact h

theorem Done.sameNodes {a : Action} {t t' : FileTree} (h : a.Done t t') :
    SameNodes a.Makes t t' := by
  cases a with
  | testDir p => obtain ⟨-, rfl⟩ := h; exact fun _ _ => rfl
  | testFile p => obtain ⟨-, rfl⟩ := h; exact fun _ _ => rfl
  | cat p => obtain ⟨-, rfl⟩ := h; exact fun _ _ => rfl
  | mkdir p =>
    intro q hq
    rw [mkdirs_eq_some h]
    exact if_neg hq
  | copy src dst =>
    have hbelow := prefix_target t src dst
    rcases h with ⟨b, -, -, hput⟩ | ⟨-, -, hsame⟩
    · exact fun q hq => sameNodes_put hput q fun hq' => hq (hbelow.trans hq')
    · exact fun q hq => hsame q fun hq' => hq (hbelow.trans hq')
  | decode payload dst =>
    obtain ⟨b, -, hput⟩ := h
    exact sameNodes_put hput
  | move src dst =>
    have hbelow := prefix_target t src dst
    intro q hq
    rcases h with hren | ⟨-, -, hsame⟩
    · obtain ⟨b, -, -, -, hother⟩ := rename_eq_some hren
      refine hother q (fun heq => hq (.inr ?_)) fun hsrc => hq (.inl hsrc)
      rw [heq]
      exact hbelow
    · exact hsame q fun hq' => hq (hq'.imp_right hbelow.trans)
  | chmod p => obtain ⟨-, rfl⟩ := h; exact fun _ _ => rfl
  | chdir p => obtain ⟨-, rfl⟩ := h; exact fun _ _ => rfl
  | remove p => exact sameNodes_remove h
  | external =>
    obtain rfl : t' = t := h
    exact fun _ _ => rfl

theorem Broken.sameNodes {a : Action} {t t' : FileTree} (h : a.Broken t t') :
    SameNodes a.Makes t t' := by
  cases a with
  | mkdir p =>
    intro q hq
    rcases h q with hsame | ⟨hlead, -, -⟩
    · exact hsame
    · exact absurd hlead hq
  | copy src dst => exact fun q hq => h q fun hq' => hq ((prefix_target t src dst).trans hq')
  | decode payload dst => exact h
  | move src dst =>
    intro q hq
    rcases h with rfl | ⟨-, hsame⟩
    · rfl
    · exact hsame q fun hq' => hq (hq'.imp_right (prefix_target t src dst).trans)
  | remove p => exact h.1
  | _ =>
    obtain rfl : t' = t := h
    exact fun _ _ => rfl

theorem Done.sameFiles {a : Action} {t t' : FileTree} (h : a.Done t t') :
    SameFiles a.Touches t t' := by
  cases a with
  | mkdir p => exact fun q _ => fileAt_mkdirs h q
  | _ => exact h.sameNodes.sameFiles

theorem Broken.sameFiles {a : Action} {t t' : FileTree} (h : a.Broken t t') :
    SameFiles a.Touches t t' := by
  cases a with
  | mkdir p =>
    intro q _
    rcases h q with hq | ⟨-, hnone, hdir⟩
    · exact fileAt_congr hq
    · rw [fileAt, fileAt, hnone, hdir]
  | _ => exact h.sameNodes.sameFiles

end Action

/-- The first `n` actions of an and-list are done, and the next one, if there is one, is not. -/
def Carried : List Action → Nat → FileTree → FileTree → Prop
  | [], _, t, t' => t' = t
  | a :: _, 0, t, t' => a.Broken t t'
  | a :: as, n + 1, t, t' => ∃ t₁, a.Done t t₁ ∧ Carried as n t₁ t'

/-- **The frame of a command**: whatever becomes of it, files it does not name stay. -/
theorem Carried.sameFiles {as : List Action} {n : Nat} {t t' : FileTree} (h : Carried as n t t') :
    SameFiles (fun q => ∃ a ∈ as, a.Touches q) t t' := by
  induction as generalizing n t with
  | nil =>
    obtain rfl : t' = t := h
    exact SameFiles.refl _ _
  | cons a as ih =>
    cases n with
    | zero => exact (Action.Broken.sameFiles h).mono fun q hq => ⟨a, List.mem_cons_self, hq⟩
    | succ n =>
      obtain ⟨t₁, hdone, hrest⟩ := h
      refine SameFiles.trans (hdone.sameFiles.mono fun q hq => ⟨a, List.mem_cons_self, hq⟩) ?_
      exact (ih hrest).mono fun q ⟨b, hb, hq⟩ => ⟨b, List.mem_cons_of_mem _ hb, hq⟩

/-- Whatever becomes of a command, places it does not name stay. -/
theorem Carried.sameNodes {as : List Action} {n : Nat} {t t' : FileTree} (h : Carried as n t t') :
    SameNodes (fun q => ∃ a ∈ as, a.Makes q) t t' := by
  induction as generalizing n t with
  | nil =>
    obtain rfl : t' = t := h
    exact fun _ _ => rfl
  | cons a as ih =>
    intro q hq
    have ha : ¬ a.Makes q := fun h' => hq ⟨a, List.mem_cons_self, h'⟩
    cases n with
    | zero => exact Action.Broken.sameNodes h q ha
    | succ n =>
      obtain ⟨t₁, hdone, hrest⟩ := h
      rw [ih hrest q fun ⟨b, hb, h'⟩ => hq ⟨b, List.mem_cons_of_mem _ hb, h'⟩,
        hdone.sameNodes q ha]

/-- The action leaves the files alone, however it ends. -/
def Action.Still : Action → Bool
  | .testDir _ | .testFile _ | .cat _ | .chmod _ | .chdir _ | .external => true
  | _ => false

/-- A command of such actions leaves the files alone. -/
theorem Carried.eq_of_still {as : List Action} {n : Nat} {t t' : FileTree} (h : Carried as n t t')
    (hstill : ∀ a ∈ as, a.Still = true) : t' = t := by
  induction as generalizing n t with
  | nil => exact h
  | cons a as ih =>
    have hrest : ∀ b ∈ as, b.Still = true := fun b hb => hstill b (List.mem_cons_of_mem _ hb)
    have ha := hstill a List.mem_cons_self
    cases n with
    | zero =>
      cases a with
      | testDir p => exact h
      | testFile p => exact h
      | cat p => exact h
      | chmod p => exact h
      | chdir p => exact h
      | external => exact h
      | _ => cases ha
    | succ n =>
      obtain ⟨t₁, hdone, hcarried⟩ := h
      have ht₁ : t₁ = t := by
        cases a with
        | testDir p => exact hdone.2
        | testFile p => exact hdone.2
        | cat p => exact hdone.2
        | chmod p => exact hdone.2
        | chdir p => exact hdone.2
        | external => exact hdone
        | _ => cases ha
      rw [ih hcarried hrest, ht₁]

/-- One action that is done. -/
theorem carried_one {a : Action} {n : Nat} {t t' : FileTree} (h : Carried [a] n t t')
    (hn : 1 ≤ n) : a.Done t t' := by
  cases n with
  | zero => exact absurd hn (by decide)
  | succ n =>
    obtain ⟨t₁, hdone, hrest⟩ := h
    obtain rfl : t' = t₁ := hrest
    exact hdone

/-- Removing makes no file, however far it gets. -/
theorem Carried.fileAt_of_remove {p q : Path} {n : Nat} {t t' : FileTree} {b : Bytes}
    (h : Carried [.remove p] n t t') (hq : t'.fileAt q = some b) : t.fileAt q = some b := by
  cases n with
  | zero =>
    rw [fileAt_eq_some] at hq ⊢
    rcases h.2 q with hsame | hnone
    · rwa [← hsame]
    · rw [hnone] at hq
      cases hq
  | succ n => exact FileTree.fileAt_of_remove (carried_one h (Nat.le_add_left 1 n)) hq

/-! ### Copying and writing -/

/-- **A file is copied**: to where it was asked for, unless a directory is there. -/
theorem Action.Done.copy {src dst : Path} {t t' : FileTree} {b : Bytes}
    (h : (Action.copy src dst).Done t t') (hsrc : t.fileAt src = some b) :
    SameNodes (Below dst) t t' ∧
      ((t.isDir dst = false ∧ t'.fileAt dst = some b) ∨
        (t.isDir dst = true ∧ t'.isDir dst = true)) := by
  have hnot : t.isDir src = false := not_isDir_of_fileAt hsrc
  rcases h with ⟨c, hc, -, hput⟩ | ⟨hdir, -, -⟩
  · obtain rfl := Option.some.inj (hc.symm.trans hsrc)
    have hbelow := prefix_target t src dst
    refine ⟨fun q hq => sameNodes_put hput q fun h => hq (hbelow.trans h), ?_⟩
    cases hd : t.isDir dst with
    | false =>
      rw [target_of_not_isDir hd] at hput
      exact .inl ⟨rfl, fileAt_put hput⟩
    | true => exact .inr ⟨rfl, isDir_put hput hd⟩
  · rw [hnot] at hdir
    cases hdir

/-- A directory is not copied over a file. -/
theorem Action.Done.copy_dir {src dst : Path} {t t' : FileTree} (h : (Action.copy src dst).Done t t')
    (hsrc : t.isDir src = true) : t.isFile dst = false := by
  rcases h with ⟨b, hb, -, -⟩ | ⟨-, hfile, -⟩
  · rw [not_isDir_of_fileAt hb] at hsrc
    cases hsrc
  · cases hd : t.isDir dst with
    | false => rwa [target_of_not_isDir hd] at hfile
    | true =>
      rw [isDir_iff] at hd
      rw [isFile, fileAt, hd]
      rfl

/-- A copy into a directory leaves it one. -/
theorem Action.Done.isDir_copy {src dst : Path} {t t' : FileTree}
    (h : (Action.copy src dst).Done t t') (hsrc : src ≠ []) (hdst : t.isDir dst = true) :
    t'.isDir dst = true := by
  rcases h with ⟨b, -, -, hput⟩ | ⟨-, -, hsame⟩
  · exact isDir_put hput hdst
  · rw [isDir, hsame dst (ne_target hdst hsrc)]
    exact hdst

/-- **There and back**: what is copied somewhere and back again is what it was, if in between
the copy stays, a file stays a file and a directory stays a directory. -/
theorem Action.Done.copy_back {x y : Path} {t t₁ t₂ t₃ : FileTree}
    (hthere : (Action.copy x y).Done t t₁) (hcopy : t₂.node y = t₁.node y)
    (hfile : t.isFile x = true → t₂.isFile x = true) (hdir : t.isDir x = true → t₂.isDir x = true)
    (hback : (Action.copy y x).Done t₂ t₃) (hy : y ≠ []) : t₃.fileAt x = t.fileAt x := by
  by_cases hx : t.isDir x = true
  · have h₃ := hback.isDir_copy hy (hdir hx)
    rw [isDir_iff] at hx h₃
    rw [fileAt, fileAt, hx, h₃]
  · obtain ⟨b, hb⟩ : ∃ b, t.fileAt x = some b := by
      rcases hthere with ⟨b, hb, -, -⟩ | ⟨h, -, -⟩
      · exact ⟨b, hb⟩
      · exact absurd h hx
    have hx₂ := hfile (isFile_iff.mpr ⟨b, hb⟩)
    rcases (hthere.copy hb).2 with ⟨-, hy₁⟩ | ⟨-, hy₁⟩
    · have hy₂ : t₂.fileAt y = some b := (fileAt_congr hcopy).trans hy₁
      rcases (hback.copy hy₂).2 with ⟨-, h₃⟩ | ⟨h₂, -⟩
      · rw [h₃, hb]
      · obtain ⟨c, hc⟩ := isFile_iff.mp hx₂
        rw [not_isDir_of_fileAt hc] at h₂
        cases h₂
    · -- the copy is a directory, and that is not copied over a file
      have hy₂ : t₂.isDir y = true := by rwa [isDir, hcopy]
      rw [hback.copy_dir hy₂] at hx₂
      cases hx₂

/-- The actions that write a file by way of a scratch file. -/
def writeActions (content : Bytes) (scratch path : Path) : List Action :=
  [.decode (Base64.encode content) scratch, .move scratch path, .chmod path]

/-- **A file is written**: it is untouched until the second action is done, and then it has its
content. -/
theorem Carried.write {content : Bytes} {scratch path : Path} {n : Nat} {t t' : FileTree}
    (h : Carried (writeActions content scratch path) n t t') (hdir : t.isDir path = false)
    (hpath : ¬ Below scratch path) :
    (n ≤ 1 → SameNodes (Below scratch) t t') ∧
      (2 ≤ n → t'.fileAt path = some content ∧
        SameNodes (fun q => Below scratch q ∨ Below path q) t t') := by
  cases n with
  | zero => exact ⟨fun _ => h, fun hn => absurd hn (by decide)⟩
  | succ n =>
    obtain ⟨t₁, ⟨b, hb, hput⟩, h⟩ := h
    rw [Base64.decode_encode, Option.some.injEq] at hb
    subst hb
    have hsame := sameNodes_put hput
    have hfile := fileAt_put hput
    have hdir₁ : t₁.isDir path = false := by
      rw [isDir, hsame path hpath]
      exact hdir
    have hnotdir : t₁.isDir scratch = false := not_isDir_of_fileAt hfile
    cases n with
    | zero =>
      refine ⟨fun _ => ?_, fun hn => absurd hn (by decide)⟩
      rcases h with rfl | ⟨hd, -⟩
      · exact hsame
      · rw [hnotdir] at hd
        cases hd
    | succ n =>
      refine ⟨fun hn => absurd hn (by omega), fun _ => ?_⟩
      obtain ⟨t₂, hmove, h⟩ := h
      have ht' : t' = t₂ := Carried.eq_of_still h (by simp [Action.Still])
      subst ht'
      rcases hmove with hren | ⟨hd, -, -⟩
      · obtain ⟨c, hc, htarget, -, hother⟩ := rename_eq_some hren
        rw [target_of_not_isDir hdir₁] at htarget hother
        obtain rfl := Option.some.inj (hc.symm.trans hfile)
        refine ⟨htarget, fun q hq => ?_⟩
        rw [not_or] at hq
        rw [hother q (fun heq => hq.2 (heq ▸ List.prefix_refl path)) hq.1, hsame q hq.1]
      · rw [hnotdir] at hd
        cases hd

/-- A write that is done leaves no scratch file, and it did not find a directory in its place. -/
theorem Carried.write_scratch {content : Bytes} {scratch path : Path} {n : Nat} {t t' : FileTree}
    (h : Carried (writeActions content scratch path) n t t') (hn : 2 ≤ n) :
    t.isDir scratch = false ∧ t'.isDir scratch = false := by
  obtain ⟨m, rfl⟩ : ∃ m, n = m + 2 := ⟨n - 2, by omega⟩
  obtain ⟨t₁, ⟨b, -, hput⟩, t₂, hmove, h⟩ := h
  have ht' : t' = t₂ := Carried.eq_of_still h (by simp [Action.Still])
  subst ht'
  refine ⟨?_, ?_⟩
  · by_contra hdir
    rw [Bool.not_eq_false] at hdir
    exact ne_of_put hput hdir rfl
  · rcases hmove with hren | ⟨hd, -, -⟩
    · rw [isDir, node_of_rename hren]
      rfl
    · rw [not_isDir_of_fileAt (fileAt_put hput)] at hd
      cases hd

/-- What a write touches, done or not. -/
theorem Carried.write_frame {content : Bytes} {scratch path : Path} {n : Nat} {t t' : FileTree}
    (h : Carried (writeActions content scratch path) n t t') :
    SameNodes (fun q => Below scratch q ∨ Below path q) t t' := by
  refine fun q hq => h.sameNodes q ?_
  rintro ⟨a, ha, hq'⟩
  simp only [writeActions, List.mem_cons, List.not_mem_nil, or_false] at ha
  rcases ha with rfl | rfl | rfl
  · exact hq (.inl hq')
  · exact hq hq'
  · exact hq'

/-- A directory in the place of the file stays a directory. -/
theorem Carried.write_dir {content : Bytes} {scratch path : Path} {n : Nat} {t t' : FileTree}
    (h : Carried (writeActions content scratch path) n t t') (hdir : t.isDir path = true)
    (hpath : ¬ Below scratch path) : t'.isDir path = true := by
  have hkeep : ∀ {u u' : FileTree}, SameNodes (Below scratch) u u' → u.isDir path = true →
      u'.isDir path = true := by
    intro u u' hsame hu
    rw [isDir, hsame path hpath]
    exact hu
  cases n with
  | zero => exact hkeep h hdir
  | succ n =>
    obtain ⟨t₁, ⟨b, -, hput⟩, h⟩ := h
    have hdir₁ := hkeep (sameNodes_put hput) hdir
    have hnotdir : t₁.isDir scratch = false := not_isDir_of_fileAt (fileAt_put hput)
    cases n with
    | zero =>
      rcases h with rfl | ⟨hd, -⟩
      · exact hdir₁
      · rw [hnotdir] at hd
        cases hd
    | succ n =>
      obtain ⟨t₂, hmove, h⟩ := h
      have ht' : t' = t₂ := Carried.eq_of_still h (by simp [Action.Still])
      subst ht'
      rcases hmove with hren | ⟨hd, -, -⟩
      · exact isDir_rename hren hpath hdir₁
      · rw [hnotdir] at hd
        cases hd

/-! ### Running actions -/

/-- Do an action, on files only: a directory is not copied or moved. -/
def Action.run : Action → FileTree → Option FileTree
  | testDir p, t => if t.isDir p then some t else none
  | testFile p, t => if t.isFile p then some t else none
  | cat p, t => if t.isFile p then some t else none
  | mkdir p, t => t.mkdirs p
  | copy src dst, t =>
    (t.fileAt src).bind fun b =>
      if t.target src dst = src then none else t.put (t.target src dst) b
  | decode payload dst, t => (Base64.decode payload).bind (t.put dst)
  | move src dst, t => t.rename src dst
  | chmod p, t => if t.node p ≠ none then some t else none
  | chdir p, t => if t.isDir p then some t else none
  | remove p, t => t.remove p
  | external, t => some t

theorem Action.done_of_run {a : Action} {t t' : FileTree} (h : a.run t = some t') : a.Done t t' := by
  cases a with
  | mkdir p => exact h
  | remove p => exact h
  | move src dst => exact .inl h
  | external => exact (Option.some.inj h).symm
  | copy src dst =>
    obtain ⟨b, hb, h⟩ := Option.bind_eq_some_iff.mp h
    split_ifs at h with htarget
    exact .inl ⟨b, hb, htarget, h⟩
  | decode payload dst =>
    obtain ⟨b, hb, h⟩ := Option.bind_eq_some_iff.mp h
    exact ⟨b, hb, h⟩
  | _ =>
    simp only [run] at h
    split_ifs at h with hp
    exact ⟨hp, (Option.some.inj h).symm⟩

/-- Nothing done is a way to fail. -/
theorem Action.broken_refl (a : Action) (t : FileTree) : a.Broken t t := by
  cases a with
  | mkdir p => exact fun q => .inl rfl
  | move src dst => exact .inl rfl
  | remove p => exact ⟨fun _ _ => rfl, fun q => .inl rfl⟩
  | copy src dst => exact fun _ _ => rfl
  | decode payload dst => exact fun _ _ => rfl
  | _ => exact rfl

/-- Do the actions of an and-list, at most so many; how many are done, and the files. -/
def carry : List Action → Nat → FileTree → Nat × FileTree
  | [], _, t => (0, t)
  | _ :: _, 0, t => (0, t)
  | a :: as, n + 1, t =>
    match a.run t with
    | some t' => ((carry as n t').1 + 1, (carry as n t').2)
    | none => (0, t)

theorem carried_carry (as : List Action) (n : Nat) (t : FileTree) :
    Carried as (carry as n t).1 t (carry as n t).2 := by
  induction as generalizing n t with
  | nil => exact rfl
  | cons a as ih =>
    cases n with
    | zero => exact a.broken_refl t
    | succ n =>
      rw [carry]
      cases hrun : a.run t with
      | none => exact a.broken_refl t
      | some t' => exact ⟨t', Action.done_of_run hrun, ih n t'⟩

/-! ### From tokens to actions -/

/-- The actions of a command whose tokens are known. -/
theorem actions_of_lex {cmd : Str} {ts : List Shell.Token} (h : Shell.lex cmd = some ts) :
    actions cmd = (Shell.parseTokens ts).map (·.map pipelineAction) := by
  rw [actions, Shell.parse, h]
  rfl

end Rustmote
