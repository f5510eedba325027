import Mathlib.Data.List.Induction
import Mathlib.Logic.Function.Basic
import Rustmote.Foundations.Text

/-!
# Writing files step by step

A file is opened for writing, which leaves it empty, and then gets its bytes one by one; a rename
is one step. A process that is killed has done some first steps of its list, and nothing of the
others. Names of files are of any type.

* `perform` — steps one after the other; `perform_of_untouched` — other files stay.
* `perform_take_writeSteps` — what a write that is cut short leaves.
* `atomicSave` — a temporary file that is renamed over the file: cut short, it leaves the file as
  it was (`perform_take_atomicSave`).
* `AtomicallySaves`, `performAll_path` — any history of such saves, each complete or cut short.
-/

namespace Rustmote

/-- The files of a disk. -/
abbrev Files (N : Type) := N → Option Bytes

/-- A step of writing. -/
inductive FileStep (N : Type) where
  /-- A directory is made: no file changes. -/
  | createDirAll (dir : N)
  /-- A file is opened for writing: it is there, and empty. -/
  | create (file : N)
  /-- One more byte is written. -/
  | append (file : N) (byte : UInt8)
  /-- A file is renamed. -/
  | rename (src dst : N)

variable {N α : Type} [DecidableEq N]

/-- What a step makes of the files. -/
def FileStep.apply (files : Files N) : FileStep N → Files N
  | .createDirAll _ => files
  | .create file => Function.update files file (some [])
  | .append file byte => Function.update files file ((files file).map (· ++ [byte]))
  | .rename src dst => fun name =>
    if name = dst then files src else if name = src then none else files name

/-- A step leaves a file alone. -/
def FileStep.Spares (name : N) : FileStep N → Prop
  | .createDirAll _ => True
  | .create file => name ≠ file
  | .append file _ => name ≠ file
  | .rename src dst => name ≠ src ∧ name ≠ dst

/-- Steps one after the other. -/
def perform (files : Files N) (steps : List (FileStep N)) : Files N :=
  steps.foldl FileStep.apply files

theorem perform_append (files : Files N) (steps more : List (FileStep N)) :
    perform files (steps ++ more) = perform (perform files steps) more := List.foldl_append

theorem FileStep.apply_of_spares {files : Files N} {step : FileStep N} {name : N}
    (h : step.Spares name) : step.apply files name = files name := by
  cases step with
  | createDirAll dir => rfl
  | create file => exact Function.update_of_ne h _ _
  | append file byte => exact Function.update_of_ne h _ _
  | rename src dst =>
    show (if name = dst then files src else if name = src then none else files name) = _
    rw [if_neg h.2, if_neg h.1]

/-- A file that no step touches stays. -/
theorem perform_of_untouched {files : Files N} {steps : List (FileStep N)} {name : N}
    (h : ∀ step ∈ steps, step.Spares name) : perform files steps name = files name := by
  induction steps generalizing files with
  | nil => rfl
  | cons step steps ih =>
    obtain ⟨hstep, hrest⟩ := List.forall_mem_cons.mp h
    exact (ih hrest).trans (FileStep.apply_of_spares hstep)

/-! ### A write -/

/-- `std::fs::write`. -/
def writeSteps (file : N) (bytes : Bytes) : List (FileStep N) :=
  .create file :: bytes.map (.append file)

omit [DecidableEq N] in
theorem length_writeSteps (file : N) (bytes : Bytes) :
    (writeSteps file bytes).length = bytes.length + 1 := by
  rw [writeSteps, List.length_cons, List.length_map]

omit [DecidableEq N] in
theorem spares_of_mem_writeSteps {file name : N} {bytes : Bytes} {step : FileStep N}
    (hne : name ≠ file) (h : step ∈ writeSteps file bytes) : step.Spares name := by
  rcases List.mem_cons.mp h with rfl | h
  · exact hne
  · obtain ⟨byte, -, rfl⟩ := List.mem_map.mp h
    exact hne

theorem perform_appends {files : Files N} {file : N} {start : Bytes}
    (h : files file = some start) (bytes : Bytes) :
    perform files (bytes.map (.append file)) file = some (start ++ bytes) := by
  induction bytes generalizing files start with
  | nil =>
    rw [List.append_nil]
    exact h
  | cons byte bytes ih =>
    have hnext : (FileStep.append file byte).apply files file = some (start ++ [byte]) := by
      show Function.update files file ((files file).map (· ++ [byte])) file = _
      rw [Function.update_self, h]
      rfl
    have hrest := ih hnext
    rwa [List.append_assoc] at hrest

/-- **A write that is cut short** has not begun, or leaves the first bytes. -/
theorem perform_take_writeSteps (files : Files N) (file : N) (bytes : Bytes) (n : Nat) :
    perform files ((writeSteps file bytes).take n) file =
      if n = 0 then files file else some (bytes.take (n - 1)) := by
  cases n with
  | zero => rfl
  | succ n =>
    rw [if_neg (Nat.succ_ne_zero n), writeSteps, List.take_succ_cons, ← List.map_take]
    exact perform_appends (Function.update_self file (some []) files) (bytes.take n)

theorem perform_writeSteps (files : Files N) (file : N) (bytes : Bytes) :
    perform files (writeSteps file bytes) file = some bytes :=
  perform_appends (Function.update_self file (some []) files) bytes

/-! ### An atomic save -/

/-- A save through a temporary file. -/
def atomicSave (dir tmp path : N) (bytes : Bytes) : List (FileStep N) :=
  .createDirAll dir :: (writeSteps tmp bytes ++ [.rename tmp path])

omit [DecidableEq N] in
theorem length_atomicSave (dir tmp path : N) (bytes : Bytes) :
    (atomicSave dir tmp path bytes).length = bytes.length + 3 := by
  rw [atomicSave, List.length_cons, List.length_append, length_writeSteps]
  rfl

/-- The file is as it was up to the rename, which is the last step. -/
theorem perform_take_atomicSave {dir tmp path : N} (hne : tmp ≠ path) (files : Files N)
    (bytes : Bytes) (n : Nat) :
    perform files ((atomicSave dir tmp path bytes).take n) path =
      if (atomicSave dir tmp path bytes).length ≤ n then some bytes else files path := by
  have hwrite : ∀ step ∈ FileStep.createDirAll dir :: writeSteps tmp bytes, step.Spares path := by
    intro step hstep
    rcases List.mem_cons.mp hstep with rfl | hstep
    · trivial
    · exact spares_of_mem_writeSteps hne.symm hstep
  have hsteps : atomicSave dir tmp path bytes =
      (.createDirAll dir :: writeSteps tmp bytes) ++ [.rename tmp path] := rfl
  split_ifs with hn
  · rw [List.take_of_length_le hn, hsteps, perform_append]
    show (if path = path then perform files (.createDirAll dir :: writeSteps tmp bytes) tmp
      else _) = _
    rw [if_pos rfl]
    exact perform_writeSteps files tmp bytes
  · have hshort : (atomicSave dir tmp path bytes).take n =
        (FileStep.createDirAll dir :: writeSteps tmp bytes).take n := by
      rw [hsteps, List.take_append_of_le_length]
      rw [length_atomicSave] at hn
      rw [List.length_cons, length_writeSteps]
      omega
    rw [hshort]
    exact perform_of_untouched fun step hstep => hwrite step (List.mem_of_mem_take hstep)

/-! ### Histories of saves -/

/-- The files behind saves of some values, each with the number of its steps that were done. -/
def performAll (steps : α → List (FileStep N)) (files : Files N) (history : List (α × Nat)) :
    Files N :=
  history.foldl (fun files save => perform files ((steps save.1).take save.2)) files

/-- The save of a value that prints, and all of its steps were done. -/
def TookEffect (steps : α → List (FileStep N)) (print : α → Option Bytes) (save : α × Nat) :
    Prop := (print save.1).isSome = true ∧ (steps save.1).length ≤ save.2

instance decidableTookEffect (steps : α → List (FileStep N)) (print : α → Option Bytes) :
    DecidablePred (TookEffect steps print) := fun save =>
  inferInstanceAs (Decidable ((print save.1).isSome = true ∧ (steps save.1).length ≤ save.2))

/-- The value of the last save that took effect. -/
def lastSaved (steps : α → List (FileStep N)) (print : α → Option Bytes)
    (history : List (α × Nat)) : Option α :=
  ((history.filter fun save => TookEffect steps print save).getLast?).map Prod.fst

/-- Whatever is done of the steps, the file holds the value, or is as it was. -/
def AtomicallySaves (steps : α → List (FileStep N)) (print : α → Option Bytes) (path : N) : Prop :=
  ∀ files save, perform files ((steps save.1).take save.2) path =
    if TookEffect steps print save then print save.1 else files path

/-- **Any history**: the file holds the value of the last save that took effect. -/
theorem performAll_path {steps : α → List (FileStep N)} {print : α → Option Bytes} {path : N}
    (h : AtomicallySaves steps print path) (files : Files N) (history : List (α × Nat)) :
    performAll steps files history path =
      match lastSaved steps print history with
      | some value => print value
      | none => files path := by
  induction history using List.reverseRecOn with
  | nil => rfl
  | append_singleton history save ih =>
    have hone : performAll steps files (history ++ [save]) =
        perform (performAll steps files history) ((steps save.1).take save.2) := by
      rw [performAll, List.foldl_append]
      rfl
    rw [hone, h]
    by_cases htook : TookEffect steps print save
    · have hlast : lastSaved steps print (history ++ [save]) = some save.1 := by
        rw [lastSaved, List.filter_append, List.filter_singleton, decide_eq_true htook]
        simp
      rw [if_pos htook, hlast]
    · have hlast : lastSaved steps print (history ++ [save]) = lastSaved steps print history := by
        rw [lastSaved, List.filter_append, List.filter_singleton, decide_eq_false htook]
        simp [lastSaved]
      rw [if_neg htook, hlast]
      exact ih

omit [DecidableEq N] in
/-- A value that takes effect prints. -/
theorem print_lastSaved {steps : α → List (FileStep N)} {print : α → Option Bytes}
    {history : List (α × Nat)} {value : α} (h : lastSaved steps print history = some value) :
    ∃ bytes, print value = some bytes := by
  obtain ⟨save, hlast, rfl⟩ := Option.map_eq_some_iff.mp h
  have hmem := List.mem_of_getLast? hlast
  have htook : TookEffect steps print save := of_decide_eq_true (List.mem_filter.mp hmem).2
  exact Option.isSome_iff_exists.mp htook.1

end Rustmote
