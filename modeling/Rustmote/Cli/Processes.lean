import Mathlib.Data.List.Infix
import Rustmote.Cli.History

/-!
# Two processes on one config file

Each of two commands loads the file, writes the temporary file beside it, and renames that over
the file; both use one name for it. A `Race` is the state of both and of the files, and a schedule
says which process takes the next step. There is no lock.

`Course` is what can have happened, in terms of which file each process has loaded and which of
them was the first to rename. When the spans from the load to the rename do not overlap the result
is that of the commands one after the other (`race_serial`); when they do, one of the two changes
may be lost.
-/

namespace Rustmote

namespace Cli

/-- What a command computes from the file: its result, where nothing is saved, or else the text to
save, and what comes behind the save. -/
inductive Plan where
  | stop (result : Except CliError Unit)
  | save (text : Str) (after : Except CliError Unit)

/-- The load, the edit, and the serialization. -/
def plan (toml : TomlFormat Config) (path : PathBuf) (command : CliCommand) (file : Option Str) :
    Plan :=
  match edit toml path command file with
  | .error e => .stop (.error e)
  | .ok ⟨none, after⟩ => .stop after
  | .ok ⟨some cfg, after⟩ =>
    match orContext (cfg.serialize toml) (saveContext command) with
    | .error e => .stop (.error e)
    | .ok text => .save text after

/-- Where a process is. -/
inductive Progress where
  /-- It has not loaded the file. -/
  | waiting
  /-- It is to write the temporary file. -/
  | toWrite (text : Str) (after : Except CliError Unit)
  /-- It is to rename it. -/
  | toRename (after : Except CliError Unit)
  /-- It has ended. -/
  | finished (result : Except CliError Unit)
  deriving DecidableEq

/-- The config file and the temporary file beside it. -/
structure ConfigFiles where
  config : Option Str
  tmp : Option Str
  deriving DecidableEq

/-- The error of a rename whose source is not there. -/
def renameFailed (command : CliCommand) : CliError :=
  .library (saveContext command) (.ioError "No such file or directory (os error 2)".toList)

/-- One file step of a process. -/
def advance (toml : TomlFormat Config) (path : PathBuf) (command : CliCommand)
    (files : ConfigFiles) : Progress → ConfigFiles × Progress
  | .waiting =>
    match plan toml path command files.config with
    | .stop result => (files, .finished result)
    | .save text after => (files, .toWrite text after)
  | .toWrite text after => ({ files with tmp := some text }, .toRename after)
  | .toRename after =>
    match files.tmp with
    | some text => (⟨some text, none⟩, .finished after)
    | none => (files, .finished (.error (renameFailed command)))
  | .finished result => (files, .finished result)

/-- Two processes and the files. -/
structure Race where
  files : ConfigFiles
  left : Progress
  right : Progress
  deriving DecidableEq

/-- The step of one of the processes: of the left one, for `true`. -/
def Race.step (toml : TomlFormat Config) (path : PathBuf) (p q : CliCommand) (race : Race)
    (left : Bool) : Race :=
  if left then
    let (files, progress) := advance toml path p race.files race.left
    ⟨files, progress, race.right⟩
  else
    let (files, progress) := advance toml path q race.files race.right
    ⟨files, race.left, progress⟩

/-- The steps of a schedule. -/
def Race.run (toml : TomlFormat Config) (path : PathBuf) (p q : CliCommand) (race : Race)
    (schedule : List Bool) : Race :=
  schedule.foldl (Race.step toml path p q) race

/-- Both processes at their start. -/
def Race.start (files : ConfigFiles) : Race := ⟨files, .waiting, .waiting⟩

/-- The process has loaded the file and not renamed yet. -/
def Progress.InSpan : Progress → Prop
  | .toWrite _ _ | .toRename _ => True
  | .waiting | .finished _ => False

instance decidableInSpan : DecidablePred Progress.InSpan
  | .toWrite _ _ => .isTrue trivial
  | .toRename _ => .isTrue trivial
  | .waiting => .isFalse id
  | .finished _ => .isFalse id

/-- At some time both have loaded the file and not renamed yet. -/
def Overlap (toml : TomlFormat Config) (path : PathBuf) (p q : CliCommand) (race : Race)
    (schedule : List Bool) : Prop :=
  ∃ pre, pre <+: schedule ∧ (race.run toml path p q pre).left.InSpan ∧
    (race.run toml path p q pre).right.InSpan

/-- Both commands succeed one after the other, and this is the file behind them. -/
def Serially (toml : TomlFormat Config) (path : PathBuf) (p q : CliCommand)
    (file final : Option Str) : Prop :=
  (Cli.run toml path p file).1 = .ok () ∧
    (Cli.run toml path q (Cli.run toml path p file).2).1 = .ok () ∧
    (Cli.run toml path q (Cli.run toml path p file).2).2 = final

instance decidableSerially (toml : TomlFormat Config) (path : PathBuf) (p q : CliCommand)
    (file final : Option Str) : Decidable (Serially toml path p q file final) :=
  inferInstanceAs (Decidable (_ ∧ _ ∧ _))

/-! ### What can have happened -/

variable {toml : TomlFormat Config} {path : PathBuf} {p q command : CliCommand}
  {file loaded final : Option Str} {files : ConfigFiles} {P Q : Progress}

/-- A run is its plan carried out. -/
theorem run_eq_plan (command : CliCommand) (file : Option Str) :
    Cli.run toml path command file =
      match plan toml path command file with
      | .stop result => (result, file)
      | .save text after => (after, some text) := by
  unfold Cli.run plan
  cases edit toml path command file with
  | error e => rfl
  | ok e =>
    obtain ⟨save, after⟩ := e
    cases save with
    | none => rfl
    | some cfg =>
      cases hsave : orContext (cfg.serialize toml) (saveContext command) with
      | error e => simp only [hsave]
      | ok text => simp only [hsave]

/-- A process that has not renamed, and has loaded this file if it has loaded one. -/
inductive Loaded (toml : TomlFormat Config) (path : PathBuf) (command : CliCommand)
    (loaded : Option Str) (tmp : Option Str) : Progress → Prop where
  | waiting : Loaded toml path command loaded tmp .waiting
  | toWrite {text : Str} {after : Except CliError Unit} :
      plan toml path command loaded = .save text after →
      Loaded toml path command loaded tmp (.toWrite text after)
  | toRename {text : Str} {after : Except CliError Unit} :
      plan toml path command loaded = .save text after → tmp = some text →
      Loaded toml path command loaded tmp (.toRename after)
  | finished {result : Except CliError Unit} :
      plan toml path command loaded = .stop result →
      Loaded toml path command loaded tmp (.finished result)

/-- What can have happened, when the first of the two processes is the first to rename. -/
inductive Course (toml : TomlFormat Config) (path : PathBuf) (p q : CliCommand)
    (file : Option Str) (overlap : Prop) : ConfigFiles → Progress → Progress → Prop where
  /-- None has renamed, and at most one is about to. -/
  | neither {tmp : Option Str} {P Q : Progress} : Loaded toml path p file tmp P →
      Loaded toml path q file tmp Q →
      ((∃ a, P = .toRename a) → (∃ a, Q = .toRename a) → False) →
      Course toml path p q file overlap ⟨file, tmp⟩ P Q
  /-- The first has. The other has loaded what the first saved, unless their spans overlap or it
  has nothing to save. -/
  | first {text : Str} {after : Except CliError Unit} {loaded tmp : Option Str} {Q : Progress} :
      plan toml path p file = .save text after → Loaded toml path q loaded tmp Q →
      (loaded = some text ∨ (loaded = file ∧ (Q.InSpan → overlap))) →
      Course toml path p q file overlap ⟨some text, tmp⟩ (.finished after) Q
  /-- Both have. -/
  | both {text text' : Str} {after after' : Except CliError Unit} {loaded tmp : Option Str} :
      plan toml path p file = .save text after → plan toml path q loaded = .save text' after' →
      (loaded = some text ∨ (loaded = file ∧ overlap)) →
      Course toml path p q file overlap ⟨some text', tmp⟩ (.finished after) (.finished after')
  /-- The first has failed. -/
  | failed {files : ConfigFiles} {e : CliError} {Q : Progress} :
      Course toml path p q file overlap files (.finished (.error e)) Q
  /-- Both are about to rename the one temporary file. -/
  | collided {files : ConfigFiles} {a b : Except CliError Unit} :
      Course toml path p q file overlap files (.toRename a) (.toRename b)
  /-- The first has renamed the temporary file of the other. -/
  | robbed {config : Option Str} {r a : Except CliError Unit} :
      Course toml path p q file overlap ⟨config, none⟩ (.finished r) (.toRename a)

/-- Either of the two may be the first. -/
def Courses (toml : TomlFormat Config) (path : PathBuf) (p q : CliCommand) (file : Option Str)
    (overlap : Prop) (race : Race) : Prop :=
  Course toml path p q file overlap race.files race.left race.right ∨
    Course toml path q p file overlap race.files race.right race.left

variable {overlap overlap' : Prop}

/-- **The step of the first process.** -/
theorem course_advance_left (h : Course toml path p q file overlap files P Q)
    (hmono : overlap → overlap') (hspan : P.InSpan → Q.InSpan → overlap') :
    Courses toml path p q file overlap'
      ⟨(advance toml path p files P).1, (advance toml path p files P).2, Q⟩ := by
  cases h with
  | @neither tmp _ _ hP hQ hone =>
    left
    cases hP with
    | waiting =>
      simp only [advance]
      cases hplan : plan toml path p file with
      | stop result => exact .neither (.finished hplan) hQ fun ⟨a, ha⟩ => by cases ha
      | save text after => exact .neither (.toWrite hplan) hQ fun ⟨a, ha⟩ => by cases ha
    | @toWrite text after hplan =>
      simp only [advance]
      cases hQ with
      | waiting => exact .neither (.toRename hplan rfl) .waiting fun _ ⟨a, ha⟩ => by cases ha
      | toWrite hplan' =>
        exact .neither (.toRename hplan rfl) (.toWrite hplan') fun _ ⟨a, ha⟩ => by cases ha
      | toRename _ _ => exact .collided
      | finished hplan' =>
        exact .neither (.toRename hplan rfl) (.finished hplan') fun _ ⟨a, ha⟩ => by cases ha
    | @toRename text after hplan htmp =>
      subst htmp
      simp only [advance]
      cases hQ with
      | waiting => exact .first hplan .waiting (.inl rfl)
      | toWrite hplan' => exact .first hplan (.toWrite hplan') (.inr ⟨rfl, fun h => hspan trivial h⟩)
      | toRename _ _ => exact (hone ⟨_, rfl⟩ ⟨_, rfl⟩).elim
      | finished hplan' => exact .first hplan (.finished hplan') (.inr ⟨rfl, fun h => h.elim⟩)
    | finished hplan => exact .neither (.finished hplan) hQ fun ⟨a, ha⟩ => by cases ha
  | first hplan hQ hloaded =>
    refine .inl (.first hplan hQ ?_)
    rcases hloaded with h | ⟨h, hover⟩
    · exact .inl h
    · exact .inr ⟨h, fun hin => hmono (hover hin)⟩
  | both hplan hplan' hloaded =>
    refine .inl (.both hplan hplan' ?_)
    rcases hloaded with h | ⟨h, hover⟩
    · exact .inl h
    · exact .inr ⟨h, hmono hover⟩
  | failed => exact .inl .failed
  | collided =>
    left
    simp only [advance]
    obtain ⟨config, tmp⟩ := files
    cases tmp with
    | some text => exact .robbed
    | none => exact .failed
  | robbed => exact .inl .robbed

/-- **The step of the other process.** -/
theorem course_advance_right (h : Course toml path p q file overlap files P Q)
    (hmono : overlap → overlap') (hspan : P.InSpan → Q.InSpan → overlap') :
    Courses toml path p q file overlap'
      ⟨(advance toml path q files Q).1, P, (advance toml path q files Q).2⟩ := by
  cases h with
  | neither hP hQ hone =>
    -- before the first rename the two are alike
    have hswap : Course toml path q p file overlap ⟨file, _⟩ Q P :=
      .neither hQ hP fun hq hp => hone hp hq
    exact (course_advance_left hswap hmono fun hq hp => hspan hp hq).symm
  | @first text after loaded tmp _ hplan hQ hloaded =>
    have hloaded' : loaded = some text ∨ (loaded = file ∧ (Q.InSpan → overlap')) := by
      rcases hloaded with h | ⟨h, hover⟩
      · exact .inl h
      · exact .inr ⟨h, fun hin => hmono (hover hin)⟩
    left
    cases hQ with
    | waiting =>
      simp only [advance]
      cases hplan' : plan toml path q (some text) with
      | stop result => exact .first hplan (.finished hplan') (.inl rfl)
      | save text' after' => exact .first hplan (.toWrite hplan') (.inl rfl)
    | toWrite hplan' =>
      refine .first hplan (.toRename hplan' rfl) ?_
      rcases hloaded' with h | ⟨h, hover⟩
      · exact .inl h
      · exact .inr ⟨h, fun _ => hover trivial⟩
    | toRename hplan' htmp =>
      subst htmp
      refine .both hplan hplan' ?_
      rcases hloaded' with h | ⟨h, hover⟩
      · exact .inl h
      · exact .inr ⟨h, hover trivial⟩
    | finished hplan' =>
      refine .first hplan (.finished hplan') ?_
      rcases hloaded' with h | ⟨h, hover⟩
      · exact .inl h
      · exact .inr ⟨h, fun hin => hin.elim⟩
  | both hplan hplan' hloaded =>
    refine .inl (.both hplan hplan' ?_)
    rcases hloaded with h | ⟨h, hover⟩
    · exact .inl h
    · exact .inr ⟨h, hmono hover⟩
  | failed => exact .inl .failed
  | collided =>
    right
    simp only [advance]
    obtain ⟨config, tmp⟩ := files
    cases tmp with
    | some text => exact .robbed
    | none => exact .failed
  | robbed => exact .inr .failed

/-- **Every schedule keeps to a course.** -/
theorem courses_run (files : ConfigFiles) (schedule : List Bool) :
    Courses toml path p q files.config (Overlap toml path p q (.start files) schedule)
      (Race.run toml path p q (.start files) schedule) := by
  induction schedule using List.reverseRecOn with
  | nil =>
    exact .inl (.neither .waiting .waiting fun ⟨a, ha⟩ => by cases ha)
  | append_singleton schedule left ih =>
    have hmono : Overlap toml path p q (.start files) schedule →
        Overlap toml path p q (.start files) (schedule ++ [left]) := by
      rintro ⟨pre, hpre, h⟩
      exact ⟨pre, hpre.trans (List.prefix_append _ _), h⟩
    have hspan : (Race.run toml path p q (.start files) schedule).left.InSpan →
        (Race.run toml path p q (.start files) schedule).right.InSpan →
          Overlap toml path p q (.start files) (schedule ++ [left]) := fun hl hr =>
      ⟨schedule, List.prefix_append _ _, hl, hr⟩
    have hstep : Race.run toml path p q (.start files) (schedule ++ [left]) =
        (Race.run toml path p q (.start files) schedule).step toml path p q left :=
      List.foldl_concat ..
    rw [hstep]
    cases left with
    | true =>
      rcases ih with h | h
      · exact course_advance_left h hmono hspan
      · exact (course_advance_right h hmono fun hr hl => hspan hl hr).symm
    | false =>
      rcases ih with h | h
      · exact course_advance_right h hmono hspan
      · exact (course_advance_left h hmono fun hr hl => hspan hl hr).symm

/-! ### When both succeed -/

/-- The file is the text of a whole config, or as it was. -/
def Complete (toml : TomlFormat Config) (file final : Option Str) : Prop :=
  final = file ∨ ∃ cfg text, Config.serialize toml cfg = .ok text ∧ final = some text

/-- A command on its own writes whole configs. -/
theorem complete_run (toml : TomlFormat Config) (path : PathBuf) (command : CliCommand)
    (file : Option Str) : Complete toml file (Cli.run toml path command file).2 := by
  unfold Cli.run
  cases edit toml path command file with
  | error e => exact .inl rfl
  | ok e =>
    obtain ⟨save, after⟩ := e
    cases save with
    | none => exact .inl rfl
    | some cfg =>
      cases hsave : orContext (cfg.serialize toml) (saveContext command) with
      | error e => simp only [hsave]; exact .inl rfl
      | ok text =>
        simp only [hsave]
        exact .inr ⟨cfg, text, orContext_eq_ok.mp hsave, rfl⟩

theorem Complete.trans {middle : Option Str} (h : Complete toml file middle)
    (h' : Complete toml middle final) : Complete toml file final := by
  rcases h' with rfl | h'
  · exact h
  · exact .inr h'

/-- **Where a course ends when both succeed.** -/
theorem course_final
    (h : Course toml path p q file overlap files (.finished (.ok ())) (.finished (.ok ()))) :
    Serially toml path p q file files.config ∨ Serially toml path q p file files.config ∨
      (overlap ∧ Cli.run toml path q file = (.ok (), files.config)) := by
  cases h with
  | neither hP hQ _ =>
    left
    cases hP with
    | finished hplan =>
      cases hQ with
      | finished hplan' =>
        have hp : Cli.run toml path p file = (.ok (), file) := by rw [run_eq_plan, hplan]
        have hq : Cli.run toml path q file = (.ok (), file) := by rw [run_eq_plan, hplan']
        unfold Serially
        rw [hp, hq]
        exact ⟨rfl, rfl, rfl⟩
  | @first text after loaded tmp _ hplan hQ hloaded =>
    have hp : Cli.run toml path p file = (.ok (), some text) := by rw [run_eq_plan, hplan]
    cases hQ with
    | finished hplan' =>
      have hq : Cli.run toml path q loaded = (.ok (), loaded) := by rw [run_eq_plan, hplan']
      unfold Serially
      rcases hloaded with rfl | ⟨rfl, _⟩
      · -- the other came behind, and had nothing to save
        rw [hp, hq]
        exact .inl ⟨rfl, rfl, rfl⟩
      · rw [hp, hq]
        exact .inr (.inl ⟨rfl, by rw [hp], by rw [hp]⟩)
  | @both text text' after after' loaded tmp hplan hplan' hloaded =>
    have hp : Cli.run toml path p file = (.ok (), some text) := by rw [run_eq_plan, hplan]
    have hq : Cli.run toml path q loaded = (.ok (), some text') := by rw [run_eq_plan, hplan']
    unfold Serially
    rcases hloaded with rfl | ⟨rfl, hover⟩
    · rw [hp, hq]
      exact .inl ⟨rfl, rfl, rfl⟩
    · exact .inr (.inr ⟨hover, hq⟩)

/-- **Two processes on one config file.** When both commands succeed and their spans do not
overlap, the file is that of the commands one after the other, in one of the two orders. In any
schedule in which both succeed it is a whole config: that, or the one of one command alone. -/
theorem race_serial {files : ConfigFiles} {schedule : List Bool}
    (hp : (Race.run toml path p q (.start files) schedule).left = .finished (.ok ()))
    (hq : (Race.run toml path p q (.start files) schedule).right = .finished (.ok ())) :
    (¬ Overlap toml path p q (.start files) schedule →
      Serially toml path p q files.config
        (Race.run toml path p q (.start files) schedule).files.config ∨
      Serially toml path q p files.config
        (Race.run toml path p q (.start files) schedule).files.config) ∧
    (Serially toml path p q files.config
        (Race.run toml path p q (.start files) schedule).files.config ∨
      Serially toml path q p files.config
        (Race.run toml path p q (.start files) schedule).files.config ∨
      Cli.run toml path p files.config =
        (.ok (), (Race.run toml path p q (.start files) schedule).files.config) ∨
      Cli.run toml path q files.config =
        (.ok (), (Race.run toml path p q (.start files) schedule).files.config)) ∧
    Complete toml files.config (Race.run toml path p q (.start files) schedule).files.config := by
  have hcourses : Courses toml path p q files.config (Overlap toml path p q (.start files) schedule)
      (Race.run toml path p q (.start files) schedule) := courses_run files schedule
  generalize hrace : Race.run toml path p q (.start files) schedule = race at *
  have hfinal : Serially toml path p q files.config race.files.config ∨
      Serially toml path q p files.config race.files.config ∨
      (Overlap toml path p q (.start files) schedule ∧
        (Cli.run toml path p files.config = (.ok (), race.files.config) ∨
          Cli.run toml path q files.config = (.ok (), race.files.config))) := by
    unfold Courses at hcourses
    rw [hp, hq] at hcourses
    rcases hcourses with h | h
    · rcases course_final h with h | h | ⟨hover, h⟩
      · exact .inl h
      · exact .inr (.inl h)
      · exact .inr (.inr ⟨hover, .inr h⟩)
    · rcases course_final h with h | h | ⟨hover, h⟩
      · exact .inr (.inl h)
      · exact .inl h
      · exact .inr (.inr ⟨hover, .inl h⟩)
  have hserial : ∀ {r r' : CliCommand}, Serially toml path r r' files.config race.files.config →
      Complete toml files.config race.files.config := by
    rintro r r' ⟨_, _, hlast⟩
    rw [← hlast]
    exact (complete_run toml path r files.config).trans (complete_run toml path r' _)
  have halone : ∀ {r : CliCommand}, Cli.run toml path r files.config = (.ok (), race.files.config) →
      Complete toml files.config race.files.config := by
    intro r hr
    have hcomplete := complete_run toml path r files.config
    rw [hr] at hcomplete
    exact hcomplete
  rcases hfinal with h | h | ⟨hover, h | h⟩
  · exact ⟨fun _ => .inl h, .inl h, hserial h⟩
  · exact ⟨fun _ => .inr h, .inr (.inl h), hserial h⟩
  · exact ⟨fun hno => absurd hover hno, .inr (.inr (.inl h)), halone h⟩
  · exact ⟨fun hno => absurd hover hno, .inr (.inr (.inr h)), halone h⟩

/-! ### Two servers at once -/

/-- `rustmote server add pi --host 10.0.0.2 --user charles`. -/
def addPi : CliCommand :=
  .serverAdd "pi".toList (.v4 0x0A000002#32) (some "charles".toList) 22 21116 none ⟨1776513600, 0⟩

/-- The server that is added. -/
def pi : RemoteServer :=
  .new "pi".toList (.v4 0x0A000002#32) "charles".toList 22 21116 ⟨1776513600, 0⟩

/-- The section of the server. -/
def piSection : Str :=
  ("\n[[servers]]\nname = \"pi\"\nhost = \"10.0.0.2\"\nssh_port = 22\nssh_user = \"charles\"\n" ++
    "relay_port = 21116\ncreated_at = \"2026-04-18T12:00:00Z\"\n").toList

/-- `toml`, with the texts of the configs that have one or both of the two servers. -/
def twoServersToml : TomlFormat Config :=
  .ofTable
    [({ Config.empty with servers := [zima] }, generalSection ++ zimaSection),
      ({ Config.empty with servers := [pi] }, generalSection ++ piSection),
      ({ Config.empty with servers := [zima, pi] }, generalSection ++ zimaSection ++ piSection),
      ({ Config.empty with servers := [pi, zima] }, generalSection ++ piSection ++ zimaSection)]

/-- No file yet. -/
def noFiles : ConfigFiles := ⟨none, none⟩

/-- The one process behind the other. -/
def oneBehind : List Bool := [true, true, true, false, false, false]

theorem not_overlap_oneBehind :
    ¬ Overlap twoServersToml configFile addZima addPi (.start noFiles) oneBehind := by
  have hnone : ∀ pre ∈ oneBehind.inits,
      ¬ ((Race.run twoServersToml configFile addZima addPi (.start noFiles) pre).left.InSpan ∧
        (Race.run twoServersToml configFile addZima addPi (.start noFiles) pre).right.InSpan) := by
    decide +kernel
  rintro ⟨pre, hpre, hspan⟩
  exact hnone pre ((List.mem_inits _ _).mpr hpre) hspan

/-- Both servers are there when the processes do not overlap. -/
theorem race_serial_one_behind :
    (Serially twoServersToml configFile addZima addPi none
        (Race.run twoServersToml configFile addZima addPi (.start noFiles) oneBehind).files.config ∨
      Serially twoServersToml configFile addPi addZima none
        (Race.run twoServersToml configFile addZima addPi (.start noFiles)
          oneBehind).files.config) ∧
      Complete twoServersToml none
        (Race.run twoServersToml configFile addZima addPi (.start noFiles)
          oneBehind).files.config := by
  have hends : (Race.run twoServersToml configFile addZima addPi (.start noFiles)
        oneBehind).left = .finished (.ok ()) ∧
      (Race.run twoServersToml configFile addZima addPi (.start noFiles)
        oneBehind).right = .finished (.ok ()) := by decide +kernel
  have hrace := race_serial hends.1 hends.2
  exact ⟨hrace.1 not_overlap_oneBehind, hrace.2.2⟩

/-- Both processes load before either renames: both succeed, and the first server is lost. -/
theorem race_lost_update :
    (Race.run twoServersToml configFile addZima addPi (.start noFiles)
        [true, false, true, true, false, false]).left = .finished (.ok ()) ∧
      (Race.run twoServersToml configFile addZima addPi (.start noFiles)
        [true, false, true, true, false, false]).right = .finished (.ok ()) ∧
      ¬ Serially twoServersToml configFile addZima addPi none
        (Race.run twoServersToml configFile addZima addPi (.start noFiles)
          [true, false, true, true, false, false]).files.config ∧
      ¬ Serially twoServersToml configFile addPi addZima none
        (Race.run twoServersToml configFile addZima addPi (.start noFiles)
          [true, false, true, true, false, false]).files.config := by
  decide +kernel

end Cli

end Rustmote
