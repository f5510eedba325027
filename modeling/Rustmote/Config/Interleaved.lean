import Mathlib.Logic.Relation
import Rustmote.Config.Interrupted

/-!
# Interleaved changes of the credentials file

Any number of calls change passwords at a time. Each reads the file, opens it, which empties it,
writes the new text, and syncs; between any two of these another call may take its steps, and there
is no lock. The bytes go to where the call has got to in its own text, whatever has become of the
file, and in pieces of any size.

A call that opens the file writes back what it has read, so a change in between is lost
(`change_lost`). When no call opens the file while another one writes, nor a file that has changed
since it was read, the calls take effect one after another, in the order in which they open it
(`changes_serial`).
-/

namespace Rustmote

namespace Credentials

/-! ### Calls that share the file -/

/-- Where a call is. -/
inductive CallProgress where
  /-- It has not read the file. -/
  | waiting
  /-- It has these passwords from the file. -/
  | loaded (file : UnsafeFile)
  /-- It has opened the file: what it has written, and what it is to write. -/
  | writing (written rest : Bytes)
  /-- It has returned. -/
  | returned (result : Except RustmoteError Unit)
  deriving DecidableEq

/-- The file, and all calls. -/
structure Shared (ι : Type) where
  disk : Option DiskFile
  calls : ι → CallProgress

/-- A step of a call. -/
inductive Move (ι : Type) where
  /-- It reads the file. -/
  | read (i : ι)
  /-- It opens the file for writing. -/
  | openFile (i : ι)
  /-- It writes some bytes. -/
  | write (i : ι) (n : Nat)
  /-- It syncs the file. -/
  | sync (i : ι)
  /-- A file operation of it fails. -/
  | fail (i : ι) (e : RustmoteError)

/-- Some bytes are written at an offset; what is missing before it is zero. -/
def DiskFile.writeAt (offset : Nat) (bytes : Bytes) (file : DiskFile) : DiskFile :=
  let before := (file.bytes ++ List.replicate (offset - file.bytes.length) 0).take offset
  { file with bytes := before ++ bytes ++ file.bytes.drop (offset + bytes.length) }

variable {ι : Type} [DecidableEq ι]

/-- A call goes on, and the file stays. -/
def Shared.goOn (s : Shared ι) (i : ι) (progress : CallProgress) : Shared ι :=
  { s with calls := Function.update s.calls i progress }

/-- A step, if the call is where it takes such a step. -/
def Shared.step (toml : TomlFormat UnsafeFile) (path : PathBuf) (change : ι → PasswordChange)
    (s : Shared ι) : Move ι → Option (Shared ι)
  | .read i =>
    match s.calls i with
    | .waiting =>
      match readDisk toml path s.disk with
      | .ok file => some (s.goOn i (.loaded file))
      | .error e => some (s.goOn i (.returned (.error e)))
    | _ => none
  | .openFile i =>
    match s.calls i with
    | .loaded file =>
      match toml.toStringPretty ⟨(change i).edit file.passwords⟩ with
      | .ok serialized =>
        let opened := { s with disk := some ⟨[], modeOpened s.disk⟩ }
        some (opened.goOn i (.writing [] (Utf8.encode serialized)))
      | .error e => some (s.goOn i (.returned (.error (.configSerialize e))))
    | _ => none
  | .write i n =>
    match s.calls i with
    | .writing written rest =>
      let wrote := { s with disk := s.disk.map (.writeAt written.length (rest.take n)) }
      some (wrote.goOn i (.writing (written ++ rest.take n) (rest.drop n)))
    | _ => none
  | .sync i =>
    match s.calls i with
    | .writing _ [] => some (s.goOn i (.returned (.ok ())))
    | _ => none
  | .fail i e =>
    match s.calls i with
    | .returned _ => none
    | _ => some (s.goOn i (.returned (.error e)))

/-- Steps one after another. -/
def Shared.run (toml : TomlFormat UnsafeFile) (path : PathBuf) (change : ι → PasswordChange)
    (s : Shared ι) (moves : List (Move ι)) : Option (Shared ι) :=
  moves.foldlM (Shared.step toml path change) s

/-- All calls before they have begun. -/
def Shared.start (ι : Type) (disk : Option DiskFile) : Shared ι := ⟨disk, fun _ => .waiting⟩

/-- The call has opened the file and not synced it. -/
def CallProgress.Writes : CallProgress → Prop
  | .writing _ _ => True
  | _ => False

/-- A call opens the file only while none writes it, and only as it has read it. -/
def Orderly (toml : TomlFormat UnsafeFile) (path : PathBuf) (s : Shared ι) : Move ι → Prop
  | .openFile i => (∀ j, ¬ (s.calls j).Writes) ∧
      ∀ file, s.calls i = .loaded file → readDisk toml path s.disk = .ok file
  | _ => True

/-- A step that is orderly. -/
def OrderlyStep (toml : TomlFormat UnsafeFile) (path : PathBuf) (change : ι → PasswordChange)
    (s s' : Shared ι) : Prop :=
  ∃ move, Orderly toml path s move ∧ s.step toml path change move = some s'

/-- The passwords behind some changes, one after another. -/
def afterChanges (change : ι → PasswordChange) (passwords : BTreeMap Str Str) (order : List ι) :
    BTreeMap Str Str := order.foldl (fun passwords i => (change i).edit passwords) passwords

/-! ### What a step does -/

variable {toml : TomlFormat UnsafeFile} {path : PathBuf} {change : ι → PasswordChange}
  {passwords : BTreeMap Str Str} {s s' : Shared ι}

/-- The steps, with what they need and what they leave. -/
inductive Stepped (toml : TomlFormat UnsafeFile) (change : ι → PasswordChange) (s : Shared ι) :
    Move ι → Shared ι → Prop where
  | failed {move : Move ι} {i : ι} {e : RustmoteError} : (∀ r, s.calls i ≠ .returned r) →
    Stepped toml change s move (s.goOn i (.returned (.error e)))
  | loaded {i : ι} {file : UnsafeFile} : s.calls i = .waiting →
    Stepped toml change s (.read i) (s.goOn i (.loaded file))
  | opened {i : ι} {file : UnsafeFile} {text : Str} : s.calls i = .loaded file →
    toml.toStringPretty ⟨(change i).edit file.passwords⟩ = .ok text →
    Stepped toml change s (.openFile i)
      (Shared.goOn { s with disk := some ⟨[], modeOpened s.disk⟩ } i
        (.writing [] (Utf8.encode text)))
  | wrote {i : ι} {n : Nat} {written rest : Bytes} : s.calls i = .writing written rest →
    Stepped toml change s (.write i n)
      (Shared.goOn { s with disk := s.disk.map (.writeAt written.length (rest.take n)) } i
        (.writing (written ++ rest.take n) (rest.drop n)))
  | synced {i : ι} {written : Bytes} : s.calls i = .writing written [] →
    Stepped toml change s (.sync i) (s.goOn i (.returned (.ok ())))

theorem stepped_of_step {move : Move ι} (h : s.step toml path change move = some s') :
    Stepped toml change s move s' := by
  cases move with
  | read i =>
    simp only [Shared.step] at h
    cases hi : s.calls i with
    | waiting =>
      rw [hi] at h
      cases hread : readDisk toml path s.disk with
      | ok file =>
        simp only [hread, Option.some.injEq] at h
        rw [← h]
        exact .loaded hi
      | error e =>
        simp only [hread, Option.some.injEq] at h
        rw [← h]
        exact .failed (by simp [hi])
    | loaded file => simp [hi] at h
    | writing written rest => simp [hi] at h
    | returned result => simp [hi] at h
  | openFile i =>
    simp only [Shared.step] at h
    cases hi : s.calls i with
    | waiting => simp [hi] at h
    | loaded file =>
      rw [hi] at h
      cases hprint : toml.toStringPretty ⟨(change i).edit file.passwords⟩ with
      | ok text =>
        simp only [hprint, Option.some.injEq] at h
        rw [← h]
        exact .opened hi hprint
      | error e =>
        simp only [hprint, Option.some.injEq] at h
        rw [← h]
        exact .failed (by simp [hi])
    | writing written rest => simp [hi] at h
    | returned result => simp [hi] at h
  | write i n =>
    simp only [Shared.step] at h
    cases hi : s.calls i with
    | waiting => simp [hi] at h
    | loaded file => simp [hi] at h
    | writing written rest =>
      simp only [hi, Option.some.injEq] at h
      rw [← h]
      exact .wrote hi
    | returned result => simp [hi] at h
  | sync i =>
    simp only [Shared.step] at h
    cases hi : s.calls i with
    | waiting => simp [hi] at h
    | loaded file => simp [hi] at h
    | writing written rest =>
      rw [hi] at h
      cases rest with
      | nil =>
        simp only [Option.some.injEq] at h
        rw [← h]
        exact .synced hi
      | cons byte rest => simp at h
    | returned result => simp [hi] at h
  | fail i e =>
    simp only [Shared.step] at h
    cases hi : s.calls i with
    | returned result => simp [hi] at h
    | waiting =>
      simp only [hi, Option.some.injEq] at h
      rw [← h]
      exact .failed (by simp [hi])
    | loaded file =>
      simp only [hi, Option.some.injEq] at h
      rw [← h]
      exact .failed (by simp [hi])
    | writing written rest =>
      simp only [hi, Option.some.injEq] at h
      rw [← h]
      exact .failed (by simp [hi])

theorem goOn_self (s : Shared ι) (i : ι) (progress : CallProgress) :
    (s.goOn i progress).calls i = progress := Function.update_self _ _ _

theorem goOn_of_ne (s : Shared ι) {i j : ι} (progress : CallProgress) (h : j ≠ i) :
    (s.goOn i progress).calls j = s.calls j := Function.update_of_ne h _ _

/-- A call that has returned stays so. -/
theorem Stepped.returned {move : Move ι} (h : Stepped toml change s move s') {i : ι}
    {r : Except RustmoteError Unit} (hi : s.calls i = .returned r) :
    s'.calls i = .returned r := by
  have hother : ∀ {t : Shared ι} {j : ι} {progress : CallProgress}, t.calls = s.calls →
      s.calls j ≠ .returned r → (t.goOn j progress).calls i = .returned r := by
    intro t j progress hcalls hj
    have hne : i ≠ j := by
      rintro rfl
      exact hj hi
    rw [goOn_of_ne t progress hne, hcalls, hi]
  cases h with
  | failed hj => exact hother rfl (hj r)
  | loaded hj => exact hother rfl (by simp [hj])
  | opened hj _ => exact hother rfl (by simp [hj])
  | wrote hj => exact hother rfl (by simp [hj])
  | synced hj => exact hother rfl (by simp [hj])

/-- Bytes that are written at the end of a file are appended. -/
theorem writeAt_end (written bytes : Bytes) (mode : Nat) :
    DiskFile.writeAt written.length bytes ⟨written, mode⟩ = ⟨written ++ bytes, mode⟩ := by
  simp [DiskFile.writeAt]

/-! ### The changes so far -/

/-- The file has the changes of these calls, in this order; the last of them may be writing. -/
structure HasChanges (toml : TomlFormat UnsafeFile) (path : PathBuf) (change : ι → PasswordChange)
    (passwords : BTreeMap Str Str) (s : Shared ι) (order : List ι) : Prop where
  nodup : order.Nodup
  /-- They have opened the file. -/
  mem : ∀ i, i ∈ order ↔ (s.calls i).Writes ∨ s.calls i = .returned (.ok ())
  /-- While none writes, it can be read. -/
  reads : (∀ i, ¬ (s.calls i).Writes) →
    readDisk toml path s.disk = .ok ⟨afterChanges change passwords order⟩
  /-- A call that writes has the file to itself. -/
  writes : ∀ i written rest, s.calls i = .writing written rest →
    (∀ j, (s.calls j).Writes → j = i) ∧
    ∃ text mode, toml.toStringPretty ⟨afterChanges change passwords order⟩ = .ok text ∧
      written ++ rest = Utf8.encode text ∧ s.disk = some ⟨written, mode⟩ ∧ mode % 0o1000 = 0o600

/-- **The invariant**: some call has failed, or the file has the changes so far. -/
def Serial (toml : TomlFormat UnsafeFile) (path : PathBuf) (change : ι → PasswordChange)
    (passwords : BTreeMap Str Str) (s : Shared ι) : Prop :=
  (∃ i e, s.calls i = .returned (.error e)) ∨
    ∃ order, HasChanges toml path change passwords s order

variable {order : List ι} {i : ι}

theorem HasChanges.load (h : HasChanges toml path change passwords s order)
    (hi : s.calls i = .waiting) (file : UnsafeFile) :
    HasChanges toml path change passwords (s.goOn i (.loaded file)) order := by
  have hcalls : ∀ j, ((s.goOn i (.loaded file)).calls j = s.calls j) ∨
      (j = i ∧ (s.goOn i (.loaded file)).calls j = .loaded file) := by
    intro j
    by_cases hj : j = i
    · exact .inr ⟨hj, hj ▸ goOn_self s i _⟩
    · exact .inl (goOn_of_ne s _ hj)
  have hwrites : ∀ j, ((s.goOn i (.loaded file)).calls j).Writes ↔ (s.calls j).Writes := by
    intro j
    rcases hcalls j with hj | ⟨rfl, hj⟩
    · rw [hj]
    · rw [hj, hi]
      exact Iff.rfl
  refine ⟨h.nodup, fun j => ?_, fun hnone => ?_, fun j written rest hj => ?_⟩
  · rw [hwrites, h.mem]
    rcases hcalls j with hj | ⟨rfl, hj⟩
    · rw [hj]
    · simp [hj, hi]
  · exact h.reads fun j hj => hnone j ((hwrites j).mpr hj)
  · rcases hcalls j with heq | ⟨rfl, heq⟩
    · rw [heq] at hj
      obtain ⟨honly, htext⟩ := h.writes j written rest hj
      exact ⟨fun k hk => honly k ((hwrites k).mp hk), htext⟩
    · rw [heq] at hj
      cases hj

theorem HasChanges.openFile (h : HasChanges toml path change passwords s order)
    (hnone : ∀ j, ¬ (s.calls j).Writes) {file : UnsafeFile} (hi : s.calls i = .loaded file)
    (hread : readDisk toml path s.disk = .ok file) {text : Str}
    (hprint : toml.toStringPretty ⟨(change i).edit file.passwords⟩ = .ok text) :
    HasChanges toml path change passwords
      (Shared.goOn { s with disk := some ⟨[], modeOpened s.disk⟩ } i
        (.writing [] (Utf8.encode text))) (order ++ [i]) := by
  have hfile : file = ⟨afterChanges change passwords order⟩ := by
    rw [h.reads hnone, Except.ok.injEq] at hread
    exact hread.symm
  have hafter : afterChanges change passwords (order ++ [i]) = (change i).edit file.passwords := by
    rw [afterChanges, List.foldl_append, hfile]
    rfl
  have hnew : i ∉ order := by
    rw [h.mem, hi]
    rintro (hwrites | hreturned)
    · exact hwrites
    · cases hreturned
  refine ⟨List.nodup_append.mpr ⟨h.nodup, List.nodup_singleton i, ?_⟩, fun j => ?_, fun hno => ?_,
    fun j written rest hj => ?_⟩
  · rintro j hj k hk rfl
    exact hnew (List.mem_singleton.mp hk ▸ hj)
  · by_cases hj : j = i
    · subst hj
      rw [goOn_self]
      exact iff_of_true (by simp) (.inl trivial)
    · rw [goOn_of_ne _ _ hj, List.mem_append, List.mem_singleton, or_iff_left hj]
      exact h.mem j
  · refine absurd ?_ (hno i)
    rw [goOn_self]
    trivial
  · by_cases hne : j = i
    · subst hne
      rw [goOn_self] at hj
      cases hj
      refine ⟨fun k hk => ?_, text, modeOpened s.disk, ?_, rfl, rfl, modeOpened_of_readDisk hread⟩
      · by_contra hk'
        rw [goOn_of_ne _ _ hk'] at hk
        exact hnone k hk
      · rw [hafter]
        exact hprint
    · rw [goOn_of_ne _ _ hne] at hj
      refine absurd ?_ (hnone j)
      have hcalls : s.calls j = .writing written rest := hj
      rw [hcalls]
      trivial

theorem HasChanges.write (h : HasChanges toml path change passwords s order)
    {written rest : Bytes} (hi : s.calls i = .writing written rest) (n : Nat) :
    HasChanges toml path change passwords
      (Shared.goOn { s with disk := s.disk.map (.writeAt written.length (rest.take n)) } i
        (.writing (written ++ rest.take n) (rest.drop n))) order := by
  obtain ⟨honly, text, mode, hprint, hbytes, hdisk, hmode⟩ := h.writes i written rest hi
  have hwrites : (s.calls i).Writes := by
    rw [hi]
    trivial
  refine ⟨h.nodup, fun j => ?_, fun hno => ?_, fun j written' rest' hj => ?_⟩
  · by_cases hj : j = i
    · subst hj
      rw [goOn_self, h.mem]
      exact iff_of_true (.inl hwrites) (.inl trivial)
    · rw [goOn_of_ne _ _ hj]
      exact h.mem j
  · refine absurd ?_ (hno i)
    rw [goOn_self]
    trivial
  · have hji : j = i := by
      by_contra hne
      rw [goOn_of_ne _ _ hne] at hj
      have hcalls : s.calls j = .writing written' rest' := hj
      exact hne (honly j (by rw [hcalls]; trivial))
    subst hji
    rw [goOn_self] at hj
    cases hj
    refine ⟨fun k hk => ?_, text, mode, hprint, ?_, ?_, hmode⟩
    · by_contra hne
      rw [goOn_of_ne _ _ hne] at hk
      exact hne (honly k hk)
    · rw [List.append_assoc, List.take_append_drop, hbytes]
    · show s.disk.map _ = _
      rw [hdisk, Option.map_some, writeAt_end]

theorem HasChanges.sync (hround : toml.RoundTrips)
    (h : HasChanges toml path change passwords s order) {written : Bytes}
    (hi : s.calls i = .writing written []) :
    HasChanges toml path change passwords (s.goOn i (.returned (.ok ()))) order := by
  obtain ⟨honly, text, mode, hprint, hbytes, hdisk, hmode⟩ := h.writes i written [] hi
  have hwrites : (s.calls i).Writes := by
    rw [hi]
    trivial
  have hnone : ∀ j, ¬ ((s.goOn i (.returned (.ok ()))).calls j).Writes := by
    intro j hj
    by_cases hne : j = i
    · rw [hne, goOn_self] at hj
      exact hj
    · rw [goOn_of_ne _ _ hne] at hj
      exact hne (honly j hj)
  refine ⟨h.nodup, fun j => ?_, fun _ => ?_, fun j written' rest' hj => ?_⟩
  · by_cases hj : j = i
    · subst hj
      rw [goOn_self, h.mem]
      exact iff_of_true (.inl hwrites) (.inr rfl)
    · rw [goOn_of_ne _ _ hj]
      exact h.mem j
  · rw [List.append_nil] at hbytes
    show readDisk toml path s.disk = _
    rw [hdisk, hbytes, readDisk_of_mode hmode, hround _ _ hprint]
    rfl
  · refine absurd ?_ (hnone j)
    rw [hj]
    trivial

/-- **One orderly step**. -/
theorem Serial.step (hround : toml.RoundTrips) (h : Serial toml path change passwords s)
    (hstep : OrderlyStep toml path change s s') : Serial toml path change passwords s' := by
  obtain ⟨move, horderly, hmove⟩ := hstep
  have hstepped := stepped_of_step hmove
  rcases h with ⟨i, e, hi⟩ | ⟨order, h⟩
  · exact .inl ⟨i, e, hstepped.returned hi⟩
  · cases hstepped with
    | @failed _ i e _ => exact .inl ⟨i, e, goOn_self s i _⟩
    | loaded hi => exact .inr ⟨order, h.load hi _⟩
    | @opened i file text hi hprint =>
      exact .inr ⟨order ++ [i], h.openFile horderly.1 hi (horderly.2 file hi) hprint⟩
    | wrote hi => exact .inr ⟨order, h.write hi _⟩
    | synced hi => exact .inr ⟨order, h.sync hround hi⟩

/-- **Any number of them**. -/
theorem serial_of_run (hround : toml.RoundTrips) {disk : Option DiskFile}
    (hdisk : readDisk toml path disk = .ok ⟨passwords⟩)
    (hrun : Relation.ReflTransGen (OrderlyStep toml path change) (Shared.start ι disk) s) :
    Serial toml path change passwords s := by
  induction hrun with
  | refl =>
    refine .inr ⟨[], List.nodup_nil, fun i => ?_, fun _ => hdisk, fun i written rest hi => ?_⟩
    · exact iff_of_false List.not_mem_nil (by rintro (h | h) <;> cases h)
    · cases hi
  | tail _ hstep ih => exact ih.step hround hstep

/-! ### One after another -/

omit [DecidableEq ι] in
theorem get_afterChanges {account : Str} {l : List ι} (h : ∀ i ∈ l, account ≠ (change i).account) :
    (afterChanges change passwords l).get account = passwords.get account := by
  induction l generalizing passwords with
  | nil => rfl
  | cons i l ih =>
    obtain ⟨hi, hl⟩ := List.forall_mem_cons.mp h
    rw [afterChanges, List.foldl_cons]
    exact (ih hl).trans (get_edit_of_ne _ hi _)

omit [DecidableEq ι] in
/-- A password that no other call changes is stored. -/
theorem get_afterChanges_of_set {server user password : Str} (hi : i ∈ order)
    (hnodup : order.Nodup) (hset : change i = .set server user password)
    (hother : ∀ j, j ≠ i → (change j).account ≠ (change i).account) :
    (afterChanges change passwords order).get (keyringAccount server user) = some password := by
  obtain ⟨before, behind, rfl⟩ := List.append_of_mem hi
  have hbehind : ∀ j ∈ behind, keyringAccount server user ≠ (change j).account := by
    intro j hj heq
    have hne : j ≠ i := by
      rintro rfl
      exact (List.nodup_cons.mp (List.nodup_append.mp hnodup).2.1).1 hj
    refine hother j hne ?_
    rw [hset, ← heq]
    rfl
  have hsplit : afterChanges change passwords (before ++ i :: behind) =
      afterChanges change ((change i).edit (afterChanges change passwords before)) behind := by
    rw [afterChanges, List.foldl_append, List.foldl_cons]
    rfl
  rw [hsplit, get_afterChanges hbehind, hset]
  exact BTreeMap.get_insert_self _ _ _

/-- **Changes that do not overlap take effect one after another.** Once all calls have returned
`Ok`, behind orderly steps only, the file has the passwords that they make of the first ones in some
order; and a password that no other call changes is stored. -/
theorem changes_serial (hround : toml.RoundTrips) {disk : Option DiskFile}
    (hdisk : readDisk toml path disk = .ok ⟨passwords⟩)
    (hrun : Relation.ReflTransGen (OrderlyStep toml path change) (Shared.start ι disk) s)
    (hall : ∀ i, s.calls i = .returned (.ok ())) :
    (∃ order : List ι, order.Nodup ∧ (∀ i, i ∈ order) ∧
      readDisk toml path s.disk = .ok ⟨afterChanges change passwords order⟩) ∧
    ∀ i server user password, change i = .set server user password →
      (∀ j, j ≠ i → (change j).account ≠ (change i).account) →
        passwordOnDisk toml path s.disk server user = .ok password := by
  rcases serial_of_run hround hdisk hrun with ⟨i, e, hi⟩ | ⟨order, h⟩
  · rw [hall i] at hi
    cases hi
  · have hmem : ∀ i, i ∈ order := fun i => (h.mem i).mpr (.inr (hall i))
    have hread := h.reads fun i hi => by
      rw [hall i] at hi
      exact hi
    refine ⟨⟨order, h.nodup, hmem, hread⟩, fun i server user password hset hother => ?_⟩
    rw [passwordOnDisk_eq_ok_iff]
    exact ⟨_, hread, get_afterChanges_of_set (hmem i) h.nodup hset hother⟩

/-- A call that takes its steps on its own is orderly. -/
theorem orderly_call (hi : s.calls i = .waiting) (hnone : ∀ j, ¬ (s.calls j).Writes)
    {file : UnsafeFile} (hread : readDisk toml path s.disk = .ok file) {text : Str}
    (hprint : toml.toStringPretty ⟨(change i).edit file.passwords⟩ = .ok text) :
    Relation.ReflTransGen (OrderlyStep toml path change) s
      (Shared.goOn { s with disk := some ⟨Utf8.encode text, modeOpened s.disk⟩ } i
        (.returned (.ok ()))) := by
  let loaded := s.goOn i (.loaded file)
  let opened := Shared.goOn { loaded with disk := some ⟨[], modeOpened s.disk⟩ } i
    (.writing [] (Utf8.encode text))
  let written := Shared.goOn { opened with disk := some ⟨Utf8.encode text, modeOpened s.disk⟩ } i
    (.writing (Utf8.encode text) [])
  have hloaded : OrderlyStep toml path change s loaded := by
    refine ⟨.read i, trivial, ?_⟩
    simp only [Shared.step, hi, hread]
    rfl
  have hopened : OrderlyStep toml path change loaded opened := by
    refine ⟨.openFile i, ⟨fun j => ?_, fun file' hfile' => ?_⟩, ?_⟩
    · by_cases hj : j = i
      · rw [hj, goOn_self]
        exact id
      · rw [goOn_of_ne _ _ hj]
        exact hnone j
    · rw [goOn_self] at hfile'
      cases hfile'
      exact hread
    · simp only [Shared.step, loaded, goOn_self, hprint]
      rfl
  have hwritten : OrderlyStep toml path change opened written := by
    refine ⟨.write i (Utf8.encode text).length, trivial, ?_⟩
    have hbytes : (some (DiskFile.mk [] (modeOpened s.disk))).map
        (DiskFile.writeAt ([] : Bytes).length (Utf8.encode text)) =
          some ⟨Utf8.encode text, modeOpened s.disk⟩ := by
      rw [Option.map_some, writeAt_end, List.nil_append]
    simp only [Shared.step, opened, goOn_self, List.take_length, List.drop_length,
      List.nil_append]
    exact congrArg (fun disk => some (Shared.goOn { opened with disk := disk } i _)) hbytes
  have hsynced : OrderlyStep toml path change written (written.goOn i (.returned (.ok ()))) := by
    refine ⟨.sync i, trivial, ?_⟩
    simp only [Shared.step, written, goOn_self]
  have hfinal : written.goOn i (.returned (.ok ())) =
      Shared.goOn { s with disk := some ⟨Utf8.encode text, modeOpened s.disk⟩ } i
        (.returned (.ok ())) := by
    simp only [written, opened, loaded, Shared.goOn, Function.update_idem]
  rw [← hfinal]
  exact (((Relation.ReflTransGen.single hloaded).tail hopened).tail hwritten).tail hsynced

/-! ### Two calls -/

/-- The changes of two calls, for different accounts. -/
def twoChanges : Bool → PasswordChange
  | true => .set "nas".toList "ops".toList "swordfish".toList
  | false => .set "zima".toList "ops".toList "hunter2".toList

/-- The passwords behind some of them. -/
def passwordsOf (order : List Bool) : UnsafeFile := ⟨afterChanges twoChanges .empty order⟩

/-- `toml`, with texts for the passwords behind one of them and both. -/
def changesToml : TomlFormat UnsafeFile :=
  .ofTable [
    (passwordsOf [true], "[passwords]\n\"nas:ops\" = \"swordfish\"\n".toList),
    (passwordsOf [false], "[passwords]\n\"zima:ops\" = \"hunter2\"\n".toList),
    (passwordsOf [true, false],
      "[passwords]\n\"nas:ops\" = \"swordfish\"\n\"zima:ops\" = \"hunter2\"\n".toList)]

theorem changesToml_roundTrips : changesToml.RoundTrips := by
  refine TomlFormat.roundTrips_ofTable ?_ ?_
  · decide +kernel
  · decide +kernel

/-- One call after the other: both passwords are stored. -/
theorem changes_serial_two :
    ∃ s : Shared Bool, (∀ i, s.calls i = .returned (.ok ())) ∧
      passwordOnDisk changesToml credentialsPath.toPathBuf s.disk "nas".toList "ops".toList =
        .ok "swordfish".toList ∧
      passwordOnDisk changesToml credentialsPath.toPathBuf s.disk "zima".toList "ops".toList =
        .ok "hunter2".toList := by
  obtain ⟨first, hfirst⟩ := TomlFormat.total_ofTable _ (passwordsOf [true])
  obtain ⟨both, hboth⟩ := TomlFormat.total_ofTable _ (passwordsOf [true, false])
  have hstart : readDisk changesToml credentialsPath.toPathBuf none = .ok ⟨.empty⟩ := rfl
  have hmiddle : readDisk changesToml credentialsPath.toPathBuf
      (some ⟨Utf8.encode first, 0o600⟩) = .ok (passwordsOf [true]) := by
    rw [readDisk_of_mode rfl, changesToml_roundTrips _ _ hfirst]
    rfl
  have hone := @orderly_call Bool _ changesToml credentialsPath.toPathBuf twoChanges
    (.start Bool none) true rfl (fun _ => id) _ hstart first hfirst
  obtain ⟨s, hrun, hall⟩ : ∃ s : Shared Bool,
      Relation.ReflTransGen (OrderlyStep changesToml credentialsPath.toPathBuf twoChanges)
        (.start Bool none) s ∧ ∀ i, s.calls i = .returned (.ok ()) := by
    refine ⟨_, hone.trans (@orderly_call Bool _ changesToml credentialsPath.toPathBuf twoChanges
      _ false rfl (fun j => ?_) _ hmiddle both hboth), fun i => ?_⟩
    · cases j with
      | true => exact id
      | false => exact id
    · cases i with
      | true => rfl
      | false => rfl
  have hstored := (changes_serial changesToml_roundTrips hstart hrun hall).2
  exact ⟨s, hall, hstored true _ _ _ rfl (by decide), hstored false _ _ _ rfl (by decide)⟩

/-- **A lost change**: both calls read before either writes, both return `Ok`, and the password of
the first is gone. -/
theorem change_lost :
    ∃ s : Shared Bool,
      Shared.run changesToml credentialsPath.toPathBuf twoChanges (.start Bool none)
        [.read true, .read false, .openFile true, .write true 1000, .sync true, .openFile false,
          .write false 1000, .sync false] = some s ∧
      (∀ i, s.calls i = .returned (.ok ())) ∧
      ¬ ∃ order : List Bool, order.Nodup ∧ (∀ i, i ∈ order) ∧
        readDisk changesToml credentialsPath.toPathBuf s.disk =
          .ok ⟨afterChanges twoChanges .empty order⟩ := by
  have hrun : (Shared.run changesToml credentialsPath.toPathBuf twoChanges (.start Bool none)
      [.read true, .read false, .openFile true, .write true 1000, .sync true, .openFile false,
        .write false 1000, .sync false]).map (fun s =>
          (s.calls true, s.calls false, readDisk changesToml credentialsPath.toPathBuf s.disk)) =
      some (.returned (.ok ()), .returned (.ok ()), .ok (passwordsOf [false])) := by
    decide +kernel
  obtain ⟨s, hs, hfinal⟩ := Option.map_eq_some_iff.mp hrun
  simp only [Prod.mk.injEq] at hfinal
  obtain ⟨htrue, hfalse, hread⟩ := hfinal
  refine ⟨s, hs, fun i => ?_, ?_⟩
  · cases i with
    | true => exact htrue
    | false => exact hfalse
  · rintro ⟨order, hnodup, hmem, horder⟩
    rw [hread, Except.ok.injEq] at horder
    have hget := @get_afterChanges_of_set Bool twoChanges .empty order true _ _ _ (hmem true)
      hnodup rfl (by decide)
    have hlost : (passwordsOf [false]).passwords.get (keyringAccount "nas".toList "ops".toList) =
        none := by
      decide +kernel
    rw [horder, hget] at hlost
    cases hlost

end Credentials

end Rustmote
