import Rustmote.Foundations.Text

/-!
# Points in time

A point in time is a number of seconds since 1970-01-01T00:00:00Z, with nanoseconds. Its date
in the proleptic Gregorian calendar is found by counting days from 0000-03-01, in eras of 400
years that all have the same number of days.
-/

namespace Rustmote

/-- `DateTime<Utc>`. -/
structure DateTime where
  /-- Seconds since the epoch, `timestamp`. -/
  timestamp : Int
  /-- Nanoseconds of the second. -/
  nanos : Nat
  deriving DecidableEq

/-- Nanoseconds since the epoch. -/
def DateTime.instant (t : DateTime) : Int := t.timestamp * 1000000000 + t.nanos

/-- `signed_duration_since`, in nanoseconds, of points that lie in no leap second. -/
def DateTime.signedDurationSince (t u : DateTime) : Int := t.instant - u.instant

namespace Civil

/-- Year, month and day of a number of days since the epoch. -/
def dateOfDays (days : Int) : Int × Nat × Nat :=
  let z := days + 719468
  let era := z.fdiv 146097
  let doe := (z - era * 146097).toNat
  let yoe := (doe - doe / 1460 + doe / 36524 - doe / 146096) / 365
  let doy := doe - (365 * yoe + yoe / 4 - yoe / 100)
  let mp := (5 * doy + 2) / 153
  let day := doy - (153 * mp + 2) / 5 + 1
  let month := if mp < 10 then mp + 3 else mp - 9
  let year := (yoe : Int) + era * 400 + (if month ≤ 2 then 1 else 0)
  (year, month, day)

/-- `%Y`: four digits; a year that needs more, or is negative, carries its sign. -/
def formatYear (year : Int) : Str :=
  if 0 ≤ year ∧ year ≤ 9999 then Text.padded 4 year.toNat
  else (if year < 0 then '-' else '+') :: Text.padded 4 year.natAbs

/-- `at.format("%Y-%m-%dT%H-%M-%SZ")`. -/
def formatFileStamp (t : DateTime) : Str :=
  let days := t.timestamp.fdiv 86400
  let sec := (t.timestamp - days * 86400).toNat
  let (year, month, day) := dateOfDays days
  formatYear year ++ '-' :: (Text.padded 2 month ++ '-' :: (Text.padded 2 day ++
    'T' :: (Text.padded 2 (sec / 3600) ++ '-' :: (Text.padded 2 (sec / 60 % 60) ++
      '-' :: (Text.padded 2 (sec % 60) ++ ['Z'])))))

/-- A padded number has digits only. -/
theorem isDigit_of_mem_padded {w n : Nat} {c : Char} (h : c ∈ Text.padded w n) :
    c.isDigit = true := by
  rw [Text.padded, List.leftpad, List.mem_append] at h
  rcases h with h | h
  · rw [List.eq_of_mem_replicate h]
    rfl
  · exact Nat.isDigit_of_mem_toDigits (by decide) (by decide) h

/-- The digits of a number are no slashes. -/
theorem slash_not_mem_padded (w n : Nat) : '/' ∉ Text.padded w n := fun h =>
  absurd (isDigit_of_mem_padded h) (by decide)

/-- **A time stamp is one component of a path.** -/
theorem slash_not_mem_formatFileStamp (t : DateTime) : '/' ∉ formatFileStamp t := by
  have hyear : ∀ y : Int, '/' ∉ formatYear y := by
    intro y
    unfold formatYear
    split
    · exact slash_not_mem_padded 4 _
    · rw [List.mem_cons, not_or]
      refine ⟨?_, slash_not_mem_padded 4 _⟩
      split <;> decide
  simp only [formatFileStamp, List.mem_append, List.mem_cons, List.not_mem_nil, not_or,
    slash_not_mem_padded, hyear, not_false_iff, and_true, true_and]
  decide

/-- The year of a point in time. -/
def year (t : DateTime) : Int := (dateOfDays (t.timestamp.fdiv 86400)).1

theorem isDigit_of_mem_formatYear {y : Int} (hy : y ≤ 9999) {c : Char} (hc : c ∈ formatYear y) :
    c.isDigit = true ∨ c = '-' := by
  unfold formatYear at hc
  by_cases hsmall : 0 ≤ y ∧ y ≤ 9999
  · rw [if_pos hsmall] at hc
    exact .inl (isDigit_of_mem_padded hc)
  · rw [if_neg hsmall, if_pos (show y < 0 by omega)] at hc
    rcases List.mem_cons.mp hc with rfl | hc
    · exact .inr rfl
    · exact .inl (isDigit_of_mem_padded hc)

/-- **Up to the year 9999** a time stamp has digits, hyphens and two letters. -/
theorem mem_formatFileStamp {t : DateTime} (ht : year t ≤ 9999) {c : Char}
    (hc : c ∈ formatFileStamp t) : c.isDigit = true ∨ c ∈ ['-', 'T', 'Z'] := by
  have hpadded : ∀ {w n : Nat}, c ∈ Text.padded w n → c.isDigit = true ∨ c ∈ ['-', 'T', 'Z'] :=
    fun h => .inl (isDigit_of_mem_padded h)
  have hyear : c ∈ formatYear (year t) → c.isDigit = true ∨ c ∈ ['-', 'T', 'Z'] := fun h =>
    (isDigit_of_mem_formatYear ht h).imp_right fun h => by simp [h]
  simp only [formatFileStamp, List.mem_append, List.mem_cons, List.not_mem_nil, or_false] at hc
  rcases hc with hc | hc | hc | hc | hc | hc | hc | hc | hc | hc | hc | hc
  · exact hyear hc
  · exact .inr (by simp [hc])
  · exact hpadded hc
  · exact .inr (by simp [hc])
  · exact hpadded hc
  · exact .inr (by simp [hc])
  · exact hpadded hc
  · exact .inr (by simp [hc])
  · exact hpadded hc
  · exact .inr (by simp [hc])
  · exact hpadded hc
  · exact .inr (by simp [hc])

example : formatFileStamp ⟨1776515696, 0⟩ = "2026-04-18T12-34-56Z".toList := by decide

end Civil

end Rustmote
