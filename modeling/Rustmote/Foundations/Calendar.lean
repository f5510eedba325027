import Rustmote.Foundations.Civil

/-!
# Dates and time stamps, read back

Days are counted back from a date as they were counted to it (`daysOfDate_dateOfDays`), so two
points in time with one time stamp are in the same second (`timestamp_eq_of_formatFileStamp`).
-/

namespace Rustmote

namespace Civil

/-! ### Years of an era -/

/-- The year of day `x` of a century, that begins `s` days behind a multiple of four years. -/
theorem yearOfCentury {x s h y : Nat} (hs : s ≤ 72) (hx : x < 36524) (hh : h = (x + s) / 1460)
    (hy : y = (x - h) / 365) :
    y ≤ 99 ∧ 365 * y + y / 4 ≤ x ∧ x ≤ 365 * y + y / 4 + 365 := by
  omega

/-- The year of a day of an era, and the day of that year. -/
theorem yearOfEra {doe yoe : Nat} (hdoe : doe < 146097)
    (hyoe : yoe = (doe - doe / 1460 + doe / 36524 - doe / 146096) / 365) :
    yoe < 400 ∧ 365 * yoe + yoe / 4 - yoe / 100 ≤ doe ∧
      doe ≤ 365 * yoe + yoe / 4 - yoe / 100 + 365 := by
  by_cases hlast : doe = 146096
  · -- the leap day at the end of the era
    subst hlast
    subst hyoe
    decide
  have hsplit : doe = 36524 * (doe / 36524) + doe % 36524 := (Nat.div_add_mod doe 36524).symm
  have hx : doe % 36524 < 36524 := Nat.mod_lt _ (by decide)
  have hc : doe / 36524 ≤ 3 := by omega
  generalize doe / 36524 = c at *
  generalize doe % 36524 = x at *
  have hcentury := yearOfCentury (x := x) (s := 24 * c) (by omega) hx rfl rfl
  have hlast' : doe / 146096 = 0 := by omega
  have hleaps : doe / 1460 = 25 * c + (x + 24 * c) / 1460 := by omega
  have hyear : yoe = 100 * c + (x - (x + 24 * c) / 1460) / 365 := by omega
  generalize (x - (x + 24 * c) / 1460) / 365 = y at *
  have hquarter : yoe / 4 = 25 * c + y / 4 := by omega
  have hhundred : yoe / 100 = c := by omega
  omega

/-- The months of a year: the day of the month, and the day of the year again. -/
theorem monthOfYear {doy mp : Nat} (hdoy : doy ≤ 365) (hmp : mp = (5 * doy + 2) / 153) :
    mp ≤ 11 ∧ (153 * mp + 2) / 5 ≤ doy ∧ doy < (153 * mp + 2) / 5 + 31 := by
  omega

/-! ### Days of a date -/

/-- The days from the epoch to a date. -/
def daysOfDate : Int × Nat × Nat → Int
  | (year, month, day) =>
    let y := if month ≤ 2 then year - 1 else year
    let era := y.fdiv 400
    let yoe := (y - era * 400).toNat
    let mp := if 2 < month then month - 3 else month + 9
    let doy := (153 * mp + 2) / 5 + day - 1
    let doe := 365 * yoe + yoe / 4 - yoe / 100 + doy
    era * 146097 + doe - 719468

/-- The year of an era gives the era back. -/
theorem fdiv_year {era : Int} {yoe : Nat} (hyoe : yoe < 400) :
    ((yoe : Int) + era * 400).fdiv 400 = era := by
  rw [Int.fdiv_eq_ediv_of_nonneg _ (show (0 : Int) ≤ 400 by omega)]
  omega

/-- A date from the era, its year, the month counted from March and the day of the year. -/
theorem daysOfDate_eq {era : Int} {yoe mp doy : Nat} (hyoe : yoe < 400)
    (hmp : mp ≤ 11) (hdoy : (153 * mp + 2) / 5 ≤ doy) :
    daysOfDate (if mp < 10 then ((yoe : Int) + era * 400, mp + 3, doy - (153 * mp + 2) / 5 + 1)
        else ((yoe : Int) + era * 400 + 1, mp - 9, doy - (153 * mp + 2) / 5 + 1)) =
      era * 146097 + ((365 * yoe + yoe / 4 - yoe / 100 + doy : Nat) : Int) - 719468 := by
  have hback : ((yoe : Int) + era * 400 - era * 400).toNat = yoe := by omega
  have hday : (153 * mp + 2) / 5 + (doy - (153 * mp + 2) / 5 + 1) - 1 = doy := by omega
  by_cases hmonth : mp < 10
  · rw [if_pos hmonth]
    have hmarch : ¬ mp + 3 ≤ 2 := by omega
    have hafter : 2 < mp + 3 := by omega
    simp only [daysOfDate, if_neg hmarch, if_pos hafter, fdiv_year hyoe, hback,
      Nat.add_sub_cancel, hday]
  · rw [if_neg hmonth]
    have hjanuary : mp - 9 ≤ 2 := by omega
    have hbefore : ¬ 2 < mp - 9 := by omega
    have hcount : mp - 9 + 9 = mp := by omega
    simp only [daysOfDate, if_pos hjanuary, if_neg hbefore, Int.add_sub_cancel, fdiv_year hyoe,
      Int.toNat_natCast, hcount, hday]

/-- The parts of a date. -/
theorem dateOfDays_eq (days : Int) : ∃ (era : Int) (yoe mp doy : Nat), yoe < 400 ∧ mp ≤ 11 ∧
    (153 * mp + 2) / 5 ≤ doy ∧ doy < (153 * mp + 2) / 5 + 31 ∧
    days = era * 146097 + ((365 * yoe + yoe / 4 - yoe / 100 + doy : Nat) : Int) - 719468 ∧
    dateOfDays days =
      if mp < 10 then ((yoe : Int) + era * 400, mp + 3, doy - (153 * mp + 2) / 5 + 1)
        else ((yoe : Int) + era * 400 + 1, mp - 9, doy - (153 * mp + 2) / 5 + 1) := by
  obtain ⟨era, hera⟩ : ∃ era, (days + 719468).fdiv 146097 = era := ⟨_, rfl⟩
  have hdays : 0 ≤ days + 719468 - era * 146097 ∧ days + 719468 - era * 146097 < 146097 := by
    rw [Int.fdiv_eq_ediv_of_nonneg _ (show (0 : Int) ≤ 146097 by omega)] at hera
    omega
  obtain ⟨doe, hdoe⟩ : ∃ doe : Nat, (days + 719468 - era * 146097).toNat = doe := ⟨_, rfl⟩
  obtain ⟨yoe, hyoe⟩ : ∃ yoe, (doe - doe / 1460 + doe / 36524 - doe / 146096) / 365 = yoe :=
    ⟨_, rfl⟩
  obtain ⟨doy, hdoy⟩ : ∃ doy, doe - (365 * yoe + yoe / 4 - yoe / 100) = doy := ⟨_, rfl⟩
  obtain ⟨mp, hmp⟩ : ∃ mp, (5 * doy + 2) / 153 = mp := ⟨_, rfl⟩
  have hdoe' : doe < 146097 := by omega
  obtain ⟨hyear, hlow, hhigh⟩ := yearOfEra hdoe' hyoe.symm
  obtain ⟨hmonth, hfirst, hlast⟩ := monthOfYear (by omega) hmp.symm
  refine ⟨era, yoe, mp, doy, hyear, hmonth, hfirst, hlast, by omega, ?_⟩
  simp only [dateOfDays, hera, hdoe, hyoe, hdoy, hmp]
  by_cases hmarch : mp < 10
  · rw [if_pos hmarch, if_pos hmarch, if_neg (by omega), Int.add_zero]
  · rw [if_neg hmarch, if_neg hmarch, if_pos (by omega)]

/-- **Days are counted back.** -/
theorem daysOfDate_dateOfDays (days : Int) : daysOfDate (dateOfDays days) = days := by
  obtain ⟨era, yoe, mp, doy, hyear, hmonth, hfirst, -, hdays, hdate⟩ := dateOfDays_eq days
  rw [hdate, daysOfDate_eq hyear hmonth hfirst, ← hdays]

/-- Months and days of a date have two digits. -/
theorem dateOfDays_lt (days : Int) : (dateOfDays days).2.1 < 100 ∧ (dateOfDays days).2.2 < 100 := by
  obtain ⟨era, yoe, mp, doy, -, hmonth, -, hlast, -, hdate⟩ := dateOfDays_eq days
  rw [hdate]
  by_cases hmarch : mp < 10
  · rw [if_pos hmarch]
    exact ⟨by dsimp only; omega, by dsimp only; omega⟩
  · rw [if_neg hmarch]
    exact ⟨by dsimp only; omega, by dsimp only; omega⟩

/-! ### Time stamps -/

/-- Leading zeros do not change what is read. -/
theorem ofDigitChars_padded (w n : Nat) : Nat.ofDigitChars 10 (Text.padded w n) 0 = n := by
  rw [Text.padded, List.leftpad, Nat.ofDigitChars_append, Nat.ofDigitChars_replicate_zero,
    Nat.mul_zero, Text.decimal, Nat.ofDigitChars_ten_toDigits]

theorem padded_injective (w : Nat) : Function.Injective (Text.padded w) := by
  intro m n h
  rw [← ofDigitChars_padded w m, ← ofDigitChars_padded w n, h]

theorem length_padded_two {n : Nat} (h : n < 100) : (Text.padded 2 n).length = 2 := by
  have hlen := (Nat.length_toDigits_le_iff (b := 10) (k := 2) (by decide) (by decide)).mpr h
  rw [Text.padded, List.leftpad, List.length_append, List.length_replicate, Text.decimal]
  omega

/-- A padded number begins with a digit. -/
theorem padded_ne_sign {w m n : Nat} {c : Char} (hc : c.isDigit = false) :
    Text.padded w m ≠ c :: Text.padded w n := by
  intro h
  have hmem : c ∈ Text.padded w m := h ▸ List.mem_cons_self
  rw [Text.padded, List.leftpad, List.mem_append] at hmem
  rcases hmem with hzero | hdigit
  · rw [List.eq_of_mem_replicate hzero] at hc
    exact absurd hc (by decide)
  · rw [Text.isDigit_of_mem_decimal hdigit] at hc
    cases hc

/-- A year is read off its text. -/
theorem formatYear_injective : Function.Injective formatYear := by
  have hsigned : ∀ y z : Int, 0 ≤ y → y ≤ 9999 → ¬ (0 ≤ z ∧ z ≤ 9999) →
      formatYear y ≠ formatYear z := by
    intro y z hy₁ hy₂ hz
    rw [formatYear, if_pos ⟨hy₁, hy₂⟩, formatYear, if_neg hz]
    refine padded_ne_sign ?_
    split <;> rfl
  intro y z h
  by_cases hy : 0 ≤ y ∧ y ≤ 9999
  · by_cases hz : 0 ≤ z ∧ z ≤ 9999
    · rw [formatYear, if_pos hy, formatYear, if_pos hz] at h
      have := padded_injective 4 h
      omega
    · exact absurd h (hsigned y z hy.1 hy.2 hz)
  · by_cases hz : 0 ≤ z ∧ z ≤ 9999
    · exact absurd h.symm (hsigned z y hz.1 hz.2 hy)
    · rw [formatYear, if_neg hy, formatYear, if_neg hz] at h
      obtain ⟨hsign, hdigits⟩ := List.cons.inj h
      have habs := padded_injective 4 hdigits
      by_cases hy' : y < 0
      · by_cases hz' : z < 0
        · omega
        · rw [if_pos hy', if_neg hz'] at hsign
          exact absurd hsign (by decide)
      · by_cases hz' : z < 0
        · rw [if_neg hy', if_pos hz'] at hsign
          exact absurd hsign (by decide)
        · omega

/-- Two digits, and what comes behind them. -/
theorem padded_append_inj {m n : Nat} {s s' : Str} (hm : m < 100) (hn : n < 100)
    (h : Text.padded 2 m ++ s = Text.padded 2 n ++ s') : m = n ∧ s = s' := by
  have hlen : (Text.padded 2 m).length = (Text.padded 2 n).length :=
    (length_padded_two hm).trans (length_padded_two hn).symm
  obtain ⟨hdigits, hrest⟩ := List.append_inj h hlen
  exact ⟨padded_injective 2 hdigits, hrest⟩

/-- **A time stamp tells the second.** -/
theorem timestamp_eq_of_formatFileStamp {t u : DateTime}
    (h : formatFileStamp t = formatFileStamp u) : t.timestamp = u.timestamp := by
  have hdays : ∀ x : Int, x.fdiv 86400 * 86400 ≤ x ∧ x < x.fdiv 86400 * 86400 + 86400 := by
    intro x
    rw [Int.fdiv_eq_ediv_of_nonneg _ (show (0 : Int) ≤ 86400 by omega)]
    omega
  have ht := hdays t.timestamp
  have hu := hdays u.timestamp
  obtain ⟨hmt, hdt⟩ := dateOfDays_lt (t.timestamp.fdiv 86400)
  obtain ⟨hmu, hdu⟩ := dateOfDays_lt (u.timestamp.fdiv 86400)
  have hdate := daysOfDate_dateOfDays (t.timestamp.fdiv 86400)
  have hdate' := daysOfDate_dateOfDays (u.timestamp.fdiv 86400)
  simp only [formatFileStamp] at h
  generalize t.timestamp.fdiv 86400 = dayt at *
  generalize u.timestamp.fdiv 86400 = dayu at *
  obtain ⟨sect, hsect⟩ : ∃ sec, (t.timestamp - dayt * 86400).toNat = sec := ⟨_, rfl⟩
  obtain ⟨secu, hsecu⟩ : ∃ sec, (u.timestamp - dayu * 86400).toNat = sec := ⟨_, rfl⟩
  rw [hsect, hsecu] at h
  obtain ⟨hyear, hrest⟩ := List.append_inj' h (by
    simp only [List.length_cons, List.length_append, length_padded_two hmt, length_padded_two hdt,
      length_padded_two hmu, length_padded_two hdu,
      length_padded_two (show sect / 3600 < 100 by omega),
      length_padded_two (show sect / 60 % 60 < 100 by omega),
      length_padded_two (show sect % 60 < 100 by omega),
      length_padded_two (show secu / 3600 < 100 by omega),
      length_padded_two (show secu / 60 % 60 < 100 by omega),
      length_padded_two (show secu % 60 < 100 by omega)])
  obtain ⟨hmonth, hrest⟩ := padded_append_inj hmt hmu (List.cons.inj hrest).2
  obtain ⟨hday, hrest⟩ := padded_append_inj hdt hdu (List.cons.inj hrest).2
  obtain ⟨hhour, hrest⟩ := padded_append_inj (by omega) (by omega) (List.cons.inj hrest).2
  obtain ⟨hminute, hrest⟩ := padded_append_inj (by omega) (by omega) (List.cons.inj hrest).2
  obtain ⟨hsecond, -⟩ := padded_append_inj (by omega) (by omega) (List.cons.inj hrest).2
  have hsame : dateOfDays dayt = dateOfDays dayu :=
    Prod.ext (formatYear_injective hyear) (Prod.ext hmonth hday)
  have hdayeq : dayt = dayu := by rw [← hdate, ← hdate', hsame]
  omega

end Civil

end Rustmote
