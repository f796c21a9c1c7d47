import ChainSettle.Semantics.Recurring

/-!
What the setters of `advance` come to. The months are in one count, from January of the year 0 on;
an instant is a month, a day of it and a time of day.

Only the date that a step leads to is stored, so a day that one month on the way does not have
is not come back to: what is left after many monthly runs is the least of the day and the last
days of all months passed.
-/

namespace ChainSettle

open Lib

section Months

/-- The days of a month. -/
def monthDays (month : Int) : Int := monthFirst (month + 1) - monthFirst month

/-- An instant of a day of a month. -/
def monthInstant (month day timeOfDay : Int) : Int :=
  (monthFirst month + (day - 1)) * msPerDay + timeOfDay

/-- The month of an instant. -/
def monthOf (time : Int) : Int := months.index (time / msPerDay)

structure InMonth (month day timeOfDay : Int) : Prop where
  pos : 1 ≤ day
  le : day ≤ monthDays month
  time_nonneg : 0 ≤ timeOfDay
  time_lt : timeOfDay < msPerDay

variable {month day timeOfDay : Int}

theorem one_le_monthDays (month : Int) : 1 ≤ monthDays month := by
  have hlt := monthFirst_lt_succ month
  unfold monthDays
  omega

theorem InMonth.first (h : InMonth month day timeOfDay) (other : Int) :
    InMonth other 1 timeOfDay :=
  ⟨le_refl 1, one_le_monthDays other, h.time_nonneg, h.time_lt⟩

theorem InMonth.div_eq (h : InMonth month day timeOfDay) :
    monthInstant month day timeOfDay / msPerDay = monthFirst month + (day - 1) ∧
      monthInstant month day timeOfDay % msPerDay = timeOfDay := by
  obtain ⟨-, -, hnonneg, hlt⟩ := h
  unfold monthInstant
  unfold msPerDay at hlt ⊢
  omega

theorem InMonth.monthOf_eq (h : InMonth month day timeOfDay) :
    monthOf (monthInstant month day timeOfDay) = month := by
  have hpos := h.pos
  have hle := h.le
  unfold monthDays at hle
  rw [monthOf, h.div_eq.1]
  refine months.index_eq ?_ ?_
  · change monthFirst month ≤ _
    omega
  · change _ < monthFirst (month + 1)
    omega

/-- The fields of an instant are its month and its day in it. -/
theorem fields_of_day (time : Int) :
    12 * yearFromDay (time / msPerDay) + monthFromDay (time / msPerDay) = monthOf time ∧
      monthFirst (monthOf time) + (getUTCDate time - 1) = time / msPerDay :=
  ⟨rfl, makeDay_fields (time / msPerDay)⟩

theorem InMonth.getUTCDate_eq (h : InMonth month day timeOfDay) :
    getUTCDate (monthInstant month day timeOfDay) = day := by
  have hday := (fields_of_day (monthInstant month day timeOfDay)).2
  rw [h.monthOf_eq, h.div_eq.1] at hday
  omega

/-- An instant is that of its fields. -/
theorem inMonth_fields (time : Int) :
    InMonth (monthOf time) (getUTCDate time) (time % msPerDay) ∧
      monthInstant (monthOf time) (getUTCDate time) (time % msPerDay) = time := by
  have hday := (fields_of_day time).2
  have hlt : time / msPerDay < monthFirst (monthOf time + 1) := months.lt_cut_index_succ _
  have hpos := dateFromDay_pos (time / msPerDay)
  refine ⟨⟨hpos, ?_, Int.emod_nonneg _ (by decide), Int.emod_lt_of_pos _ (by decide)⟩, ?_⟩
  · unfold monthDays
    omega
  · unfold monthInstant
    rw [hday]
    exact Int.ediv_mul_add_emod time msPerDay

theorem InMonth.setUTCDate_eq (h : InMonth month day timeOfDay) (date : Int) :
    setUTCDate (monthInstant month day timeOfDay) date =
      timeClip (monthInstant month date timeOfDay) := by
  have hmonth := (fields_of_day (monthInstant month day timeOfDay)).1
  rw [h.monthOf_eq] at hmonth
  simp only [setUTCDate, makeDay, hmonth, h.div_eq.2]
  rfl

theorem InMonth.setUTCMonth_eq (h : InMonth month day timeOfDay) :
    setUTCMonth (monthInstant month day timeOfDay)
        (getUTCMonth (monthInstant month day timeOfDay) + 1) =
      timeClip (monthInstant (month + 1) day timeOfDay) := by
  have hmonth := (fields_of_day (monthInstant month day timeOfDay)).1
  rw [h.monthOf_eq] at hmonth
  have hnext : 12 * yearFromDay (monthInstant month day timeOfDay / msPerDay) +
      (getUTCMonth (monthInstant month day timeOfDay) + 1) = month + 1 := by
    unfold getUTCMonth
    omega
  have hdate : dateFromDay (monthInstant month day timeOfDay / msPerDay) = day := h.getUTCDate_eq
  simp only [setUTCMonth, makeDay, hnext, hdate, h.div_eq.2]
  rfl

end Months

section LastDay

/-- The last day of a month, as `advance` finds it: the year 0 is taken for 1900, which has no
29 February. -/
def lastDayOf (month : Int) : Int := if month = 1 then 28 else monthDays month

/-- The month that `Date.UTC` takes for one. -/
def centuryMonth (month : Int) : Int :=
  if 0 ≤ month / 12 ∧ month / 12 ≤ 99 then 22800 + month else month

theorem monthDays_eq (month : Int) :
    monthDays month = monthLength (leapYearLike (month / 12)) ((month % 12).toNat + 1) := by
  have hsucc := monthFirst_succ month
  unfold monthDays
  omega

/-- The years 1 to 99 are leap years where those of the last century are. -/
theorem isLeapYear_century {year : Int} (hpos : 1 ≤ year) (hle : year ≤ 99) :
    isLeapYear (leapYearLike (1900 + year)) = isLeapYear (leapYearLike year) := by
  have hcentury : leapYearLike (1900 + year) = 300 + leapYearLike year := by
    unfold leapYearLike
    omega
  have hyear : 1 ≤ leapYearLike year ∧ leapYearLike year ≤ 99 := by
    unfold leapYearLike
    omega
  rw [hcentury]
  generalize leapYearLike year = n at hyear
  obtain ⟨hone, hlast⟩ := hyear
  rw [Bool.eq_iff_iff]
  simp only [isLeapYear, Bool.and_eq_true, Bool.or_eq_true, decide_eq_true_eq]
  omega

theorem monthDays_centuryMonth (month : Int) : monthDays (centuryMonth month) = lastDayOf month := by
  unfold centuryMonth lastDayOf
  split
  · rename_i hcentury
    have hyear : (22800 + month) / 12 = 1900 + month / 12 := by omega
    have hindex : (22800 + month) % 12 = month % 12 := by omega
    rw [monthDays_eq, monthDays_eq, hyear, hindex]
    split
    · rename_i hfebruary
      rw [hfebruary]
      decide
    · rename_i hother
      by_cases hzero : month / 12 = 0
      · -- the other months of the year 0 have the same length in every year
        have hlength (year : Nat) : monthLength year ((month % 12).toNat + 1) =
            monthLength 1 ((month % 12).toNat + 1) := by
          unfold monthLength
          split
          · omega
          all_goals rfl
        rw [hlength, hlength (leapYearLike (month / 12))]
      · unfold monthLength
        rw [isLeapYear_century (by omega) (by omega)]
  · rename_i hother
    rw [if_neg]
    rintro rfl
    exact hother (by decide)

theorem lastDayOf_bounds (month : Int) : 1 ≤ lastDayOf month ∧ lastDayOf month ≤ monthDays month := by
  unfold lastDayOf
  split
  · rename_i hfebruary
    rw [hfebruary]
    decide
  · exact ⟨one_le_monthDays month, le_refl _⟩

/-- `Date.UTC` of the day before the next month. -/
theorem dateUTC_lastDay {month day timeOfDay : Int} (h : InMonth month day timeOfDay) :
    Dates.dateUTC (getUTCFullYear (monthInstant month day timeOfDay))
        (getUTCMonth (monthInstant month day timeOfDay) + 1) 0 =
      timeClip (monthInstant (centuryMonth month) (lastDayOf month) 0) := by
  have hmonth := (fields_of_day (monthInstant month day timeOfDay)).1
  rw [h.monthOf_eq] at hmonth
  have hbounds := monthFromDay_bounds (monthInstant month day timeOfDay / msPerDay)
  have hyear : month / 12 = yearFromDay (monthInstant month day timeOfDay / msPerDay) := by omega
  have hcentury : 12 * (if 0 ≤ getUTCFullYear (monthInstant month day timeOfDay) ∧
        getUTCFullYear (monthInstant month day timeOfDay) ≤ 99 then
          1900 + getUTCFullYear (monthInstant month day timeOfDay)
        else getUTCFullYear (monthInstant month day timeOfDay)) +
      (getUTCMonth (monthInstant month day timeOfDay) + 1) = centuryMonth month + 1 := by
    unfold centuryMonth getUTCFullYear getUTCMonth
    rw [hyear]
    split <;> omega
  simp only [Dates.dateUTC, makeDay, hcentury]
  rw [← monthDays_centuryMonth]
  unfold monthInstant monthDays
  congr 1
  unfold msPerDay
  omega

end LastDay

section Spec

/-- All days of a month are in the range of a `Date`. -/
def WholeMonth (month : Int) : Prop :=
  -8640000000000000 ≤ monthFirst month * msPerDay ∧
    (monthFirst (month + 1) - 1) * msPerDay ≤ 8640000000000000

instance (month : Int) : Decidable (WholeMonth month) := inferInstanceAs (Decidable (_ ∧ _))

/-- The months between two whole ones are whole. -/
theorem WholeMonth.between {first last month : Int} (hfirst : WholeMonth first)
    (hlast : WholeMonth last) (hle : first ≤ month) (hle' : month ≤ last) : WholeMonth month := by
  have hmono := months.cut_strictMono.monotone hle
  have hmono' := months.cut_strictMono.monotone (Int.add_le_add_right hle' 1)
  have hstart := hfirst.1
  have hend := hlast.2
  change monthFirst first ≤ monthFirst month at hmono
  change monthFirst (month + 1) ≤ monthFirst (last + 1) at hmono'
  unfold WholeMonth
  unfold msPerDay at hstart hend ⊢
  omega

theorem timeClip_eq_some {time : Int} (h : -8640000000000000 ≤ time ∧ time ≤ 8640000000000000) :
    timeClip time = some time := if_pos h

theorem timeClip_eq_none {time : Int} (h : ¬ (-8640000000000000 ≤ time ∧ time ≤ 8640000000000000)) :
    timeClip time = none := if_neg h

/-- No month ends where the range does, so the last day of one that is whole is in it until
midnight. -/
theorem WholeMonth.next_le {month : Int} (h : WholeMonth month) :
    monthFirst (month + 1) * msPerDay ≤ 8640000000000000 := by
  have hend := h.2
  have hdays : monthFirst (month + 1) ≤ 100000001 := by
    unfold msPerDay at hend
    omega
  -- the month of the last day of the range has begun twelve days before it
  have hindex : months.index 100000001 = 12 * 275760 + 8 :=
    months.index_eq (by decide) (by decide)
  have hmonth := (months.cut_le_iff (month + 1) 100000001).mp hdays
  rw [hindex] at hmonth
  have hfirst := months.cut_strictMono.monotone hmonth
  have hseptember : months.cut (12 * 275760 + 8) = 99999988 := by decide
  change monthFirst (month + 1) ≤ _ at hfirst
  unfold msPerDay
  omega

/-- An instant of a whole month. -/
theorem InMonth.timeClip_eq {month day timeOfDay : Int} (h : InMonth month day timeOfDay)
    (hwhole : WholeMonth month) :
    timeClip (monthInstant month day timeOfDay) = some (monthInstant month day timeOfDay) := by
  obtain ⟨hpos, hle, hnonneg, hlt⟩ := h
  have hstart := hwhole.1
  have hend := hwhole.next_le
  unfold monthDays at hle
  refine timeClip_eq_some ?_
  unfold monthInstant
  unfold msPerDay at hlt hstart hend ⊢
  omega

/-- The first two thousand years. -/
theorem wholeMonth_of_le {month : Int} (hnonneg : 0 ≤ month) (hle : month ≤ 24000) :
    WholeMonth month := by
  have hfirst : WholeMonth 0 := by decide
  have hlast : WholeMonth 24000 := by decide
  exact hfirst.between hlast hnonneg hle

theorem WholeMonth.century {month : Int} (h : WholeMonth month) :
    WholeMonth (centuryMonth month) := by
  unfold centuryMonth
  split
  · exact wholeMonth_of_le (by omega) (by omega)
  · exact h

theorem advance_weekly (time : Int) :
    Dates.advance time .weekly = timeClip (time + 7 * msPerDay) := setUTCDate_add time 7

theorem timeClip_cases (time : Int) : timeClip time = some time ∨ timeClip time = none := by
  unfold timeClip
  split
  · exact .inl rfl
  · exact .inr rfl

/-- The last day as `Date.UTC` gives it. -/
theorem inMonth_lastDay (month : Int) : InMonth (centuryMonth month) (lastDayOf month) 0 :=
  ⟨(lastDayOf_bounds month).1, (monthDays_centuryMonth month).ge, le_refl 0, by decide⟩

/-- The setters one after the other, from the first one on. -/
theorem advance_fields {month day timeOfDay : Int} (h : InMonth month day timeOfDay) :
    Dates.advance (monthInstant month day timeOfDay) .monthly =
      (timeClip (monthInstant month 1 timeOfDay)).bind fun _ =>
        (timeClip (monthInstant (month + 1) 1 timeOfDay)).bind fun _ =>
          (timeClip (monthInstant (centuryMonth (month + 1)) (lastDayOf (month + 1)) 0)).bind fun _ =>
            timeClip (monthInstant (month + 1) (min day (lastDayOf (month + 1))) timeOfDay) := by
  have hfirst := h.first month
  have hnext := h.first (month + 1)
  have hlast := inMonth_lastDay (month + 1)
  simp only [Dates.advance, h.setUTCDate_eq, h.getUTCDate_eq]
  rcases timeClip_cases (monthInstant month 1 timeOfDay) with hone | hnone
  · rw [hone]
    simp only [Option.bind_eq_bind, Option.bind_some, hfirst.setUTCMonth_eq]
    rcases timeClip_cases (monthInstant (month + 1) 1 timeOfDay) with htwo | hnone
    · rw [htwo]
      simp only [Option.bind_some, dateUTC_lastDay hnext]
      rcases timeClip_cases
        (monthInstant (centuryMonth (month + 1)) (lastDayOf (month + 1)) 0) with hthree | hnone
      · rw [hthree]
        simp only [Option.bind_some, hlast.getUTCDate_eq, hnext.setUTCDate_eq]
      · rw [hnone]
        rfl
    · rw [hnone]
      rfl
  · rw [hnone]
    rfl

/-- A month that does not begin in the range has its first day before it, at any time of day. -/
theorem timeClip_first_eq_none {month timeOfDay : Int} (hlt : timeOfDay < msPerDay)
    (h : ¬ -8640000000000000 ≤ monthFirst month * msPerDay) :
    timeClip (monthInstant month 1 timeOfDay) = none := by
  refine timeClip_eq_none ?_
  unfold monthInstant
  unfold msPerDay at hlt h ⊢
  omega

/-- A month that does not end in the range is after the years that are read otherwise. -/
theorem timeClip_last_eq_none {month : Int}
    (h : ¬ (monthFirst (month + 1) - 1) * msPerDay ≤ 8640000000000000) :
    timeClip (monthInstant (centuryMonth month) (lastDayOf month) 0) = none := by
  have hsame : centuryMonth month = month ∧ month ≠ 1 := by
    have hnot : ¬ (0 ≤ month / 12 ∧ month / 12 ≤ 99) := by
      rintro ⟨hfirst, hlast⟩
      exact h (wholeMonth_of_le (by omega) (by omega)).2
    exact ⟨if_neg hnot, by omega⟩
  refine timeClip_eq_none ?_
  rw [hsame.1, lastDayOf, if_neg hsame.2]
  unfold monthInstant monthDays
  unfold msPerDay at h ⊢
  omega

/-- One month on: the day of the instant, or the last day where there is none. -/
theorem advance_monthly (time : Int) :
    Dates.advance time .monthly =
      if WholeMonth (monthOf time) ∧ WholeMonth (monthOf time + 1) then
        some (monthInstant (monthOf time + 1) (min (getUTCDate time) (lastDayOf (monthOf time + 1)))
          (time % msPerDay))
      else none := by
  obtain ⟨hin, htime⟩ := inMonth_fields time
  generalize monthOf time = month at hin htime ⊢
  generalize getUTCDate time = day at hin htime ⊢
  generalize time % msPerDay = timeOfDay at hin htime ⊢
  rw [← htime, advance_fields hin]
  obtain ⟨hone, hlast⟩ := lastDayOf_bounds (month + 1)
  split
  · rename_i hwhole
    have hclamped : InMonth (month + 1) (min day (lastDayOf (month + 1))) timeOfDay :=
      ⟨le_min hin.pos hone, (min_le_right _ _).trans hlast, hin.time_nonneg, hin.time_lt⟩
    rw [(hin.first month).timeClip_eq hwhole.1, (hin.first (month + 1)).timeClip_eq hwhole.2,
      (inMonth_lastDay (month + 1)).timeClip_eq hwhole.2.century, hclamped.timeClip_eq hwhole.2]
    rfl
  · rename_i hpart
    by_cases hstart : -8640000000000000 ≤ monthFirst month * msPerDay
    · -- then the next month does not end in the range
      have hfirst := monthFirst_lt_succ month
      have hsecond := monthFirst_lt_succ (month + 1)
      have hend : ¬ (monthFirst (month + 1 + 1) - 1) * msPerDay ≤ 8640000000000000 := by
        intro hend
        unfold WholeMonth at hpart
        unfold msPerDay at hstart hend hpart
        omega
      rw [timeClip_last_eq_none hend]
      cases timeClip (monthInstant month 1 timeOfDay) with
      | none => rfl
      | some _ => cases timeClip (monthInstant (month + 1) 1 timeOfDay) <;> rfl
    · rw [timeClip_first_eq_none hin.time_lt hstart]
      rfl

end Spec

section Drift

/-- The day after a number of months, from a day of a month. -/
def clampedDay (month day : Int) : Nat → Int
  | 0 => day
  | k + 1 => min (clampedDay month day k) (lastDayOf (month + (k + 1 : Nat)))

theorem inMonth_clampedDay {month day timeOfDay : Int} (h : InMonth month day timeOfDay) (k : Nat) :
    InMonth (month + (k + 1 : Nat)) (clampedDay month day (k + 1)) timeOfDay := by
  obtain ⟨hone, hlast⟩ := lastDayOf_bounds (month + (k + 1 : Nat))
  have hpos : 1 ≤ clampedDay month day k := by
    induction k with
    | zero => exact h.pos
    | succ k ih =>
        obtain ⟨hone', hlast'⟩ := lastDayOf_bounds (month + (k + 1 : Nat))
        exact le_min (ih hone' hlast') hone'
  exact ⟨le_min hpos hone, (min_le_right _ _).trans hlast, h.time_nonneg, h.time_lt⟩

/-- It is the day, or the last day of a month on the way, and not after any of these. -/
theorem isLeast_clampedDay (month day : Int) (k : Nat) :
    IsLeast (insert day {last | ∃ j, 1 ≤ j ∧ j ≤ k ∧ last = lastDayOf (month + (j : Nat))})
      (clampedDay month day k) := by
  induction k with
  | zero =>
      refine ⟨.inl rfl, ?_⟩
      rintro other (rfl | ⟨j, hpos, hle, rfl⟩)
      · exact le_refl _
      · omega
  | succ k ih =>
      obtain ⟨hmem, hle⟩ := ih
      refine ⟨?_, ?_⟩
      · rcases min_choice (clampedDay month day k) (lastDayOf (month + (k + 1 : Nat))) with
          hday | hlast
        · rw [clampedDay, hday]
          rcases hmem with hself | ⟨j, hpos, hj, heq⟩
          · exact .inl hself
          · exact .inr ⟨j, hpos, Nat.le_succ_of_le hj, heq⟩
        · exact .inr ⟨k + 1, Nat.succ_pos k, le_refl _, hlast⟩
      · rintro other (rfl | ⟨j, hpos, hj, rfl⟩)
        · exact (min_le_left _ _).trans (hle (.inl rfl))
        · rcases Nat.lt_or_eq_of_le hj with hlt | rfl
          · exact (min_le_left _ _).trans (hle (.inr ⟨j, hpos, Nat.le_of_lt_succ hlt, rfl⟩))
          · exact min_le_right _ _

/-- MONTHLY applied any number of times, while all months on the way are in the range of a `Date`:
the same time of day, in the month that follows after so many, on the least of the day and the last
days of the months on the way. -/
theorem monthly_advances_clamp (time : Int) (k : Nat) :
    Dates.advances .monthly time (k + 1) =
        (if WholeMonth (monthOf time) ∧ WholeMonth (monthOf time + (k + 1 : Nat)) then
          some (monthInstant (monthOf time + (k + 1 : Nat))
            (clampedDay (monthOf time) (getUTCDate time) (k + 1)) (time % msPerDay))
        else none) ∧
      IsLeast (insert (getUTCDate time)
          {last | ∃ j, 1 ≤ j ∧ j ≤ k + 1 ∧ last = lastDayOf (monthOf time + (j : Nat))})
        (clampedDay (monthOf time) (getUTCDate time) (k + 1)) := by
  refine ⟨?_, isLeast_clampedDay _ _ _⟩
  induction k with
  | zero => exact advance_monthly time
  | succ k ih =>
      rw [Dates.advances, ih]
      obtain ⟨hin, -⟩ := inMonth_fields time
      have hday := inMonth_clampedDay hin k
      have hmonth : monthOf time + (k + 1 : Nat) + 1 = monthOf time + (k + 1 + 1 : Nat) := by omega
      split
      · rename_i hwhole
        rw [Option.bind_some, advance_monthly, hday.monthOf_eq, hday.getUTCDate_eq, hday.div_eq.2,
          hmonth]
        simp only [hwhole, true_and]
        rfl
      · rename_i hpart
        refine (if_neg fun hwhole => hpart ⟨hwhole.1, ?_⟩).symm
        exact hwhole.1.between hwhole.2 (by omega) (by omega)

/-- From 31 January 2023 over 28 February to 28 March, which has 31 days. -/
theorem monthly_drifts :
    Dates.advances .monthly (monthInstant 24276 31 36000000) 2 ≠
      some (monthInstant 24278 (min 31 (monthDays 24278)) 36000000) := by
  have hin : InMonth 24276 31 36000000 := ⟨by decide, by decide, by decide, by decide⟩
  have hnext : InMonth 24277 28 36000000 := ⟨by decide, by decide, by decide, by decide⟩
  have hfebruary : Dates.advance (monthInstant 24276 31 36000000) .monthly =
      some (monthInstant 24277 28 36000000) := by
    rw [advance_monthly, hin.monthOf_eq, hin.getUTCDate_eq, hin.div_eq.2]
    decide
  have hmarch : Dates.advance (monthInstant 24277 28 36000000) .monthly =
      some (monthInstant 24278 28 36000000) := by
    rw [advance_monthly, hnext.monthOf_eq, hnext.getUTCDate_eq, hnext.div_eq.2]
    decide
  have hboth : Dates.advances .monthly (monthInstant 24276 31 36000000) 2 =
      some (monthInstant 24278 28 36000000) := by
    rw [Dates.advances, Dates.advances, Dates.advances, Option.bind_some, hfebruary,
      Option.bind_some, hmarch]
  rw [hboth]
  decide

end Drift

end ChainSettle
