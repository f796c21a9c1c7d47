import ChainSettle.Recurring.Advance

/-!
Advancing makes progress. Every step leads to a later instant, if its result is a date at all, so
the loop over the missed intervals ends: at the first instant that is not over, or at an invalid
date, which compares with nothing.
-/

namespace ChainSettle

open Lib

section Progress

theorem lt_monthInstant_succ {month day timeOfDay later : Int} (h : InMonth month day timeOfDay)
    (hlater : 1 ≤ later) :
    monthInstant month day timeOfDay < monthInstant (month + 1) later timeOfDay := by
  have hle := h.le
  unfold monthDays at hle
  unfold monthInstant msPerDay
  omega

theorem lt_dates_advance {time next : Int} {interval : RecurringInterval}
    (h : Dates.advance time interval = some next) : time < next := by
  cases interval with
  | weekly =>
      rw [advance_weekly] at h
      rcases timeClip_cases (time + 7 * msPerDay) with hin | hout
      · rw [hin] at h
        obtain rfl := Option.some.inj h
        unfold msPerDay
        omega
      · rw [hout] at h
        cases h
  | monthly =>
      rw [advance_monthly] at h
      split at h
      · obtain ⟨hin, htime⟩ := inMonth_fields time
        have hday := le_min hin.pos (lastDayOf_bounds (monthOf time + 1)).1
        have hlt := lt_monthInstant_succ hin hday
        rw [htime] at hlt
        rwa [← Option.some.inj h]
      · cases h

/-- The milliseconds that are left for the loop. -/
def missedTime (now : Int) : Option Int → Nat
  | none => 0
  | some nextRunAt => (now + 1 - nextRunAt).toNat

/-- Skip missed intervals, so that a long outage creates one catch-up draft, not many. -/
def Dates.skipMissed (interval : RecurringInterval) (now : Int) (nextRunAt : Option Int) :
    Option Int :=
  match nextRunAt with
  | none => none
  | some time => if time ≤ now then skipMissed interval now (Dates.advance time interval) else some time
termination_by missedTime now nextRunAt
decreasing_by
  cases hnext : Dates.advance time interval with
  | none =>
      simp only [missedTime]
      omega
  | some next =>
      have hlater := lt_dates_advance hnext
      simp only [missedTime]
      omega

/-- The loop stops at an element of the sequence of repeated advances, and all those before it are
over. -/
theorem skipMissed_spec (interval : RecurringInterval) (now time : Int) (n : Nat)
    {nextRunAt : Option Int} (h : nextRunAt = Dates.advances interval time n) :
    ∃ k, Dates.skipMissed interval now nextRunAt = Dates.advances interval time (n + k) ∧
      (∀ j < k, ∃ earlier ∈ Dates.advances interval time (n + j), earlier ≤ now) ∧
      ∀ result ∈ Dates.skipMissed interval now nextRunAt, now < result := by
  fun_induction Dates.skipMissed interval now nextRunAt generalizing n with
  | case1 => exact ⟨0, h, nofun, nofun⟩
  | case2 reached hmissed ih =>
      have hnext : Dates.advance reached interval = Dates.advances interval time (n + 1) := by
        rw [Dates.advances, ← h]
        rfl
      obtain ⟨k, hresult, hearlier, hlater⟩ := ih (n + 1) hnext
      refine ⟨k + 1, hresult.trans (congrArg _ (by omega)), fun j hj => ?_, hlater⟩
      cases j with
      | zero => exact ⟨reached, h.symm, hmissed⟩
      | succ j =>
          obtain ⟨earlier, hmem, hover⟩ := hearlier j (by omega)
          have hindex : n + (j + 1) = n + 1 + j := by omega
          exact ⟨earlier, hindex ▸ hmem, hover⟩
  | case3 reached hreached =>
      refine ⟨0, h, nofun, ?_⟩
      rintro result ⟨⟩
      exact not_le.mp hreached

/-- A week is seven days. A month leads to the same time of day in the next month, on the same day
or the last one, where both months are in the range of a `Date`. Both are later, and the loop over
the missed intervals ends with the first of the repeated advances that is, or is no date. -/
theorem advance_makes_progress (time : Int) :
    Dates.advance time .weekly = timeClip (time + 7 * msPerDay) ∧
      Dates.advance time .monthly =
        (if WholeMonth (monthOf time) ∧ WholeMonth (monthOf time + 1) then
          some (monthInstant (monthOf time + 1) (min (getUTCDate time) (lastDayOf (monthOf time + 1)))
            (time % msPerDay))
        else none) ∧
      (∀ interval, ∀ next ∈ Dates.advance time interval, time < next) ∧
      ∀ interval now, ∃ k,
        Dates.skipMissed interval now (Dates.advance time interval) =
            Dates.advances interval time (k + 1) ∧
          (∀ j < k, ∃ earlier ∈ Dates.advances interval time (j + 1), earlier ≤ now) ∧
          ∀ result ∈ Dates.skipMissed interval now (Dates.advance time interval), now < result := by
  refine ⟨advance_weekly time, advance_monthly time, fun interval next => lt_dates_advance,
    fun interval now => ?_⟩
  have hfirst : Dates.advance time interval = Dates.advances interval time 1 := rfl
  obtain ⟨k, hresult, hearlier, hlater⟩ := skipMissed_spec interval now time 1 hfirst
  refine ⟨k, hresult.trans (congrArg _ (Nat.add_comm 1 k)), fun j hj => ?_, hlater⟩
  rw [Nat.add_comm j 1]
  exact hearlier j hj

/-- There is no date a week after the last one, and the January of the year 0 is followed by a
February of 29 days, of which `advance` knows 28. -/
theorem advance_out_of_range :
    Dates.advance 8640000000000000 .weekly ≠ some (8640000000000000 + 7 * msPerDay) ∧
      Dates.advance (monthInstant 0 31 0) .monthly ≠
        some (monthInstant 1 (min 31 (monthDays 1)) 0) := by
  have hin : InMonth 0 31 0 := ⟨by decide, by decide, by decide, by decide⟩
  constructor
  · rw [advance_weekly]
    decide
  · rw [advance_monthly, hin.monthOf_eq, hin.getUTCDate_eq, hin.div_eq.2]
    decide

end Progress

section Timestamps

/-- The month and the day of a day since 1970. -/
theorem fields_civil (days : Nat) :
    months.index days = 12 * (civil days).year + ((civil days).month - 1) ∧
      dateFromDay days = (civil days).day ∧
      monthDays (months.index days) = monthLength (civil days).year (civil days).month := by
  obtain ⟨hmonth, hday⟩ := monthFirst_civil days
  have hmonths := (civil days).month_le
  have hpos := (civil days).day_pos
  have hle := day_civil_le days
  generalize hindex : 12 * ((civil days).year : Int) + ((civil days).month - 1) = month at hday
  have hyear : month / 12 = (civil days).year := by omega
  have hmod : (month % 12).toNat + 1 = (civil days).month := by omega
  have hlength : monthDays month = monthLength (civil days).year (civil days).month := by
    rw [monthDays_eq, hyear, hmod, monthLength_leapYearLike]
  have hsame : months.index days = month := by
    unfold monthDays at hlength
    refine months.index_eq ?_ ?_
    · change monthFirst month ≤ _
      omega
    · change _ < monthFirst (month + 1)
      omega
  refine ⟨hsame, ?_, hsame ▸ hlength⟩
  have hfields : monthFirst (months.index days) + (dateFromDay days - 1) = days := makeDay_fields days
  rw [hsame] at hfields
  omega

theorem since_1970 (days : Nat) :
    12 * 1970 ≤ months.index days ∧ 0 ≤ monthFirst (months.index days) := by
  have hzero : months.cut (12 * 1970) = 0 := by decide
  have hfirst : months.cut (12 * 1970) ≤ days := by omega
  have hindex := (months.cut_le_iff _ _).mp hfirst
  have hmono := months.cut_strictMono.monotone hindex
  rw [hzero] at hmono
  exact ⟨hindex, hmono⟩

/-- On timestamps since 1970 the setters give what `advance` gives on natural numbers, as long as
the result is a date. -/
theorem dates_advance_natCast (time : Nat) (interval : RecurringInterval) :
    ∀ next ∈ Dates.advance time interval, next = advance time interval := by
  intro next hnext
  cases interval with
  | weekly =>
      rw [advance_weekly] at hnext
      rcases timeClip_cases ((time : Int) + 7 * msPerDay) with hin | hout
      · rw [hin] at hnext
        obtain rfl := Option.some.inj hnext
        simp only [advance, msPerDay]
        omega
      · rw [hout] at hnext
        cases hnext
  | monthly =>
      rw [advance_monthly] at hnext
      split at hnext
      · obtain rfl := Option.some.inj hnext
        have hdays : (time : Int) / msPerDay = (time / 86400000 : Nat) := by
          unfold msPerDay
          omega
        have hrest : (time : Int) % msPerDay = (time % 86400000 : Nat) := by
          unfold msPerDay
          omega
        have hsplit := (fields_of_day time).2
        simp only [advance, monthOf, getUTCDate, hdays, hrest] at hsplit ⊢
        generalize time / 86400000 = days at hsplit ⊢
        obtain ⟨-, hday, hlength⟩ := fields_civil days
        have hpos := (civil days).day_pos
        rw [hday] at hsplit
        obtain ⟨hyears, hnonneg⟩ := since_1970 days
        have hlastDay : lastDayOf (months.index days + 1) = monthDays (months.index days + 1) :=
          if_neg (by omega)
        rw [hlastDay, hday]
        -- the first of the next month
        generalize hfirst : days - ((civil days).day - 1) +
          monthLength (civil days).year (civil days).month = first
        have hcut : (first : Int) = monthFirst (months.index days + 1) := by
          unfold monthDays at hlength
          omega
        obtain ⟨hindex, -, hlast⟩ := fields_civil first
        have hsame : months.index first = months.index days + 1 := by
          rw [hcut]
          exact months.index_cut _
        rw [hsame] at hlast
        have hone := one_le_monthDays (months.index days + 1)
        rw [hlast] at hone ⊢
        unfold monthInstant msPerDay
        rw [← hcut]
        omega
      · cases hnext

end Timestamps

end ChainSettle
