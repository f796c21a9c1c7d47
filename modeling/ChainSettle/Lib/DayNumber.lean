import ChainSettle.Lib.Calendar
import Mathlib.Data.Int.ConditionallyCompleteOrder
import Mathlib.Data.List.Sort
import Mathlib.Order.Bounds.Defs
import Mathlib.Order.ConditionallyCompleteLattice.Basic

/-!
Time cut into periods, each of which starts where the one before ends. The starts of the periods
that some stretch of time meets are met one after the other from the first one, and each instant of
the stretch is in exactly one of them.

The days of the proleptic Gregorian calendar, numbered from 1 January 1970 on, before and after it,
and the fields of a `Date` in UTC. Months are counted from January as 0. A month number may be
outside a year, and a day number outside a month: `makeDay` carries both over.
-/

namespace Lib

/-- Period `i` has the instants from `cut i` up to, but without, `cut (i + 1)`. -/
structure Periods where
  cut : Int → Int
  index : Int → Int
  cut_lt_succ : ∀ i, cut i < cut (i + 1)
  cut_index_le : ∀ t, cut (index t) ≤ t
  lt_cut_index_succ : ∀ t, t < cut (index t + 1)

namespace Periods

variable (p : Periods)

/-- The start of the period of an instant. -/
def start (t : Int) : Int := p.cut (p.index t)

theorem cut_strictMono : StrictMono p.cut := strictMono_int_of_lt_succ p.cut_lt_succ

theorem index_eq {i t : Int} (hle : p.cut i ≤ t) (hlt : t < p.cut (i + 1)) : p.index t = i := by
  have hfirst : p.index t < i + 1 :=
    p.cut_strictMono.lt_iff_lt.mp ((p.cut_index_le t).trans_lt hlt)
  have hlast : i < p.index t + 1 :=
    p.cut_strictMono.lt_iff_lt.mp (hle.trans_lt (p.lt_cut_index_succ t))
  omega

@[simp] theorem index_cut (i : Int) : p.index (p.cut i) = i :=
  p.index_eq (le_refl _) (p.cut_lt_succ i)

theorem index_mono {t u : Int} (h : t ≤ u) : p.index t ≤ p.index u := by
  have hlt : p.index t < p.index u + 1 :=
    p.cut_strictMono.lt_iff_lt.mp ((p.cut_index_le t).trans_lt (h.trans_lt (p.lt_cut_index_succ u)))
  omega

theorem cut_le_iff (i t : Int) : p.cut i ≤ t ↔ i ≤ p.index t := by
  constructor
  · intro hle
    have hindex := p.index_mono hle
    rwa [index_cut] at hindex
  · intro hle
    exact (p.cut_strictMono.monotone hle).trans (p.cut_index_le t)

/-- The starts from period `i` on that are not after an instant. -/
def cutsFrom (i last : Int) : List Int :=
  (List.range (p.index last + 1 - i).toNat).map fun k : Nat => p.cut (i + k)

theorem cutsFrom_of_le {i last : Int} (h : p.cut i ≤ last) :
    p.cutsFrom i last = p.cut i :: p.cutsFrom (i + 1) last := by
  have hindex := (p.cut_le_iff i last).mp h
  have hlength : (p.index last + 1 - i).toNat = (p.index last + 1 - (i + 1)).toNat + 1 := by omega
  unfold cutsFrom
  rw [hlength, List.range_succ_eq_map, List.map_cons, List.map_map]
  congr 1
  · simp
  · refine List.map_congr_left fun k _ => congrArg p.cut ?_
    change i + ((k + 1 : Nat) : Int) = i + 1 + k
    omega

theorem cutsFrom_of_lt {i last : Int} (h : last < p.cut i) : p.cutsFrom i last = [] := by
  have hindex : ¬ i ≤ p.index last := fun hle => absurd ((p.cut_le_iff i last).mpr hle) (not_le.mpr h)
  have hlength : (p.index last + 1 - i).toNat = 0 := by omega
  unfold cutsFrom
  rw [hlength]
  rfl

theorem cutsFrom_pairwise (i last : Int) : (p.cutsFrom i last).Pairwise (· < ·) := by
  unfold cutsFrom
  rw [List.pairwise_map]
  refine List.pairwise_lt_range.imp fun {a b} hlt => p.cut_strictMono ?_
  omega

theorem mem_cutsFrom {i last s : Int} :
    s ∈ p.cutsFrom i last ↔ ∃ j, i ≤ j ∧ j ≤ p.index last ∧ p.cut j = s := by
  unfold cutsFrom
  rw [List.mem_map]
  constructor
  · rintro ⟨k, hk, rfl⟩
    have hlt := List.mem_range.mp hk
    exact ⟨i + k, by omega, by omega, rfl⟩
  · rintro ⟨j, hfirst, hlast, rfl⟩
    refine ⟨(j - i).toNat, List.mem_range.mpr (by omega), congrArg p.cut ?_⟩
    omega

/-- The starts from the one of `first` on are the starts of all instants from `first` to `last`. -/
theorem mem_cutsFrom_start {first last : Int} (h : first ≤ last) {s : Int} :
    s ∈ p.cutsFrom (p.index first) last ↔ ∃ t, first ≤ t ∧ t ≤ last ∧ p.start t = s := by
  rw [mem_cutsFrom]
  constructor
  · rintro ⟨j, hfirst, hlast, rfl⟩
    -- the period of `first` may begin before `first`
    by_cases hj : j = p.index first
    · exact ⟨first, le_refl _, h, by rw [start, hj]⟩
    · refine ⟨p.cut j, ?_, (p.cut_le_iff j last).mpr hlast, by rw [start, index_cut]⟩
      have hnext : p.index first + 1 ≤ j := by omega
      exact (p.lt_cut_index_succ first).le.trans (p.cut_strictMono.monotone hnext)
  · rintro ⟨t, hfirst, hlast, rfl⟩
    exact ⟨p.index t, p.index_mono hfirst, p.index_mono hlast, rfl⟩

/-- The same periods, with time in a finer unit. -/
def scale (unit : Int) (hunit : 0 < unit) : Periods where
  cut i := p.cut i * unit
  index t := p.index (t / unit)
  cut_lt_succ i := Int.mul_lt_mul_of_pos_right (p.cut_lt_succ i) hunit
  cut_index_le t := by
    rw [← Int.le_ediv_iff_mul_le hunit]
    exact p.cut_index_le _
  lt_cut_index_succ t := by
    rw [← Int.ediv_lt_iff_lt_mul hunit]
    exact p.lt_cut_index_succ _

end Periods

/-- The next of the instants that come back after every period. -/
theorem isLeast_recurring_iff {now shift period rest next : Int} (h : 0 < period) :
    IsLeast {t | now < t ∧ (t + shift) % period = rest} next ↔
      (now < next ∧ (next + shift) % period = rest) ∧ next ≤ now + period := by
  constructor
  · rintro ⟨⟨hnow, hrest⟩, hleast⟩
    refine ⟨⟨hnow, hrest⟩, ?_⟩
    by_contra hlate
    have hbefore : next ≤ next - period := by
      apply hleast
      refine ⟨by omega, ?_⟩
      have hshift : next - period + shift = next + shift - period := by omega
      rw [hshift, Int.sub_emod_right, hrest]
    omega
  · rintro ⟨⟨hnow, hrest⟩, hlate⟩
    refine ⟨⟨hnow, hrest⟩, ?_⟩
    rintro t ⟨htime, hsame⟩
    by_contra hbefore
    -- two of the instants are a whole number of periods apart
    have hapart : period ∣ next - t := by
      have hdiff : next + shift - (t + shift) = next - t := by omega
      rw [← hdiff]
      exact Int.dvd_of_emod_eq_zero
        (Int.emod_eq_emod_iff_emod_sub_eq_zero.mp (hrest.trans hsame.symm))
    have hle := Int.le_of_dvd (by omega) hapart
    omega

/-- The number of 1 January. -/
def dayFromYear (year : Int) : Int :=
  365 * (year - 1970) + (year - 1969) / 4 - (year - 1901) / 100 + (year - 1601) / 400

/-- The leap years repeat every 400 years. -/
def leapYearLike (year : Int) : Nat := (year % 400).toNat

/-- The days of a year before one of its months. -/
def daysBefore (year : Int) : Nat → Int
  | 0 => 0
  | month + 1 => daysBefore year month + monthLength (leapYearLike year) (month + 1)

/-- The number of the first day of a month, with the months of all years in one count. -/
def monthFirst (month : Int) : Int :=
  dayFromYear (month / 12) + daysBefore (month / 12) (month % 12).toNat

/-- `MakeDay` of the language. -/
def makeDay (year month date : Int) : Int := monthFirst (12 * year + month) + (date - 1)

/-- The days of 400 years. -/
def eraDays : Int := 146097

/-- The date in the 400 years after 1970 that only differs in the year. -/
def dateInEra (day : Int) : CivilDate := civil (day % eraDays).toNat

def yearFromDay (day : Int) : Int := (dateInEra day).year + 400 * (day / eraDays)

def monthFromDay (day : Int) : Int := (dateInEra day).month - 1

def dateFromDay (day : Int) : Int := (dateInEra day).day

/-- The day of the week, Sunday as 0. -/
def weekDay (day : Int) : Int := (day + 4) % 7

theorem isLeapYear_leapYearLike (year : Nat) : isLeapYear (leapYearLike year) = isLeapYear year := by
  unfold isLeapYear leapYearLike
  have hcast : ((year : Int) % 400).toNat = year % 400 := by omega
  rw [hcast]
  congr 1
  · congr 1
    exact propext (by omega)
  · congr 1
    · congr 1
      exact propext (by omega)
    · congr 1
      exact propext (by omega)

theorem monthLength_leapYearLike (year month : Nat) :
    monthLength (leapYearLike year) month = monthLength year month := by
  unfold monthLength
  rw [isLeapYear_leapYearLike]

/-- A year has the days of its twelve months. -/
theorem dayFromYear_succ (year : Int) :
    dayFromYear (year + 1) = dayFromYear year + daysBefore year 12 := by
  have hmonths : daysBefore year 12 = 337 + monthLength (leapYearLike year) 2 := by
    simp only [daysBefore, monthLength]
    omega
  have hleap : isLeapYear (leapYearLike year) = true ↔
      year % 4 = 0 ∧ (year % 100 ≠ 0 ∨ year % 400 = 0) := by
    unfold leapYearLike
    simp only [isLeapYear, Bool.and_eq_true, Bool.or_eq_true, decide_eq_true_eq]
    omega
  rw [hmonths]
  unfold dayFromYear
  simp only [monthLength]
  split
  · have hyear := hleap.mp ‹_›
    omega
  · have hyear := mt hleap.mpr ‹_›
    omega

theorem monthFirst_succ (month : Int) : monthFirst (month + 1) =
    monthFirst month + monthLength (leapYearLike (month / 12)) ((month % 12).toNat + 1) := by
  unfold monthFirst
  by_cases hlast : month % 12 = 11
  · have hyear : (month + 1) / 12 = month / 12 + 1 := by omega
    have hfirst : (month + 1) % 12 = 0 := by omega
    rw [hyear, hfirst, hlast, dayFromYear_succ]
    change dayFromYear (month / 12) + (daysBefore (month / 12) 11 +
      monthLength (leapYearLike (month / 12)) 12) + 0 = _
    rw [Int.add_zero, Int.add_assoc]
    rfl
  · have hyear : (month + 1) / 12 = month / 12 := by omega
    have hnext : ((month + 1) % 12).toNat = (month % 12).toNat + 1 := by omega
    rw [hyear, hnext, daysBefore, Int.add_assoc]

theorem monthFirst_lt_succ (month : Int) : monthFirst month < monthFirst (month + 1) := by
  have hlength := one_le_monthLength (leapYearLike (month / 12)) ((month % 12).toNat + 1)
  rw [monthFirst_succ]
  omega

theorem monthFirst_succ_le (month : Int) : monthFirst (month + 1) ≤ monthFirst month + 31 := by
  have hlength := monthLength_le (leapYearLike (month / 12)) ((month % 12).toNat + 1)
  rw [monthFirst_succ]
  omega

/-- The calendar repeats after 400 years. -/
theorem monthFirst_era (month eras : Int) :
    monthFirst (month + 4800 * eras) = monthFirst month + eraDays * eras := by
  have hyear : (month + 4800 * eras) / 12 = month / 12 + 400 * eras := by omega
  have hmonth : (month + 4800 * eras) % 12 = month % 12 := by omega
  have hlike : leapYearLike (month / 12 + 400 * eras) = leapYearLike (month / 12) := by
    unfold leapYearLike
    omega
  have hbefore (k : Nat) : daysBefore (month / 12 + 400 * eras) k = daysBefore (month / 12) k := by
    induction k with
    | zero => rfl
    | succ k ih => rw [daysBefore, daysBefore, ih, hlike]
  unfold monthFirst
  rw [hyear, hmonth, hbefore]
  unfold dayFromYear eraDays
  omega

/-- The number of a day is the number of its date. -/
theorem monthFirst_civil (days : Nat) : 1 ≤ (civil days).month ∧
    monthFirst (12 * (civil days).year + ((civil days).month - 1)) + ((civil days).day - 1) = days := by
  induction days with
  | zero => decide
  | succ days ih =>
      obtain ⟨hmonth, hday⟩ := ih
      have hle := day_civil_le days
      have hmonths := (civil days).month_le
      have hsucc := monthFirst_succ (12 * (civil days).year + ((civil days).month - 1))
      have hyear : (12 * ((civil days).year : Int) + ((civil days).month - 1)) / 12 =
          (civil days).year := by omega
      have hindex : ((12 * ((civil days).year : Int) + ((civil days).month - 1)) % 12).toNat + 1 =
          (civil days).month := by omega
      rw [hyear, hindex, monthLength_leapYearLike] at hsucc
      rw [civil]
      unfold CivilDate.next
      split
      · exact ⟨hmonth, by simp only; omega⟩
      · -- the last day of a month
        have hfull : (civil days).day = monthLength (civil days).year (civil days).month := by omega
        split
        · refine ⟨by simp only; omega, ?_⟩
          have hnext : 12 * ((civil days).year : Int) + (((civil days).month + 1 : Nat) - 1) =
              12 * (civil days).year + ((civil days).month - 1) + 1 := by omega
          simp only
          rw [hnext, hsucc]
          omega
        · refine ⟨le_refl 1, ?_⟩
          have hnext : 12 * (((civil days).year + 1 : Nat) : Int) + ((1 : Nat) - 1) =
              12 * (civil days).year + ((civil days).month - 1) + 1 := by omega
          simp only
          rw [hnext, hsucc]
          omega

theorem monthFromDay_bounds (day : Int) : 0 ≤ monthFromDay day ∧ monthFromDay day < 12 := by
  obtain ⟨hmonth, -⟩ := monthFirst_civil (day % eraDays).toNat
  have hle := (dateInEra day).month_le
  unfold monthFromDay
  unfold dateInEra at hle ⊢
  omega

theorem dateFromDay_pos (day : Int) : 1 ≤ dateFromDay day := by
  have hpos := (dateInEra day).day_pos
  unfold dateFromDay
  omega

/-- A day is found from its fields. -/
theorem makeDay_fields (day : Int) :
    makeDay (yearFromDay day) (monthFromDay day) (dateFromDay day) = day := by
  obtain ⟨-, hday⟩ := monthFirst_civil (day % eraDays).toNat
  have hera : 0 ≤ day % eraDays := Int.emod_nonneg _ (by decide)
  have hmonth : 12 * yearFromDay day + monthFromDay day =
      12 * (dateInEra day).year + ((dateInEra day).month - 1) + 4800 * (day / eraDays) := by
    unfold yearFromDay monthFromDay
    omega
  unfold makeDay
  rw [hmonth, monthFirst_era]
  unfold dateFromDay dateInEra
  have hsplit := Int.emod_add_mul_ediv day eraDays
  omega

theorem dateFromDay_le (day : Int) : dateFromDay day ≤
    monthLength (leapYearLike (yearFromDay day)) ((monthFromDay day).toNat + 1) := by
  have hle := day_civil_le (day % eraDays).toNat
  have hlike : leapYearLike (yearFromDay day) = leapYearLike ((dateInEra day).year : Int) := by
    unfold yearFromDay leapYearLike
    omega
  have hindex : (monthFromDay day).toNat + 1 = (dateInEra day).month := by
    obtain ⟨hmonth, -⟩ := monthFirst_civil (day % eraDays).toNat
    unfold monthFromDay dateInEra
    omega
  rw [hlike, hindex, monthLength_leapYearLike]
  unfold dateFromDay dateInEra
  omega

/-- The months as periods of days. -/
def months : Periods where
  cut := monthFirst
  index day := 12 * yearFromDay day + monthFromDay day
  cut_lt_succ := monthFirst_lt_succ
  cut_index_le day := by
    have hday := makeDay_fields day
    have hpos := dateFromDay_pos day
    unfold makeDay at hday
    omega
  lt_cut_index_succ day := by
    have hday := makeDay_fields day
    have hle := dateFromDay_le day
    have hmonth := monthFromDay_bounds day
    have hyear : (12 * yearFromDay day + monthFromDay day) / 12 = yearFromDay day := by omega
    have hindex : (12 * yearFromDay day + monthFromDay day) % 12 = monthFromDay day := by omega
    unfold makeDay at hday
    rw [monthFirst_succ, hyear, hindex]
    omega

section Text

theorem isoYear_eq_cons (year : Nat) : ∃ c rest, isoYear year = c :: rest ∧ c ≠ '-' := by
  unfold isoYear
  split
  · have hne : decimal 4 year ≠ [] := by
      rw [← List.length_pos_iff, length_decimal (by decide) ‹_›]
      decide
    obtain ⟨c, rest, hcons⟩ := List.exists_cons_of_ne_nil hne
    have hdigit : c.isDigit := isDigit_of_mem_decimal (hcons ▸ List.mem_cons_self)
    refine ⟨c, rest, hcons, ?_⟩
    rintro rfl
    exact absurd hdigit (by decide)
  · exact ⟨_, _, rfl, by decide⟩

theorem isoSignedYear_append_inj {a b : Int} {x y : List Char}
    (h : isoSignedYear a ++ '-' :: x = isoSignedYear b ++ '-' :: y) : a = b ∧ x = y := by
  have hsign {n m : Nat} {u v : List Char} (hboth : isoYear n ++ u = '-' :: decimal 6 m ++ v) :
      False := by
    obtain ⟨c, rest, hcons, hc⟩ := isoYear_eq_cons n
    rw [hcons] at hboth
    exact hc (List.cons.inj hboth).1
  cases a with
  | ofNat n =>
      cases b with
      | ofNat m =>
          obtain ⟨hyear, hrest⟩ := isoYear_append_inj h
          exact ⟨congrArg Int.ofNat hyear, hrest⟩
      | negSucc m => exact absurd h hsign
  | negSucc n =>
      cases b with
      | ofNat m => exact absurd h.symm hsign
      | negSucc m =>
          obtain ⟨hyear, -, hrest⟩ := decimal_append_inj (by decide) (by decide) (List.cons.inj h).2
          exact ⟨congrArg Int.negSucc (Nat.succ.inj hyear), hrest⟩

/-- The 400 years from 1970 on. -/
theorem year_civil_bounds {days : Nat} (h : days < 146097) :
    1970 ≤ (civil days).year ∧ (civil days).year < 2370 := by
  obtain ⟨hmonth, -⟩ := monthFirst_civil days
  have hle := (civil days).month_le
  have hdate : dateInEra days = civil days := by
    unfold dateInEra eraDays
    congr 1
    omega
  have hera : (days : Int) / eraDays = 0 := by
    unfold eraDays
    omega
  have hindex : months.index days = 12 * (civil days).year + ((civil days).month - 1) := by
    change 12 * yearFromDay days + monthFromDay days = _
    unfold yearFromDay monthFromDay
    rw [hdate, hera]
    omega
  have hfirst : 12 * 1970 ≤ months.index days := (months.cut_le_iff _ _).mp (by
    change monthFirst (12 * 1970) ≤ _
    have hstart : monthFirst (12 * 1970) = 0 := by decide
    omega)
  have hlast : ¬ 12 * 2370 ≤ months.index days := fun hmonths => by
    have hafter := (months.cut_le_iff _ _).mpr hmonths
    have hend : months.cut (12 * 2370) = 146097 := by decide
    omega
  omega

/-- The year of a date has four digits for a long time. -/
theorem isoText_eq {rest : Nat} (h : rest / 86400000 < 146097) :
    ∃ more, isoText rest = isoYear (civil (rest / 86400000)).year ++ '-' :: more ∧
      (isoText rest).drop 4 = '-' :: more := by
  have hyear := (year_civil_bounds h).2
  have hdigits : (isoYear (civil (rest / 86400000)).year).length = 4 := by
    unfold isoYear
    rw [if_pos (by omega), length_decimal (by decide) (by omega)]
  refine ⟨_, rfl, ?_⟩
  rw [isoText]
  exact List.drop_left' hdigits

/-- Every date has its own text. -/
theorem isoTextOf_injective : Function.Injective isoTextOf := by
  intro a b h
  have hday (ms : Int) : (ms % eraLength).toNat / 86400000 < 146097 := by
    have hlt := Int.emod_lt_of_pos ms (b := eraLength) (by decide)
    unfold eraLength at hlt ⊢
    omega
  obtain ⟨more, hfirst, hmore⟩ := isoText_eq (hday a)
  obtain ⟨others, hsecond, hothers⟩ := isoText_eq (hday b)
  have htexts := h
  simp only [isoTextOf] at htexts
  rw [hmore, hothers] at htexts
  obtain ⟨hyear, hrest⟩ := isoSignedYear_append_inj htexts
  have hboundsa := year_civil_bounds (hday a)
  have hboundsb := year_civil_bounds (hday b)
  have hera : a / eraLength = b / eraLength := by omega
  have hyears : (civil ((a % eraLength).toNat / 86400000)).year =
      (civil ((b % eraLength).toNat / 86400000)).year := by omega
  have hsame : isoText (a % eraLength).toNat ++ [] = isoText (b % eraLength).toNat ++ [] := by
    rw [hfirst, hsecond, hyears, hrest]
  have hrests := (isoText_append_inj hsame).1
  have hsplita := Int.emod_add_mul_ediv a eraLength
  have hsplitb := Int.emod_add_mul_ediv b eraLength
  have hnonnega := Int.emod_nonneg a (b := eraLength) (by decide)
  have hnonnegb := Int.emod_nonneg b (b := eraLength) (by decide)
  rw [← hsplita, ← hsplitb, hera]
  omega

end Text

end Lib
