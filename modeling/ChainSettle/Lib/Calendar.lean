import ChainSettle.Lib.Text
import Mathlib.Order.Monotone.Basic

/-!
Dates of the proleptic Gregorian calendar and `Date.prototype.toISOString`. A
date is given by its milliseconds since the start of 1970. The text of a date
ends itself: whatever is written after it, the date and the rest can be read
back.
-/

namespace Lib

def isLeapYear (year : Nat) : Bool :=
  year % 4 = 0 && (year % 100 ≠ 0 || year % 400 = 0)

def monthLength (year : Nat) : Nat → Nat
  | 2 => if isLeapYear year then 29 else 28
  | 4 | 6 | 9 | 11 => 30
  | _ => 31

theorem monthLength_le (year month : Nat) : monthLength year month ≤ 31 := by
  unfold monthLength
  split
  · split <;> decide
  · decide
  · decide
  · decide
  · decide
  · decide

theorem one_le_monthLength (year month : Nat) : 1 ≤ monthLength year month := by
  unfold monthLength
  split
  · split <;> decide
  · decide
  · decide
  · decide
  · decide
  · decide

structure CivilDate where
  year : Nat
  month : Nat
  day : Nat
  month_le : month ≤ 12
  day_pos : 1 ≤ day
  day_le : day ≤ 31

namespace CivilDate

/-- The day after. -/
def next (date : CivilDate) : CivilDate :=
  if h : date.day < monthLength date.year date.month then
    { date with
      day := date.day + 1
      day_pos := Nat.le_add_left 1 date.day
      day_le := h.trans_le (monthLength_le date.year date.month) }
  else if h : date.month < 12 then
    ⟨date.year, date.month + 1, 1, h, le_refl 1, by decide⟩
  else
    ⟨date.year + 1, 1, 1, by decide, le_refl 1, by decide⟩

/-- Orders the dates as if every month had 31 days. -/
def ordinal (date : CivilDate) : Nat :=
  (date.year * 12 + date.month) * 31 + date.day

theorem ordinal_lt_next (date : CivilDate) : date.ordinal < date.next.ordinal := by
  have hmonth := date.month_le
  have hpos := date.day_pos
  have hday := date.day_le
  unfold next
  split
  · simp only [ordinal]
    omega
  · split
    · simp only [ordinal]
      omega
    · simp only [ordinal]
      omega

end CivilDate

/-- The date so many days after 1 January 1970. -/
def civil : Nat → CivilDate
  | 0 => ⟨1970, 1, 1, by decide, le_refl 1, by decide⟩
  | days + 1 => (civil days).next

/-- No date has a day that its month has not. -/
theorem day_civil_le (days : Nat) :
    (civil days).day ≤ monthLength (civil days).year (civil days).month := by
  induction days with
  | zero => decide
  | succ days ih =>
      simp only [civil, CivilDate.next]
      split
      · rename_i hmore
        exact hmore
      · split
        · exact one_le_monthLength _ _
        · exact one_le_monthLength _ _

theorem civil_injective : Function.Injective civil := by
  have hmono : StrictMono fun days => (civil days).ordinal :=
    strictMono_nat_of_lt_succ fun days => (civil days).ordinal_lt_next
  exact fun a b h => hmono.injective (congrArg CivilDate.ordinal h)

/-- Four digits, or a sign and six. -/
def isoYear (year : Nat) : List Char :=
  if year < 10000 then decimal 4 year else '+' :: decimal 6 year

theorem isoYear_append_inj {a b : Nat} {x y : List Char}
    (h : isoYear a ++ '-' :: x = isoYear b ++ '-' :: y) : a = b ∧ x = y := by
  have hsign {n m : Nat} {u v : List Char}
      (hboth : decimal 4 n ++ '-' :: u = '+' :: v) : n = m := by
    obtain ⟨-, hminus, -⟩ := append_cons_inj (p := fun e : Char => e.isDigit)
      (b := []) (fun _ he => isDigit_of_mem_decimal he) (by simp) (by decide) (by decide) hboth
    exact absurd hminus (by decide)
  unfold isoYear at h
  split at h
  · split at h
    · obtain ⟨hyear, -, hrest⟩ := decimal_append_inj (by decide) (by decide) h
      exact ⟨hyear, hrest⟩
    · exact absurd (hsign h (m := a + 1)) (by omega)
  · split at h
    · exact absurd (hsign h.symm (m := b + 1)) (by omega)
    · obtain ⟨hyear, -, hrest⟩ := decimal_append_inj (by decide) (by decide) (List.cons.inj h).2
      exact ⟨hyear, hrest⟩

/-- The characters of `new Date(ms).toISOString()`. -/
def isoText (ms : Nat) : List Char :=
  let date := civil (ms / 86400000)
  let time := ms % 86400000
  isoYear date.year ++ '-' :: (decimal 2 date.month ++ '-' :: (decimal 2 date.day ++ 'T' ::
    (decimal 2 (time / 3600000) ++ ':' :: (decimal 2 (time / 60000 % 60) ++ ':' ::
      (decimal 2 (time / 1000 % 60) ++ '.' :: (decimal 3 (time % 1000) ++ ['Z']))))))

def toISOString (ms : Nat) : String := String.ofList (isoText ms)

/-- The date and what follows it can be read back. -/
theorem isoText_append_inj {a b : Nat} {x y : List Char}
    (h : isoText a ++ x = isoText b ++ y) : a = b ∧ x = y := by
  simp only [isoText, List.append_assoc, List.cons_append, List.nil_append] at h
  obtain ⟨hyear, h⟩ := isoYear_append_inj h
  obtain ⟨hmonth, -, h⟩ := decimal_append_inj (by decide) (by decide) h
  obtain ⟨hday, -, h⟩ := decimal_append_inj (by decide) (by decide) h
  obtain ⟨hhour, -, h⟩ := decimal_append_inj (by decide) (by decide) h
  obtain ⟨hminute, -, h⟩ := decimal_append_inj (by decide) (by decide) h
  obtain ⟨hsecond, -, h⟩ := decimal_append_inj (by decide) (by decide) h
  obtain ⟨hmilli, -, h⟩ := decimal_append_inj (by decide) (by decide) h
  have hdate : civil (a / 86400000) = civil (b / 86400000) := by
    generalize civil (a / 86400000) = first at hyear hmonth hday ⊢
    generalize civil (b / 86400000) = second at hyear hmonth hday ⊢
    cases first
    cases second
    simp_all
  have hdays := civil_injective hdate
  exact ⟨by omega, h⟩

example : toISOString 5097599999 = "1970-02-28T23:59:59.999Z" := by
  decide +kernel

/-- The milliseconds of 400 years, after which the calendar repeats. -/
def eraLength : Nat := 146097 * 86400000

/-- Years from 0 to 9999 have no sign. -/
def isoSignedYear : Int → List Char
  | .ofNat year => isoYear year
  | .negSucc year => '-' :: decimal 6 (year + 1)

/-- `isoText` for any date, from the one in the 400 years after 1970 that only differs in the
year. -/
def isoTextOf (ms : Int) : List Char :=
  let rest := (ms % eraLength).toNat
  isoSignedYear ((civil (rest / 86400000)).year + 400 * (ms / eraLength)) ++ (isoText rest).drop 4

theorem return_not_mem_isoTextOf (ms : Int) : '\r' ∉ isoTextOf ms := by
  have hdigits (width n : Nat) : '\r' ∉ decimal width n := fun hmem =>
    absurd (isDigit_of_mem_decimal hmem) (by decide)
  have hyear (year : Nat) : '\r' ∉ isoYear year := by
    unfold isoYear
    split
    · exact hdigits _ _
    · exact fun hmem => (List.mem_cons.mp hmem).elim (by decide) (hdigits _ _)
  have hsigned (year : Int) : '\r' ∉ isoSignedYear year := by
    cases year with
    | ofNat year => exact hyear year
    | negSucc year => exact fun hmem => (List.mem_cons.mp hmem).elim (by decide) (hdigits _ _)
  have htext (rest : Nat) : '\r' ∉ isoText rest := by
    simp [isoText, hyear, hdigits]
  unfold isoTextOf
  rw [List.mem_append, not_or]
  exact ⟨hsigned _, fun hmem => htext _ (List.mem_of_mem_drop hmem)⟩

end Lib
