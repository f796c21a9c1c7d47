import ChainSettle.Lib.DayNumber
import ChainSettle.Semantics.Serialization
import Mathlib.Data.List.Dedup

/-!
The volume report of the dashboard. Two queries count shipments by the period that `date_trunc`
gives, and a loop over `Date` values makes one bucket for every period from the first date to the
last one. Amounts are sums in the smallest unit of the token; the figures in units and in US dollars
are floating point and are not modelled.
-/

namespace ChainSettle

open Lib

section Dates

def msPerDay : Int := 86400000

/-- A `Date` that is out of range is invalid. -/
def timeClip (time : Int) : Option Int :=
  if -8640000000000000 ≤ time ∧ time ≤ 8640000000000000 then some time else none

def getUTCDate (time : Int) : Int := dateFromDay (time / msPerDay)

def getUTCMonth (time : Int) : Int := monthFromDay (time / msPerDay)

def getUTCDay (time : Int) : Int := weekDay (time / msPerDay)

/-- `setUTCHours(0, 0, 0, 0)` -/
def startOfUTCDay (time : Int) : Option Int := timeClip (time / msPerDay * msPerDay)

def setUTCDate (time date : Int) : Option Int :=
  let day := time / msPerDay
  timeClip (makeDay (yearFromDay day) (monthFromDay day) date * msPerDay + time % msPerDay)

def setUTCMonth (time month : Int) : Option Int :=
  let day := time / msPerDay
  timeClip (makeDay (yearFromDay day) month (dateFromDay day) * msPerDay + time % msPerDay)

end Dates

inductive ReportInterval where
  | day | week | month
deriving DecidableEq

inductive ReportError where
  | badRequest (message : String)
  | database
deriving DecidableEq

section Queries

/-- `date_trunc` of a timestamp without time zone. A week starts on Monday, and day 0 was a
Thursday. -/
def dateTrunc (interval : ReportInterval) (time : Int) : Int :=
  let day := time / msPerDay
  match interval with
  | .day => day * msPerDay
  | .week => (day - (day + 3) % 7) * msPerDay
  | .month => monthFirst (12 * yearFromDay day + monthFromDay day) * msPerDay

/-- What a `timestamp` can hold: from 4714 BC up to the year 294276. -/
def isTimestamp (time : Int) : Bool := -210866803200000 ≤ time && time < 9224318016000000

def isBigint (n : Int) : Bool := -9223372036854775808 ≤ n && n < 9223372036854775808

/-- `GROUP BY period_start ORDER BY period_start ASC` -/
def groupByPeriod {ρ : Type} (interval : ReportInterval) (time : ρ → Int) (rows : List ρ) :
    List (Int × List ρ) :=
  ((rows.map fun row => dateTrunc interval (time row)).dedup.insertionSort (· ≤ ·)).map
    fun periodStart =>
      (periodStart, rows.filter fun row => dateTrunc interval (time row) = periodStart)

structure CreatedRow where
  periodStart : Int
  shipmentsCreated : Nat
  totalValue : Int
  releasedValue : Int
deriving DecidableEq

structure CompletedRow where
  periodStart : Int
  shipmentsCompleted : Nat
deriving DecidableEq

def ShipmentRow.hasToken (row : ShipmentRow) : Option String → Bool
  | none => true
  | some tokenAddressFilter => row.tokenAddress.toUpper = tokenAddressFilter.toUpper

def ShipmentRow.createdIn (fromDate toDate : Int) (row : ShipmentRow) : Bool :=
  fromDate ≤ row.createdAt && row.createdAt ≤ toDate

def ShipmentRow.completedIn (fromDate toDate : Int) (row : ShipmentRow) : Bool :=
  row.status = .completed && (fromDate ≤ row.updatedAt && row.updatedAt ≤ toDate)

/-- The number of shipments and their amounts by the period they were created in. A sum that is no
`bigint` is an error of the database, as is a date that is no `timestamp`. -/
def createdQuery (shipments : List ShipmentRow) (interval : ReportInterval)
    (tokenAddressFilter : Option String) (fromDate toDate : Int) :
    Except ReportError (List CreatedRow) :=
  let selected := shipments.filter fun row =>
    row.createdIn fromDate toDate && row.hasToken tokenAddressFilter
  let groups := groupByPeriod interval (fun row => row.createdAt) selected
  let rawCreated := groups.map fun group =>
    { periodStart := group.1
      shipmentsCreated := group.2.length
      totalValue := (group.2.map fun row => row.totalAmount).sum
      releasedValue := (group.2.map fun row => row.releasedAmount).sum }
  if isTimestamp fromDate && isTimestamp toDate &&
      rawCreated.all fun row => isBigint row.totalValue && isBigint row.releasedValue then
    .ok rawCreated
  else .error .database

def completedQuery (shipments : List ShipmentRow) (interval : ReportInterval)
    (tokenAddressFilter : Option String) (fromDate toDate : Int) :
    Except ReportError (List CompletedRow) :=
  let selected := shipments.filter fun row =>
    row.completedIn fromDate toDate && row.hasToken tokenAddressFilter
  let groups := groupByPeriod interval (fun row => row.updatedAt) selected
  if isTimestamp fromDate && isTimestamp toDate then
    .ok (groups.map fun group =>
      { periodStart := group.1
        shipmentsCompleted := group.2.length })
  else .error .database

end Queries

section Buckets

/-- `new Date(time).toISOString()` -/
def isoKey (time : Int) : String := String.ofList (isoTextOf time)

structure CreatedData where
  count : Nat
  totalValue : Int
  releasedValue : Int
deriving DecidableEq

def createdMap (rawCreated : List CreatedRow) : Fields String CreatedData :=
  Fields.assign [] (rawCreated.map fun row =>
    (isoKey row.periodStart, ⟨row.shipmentsCreated, row.totalValue, row.releasedValue⟩))

def completedMap (rawCompleted : List CompletedRow) : Fields String Nat :=
  Fields.assign [] (rawCompleted.map fun row => (isoKey row.periodStart, row.shipmentsCompleted))

structure VolumeBucket where
  periodStart : String
  shipmentsCreated : Nat
  shipmentsCompleted : Nat
  totalValue : Int
  releasedValue : Int
deriving DecidableEq

/-- Align `curr` to the start of its period. -/
def alignToPeriod (interval : ReportInterval) (fromDate : Int) : Option Int :=
  match interval with
  | .day => startOfUTCDay fromDate
  | .week => do
      let curr ← startOfUTCDay fromDate
      let day := getUTCDay curr
      let diff := getUTCDate curr - day + (if day = 0 then -6 else 1)
      setUTCDate curr diff
  | .month => do
      let curr ← startOfUTCDay fromDate
      setUTCDate curr 1

/-- Increment `curr`. -/
def nextPeriod (interval : ReportInterval) (curr : Int) : Option Int :=
  match interval with
  | .day => setUTCDate curr (getUTCDate curr + 1)
  | .week => setUTCDate curr (getUTCDate curr + 7)
  | .month => setUTCMonth curr (getUTCMonth curr + 1)

def volumeBucket (created : Fields String CreatedData) (completed : Fields String Nat)
    (curr : Int) : VolumeBucket :=
  let periodIso := isoKey curr
  let createdData := (created.get? periodIso).getD ⟨0, 0, 0⟩
  { periodStart := periodIso
    shipmentsCreated := createdData.count
    shipmentsCompleted := (completed.get? periodIso).getD 0
    totalValue := createdData.totalValue
    releasedValue := createdData.releasedValue }

/-- The milliseconds that are left for the loop. -/
def timeLeft (toDate : Int) : Option Int → Nat
  | none => 0
  | some curr => (toDate + 1 - curr).toNat + 1

theorem setUTCDate_add (time days : Int) :
    setUTCDate time (getUTCDate time + days) = timeClip (time + days * msPerDay) := by
  have hday := makeDay_fields (time / msPerDay)
  unfold makeDay at hday
  have hmake : makeDay (yearFromDay (time / msPerDay)) (monthFromDay (time / msPerDay))
      (getUTCDate time + days) = time / msPerDay + days := by
    unfold makeDay getUTCDate
    omega
  simp only [setUTCDate]
  rw [hmake]
  refine congrArg timeClip ?_
  unfold msPerDay
  omega

/-- The days from the month of an instant to the next one. -/
def daysToNextMonth (time : Int) : Int :=
  let month := months.index (time / msPerDay)
  monthFirst (month + 1) - monthFirst month

theorem setUTCMonth_succ (time : Int) : setUTCMonth time (getUTCMonth time + 1) =
    timeClip (time + daysToNextMonth time * msPerDay) := by
  have hday := makeDay_fields (time / msPerDay)
  have hmake : makeDay (yearFromDay (time / msPerDay)) (getUTCMonth time + 1)
      (dateFromDay (time / msPerDay)) = time / msPerDay + daysToNextMonth time := by
    unfold makeDay at hday ⊢
    have hmonth : 12 * yearFromDay (time / msPerDay) + (getUTCMonth time + 1) =
        12 * yearFromDay (time / msPerDay) + monthFromDay (time / msPerDay) + 1 := by
      unfold getUTCMonth
      omega
    rw [hmonth]
    unfold daysToNextMonth
    simp only [months]
    omega
  simp only [setUTCMonth]
  rw [hmake]
  refine congrArg timeClip ?_
  unfold msPerDay
  omega

/-- The days by which `curr` moves on. -/
def ReportInterval.days (interval : ReportInterval) (curr : Int) : Int :=
  match interval with
  | .day => 1
  | .week => 7
  | .month => daysToNextMonth curr

theorem ReportInterval.days_pos (interval : ReportInterval) (curr : Int) :
    0 < interval.days curr := by
  cases interval with
  | day => exact Int.one_pos
  | week => exact Int.natCast_pos.mpr (Nat.succ_pos 6)
  | month => exact Int.sub_pos_of_lt (monthFirst_lt_succ _)

theorem nextPeriod_eq (interval : ReportInterval) (curr : Int) :
    nextPeriod interval curr = timeClip (curr + interval.days curr * msPerDay) := by
  cases interval with
  | day => exact setUTCDate_add curr 1
  | week => exact setUTCDate_add curr 7
  | month => exact setUTCMonth_succ curr

theorem timeLeft_nextPeriod_lt (interval : ReportInterval) {toDate curr : Int}
    (h : curr ≤ toDate) : timeLeft toDate (nextPeriod interval curr) < timeLeft toDate (some curr) := by
  have hpos := interval.days_pos curr
  rw [nextPeriod_eq]
  unfold timeClip
  split
  · simp only [timeLeft, msPerDay]
    omega
  · exact Nat.succ_pos _

/-- The buckets from `curr` on. An invalid date is not `<=` anything. -/
def fillBuckets (interval : ReportInterval) (toDate : Int) (created : Fields String CreatedData)
    (completed : Fields String Nat) : Option Int → List VolumeBucket
  | none => []
  | some curr =>
      if curr ≤ toDate then
        volumeBucket created completed curr ::
          fillBuckets interval toDate created completed (nextPeriod interval curr)
      else []
termination_by curr => timeLeft toDate curr
decreasing_by exact timeLeft_nextPeriod_lt interval ‹_›

end Buckets

/-- The buckets of a report for two dates, without a cached one. -/
def volumeBuckets (interval : ReportInterval) (fromDate toDate : Int)
    (rawCreated : List CreatedRow) (rawCompleted : List CompletedRow) : List VolumeBucket :=
  fillBuckets interval toDate (createdMap rawCreated) (completedMap rawCompleted)
    (alignToPeriod interval fromDate)

/-- Two years -/
def maxReportMs : Int := 2 * 365 * 24 * 60 * 60 * 1000

def getVolumeReport (shipments : List ShipmentRow) (interval : ReportInterval)
    (tokenAddressFilter : Option String) (fromDate toDate : Int) :
    Except ReportError (List VolumeBucket) := do
  if fromDate > toDate then
    throw (.badRequest "\"from\" date must be before or equal to \"to\" date")
  if toDate - fromDate > maxReportMs then
    throw (.badRequest "Date range cannot exceed 2 years")
  let rawCreated ← createdQuery shipments interval tokenAddressFilter fromDate toDate
  let rawCompleted ← completedQuery shipments interval tokenAddressFilter fromDate toDate
  return volumeBuckets interval fromDate toDate rawCreated rawCompleted

end ChainSettle
