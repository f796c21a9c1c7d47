import ChainSettle.Lib.Answer
import ChainSettle.Semantics.Dashboard

/-!
The buckets of the volume report are the periods of `date_trunc`. The dates that the loop goes
through are the starts of the periods, one after the other, so each row of the two queries is found
by one bucket and every shipment is counted in it.
-/

namespace ChainSettle

open Lib

section Periods

def daily : Periods where
  cut i := i
  index t := t
  cut_lt_succ := Int.lt_succ
  cut_index_le := le_refl
  lt_cut_index_succ := Int.lt_succ

/-- Day -3 was a Monday. -/
def weekly : Periods where
  cut i := 7 * i - 3
  index t := (t + 3) / 7
  cut_lt_succ i := by omega
  cut_index_le t := by omega
  lt_cut_index_succ t := by omega

def ReportInterval.calendar : ReportInterval → Periods
  | .day => daily
  | .week => weekly
  | .month => months

def ReportInterval.periods (interval : ReportInterval) : Periods :=
  interval.calendar.scale msPerDay (by decide)

theorem dateTrunc_eq (interval : ReportInterval) (time : Int) :
    dateTrunc interval time = interval.periods.start time := by
  cases interval with
  | day => rfl
  | week =>
      change (time / msPerDay - (time / msPerDay + 3) % 7) * msPerDay =
        (7 * ((time / msPerDay + 3) / 7) - 3) * msPerDay
      congr 1
      omega
  | month => rfl

theorem nextPeriod_cut (interval : ReportInterval) (i : Int) :
    nextPeriod interval (interval.periods.cut i) = timeClip (interval.periods.cut (i + 1)) := by
  rw [nextPeriod_eq]
  refine congrArg timeClip ?_
  cases interval with
  | day =>
      change i * msPerDay + 1 * msPerDay = (i + 1) * msPerDay
      rw [Int.add_mul]
  | week =>
      change (7 * i - 3) * msPerDay + 7 * msPerDay = (7 * (i + 1) - 3) * msPerDay
      rw [← Int.add_mul]
      congr 1
      omega
  | month =>
      change monthFirst i * msPerDay + daysToNextMonth (monthFirst i * msPerDay) * msPerDay =
        monthFirst (i + 1) * msPerDay
      have hday : monthFirst i * msPerDay / msPerDay = monthFirst i :=
        Int.mul_ediv_cancel _ (by decide)
      have hindex : months.index (monthFirst i) = i := months.index_cut i
      simp only [daysToNextMonth]
      rw [hday, hindex, ← Int.add_mul]
      congr 1
      omega

theorem timeClip_eq_some_iff {time clipped : Int} : timeClip time = some clipped ↔
    clipped = time ∧ -8640000000000000 ≤ time ∧ time ≤ 8640000000000000 := by
  unfold timeClip
  rw [Option.ite_none_right_eq_some, Option.some_inj]
  exact ⟨fun ⟨hrange, heq⟩ => ⟨heq.symm, hrange⟩, fun ⟨heq, hrange⟩ => ⟨hrange, heq.symm⟩⟩

theorem timeClip_of_range {time : Int} (hfirst : -8640000000000000 ≤ time)
    (hlast : time ≤ 8640000000000000) : timeClip time = some time :=
  timeClip_eq_some_iff.mpr ⟨rfl, hfirst, hlast⟩

/-- The day of a date is a date. -/
theorem startOfUTCDay_eq {time : Int} (h : timeClip time = some time) :
    startOfUTCDay time = some (time / msPerDay * msPerDay) := by
  obtain ⟨-, hfirst, hlast⟩ := timeClip_eq_some_iff.mp h
  unfold msPerDay
  exact timeClip_of_range (by unfold msPerDay; omega) (by unfold msPerDay; omega)

theorem alignToPeriod_eq (interval : ReportInterval) {fromDate : Int}
    (h : timeClip fromDate = some fromDate) :
    alignToPeriod interval fromDate = timeClip (interval.periods.start fromDate) := by
  have hday : fromDate / msPerDay * msPerDay / msPerDay = fromDate / msPerDay :=
    Int.mul_ediv_cancel _ (by decide)
  have hrest : fromDate / msPerDay * msPerDay % msPerDay = 0 := Int.mul_emod_left ..
  cases interval with
  | day => rfl
  | week =>
      simp only [alignToPeriod]
      rw [startOfUTCDay_eq h, Option.bind_eq_bind, Option.bind_some]
      generalize hdiff : (if getUTCDay (fromDate / msPerDay * msPerDay) = 0 then (-6 : Int) else 1) =
        diff
      rw [Int.sub_eq_add_neg, Int.add_assoc, setUTCDate_add, ← Int.add_mul]
      change timeClip _ = timeClip ((7 * ((fromDate / msPerDay + 3) / 7) - 3) * msPerDay)
      congr 2
      unfold getUTCDay weekDay at hdiff ⊢
      rw [hday] at hdiff ⊢
      split at hdiff
      · omega
      · omega
  | month =>
      simp only [alignToPeriod]
      rw [startOfUTCDay_eq h, Option.bind_eq_bind, Option.bind_some]
      simp only [setUTCDate, makeDay]
      rw [hday, hrest]
      congr 1
      rw [Int.add_zero, Int.sub_self, Int.add_zero]
      rfl

theorem start_gt (interval : ReportInterval) (time : Int) :
    time - 31 * msPerDay < interval.periods.start time := by
  have hnext := interval.periods.lt_cut_index_succ time
  have hlength : interval.periods.cut (interval.periods.index time + 1) ≤
      interval.periods.start time + 31 * msPerDay := by
    generalize hindex : interval.periods.index time = i
    unfold Periods.start
    rw [hindex]
    change interval.calendar.cut (i + 1) * msPerDay ≤ interval.calendar.cut i * msPerDay + _
    have hdays : interval.calendar.cut (i + 1) ≤ interval.calendar.cut i + 31 := by
      cases interval with
      | day => exact Int.add_le_add_left (by decide) i
      | week =>
          change 7 * (i + 1) - 3 ≤ 7 * i - 3 + 31
          omega
      | month => exact monthFirst_succ_le i
    rw [← Int.add_mul]
    exact Int.mul_le_mul_of_nonneg_right hdays (by decide)
  omega

/-- The first bucket is the period of the first date, and its start is a date. -/
theorem alignToPeriod_of_timestamp (interval : ReportInterval) {fromDate : Int}
    (h : timeClip fromDate = some fromDate) (htimestamp : isTimestamp fromDate) :
    alignToPeriod interval fromDate = some (interval.periods.start fromDate) := by
  obtain ⟨-, -, hlast⟩ := timeClip_eq_some_iff.mp h
  have hle := interval.periods.cut_index_le fromDate
  have hgt := start_gt interval fromDate
  have hfirst : -210866803200000 ≤ fromDate :=
    of_decide_eq_true ((Bool.and_eq_true ..).mp htimestamp).1
  rw [alignToPeriod_eq interval h]
  unfold msPerDay at hgt
  exact timeClip_of_range (by omega) (hle.trans hlast)

end Periods

section Loop

variable {interval : ReportInterval} {toDate : Int} {created : Fields String CreatedData}
  {completed : Fields String Nat}

theorem fillBuckets_none : fillBuckets interval toDate created completed none = [] := by
  rw [fillBuckets]

theorem fillBuckets_of_le {curr : Int} (h : curr ≤ toDate) :
    fillBuckets interval toDate created completed (some curr) =
      volumeBucket created completed curr ::
        fillBuckets interval toDate created completed (nextPeriod interval curr) := by
  rw [fillBuckets, if_pos h]

theorem fillBuckets_of_lt {curr : Int} (h : toDate < curr) :
    fillBuckets interval toDate created completed (some curr) = [] := by
  rw [fillBuckets, if_neg (not_le.mpr h)]

/-- The loop goes through the starts of the periods up to the last date. -/
theorem fillBuckets_cut (h : timeClip toDate = some toDate) {i : Int}
    (hfirst : -8640000000000000 ≤ interval.periods.cut i) :
    fillBuckets interval toDate created completed (timeClip (interval.periods.cut i)) =
      (interval.periods.cutsFrom i toDate).map (volumeBucket created completed) := by
  obtain ⟨-, -, hlast⟩ := timeClip_eq_some_iff.mp h
  generalize hleft : (interval.periods.index toDate + 1 - i).toNat = left
  induction left generalizing i with
  | zero =>
      have hafter : toDate < interval.periods.cut i := by
        rw [← not_le, interval.periods.cut_le_iff]
        omega
      rw [interval.periods.cutsFrom_of_lt hafter, List.map_nil]
      unfold timeClip
      split
      · exact fillBuckets_of_lt hafter
      · exact fillBuckets_none
  | succ left ih =>
      have hbefore : interval.periods.cut i ≤ toDate := by
        rw [interval.periods.cut_le_iff]
        omega
      rw [timeClip_of_range hfirst (hbefore.trans hlast), fillBuckets_of_le hbefore,
        interval.periods.cutsFrom_of_le hbefore, List.map_cons, nextPeriod_cut]
      refine congrArg _ (ih (hfirst.trans (interval.periods.cut_lt_succ i).le) ?_)
      omega

end Loop

section Queries

theorem isoKey_injective : Function.Injective isoKey := fun _ _ h =>
  isoTextOf_injective (String.ofList_injective h)

/-- The periods of some rows. -/
def periodsOf {ρ : Type} (interval : ReportInterval) (time : ρ → Int) (rows : List ρ) : List Int :=
  (rows.map fun row => dateTrunc interval (time row)).dedup.insertionSort (· ≤ ·)

variable {ρ : Type} {interval : ReportInterval} {time : ρ → Int} {rows : List ρ}

theorem mem_periodsOf {periodStart : Int} : periodStart ∈ periodsOf interval time rows ↔
    ∃ row ∈ rows, dateTrunc interval (time row) = periodStart := by
  unfold periodsOf
  rw [List.mem_insertionSort, List.mem_dedup, List.mem_map]

theorem periodsOf_nodup : (periodsOf interval time rows).Nodup :=
  (List.perm_insertionSort _ _).nodup_iff.mpr (List.nodup_dedup _)

/-- A map from the periods of some rows, read with the key of a period. -/
theorem get?_groupByPeriod {α : Type} (value : Int → List ρ → α) (periodStart : Int) :
    Fields.get? (Fields.assign [] ((groupByPeriod interval time rows).map fun group =>
        (isoKey group.1, value group.1 group.2))) (isoKey periodStart) =
      if periodStart ∈ periodsOf interval time rows then
        some (value periodStart (rows.filter fun row => dateTrunc interval (time row) = periodStart))
      else none := by
  have hentries : ((groupByPeriod interval time rows).map fun group =>
        (isoKey group.1, value group.1 group.2)) =
      (periodsOf interval time rows).map fun periodStart => (isoKey periodStart,
        value periodStart (rows.filter fun row => dateTrunc interval (time row) = periodStart)) :=
    List.map_map
  have hnodup : (((periodsOf interval time rows).map fun periodStart => (isoKey periodStart,
      value periodStart (rows.filter fun row =>
        dateTrunc interval (time row) = periodStart))).map Prod.fst).Nodup := by
    rw [List.map_map]
    exact periodsOf_nodup.map isoKey_injective
  rw [hentries, Fields.get?_assign hnodup, Fields.get?_nil, Option.or_none,
    Fields.get?_map_key isoKey_injective]

/-- A count of the rows of a period, which is 0 for a period without rows. -/
theorem count_groupByPeriod {α : Type} {value : Int → List ρ → α} {count : α → Nat} {default : α}
    (hvalue : ∀ periodStart group, count (value periodStart group) = group.length)
    (hdefault : count default = 0) (periodStart : Int) :
    count ((Fields.get? (Fields.assign [] ((groupByPeriod interval time rows).map fun group =>
        (isoKey group.1, value group.1 group.2))) (isoKey periodStart)).getD default) =
      (rows.filter fun row => dateTrunc interval (time row) = periodStart).length := by
  rw [get?_groupByPeriod]
  split
  · exact hvalue _ _
  · have hnone : (rows.filter fun row => dateTrunc interval (time row) = periodStart) = [] := by
      rw [List.filter_eq_nil_iff]
      intro row hrow htrunc
      exact absurd (mem_periodsOf.mpr ⟨row, hrow, of_decide_eq_true htrunc⟩) ‹_›
    rw [hnone]
    exact hdefault

theorem mem_groupByPeriod {group : Int × List ρ} (h : group ∈ groupByPeriod interval time rows) :
    ∃ row ∈ rows, dateTrunc interval (time row) = group.1 := by
  obtain ⟨periodStart, hperiod, rfl⟩ := List.mem_map.mp h
  exact mem_periodsOf.mp hperiod

/-- Buckets for all periods of some rows count all rows. -/
theorem sum_groupByPeriod {α : Type} (value : Int → List ρ → α) (count : α → Nat) (default : α)
    (hvalue : ∀ periodStart group, count (value periodStart group) = group.length)
    (hdefault : count default = 0) {starts : List Int} (hnodup : starts.Nodup)
    (hstarts : ∀ row ∈ rows, dateTrunc interval (time row) ∈ starts) :
    (starts.map fun start => count ((Fields.get? (Fields.assign []
        ((groupByPeriod interval time rows).map fun group =>
          (isoKey group.1, value group.1 group.2))) (isoKey start)).getD default)).sum =
      rows.length := by
  rw [← sum_length_filter hnodup hstarts]
  refine congrArg List.sum (List.map_congr_left fun start _ => ?_)
  exact count_groupByPeriod hvalue hdefault start

theorem createdQuery_eq {shipments : List ShipmentRow} {fromDate toDate : Int}
    {rawCreated : List CreatedRow}
    (h : createdQuery shipments interval none fromDate toDate = .ok rawCreated) :
    isTimestamp fromDate ∧
      rawCreated = (groupByPeriod interval (fun row => (row.createdAt : Int))
        (shipments.filter (ShipmentRow.createdIn fromDate toDate))).map fun group =>
          { periodStart := group.1
            shipmentsCreated := group.2.length
            totalValue := (group.2.map fun row => row.totalAmount).sum
            releasedValue := (group.2.map fun row => row.releasedAmount).sum } := by
  simp only [createdQuery, ShipmentRow.hasToken, Bool.and_true] at h
  split at h
  · rename_i hchecks
    simp only [Bool.and_eq_true] at hchecks
    exact ⟨hchecks.1.1, (Except.ok.inj h).symm⟩
  · cases h

theorem completedQuery_eq {shipments : List ShipmentRow} {fromDate toDate : Int}
    {rawCompleted : List CompletedRow}
    (h : completedQuery shipments interval none fromDate toDate = .ok rawCompleted) :
    rawCompleted = (groupByPeriod interval (fun row => (row.updatedAt : Int))
      (shipments.filter (ShipmentRow.completedIn fromDate toDate))).map fun group =>
        { periodStart := group.1
          shipmentsCompleted := group.2.length } := by
  simp only [completedQuery, ShipmentRow.hasToken, Bool.and_true] at h
  split at h
  · exact (Except.ok.inj h).symm
  · cases h

end Queries

section Report

/-- Every shipment of the dates is in one bucket of the report, and the buckets are the periods of
the dates. -/
structure CompleteReport (shipments : List ShipmentRow) (interval : ReportInterval)
    (fromDate toDate : Int) (rawCreated : List CreatedRow) (rawCompleted : List CompletedRow)
    (buckets : List VolumeBucket) (starts : List Int) : Prop where
  periodStarts : buckets.map VolumeBucket.periodStart = starts.map isoKey
  increasing : starts.Pairwise (· < ·)
  truncations : ∀ periodStart, periodStart ∈ starts ↔
    ∃ time, fromDate ≤ time ∧ time ≤ toDate ∧ dateTrunc interval time = periodStart
  createdKeys : ∀ row ∈ rawCreated,
    (buckets.filter fun bucket => bucket.periodStart = isoKey row.periodStart).length = 1
  completedKeys : ∀ row ∈ rawCompleted,
    (buckets.filter fun bucket => bucket.periodStart = isoKey row.periodStart).length = 1
  created : (buckets.map VolumeBucket.shipmentsCreated).sum =
    (shipments.filter fun row => fromDate ≤ row.createdAt ∧ row.createdAt ≤ toDate).length
  completed : (buckets.map VolumeBucket.shipmentsCompleted).sum =
    (shipments.filter fun row => row.status = .completed ∧
      fromDate ≤ row.updatedAt ∧ row.updatedAt ≤ toDate).length

variable {ρ : Type} {interval : ReportInterval} {time : ρ → Int} {rows : List ρ}
  {fromDate toDate : Int}

/-- The periods of rows between two dates are among the periods between them. -/
theorem periodsOf_subset (interval : ReportInterval) (hle : fromDate ≤ toDate)
    (h : ∀ row ∈ rows, fromDate ≤ time row ∧ time row ≤ toDate) :
    ∀ row ∈ rows, dateTrunc interval (time row) ∈
      interval.periods.cutsFrom (interval.periods.index fromDate) toDate := by
  intro row hrow
  rw [interval.periods.mem_cutsFrom_start hle]
  exact ⟨time row, (h row hrow).1, (h row hrow).2, (dateTrunc_eq interval _).symm⟩

/-- One bucket has the key of a period. -/
theorem bucket_of_key {created : Fields String CreatedData} {completed : Fields String Nat}
    {starts : List Int} (hnodup : starts.Nodup) {periodStart : Int} (h : periodStart ∈ starts) :
    ((starts.map (volumeBucket created completed)).filter fun bucket =>
      bucket.periodStart = isoKey periodStart).length = 1 := by
  rw [List.filter_map, List.length_map]
  have hkeys : starts.filter ((fun bucket : VolumeBucket =>
      decide (bucket.periodStart = isoKey periodStart)) ∘ volumeBucket created completed) =
      starts.filter fun start => start == periodStart :=
    List.filter_congr fun start _ => by
      simp only [Function.comp_apply, volumeBucket, isoKey_injective.eq_iff]
      rfl
  rw [hkeys, ← List.countP_eq_length_filter]
  exact List.count_eq_one_of_mem hnodup h

theorem mem_createdIn (shipments : List ShipmentRow) (row : ShipmentRow)
    (h : row ∈ shipments.filter (ShipmentRow.createdIn fromDate toDate)) :
    fromDate ≤ row.createdAt ∧ (row.createdAt : Int) ≤ toDate := by
  simpa [ShipmentRow.createdIn] using (List.mem_filter.mp h).2

theorem mem_completedIn (shipments : List ShipmentRow) (row : ShipmentRow)
    (h : row ∈ shipments.filter (ShipmentRow.completedIn fromDate toDate)) :
    fromDate ≤ row.updatedAt ∧ (row.updatedAt : Int) ≤ toDate := by
  have hrow := (List.mem_filter.mp h).2
  simp only [ShipmentRow.completedIn, Bool.and_eq_true, decide_eq_true_eq] at hrow
  exact hrow.2

/-- The report is complete for any two dates in order, if the queries answer. -/
theorem volume_report_complete (interval : ReportInterval) (shipments : List ShipmentRow)
    {fromDate toDate : Int} (hfrom : timeClip fromDate = some fromDate)
    (hto : timeClip toDate = some toDate) (hle : fromDate ≤ toDate)
    {rawCreated : List CreatedRow} {rawCompleted : List CompletedRow}
    (hcreated : createdQuery shipments interval none fromDate toDate = .ok rawCreated)
    (hcompleted : completedQuery shipments interval none fromDate toDate = .ok rawCompleted) :
    (∃ starts, CompleteReport shipments interval fromDate toDate rawCreated rawCompleted
      (volumeBuckets interval fromDate toDate rawCreated rawCompleted) starts) ∧
    (toDate - fromDate ≤ maxReportMs → getVolumeReport shipments interval none fromDate toDate =
      .ok (volumeBuckets interval fromDate toDate rawCreated rawCompleted)) := by
  obtain ⟨htimestamp, hrawCreated⟩ := createdQuery_eq hcreated
  have hrawCompleted := completedQuery_eq hcompleted
  have halign := alignToPeriod_of_timestamp interval hfrom htimestamp
  obtain ⟨halign', hfirst, -⟩ := timeClip_eq_some_iff.mp
    ((alignToPeriod_eq interval hfrom).symm.trans halign)
  let starts := interval.periods.cutsFrom (interval.periods.index fromDate) toDate
  have hincreasing : starts.Pairwise (· < ·) := interval.periods.cutsFrom_pairwise _ _
  have hnodup : starts.Nodup := hincreasing.imp fun hlt => ne_of_lt hlt
  have hbuckets : volumeBuckets interval fromDate toDate rawCreated rawCompleted =
      starts.map (volumeBucket (createdMap rawCreated) (completedMap rawCompleted)) := by
    unfold volumeBuckets
    rw [alignToPeriod_eq interval hfrom]
    exact fillBuckets_cut hto hfirst
  have hcreatedIn := periodsOf_subset interval hle (mem_createdIn shipments)
  have hcompletedIn := periodsOf_subset interval hle (mem_completedIn shipments)
  refine ⟨⟨starts, ?_⟩, ?_⟩
  · rw [hbuckets]
    constructor
    case periodStarts => exact List.map_map
    case increasing => exact hincreasing
    case truncations =>
      intro periodStart
      simp only [dateTrunc_eq]
      exact interval.periods.mem_cutsFrom_start hle
    case createdKeys =>
      intro row hrow
      rw [hrawCreated] at hrow
      obtain ⟨group, hgroup, rfl⟩ := List.mem_map.mp hrow
      obtain ⟨shipment, hshipment, hperiod⟩ := mem_groupByPeriod hgroup
      exact bucket_of_key hnodup (hperiod ▸ hcreatedIn shipment hshipment)
    case completedKeys =>
      intro row hrow
      rw [hrawCompleted] at hrow
      obtain ⟨group, hgroup, rfl⟩ := List.mem_map.mp hrow
      obtain ⟨shipment, hshipment, hperiod⟩ := mem_groupByPeriod hgroup
      exact bucket_of_key hnodup (hperiod ▸ hcompletedIn shipment hshipment)
    case created =>
      rw [List.map_map, hrawCreated]
      unfold createdMap
      rw [List.map_map]
      have hsum := sum_groupByPeriod (fun _ group => ⟨group.length,
        (group.map fun row => row.totalAmount).sum, (group.map fun row => row.releasedAmount).sum⟩)
        CreatedData.count ⟨0, 0, 0⟩ (fun _ _ => rfl) rfl hnodup hcreatedIn
      refine Eq.trans ?_ (hsum.trans (congrArg List.length ?_))
      · rfl
      · exact List.filter_congr fun row _ => by simp [ShipmentRow.createdIn]
    case completed =>
      rw [List.map_map, hrawCompleted]
      unfold completedMap
      rw [List.map_map]
      refine (sum_groupByPeriod (fun _ group => group.length) id 0 (fun _ _ => rfl)
        rfl hnodup hcompletedIn).trans (congrArg List.length ?_)
      exact List.filter_congr fun row _ => by simp [ShipmentRow.completedIn]
  · intro hlength
    unfold getVolumeReport
    rw [if_neg (not_lt.mpr hle), if_neg (not_lt.mpr hlength), hcreated, hcompleted]
    rfl

/-- Created in the last millisecond of February, and settled in March. -/
def februaryShipment : ShipmentRow where
  id := "s1"
  buyerAddress := "GBUYER"
  supplierAddress := "GSUPPLIER"
  logisticsAddress := "GLOGISTICS"
  releasedAmount := 100
  status := .completed
  requiredApprovals := none
  cancelledAt := none
  refundTxHash := none
  totalAmount := 100
  txHash := none
  tokenDecimals := 7
  arbiterAddress := "GARBITER"
  arbiterStatus := .accepted
  tokenAddress := "CTOKEN"
  tokenSymbol := "USDC"
  referenceNumber := none
  isDraft := false
  createdLedger := none
  description := none
  metadata := none
  tags := []
  expectedDeliveryAt := none
  createdAt := 5097599999
  updatedAt := 5184000000

theorem february_report_complete :
    (∃ starts, CompleteReport [februaryShipment] .month 1209600000 5443200000
      [⟨2678400000, 1, 100, 100⟩] [⟨5097600000, 1⟩]
      (volumeBuckets .month 1209600000 5443200000 [⟨2678400000, 1, 100, 100⟩] [⟨5097600000, 1⟩])
      starts) ∧
    (5443200000 - 1209600000 ≤ maxReportMs →
      getVolumeReport [februaryShipment] .month none 1209600000 5443200000 =
        .ok (volumeBuckets .month 1209600000 5443200000 [⟨2678400000, 1, 100, 100⟩]
          [⟨5097600000, 1⟩])) :=
  volume_report_complete .month [februaryShipment] rfl rfl (by decide) (by decide +kernel)
    (by decide +kernel)

end Report

end ChainSettle
