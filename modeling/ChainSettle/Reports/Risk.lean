import ChainSettle.Semantics.Serialization

/-!
The risk of a shipment: counts of what is overdue, disputed, silent or not verified, a level that
is derived from them, and a reason for each. The level compares the counts with thresholds; that
time can only raise it, and that it is low exactly where there is no reason, depend on which
thresholds these are.
-/

namespace ChainSettle

section Risk

inductive RiskLevel where
  | low | medium | high
deriving DecidableEq

def RiskLevel.rank : RiskLevel → Nat
  | .low => 0
  | .medium => 1
  | .high => 2

structure RiskThresholds where
  highOpenDisputes : Int
  highOverdueMilestones : Int
  highInactiveDays : Int
  mediumInactiveDays : Int
deriving DecidableEq

def DEFAULT_RISK_THRESHOLDS : RiskThresholds where
  highOpenDisputes := 1
  highOverdueMilestones := 2
  highInactiveDays := 30
  mediumInactiveDays := 14

structure RiskMilestone where
  status : MilestoneStatus
  dueAt : Option Int
  deletedAt : Option Int
  createdAt : Option Int
  updatedAt : Option Int
deriving DecidableEq

structure RiskShipment where
  id : String
  arbiterStatus : Option ArbiterStatus
  createdAt : Option Int
  updatedAt : Option Int
  milestones : List RiskMilestone
  /-- when each was created -/
  trackingUpdates : List (Option Int)
  comments : List (Option Int)
  /-- the KYC status of each of the four, if there is such a user -/
  buyer : Option KycStatus
  supplier : Option KycStatus
  logistics : Option KycStatus
  arbiter : Option KycStatus

structure RiskIndicators where
  overdueMilestones : Nat
  openDisputes : Nat
  arbiterNotAccepted : Bool
  daysSinceLastActivity : Nat
  unverifiedCounterparties : Nat
deriving DecidableEq

structure ShipmentRiskResult where
  shipmentId : String
  level : RiskLevel
  reasons : List String
  indicators : RiskIndicators
  evaluatedAt : Int
deriving DecidableEq

def RiskMilestone.overdue (m : RiskMilestone) (now : Int) : Bool :=
  if m.deletedAt.isSome then false
  else if m.status = .confirmed ∨ m.status = .resolved then false
  else m.dueAt.any fun dueAt => dueAt < now

def RiskShipment.activityTimestamps (shipment : RiskShipment) : List Int :=
  shipment.milestones.flatMap (fun m => m.updatedAt.toList ++ m.createdAt.toList) ++
    (shipment.trackingUpdates.flatMap Option.toList ++ shipment.comments.flatMap Option.toList)

/-- `Math.max` of the timestamps, the first of which is the shipment's own. -/
def RiskShipment.latestActivityTimestamp (shipment : RiskShipment) (now : Int) : Int :=
  shipment.activityTimestamps.foldl max ((shipment.updatedAt.or shipment.createdAt).getD now)

def RiskShipment.indicators (shipment : RiskShipment) (now : Int) : RiskIndicators where
  overdueMilestones := (shipment.milestones.filter fun m => m.overdue now).length
  openDisputes :=
    (shipment.milestones.filter fun m => m.deletedAt.isNone && m.status = .disputed).length
  arbiterNotAccepted := shipment.arbiterStatus ≠ some .accepted
  -- `Math.max(0, Math.floor(..))`
  daysSinceLastActivity := ((now - shipment.latestActivityTimestamp now) / dayLength).toNat
  unverifiedCounterparties :=
    ([shipment.buyer, shipment.supplier, shipment.logistics, shipment.arbiter].filter
      fun kycStatus => kycStatus ≠ some .verified).length

namespace RiskIndicators

variable (i : RiskIndicators) (thresholds : RiskThresholds)

def isHighRisk : Bool :=
  thresholds.highOpenDisputes ≤ i.openDisputes ||
    thresholds.highOverdueMilestones ≤ i.overdueMilestones ||
    thresholds.highInactiveDays ≤ i.daysSinceLastActivity ||
    (1 ≤ i.overdueMilestones && i.arbiterNotAccepted)

def isMediumRisk : Bool :=
  i.overdueMilestones = 1 || i.arbiterNotAccepted ||
    thresholds.mediumInactiveDays ≤ i.daysSinceLastActivity || 1 ≤ i.unverifiedCounterparties

def level : RiskLevel :=
  if i.isHighRisk thresholds then .high
  else if i.isMediumRisk thresholds then .medium
  else .low

end RiskIndicators

def inactiveReason (days : Nat) (threshold : Int) : String :=
  s!"No activity for {days} days (exceeds {threshold}-day threshold)"

def riskReasons (i : RiskIndicators) (arbiterStatus : Option ArbiterStatus)
    (thresholds : RiskThresholds) : List String :=
  (if 0 < i.openDisputes then [s!"{i.openDisputes} open dispute(s)"] else []) ++
  (if 0 < i.overdueMilestones then [s!"{i.overdueMilestones} overdue milestone(s)"] else []) ++
  (if i.arbiterNotAccepted then
    ["Arbiter has not accepted assignment (status: " ++
      (arbiterStatus.getD .pendingAcceptance).name ++ ")"]
  else []) ++
  (if thresholds.highInactiveDays ≤ i.daysSinceLastActivity then
    [inactiveReason i.daysSinceLastActivity thresholds.highInactiveDays]
  else if thresholds.mediumInactiveDays ≤ i.daysSinceLastActivity then
    [inactiveReason i.daysSinceLastActivity thresholds.mediumInactiveDays]
  else []) ++
  (if 0 < i.unverifiedCounterparties then
    [s!"{i.unverifiedCounterparties} counterparty(ies) have not completed KYC verification"]
  else [])

def computeShipmentRisk (shipment : RiskShipment) (now : Int)
    (thresholds : RiskThresholds := DEFAULT_RISK_THRESHOLDS) : ShipmentRiskResult :=
  let i := shipment.indicators now
  { shipmentId := shipment.id
    level := i.level thresholds
    reasons := riskReasons i shipment.arbiterStatus thresholds
    indicators := i
    evaluatedAt := now }

end Risk

section Loaded

structure RiskComment where
  createdAt : Int
  deletedAt : Option Int

/-- A shipment with everything that belongs to it. -/
structure ShipmentHistory where
  id : String
  arbiterStatus : ArbiterStatus
  createdAt : Int
  updatedAt : Int
  milestones : List RiskMilestone
  trackingUpdates : List Int
  comments : List RiskComment
  buyer : Option KycStatus
  supplier : Option KycStatus
  logistics : Option KycStatus
  arbiter : Option KycStatus

/-- `orderBy: { createdAt: 'desc' }, take: 1` -/
def newestOne (times : List Int) : List Int := (times.insertionSort (· ≥ ·)).take 1

namespace ShipmentHistory

variable (history : ShipmentHistory)

def liveComments : List Int :=
  (history.comments.filter fun comment => comment.deletedAt.isNone).map RiskComment.createdAt

/-- The shipment with its live milestones, and the given of its tracking updates and comments. -/
def withActivity (trackingUpdates comments : List Int) : RiskShipment where
  id := history.id
  arbiterStatus := some history.arbiterStatus
  createdAt := some history.createdAt
  updatedAt := some history.updatedAt
  milestones := history.milestones.filter fun m => m.deletedAt.isNone
  trackingUpdates := trackingUpdates.map some
  comments := comments.map some
  buyer := history.buyer
  supplier := history.supplier
  logistics := history.logistics
  arbiter := history.arbiter

/-- The query of `getShipmentRisk`. -/
def loaded : RiskShipment :=
  history.withActivity (newestOne history.trackingUpdates) (newestOne history.liveComments)

end ShipmentHistory

def getShipmentRisk (history : Option ShipmentHistory) (id : String) (now : Int) :
    Except HttpError ShipmentRiskResult :=
  match history with
  | none => .error ⟨404, s!"Shipment {id} not found"⟩
  | some history => .ok (computeShipmentRisk history.loaded now)

end Loaded

section Time

variable {shipment : RiskShipment} {now later : Int}

theorem foldl_max_le_iff {first bound : Int} {times : List Int} :
    times.foldl max first ≤ bound ↔ first ≤ bound ∧ ∀ t ∈ times, t ≤ bound := by
  induction times generalizing first with
  | nil => simp
  | cons t rest ih =>
      rw [List.foldl_cons, ih, List.forall_mem_cons, max_le_iff, and_assoc]

theorem latestActivityTimestamp_le_iff {bound : Int} :
    shipment.latestActivityTimestamp now ≤ bound ↔
      (shipment.updatedAt.or shipment.createdAt).getD now ≤ bound ∧
        ∀ t ∈ shipment.activityTimestamps, t ≤ bound :=
  foldl_max_le_iff

/-- The silence grows with the time, unless `now` itself stands in for the last update. -/
theorem silence_mono (h : now ≤ later) :
    now - shipment.latestActivityTimestamp now ≤
      later - shipment.latestActivityTimestamp later := by
  have hnow := latestActivityTimestamp_le_iff.mp (le_refl (shipment.latestActivityTimestamp now))
  have hlatest : shipment.latestActivityTimestamp later ≤
      shipment.latestActivityTimestamp now + (later - now) := by
    refine latestActivityTimestamp_le_iff.mpr ⟨?_, fun t ht => ?_⟩
    · have hbase : (shipment.updatedAt.or shipment.createdAt).getD later ≤
          (shipment.updatedAt.or shipment.createdAt).getD now + (later - now) := by
        cases shipment.updatedAt.or shipment.createdAt with
        | none => simp
        | some time => simpa using h
      exact hbase.trans (Int.add_le_add_right hnow.1 _)
    · have := hnow.2 t ht
      omega
  omega

theorem overdue_mono (m : RiskMilestone) (h : now ≤ later) (hover : m.overdue now) :
    m.overdue later := by
  unfold RiskMilestone.overdue at hover ⊢
  split at hover
  · cases hover
  · rename_i hlive
    split at hover
    · cases hover
    · rename_i hopen
      rw [if_neg hlive, if_neg hopen]
      cases hdue : m.dueAt with
      | none =>
          rw [hdue] at hover
          cases hover
      | some dueAt =>
          rw [hdue, Option.any_some, decide_eq_true_eq] at hover
          exact decide_eq_true (hover.trans_le h)

/-- Indicators of which none is better than it was. -/
structure RiskIndicators.Worse (i i' : RiskIndicators) : Prop where
  overdueMilestones : i.overdueMilestones ≤ i'.overdueMilestones
  openDisputes : i.openDisputes ≤ i'.openDisputes
  arbiterNotAccepted : i.arbiterNotAccepted → i'.arbiterNotAccepted
  daysSinceLastActivity : i.daysSinceLastActivity ≤ i'.daysSinceLastActivity
  unverifiedCounterparties : i.unverifiedCounterparties ≤ i'.unverifiedCounterparties

theorem indicators_worse (h : now ≤ later) :
    (shipment.indicators now).Worse (shipment.indicators later) where
  overdueMilestones := by
    simp only [RiskShipment.indicators, ← List.countP_eq_length_filter]
    exact List.countP_mono_left fun m _ => overdue_mono m h
  openDisputes := le_refl _
  arbiterNotAccepted := id
  daysSinceLastActivity :=
    Int.toNat_le_toNat (Int.ediv_le_ediv (by decide) (silence_mono h))
  unverifiedCounterparties := le_refl _

end Time

section Levels

variable {i i' : RiskIndicators} {thresholds : RiskThresholds}

theorem isHighRisk_iff : i.isHighRisk thresholds ↔
    thresholds.highOpenDisputes ≤ i.openDisputes ∨
      thresholds.highOverdueMilestones ≤ i.overdueMilestones ∨
      thresholds.highInactiveDays ≤ i.daysSinceLastActivity ∨
      1 ≤ i.overdueMilestones ∧ i.arbiterNotAccepted := by
  simp [RiskIndicators.isHighRisk, or_assoc]

theorem isMediumRisk_iff : i.isMediumRisk thresholds ↔
    i.overdueMilestones = 1 ∨ i.arbiterNotAccepted ∨
      thresholds.mediumInactiveDays ≤ i.daysSinceLastActivity ∨
      1 ≤ i.unverifiedCounterparties := by
  simp [RiskIndicators.isMediumRisk, or_assoc]

theorem level_eq_low_iff : i.level thresholds = .low ↔
    ¬ i.isHighRisk thresholds ∧ ¬ i.isMediumRisk thresholds := by
  unfold RiskIndicators.level
  split
  · simp [*]
  · split <;> simp [*]

theorem isHighRisk_of_worse (h : i.Worse i') (hhigh : i.isHighRisk thresholds) :
    i'.isHighRisk thresholds := by
  obtain ⟨hover, hopen, harbiter, hdays, -⟩ := h
  rw [isHighRisk_iff] at hhigh ⊢
  rcases hhigh with hhigh | hhigh | hhigh | ⟨hhigh, hnot⟩
  · exact .inl (by omega)
  · exact .inr (.inl (by omega))
  · exact .inr (.inr (.inl (by omega)))
  · exact .inr (.inr (.inr ⟨by omega, harbiter hnot⟩))

/-- A second overdue milestone is no longer the one overdue milestone of the medium level, so the
level may fall unless two of them make it high. -/
theorem rank_level_le (h : i.Worse i')
    (hthresholds : thresholds.highOverdueMilestones ≤ 2 ∨ thresholds.highOpenDisputes ≤ 0 ∨
      thresholds.highInactiveDays ≤ 0 ∨ thresholds.mediumInactiveDays ≤ 0) :
    (i.level thresholds).rank ≤ (i'.level thresholds).rank := by
  by_cases hhigh' : i'.isHighRisk thresholds
  · have htop : i'.level thresholds = .high := if_pos hhigh'
    rw [htop]
    cases i.level thresholds <;> decide
  · have hhigh : ¬ i.isHighRisk thresholds := fun hhigh => hhigh' (isHighRisk_of_worse h hhigh)
    by_cases hmedium : i.isMediumRisk thresholds
    · have hmedium' : i'.isMediumRisk thresholds := by
        obtain ⟨hover, -, harbiter, hdays, hunverified⟩ := h
        rw [isHighRisk_iff, not_or, not_or, not_or] at hhigh'
        rw [isMediumRisk_iff] at hmedium ⊢
        rcases hmedium with hone | hnot | hsilent | hother
        · have : i'.overdueMilestones = 1 ∨ thresholds.mediumInactiveDays ≤ 0 := by omega
          rcases this with hsame | halways
          · exact .inl hsame
          · exact .inr (.inr (.inl (by omega)))
        · exact .inr (.inl (harbiter hnot))
        · exact .inr (.inr (.inl (by omega)))
        · exact .inr (.inr (.inr (by omega)))
      have hsame : i.level thresholds = i'.level thresholds := by
        simp only [RiskIndicators.level, hhigh, hhigh', hmedium, hmedium']
      exact hsame ▸ le_refl _
    · rw [level_eq_low_iff.mpr ⟨hhigh, hmedium⟩]
      exact Nat.zero_le _

theorem riskReasons_eq_nil_iff {arbiterStatus : Option ArbiterStatus} :
    riskReasons i arbiterStatus thresholds = [] ↔
      i.openDisputes = 0 ∧ i.overdueMilestones = 0 ∧ i.arbiterNotAccepted = false ∧
        ¬ thresholds.highInactiveDays ≤ i.daysSinceLastActivity ∧
        ¬ thresholds.mediumInactiveDays ≤ i.daysSinceLastActivity ∧
        i.unverifiedCounterparties = 0 := by
  have hsilent : (if thresholds.highInactiveDays ≤ i.daysSinceLastActivity then
        [inactiveReason i.daysSinceLastActivity thresholds.highInactiveDays]
      else if thresholds.mediumInactiveDays ≤ i.daysSinceLastActivity then
        [inactiveReason i.daysSinceLastActivity thresholds.mediumInactiveDays]
      else []) = [] ↔ ¬ thresholds.highInactiveDays ≤ i.daysSinceLastActivity ∧
        ¬ thresholds.mediumInactiveDays ≤ i.daysSinceLastActivity := by
    split
    · simp [*]
    · split <;> simp [*]
  unfold riskReasons
  simp only [List.append_eq_nil_iff, hsilent, and_assoc]
  simp [Nat.pos_iff_ne_zero]

end Levels

section Thresholds

/-- A shipment of which everything is in order but what the given milestones say. -/
def soundShipment (milestones : List RiskMilestone) : RiskShipment where
  id := "s1"
  arbiterStatus := some .accepted
  createdAt := some 0
  updatedAt := some 2
  milestones := milestones
  trackingUpdates := []
  comments := []
  buyer := some .verified
  supplier := some .verified
  logistics := some .verified
  arbiter := some .verified

def dueMilestone (dueAt : Int) : RiskMilestone := ⟨.pending, some dueAt, none, none, none⟩

/-- Of two milestones, the second falls due later. -/
def dueInTurn : RiskShipment := soundShipment [dueMilestone 0, dueMilestone 1]

def oneDispute : RiskShipment := soundShipment [⟨.disputed, none, none, none, none⟩]

/-- Time alone never lowers the risk of a shipment, for these thresholds and no others. -/
theorem risk_never_falls_iff (thresholds : RiskThresholds) :
    (∀ (shipment : RiskShipment) (now later : Int), now ≤ later →
      (computeShipmentRisk shipment now thresholds).level.rank ≤
        (computeShipmentRisk shipment later thresholds).level.rank) ↔
    thresholds.highOverdueMilestones ≤ 2 ∨ thresholds.highOpenDisputes ≤ 0 ∨
      thresholds.highInactiveDays ≤ 0 ∨ thresholds.mediumInactiveDays ≤ 0 := by
  constructor
  · intro h
    by_contra hnot
    have hfirst : dueInTurn.indicators 1 = ⟨1, 0, false, 0, 0⟩ := by decide
    have hsecond : dueInTurn.indicators 2 = ⟨2, 0, false, 0, 0⟩ := by decide
    have hmedium : (computeShipmentRisk dueInTurn 1 thresholds).level ≠ .low := by
      intro hlow
      have hlevel : (dueInTurn.indicators 1).level thresholds = .low := hlow
      rw [level_eq_low_iff, hfirst, isMediumRisk_iff] at hlevel
      exact hlevel.2 (.inl rfl)
    have hlow : (computeShipmentRisk dueInTurn 2 thresholds).level = .low := by
      show (dueInTurn.indicators 2).level thresholds = .low
      rw [level_eq_low_iff, hsecond, isHighRisk_iff, isMediumRisk_iff]
      constructor
      · rintro (hhigh | hhigh | hhigh | ⟨-, ⟨⟩⟩) <;> dsimp only at hhigh <;> omega
      · rintro (hone | ⟨⟨⟩⟩ | hsilent | hother)
        · cases hone
        · dsimp only at hsilent
          omega
        · cases hother
    have hle := h dueInTurn 1 2 (by decide)
    rw [hlow] at hle
    cases hlevel : (computeShipmentRisk dueInTurn 1 thresholds).level with
    | low => exact hmedium hlevel
    | medium =>
        rw [hlevel] at hle
        exact absurd hle (by decide)
    | high =>
        rw [hlevel] at hle
        exact absurd hle (by decide)
  · exact fun hthresholds shipment now later h => rank_level_le (indicators_worse h) hthresholds

/-- The default thresholds are among them. -/
example : DEFAULT_RISK_THRESHOLDS.highOverdueMilestones ≤ 2 := by decide

/-- A shipment is at low risk exactly where there is no reason, for these thresholds and no
others. -/
theorem risk_explained_iff (thresholds : RiskThresholds) :
    (∀ (shipment : RiskShipment) (now : Int),
      (computeShipmentRisk shipment now thresholds).level = .low ↔
        (computeShipmentRisk shipment now thresholds).reasons = []) ↔
    (thresholds.highInactiveDays ≤ 0 ∨ thresholds.mediumInactiveDays ≤ 0) ∨
      thresholds.highOpenDisputes = 1 ∧
        (thresholds.highOverdueMilestones = 1 ∨ thresholds.highOverdueMilestones = 2) := by
  have hiff (shipment : RiskShipment) (now : Int) :
      ((computeShipmentRisk shipment now thresholds).level = .low ↔
        (computeShipmentRisk shipment now thresholds).reasons = []) ↔
      (((shipment.indicators now).level thresholds = .low) ↔
        riskReasons (shipment.indicators now) shipment.arbiterStatus thresholds = []) := Iff.rfl
  simp only [hiff, level_eq_low_iff, isHighRisk_iff, isMediumRisk_iff, riskReasons_eq_nil_iff]
  constructor
  · intro h
    have hnone := h (soundShipment []) 2
    have hdispute := h oneDispute 2
    have htwo := h dueInTurn 2
    rw [show (soundShipment []).indicators 2 = ⟨0, 0, false, 0, 0⟩ by decide] at hnone
    rw [show oneDispute.indicators 2 = ⟨0, 1, false, 0, 0⟩ by decide] at hdispute
    rw [show dueInTurn.indicators 2 = ⟨2, 0, false, 0, 0⟩ by decide] at htwo
    simp at hnone hdispute htwo
    omega
  · intro hthresholds shipment now
    generalize shipment.indicators now = i
    cases i.arbiterNotAccepted with
    | true => simp
    | false => simp; omega

end Thresholds

section Newest

theorem newestOne_subset {times : List Int} {t : Int} (h : t ∈ newestOne times) : t ∈ times :=
  (List.perm_insertionSort _ times).mem_iff.mp (List.mem_of_mem_take h)

theorem exists_newestOne {times : List Int} {t : Int} (h : t ∈ times) :
    ∃ newest ∈ newestOne times, t ≤ newest := by
  unfold newestOne
  have hsorted := List.pairwise_insertionSort (· ≥ ·) times
  have hmem := (List.mem_insertionSort (· ≥ ·)).mpr h
  cases hlist : times.insertionSort (· ≥ ·) with
  | nil =>
      rw [hlist] at hmem
      cases hmem
  | cons newest rest =>
      rw [hlist] at hmem hsorted
      refine ⟨newest, List.mem_cons_self .., ?_⟩
      rcases List.mem_cons.mp hmem with rfl | hrest
      · exact le_refl _
      · exact (List.pairwise_cons.mp hsorted).1 t hrest

theorem latest_withActivity_le_iff (history : ShipmentHistory) {now bound : Int}
    {trackingUpdates comments : List Int} :
    (history.withActivity trackingUpdates comments).latestActivityTimestamp now ≤ bound ↔
      (history.withActivity [] []).latestActivityTimestamp now ≤ bound ∧
        (∀ t ∈ trackingUpdates, t ≤ bound) ∧ ∀ t ∈ comments, t ≤ bound := by
  have hmem (times : List Int) : (times.map some).flatMap Option.toList = times := by
    induction times with
    | nil => rfl
    | cons t rest ih => simpa using ih
  rw [latestActivityTimestamp_le_iff, latestActivityTimestamp_le_iff]
  simp only [RiskShipment.activityTimestamps, ShipmentHistory.withActivity, hmem,
    List.forall_mem_append, List.map_nil, List.flatMap_nil, List.append_nil]
  tauto

/-- The newest tracking update and the newest comment are enough: the risk is the one that all of
them would give. -/
theorem risk_of_newest (history : ShipmentHistory) (now : Int) (thresholds : RiskThresholds) :
    computeShipmentRisk history.loaded now thresholds =
      computeShipmentRisk (history.withActivity history.trackingUpdates history.liveComments) now
        thresholds := by
  have hlatest : history.loaded.latestActivityTimestamp now =
      (history.withActivity history.trackingUpdates
        history.liveComments).latestActivityTimestamp now := by
    refine eq_of_forall_ge_iff fun bound => ?_
    have hnewest (times : List Int) :
        (∀ t ∈ newestOne times, t ≤ bound) ↔ ∀ t ∈ times, t ≤ bound := by
      refine ⟨fun h t ht => ?_, fun h t ht => h t (newestOne_subset ht)⟩
      obtain ⟨newest, hnewest, hle⟩ := exists_newestOne ht
      exact hle.trans (h newest hnewest)
    refine (latest_withActivity_le_iff history).trans
      (Iff.trans ?_ (latest_withActivity_le_iff history).symm)
    rw [hnewest, hnewest]
  have hindicators : history.loaded.indicators now =
      (history.withActivity history.trackingUpdates history.liveComments).indicators now := by
    simp only [RiskShipment.indicators, hlatest]
    rfl
  unfold computeShipmentRisk
  rw [hindicators]
  rfl

end Newest

end ChainSettle
