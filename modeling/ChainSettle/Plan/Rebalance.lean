import ChainSettle.Concurrency.Plan

/-!
A redistribution of the percentages on its own. The sum is taken over a map that keeps the
last element of each index, and the updates are made one after the other for every element;
both come to the same, since an update is overridden by the later ones of its index. What the
response shows is read after the transaction, and a request that fails there has made all its
updates.
-/

namespace ChainSettle

open Lib Lib.Eff

section Last

/-- What the map holds for an index that no later element names. -/
theorem updateMap_last {earlier later : List MilestonePercentDto} {u : MilestonePercentDto}
    (hlast : ∀ v ∈ later, v.milestoneIndex ≠ u.milestoneIndex) :
    updateMap (earlier ++ u :: later) u.milestoneIndex = some u.paymentPercent := by
  have hnone : later.reverse.find? (fun v => v.milestoneIndex = u.milestoneIndex) = none :=
    List.find?_eq_none.mpr fun v hv => by simpa using hlast v (List.mem_reverse.mp hv)
  simp [updateMap, List.find?_append, hnone]

theorem updateMap_eq_none {updates : List MilestonePercentDto} {index : Int}
    (h : ∀ u ∈ updates, u.milestoneIndex ≠ index) : updateMap updates index = none := by
  rw [updateMap, Option.map_eq_none_iff]
  exact List.find?_eq_none.mpr fun u hu => by simpa using h u (List.mem_reverse.mp hu)

end Last

section Checks

variable {db : Db} {shipmentId : String} {updates : List MilestonePercentDto}

/-- What `rebalance` has found before it writes. -/
structure Rebalances (db : Db) (shipmentId : String) (updates : List MilestonePercentDto) :
    Prop where
  pending : ∀ u ∈ updates, ∃ m, db.liveMilestone shipmentId u.milestoneIndex = some m ∧
    m.status = .pending
  total : ((db.live shipmentId).map (percentAfter updates)).sum = 100

theorem liveMilestone_of_mem_live {m : Milestone} (h : m ∈ db.live shipmentId) :
    db.liveMilestone shipmentId m.milestoneIndex = some m := by
  obtain ⟨hmem, rfl, hlive⟩ := mem_live.mp h
  exact Option.filter_eq_some_iff.mpr ⟨Table.find?_of_mem hmem, by simp [hlive]⟩

theorem pending_of_not_refused {u : MilestonePercentDto}
    (h : rebalanceRefusal (db.findMany shipmentId) shipmentId u = none) :
    ∃ m, db.liveMilestone shipmentId u.milestoneIndex = some m ∧ m.status = .pending := by
  unfold rebalanceRefusal at h
  cases hfind : (db.findMany shipmentId).find? fun m => m.milestoneIndex = u.milestoneIndex with
  | none =>
      rw [hfind] at h
      cases h
  | some m =>
      rw [hfind] at h
      have hindex : m.milestoneIndex = u.milestoneIndex := by simpa using List.find?_some hfind
      have hmem : m ∈ db.live shipmentId :=
        (findMany_perm db shipmentId).mem_iff.mp (List.mem_of_find?_eq_some hfind)
      refine ⟨m, hindex ▸ liveMilestone_of_mem_live hmem, ?_⟩
      by_contra hstatus
      simp [hstatus] at h

theorem readOnly_rebalanceList (env : Env) (db : Db) (shipmentId : String)
    (updates : List MilestonePercentDto) :
    ReadOnly (PlanCall.statement env (.rebalanceList shipmentId updates)) db fun rest =>
      rest = some (.rebalanceWrite shipmentId updates) ∧ Rebalances db shipmentId updates := by
  refine readOnly_read env db _ fun _ => ?_
  dsimp only
  split
  · exact readOnly_throw _ _ _
  · rename_i haccepted
    refine readOnly_guard fun htotal => readOnly_pure ⟨rfl, fun u hu => ?_, ?_⟩
    · exact pending_of_not_refused (List.findSome?_eq_none_iff.mp haccepted u hu)
    · rw [← sum_findMany]
      exact not_not.mp htotal

theorem readOnly_rebalanceShipment (env : Env) (db : Db) (shipmentId callerAddress : String)
    (updates : List MilestonePercentDto) :
    ReadOnly (PlanCall.statement env (.rebalanceShipment shipmentId callerAddress updates)) db
      fun rest => rest = some (.rebalanceList shipmentId updates) := by
  unfold PlanCall.statement buyerOnly
  exact readOnly_found env db shipmentId fun shipment _ => readOnly_guard fun _ => readOnly_pure rfl

theorem exec_rebalanceWrite (env : Env) (db : Db) (shipmentId : String)
    (updates : List MilestonePercentDto) :
    (∃ err, exec (PlanCall.statement env (.rebalanceWrite shipmentId updates)) db =
        (.error err, db)) ∨
      exec (PlanCall.statement env (.rebalanceWrite shipmentId updates)) db =
        (.ok none, updates.foldl (Db.setPercent shipmentId) db) := by
  unfold PlanCall.statement
  rw [exec_bind, exec_prismaCall]
  cases env.fails .milestoneWrite with
  | true => exact .inl ⟨_, rfl⟩
  | false =>
      cases hmissing : updates.any fun u =>
          (db.milestones.find? (shipmentId, u.milestoneIndex)).isNone with
      | true =>
          simp only [Bool.false_eq_true, exec_bind, exec_get, hmissing, ↓reduceIte, exec_throw]
          exact .inl ⟨_, rfl⟩
      | false =>
          simp only [Bool.false_eq_true, exec_bind, exec_get, hmissing, ↓reduceIte, exec_modify,
            exec_pure]
          exact .inr trivial

/-- Everything a redistribution can do. -/
theorem rebalance_cases (env : Env) (db : Db) (shipmentId callerAddress : String)
    (updates : List MilestonePercentDto) :
    (∃ err, exec (rebalance env shipmentId callerAddress updates) db = (.error err, db)) ∨
      Rebalances db shipmentId updates ∧
        exec (rebalance env shipmentId callerAddress updates) db =
          (if env.fails .responseRead then .error (.unavailable .responseRead)
            else .ok ((updates.foldl (Db.setPercent shipmentId) db).findMany shipmentId),
            updates.foldl (Db.setPercent shipmentId) db) := by
  unfold rebalance
  rw [exec_bind]
  simp only [whole, exec_bind]
  rcases readOnly_rebalanceShipment env db shipmentId callerAddress updates with
    ⟨err, hrun⟩ | ⟨_, hrun, rfl⟩
  · rw [hrun]
    exact .inl ⟨err, rfl⟩
  · simp only [hrun, exec_bind]
    rcases readOnly_rebalanceList env db shipmentId updates with
      ⟨err, hrun⟩ | ⟨_, hrun, rfl, hchecks⟩
    · rw [hrun]
      exact .inl ⟨err, rfl⟩
    · simp only [hrun, exec_bind]
      rcases exec_rebalanceWrite env db shipmentId updates with ⟨err, hrun⟩ | hrun
      · rw [hrun]
        exact .inl ⟨err, rfl⟩
      · -- the transaction has committed, whatever the last read does
        simp only [hrun, exec_pure, exec_prismaCall]
        cases env.fails .responseRead with
        | true => exact .inr ⟨hchecks, rfl⟩
        | false => exact .inr ⟨hchecks, rfl⟩

end Checks

section Exact

variable {db : Db} {shipmentId : String} {updates : List MilestonePercentDto}

theorem find?_setPercents (key : MilestoneKey) :
    (updates.foldl (Db.setPercent shipmentId) db).milestones.find? key =
      (db.milestones.find? key).map (withPercents shipmentId updates) := by
  refine Table.find?_of_map (rows_setPercents shipmentId updates) (fun m => ?_) key
  unfold withPercents
  split <;> rfl

theorem setPercents_frame (updates : List MilestonePercentDto) (db : Db) :
    updates.foldl (Db.setPercent shipmentId) db =
      { db with milestones := (updates.foldl (Db.setPercent shipmentId) db).milestones } := by
  induction updates generalizing db with
  | nil => rfl
  | cons u rest ih =>
      rw [List.foldl_cons, ih (db.setPercent shipmentId u)]
      rfl

/-- The live milestones have exactly 100 percent; the last element of each index has its
value, on a milestone that was pending; nothing else has changed. -/
structure Redistributed (db : Db) (shipmentId : String) (updates : List MilestonePercentDto)
    (db' : Db) : Prop where
  total : ((db'.live shipmentId).map Milestone.paymentPercent).sum = 100
  last : ∀ earlier u later, updates = earlier ++ u :: later →
    (∀ v ∈ later, v.milestoneIndex ≠ u.milestoneIndex) →
    ∃ m, db.liveMilestone shipmentId u.milestoneIndex = some m ∧ m.status = .pending ∧
      db'.milestones.find? (shipmentId, u.milestoneIndex) =
        some { m with paymentPercent := u.paymentPercent }
  others : ∀ key, (∀ u ∈ updates, key ≠ (shipmentId, u.milestoneIndex)) →
    db'.milestones.find? key = db.milestones.find? key
  frame : db' = { db with milestones := db'.milestones }

theorem redistributed_setPercents (hchecks : Rebalances db shipmentId updates) :
    Redistributed db shipmentId updates (updates.foldl (Db.setPercent shipmentId) db) where
  total := by
    rw [live_setPercents, List.map_map, ← hchecks.total]
    congr 1
    refine List.map_congr_left fun m hm => ?_
    obtain ⟨-, hid, -⟩ := mem_live.mp hm
    simp [withPercents, hid]
  last := by
    rintro earlier u later rfl hlast
    obtain ⟨m, hlive, hstatus⟩ := hchecks.pending u (by simp)
    have hrow := find?_of_liveMilestone db shipmentId u.milestoneIndex hlive
    have hkey : m.key = (shipmentId, u.milestoneIndex) := Table.key_of_find? hrow
    obtain ⟨hid, hindex⟩ := Prod.mk.inj hkey
    refine ⟨m, hlive, hstatus, ?_⟩
    rw [find?_setPercents, hrow]
    simp only [Option.map_some, withPercents, hid, ↓reduceIte, percentAfter, hindex,
      updateMap_last hlast, Option.getD_some]
  others := by
    intro key hother
    rw [find?_setPercents]
    cases hrow : db.milestones.find? key with
    | none => rfl
    | some m =>
        have hkey : m.key = key := Table.key_of_find? hrow
        have hkept : withPercents shipmentId updates m = m := by
          unfold withPercents
          split
          · rename_i hid
            have hnone : ∀ u ∈ updates, u.milestoneIndex ≠ m.milestoneIndex := by
              intro u hu heq
              exact hother u hu (by rw [← hkey, Milestone.key, hid, heq])
            simp [percentAfter, updateMap_eq_none hnone]
          · rfl
        rw [Option.map_some, hkept]
  frame := setPercents_frame updates db

/-- A redistribution that succeeds has been made in full. One that fails has changed
nothing, or has been made in full and fails to read what it answers with. -/
theorem rebalance_exact (env : Env) (db : Db) (shipmentId callerAddress : String)
    (updates : List MilestonePercentDto) :
    (∀ response db', exec (rebalance env shipmentId callerAddress updates) db =
        (.ok response, db') →
      Redistributed db shipmentId updates db' ∧ response = db'.findMany shipmentId) ∧
    ∀ err db', exec (rebalance env shipmentId callerAddress updates) db = (.error err, db') →
      db' = db ∨ env.fails .responseRead = true ∧ err = .unavailable .responseRead ∧
        Redistributed db shipmentId updates db' := by
  rcases rebalance_cases env db shipmentId callerAddress updates with
    ⟨err, hrun⟩ | ⟨hchecks, hrun⟩
  · rw [hrun]
    refine ⟨by simp, ?_⟩
    rintro _ _ ⟨⟩
    exact .inl rfl
  · have hmade := redistributed_setPercents hchecks
    rw [hrun]
    cases hread : env.fails .responseRead with
    | true =>
        refine ⟨by simp, ?_⟩
        rintro _ _ ⟨⟩
        exact .inr ⟨rfl, rfl, hmade⟩
    | false =>
        refine ⟨?_, by simp⟩
        rintro _ _ ⟨⟩
        exact ⟨hmade, rfl⟩

/-- Two milestones with 60 and 40 percent. -/
def unevenDb : Db where
  __ := Db.demo .pending
  milestones := ⟨[{ demoMilestone .pending with paymentPercent := 60 },
    { demoMilestone .pending with id := "m-2", milestoneIndex := 1, paymentPercent := 40 }],
    by decide⟩

/-- New percentages for both milestones, the second of which is named twice. -/
def demoPercents : List MilestonePercentDto :=
  [⟨1, 70, by decide, by decide, by decide⟩, ⟨0, 45, by decide, by decide, by decide⟩,
    ⟨1, 55, by decide, by decide, by decide⟩]

theorem rebalance_demo :
    let db' := after (rebalance (Env.calm 0) "SHIP-1" "GBUYER" demoPercents) unevenDb
    ((db'.live "SHIP-1").map Milestone.paymentPercent).sum = 100 ∧
      unevenDb.milestones.rows.map Milestone.paymentPercent = [60, 40] ∧
      db'.milestones.rows.map Milestone.paymentPercent = [45, 55] := by
  obtain ⟨response, hresponse⟩ :
      Succeeds (rebalance (Env.calm 0) "SHIP-1" "GBUYER" demoPercents) unevenDb := by
    decide
  have hexact := rebalance_exact (Env.calm 0) unevenDb "SHIP-1" "GBUYER" demoPercents
  exact ⟨(hexact.1 response _ (Prod.ext hresponse rfl)).1.total, by decide⟩

/-- The transaction has committed, and the read after it is rejected. -/
def answerLost : Env :=
  { Env.calm 0 with fails := fun call => call = .responseRead }

theorem failed_rebalance_applied :
    let (outcome, db') := exec (rebalance answerLost "SHIP-1" "GBUYER" demoPercents) unevenDb
    outcome.isOk = false ∧ unevenDb.milestones.rows.map Milestone.paymentPercent = [60, 40] ∧
      db'.milestones.rows.map Milestone.paymentPercent = [45, 55] := by
  decide

end Exact

end ChainSettle
