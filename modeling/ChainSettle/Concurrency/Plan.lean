import ChainSettle.Concurrency.Steps
import ChainSettle.Mirror.Cancellation
import ChainSettle.Semantics.Plan
import Mathlib.Algebra.Order.BigOperators.Group.List

/-!
Do the live milestones of a shipment keep their percentages within 100, and does
one of them always remain? Each operation on the plan checks a list of rows that
it read, and writes later. An append has room for its share, a redistribution
adds up, and a removal leaves another milestone, as long as no other operation
that has checked the same thing writes in between.

The invariant `Planned` says of every operation past its check that the check
would still pass; `planned_resume` is the step lemma.
-/

namespace ChainSettle

open Lib Lib.Eff

/-- A statement that writes nothing takes an operation to its next suspension. -/
inductive PlanReads (db : Db) : PlanCall → PlanCall → Prop where
  | appendShipment (shipmentId callerAddress : String) (dto : MilestoneDto) :
      PlanReads db (.appendShipment shipmentId callerAddress dto) (.appendList shipmentId dto)
  | appendList (shipmentId : String) (dto : MilestoneDto)
      (hroom : ((db.live shipmentId).map Milestone.paymentPercent).sum + dto.paymentPercent ≤ 100) :
      PlanReads db (.appendList shipmentId dto) (.appendIndex shipmentId dto)
  | appendIndex (shipmentId : String) (dto : MilestoneDto) :
      PlanReads db (.appendIndex shipmentId dto)
        (.appendCreate shipmentId dto (db.nextIndex shipmentId))
  | rebalanceShipment (shipmentId callerAddress : String) (updates : List MilestonePercentDto) :
      PlanReads db (.rebalanceShipment shipmentId callerAddress updates)
        (.rebalanceList shipmentId updates)
  | rebalanceList (shipmentId : String) (updates : List MilestonePercentDto)
      (htotal : ((db.live shipmentId).map (percentAfter updates)).sum = 100) :
      PlanReads db (.rebalanceList shipmentId updates) (.rebalanceWrite shipmentId updates)
  | removeShipment (shipmentId : String) (milestoneIndex : Int) (callerAddress : String) :
      PlanReads db (.removeShipment shipmentId milestoneIndex callerAddress)
        (.removeFind shipmentId milestoneIndex)
  | removeFind (shipmentId : String) (milestoneIndex : Int) {m : Milestone}
      (hm : db.liveMilestone shipmentId milestoneIndex = some m) :
      PlanReads db (.removeFind shipmentId milestoneIndex) (.removeList shipmentId milestoneIndex m)
  | removeList (shipmentId : String) (milestoneIndex : Int) (m : Milestone)
      (hothers : 2 ≤ (db.live shipmentId).length) :
      PlanReads db (.removeList shipmentId milestoneIndex m)
        (.removeWrite shipmentId milestoneIndex m)

/-- The database and the rest of an operation after its statement. -/
inductive PlanResumed (env : Env) (db : Db) : PlanCall → Db → Option PlanCall → Prop where
  | ended (call : PlanCall) : PlanResumed env db call db none
  | read {call next : PlanCall} (h : PlanReads db call next) :
      PlanResumed env db call db (some next)
  | appended (shipmentId : String) (dto : MilestoneDto) (nextIndex : Int)
      (hid : dto.id ∉ db.milestones.rows.map Milestone.id)
      (hkey : (shipmentId, nextIndex) ∉ db.milestones.rows.map Milestone.key) :
      PlanResumed env db (.appendCreate shipmentId dto nextIndex)
        { db with milestones := db.milestones.insert (dto.row shipmentId nextIndex) } none
  | rebalanced (shipmentId : String) (updates : List MilestonePercentDto) :
      PlanResumed env db (.rebalanceWrite shipmentId updates)
        (updates.foldl (Db.setPercent shipmentId) db) none
  | removed (shipmentId : String) (milestoneIndex : Int) (milestone : Milestone) {m : Milestone}
      (hm : m ∈ db.milestones.rows) (hid : m.id = milestone.id) :
      PlanResumed env db (.removeWrite shipmentId milestoneIndex milestone)
        (db.softDelete m.key env.now) none

section Resume

variable (env : Env) (db : Db)

theorem findMany_perm (shipmentId : String) :
    (db.findMany shipmentId).Perm (db.live shipmentId) :=
  List.perm_insertionSort ..

theorem sum_findMany (shipmentId : String) (f : Milestone → Int) :
    ((db.findMany shipmentId).map f).sum = ((db.live shipmentId).map f).sum :=
  ((findMany_perm db shipmentId).map f).sum_eq

/-- A statement that only reads ends the operation or takes it to its next
suspension. -/
theorem planResumed_of_readOnly {call : PlanCall}
    (h : ReadOnly (call.statement env) db
      fun rest => ∀ next, rest = some next → PlanReads db call next) :
    PlanResumed env db call (call.resume env db).1 (call.resume env db).2 := by
  unfold PlanCall.resume
  rcases h with ⟨err, herr⟩ | ⟨rest, hrest, hnext⟩
  · rw [herr]
    exact .ended call
  · rw [hrest]
    cases rest with
    | none => exact .ended call
    | some next => exact .read (hnext next rfl)

theorem readOnly_planNext {call next : PlanCall} (h : PlanReads db call next) :
    ReadOnly (pure (some next) : Tx (Option PlanCall)) db
      fun rest => ∀ next, rest = some next → PlanReads db call next := by
  apply readOnly_pure
  rintro _ ⟨rfl⟩
  exact h

theorem readOnly_buyerOnly (shipmentId callerAddress verb : String) {call next : PlanCall}
    (h : PlanReads db call next) :
    ReadOnly (buyerOnly env shipmentId callerAddress verb next) db
      fun rest => ∀ next, rest = some next → PlanReads db call next := by
  unfold buyerOnly
  refine readOnly_found env db shipmentId fun shipment _ => readOnly_guard fun _ => ?_
  exact readOnly_planNext db h

theorem planResumed_appendCreate (shipmentId : String) (dto : MilestoneDto) (nextIndex : Int) :
    PlanResumed env db (.appendCreate shipmentId dto nextIndex)
      ((PlanCall.appendCreate shipmentId dto nextIndex).resume env db).1
      ((PlanCall.appendCreate shipmentId dto nextIndex).resume env db).2 := by
  unfold PlanCall.resume PlanCall.statement
  rw [exec_bind, exec_prismaCall]
  cases env.fails .milestoneWrite with
  | true => exact .ended _
  | false =>
      by_cases htaken : (dto.row shipmentId nextIndex).id ∈ db.milestones.rows.map Milestone.id ∨
          (dto.row shipmentId nextIndex).key ∈ db.milestones.rows.map Milestone.key
      · simp only [Bool.false_eq_true, exec_bind, exec_get, htaken, ↓reduceIte, exec_throw]
        exact .ended _
      · simp only [Bool.false_eq_true, exec_bind, exec_get, htaken, ↓reduceIte, exec_modify,
          exec_pure]
        rw [not_or] at htaken
        exact .appended shipmentId dto nextIndex htaken.1 htaken.2

theorem planResumed_rebalanceWrite (shipmentId : String) (updates : List MilestonePercentDto) :
    PlanResumed env db (.rebalanceWrite shipmentId updates)
      ((PlanCall.rebalanceWrite shipmentId updates).resume env db).1
      ((PlanCall.rebalanceWrite shipmentId updates).resume env db).2 := by
  unfold PlanCall.resume PlanCall.statement
  rw [exec_bind, exec_prismaCall]
  cases env.fails .milestoneWrite with
  | true => exact .ended _
  | false =>
      cases hmissing : updates.any fun u =>
          (db.milestones.find? (shipmentId, u.milestoneIndex)).isNone with
      | true =>
          simp only [Bool.false_eq_true, exec_bind, exec_get, hmissing, ↓reduceIte, exec_throw]
          exact .ended _
      | false =>
          simp only [Bool.false_eq_true, exec_bind, exec_get, hmissing, ↓reduceIte, exec_modify,
            exec_pure]
          exact .rebalanced shipmentId updates

theorem planResumed_removeWrite (shipmentId : String) (milestoneIndex : Int)
    (milestone : Milestone) :
    PlanResumed env db (.removeWrite shipmentId milestoneIndex milestone)
      ((PlanCall.removeWrite shipmentId milestoneIndex milestone).resume env db).1
      ((PlanCall.removeWrite shipmentId milestoneIndex milestone).resume env db).2 := by
  unfold PlanCall.resume PlanCall.statement
  rw [exec_bind, exec_prismaCall]
  cases env.fails .milestoneWrite with
  | true => exact .ended _
  | false =>
      simp only [Bool.false_eq_true, ↓reduceIte, exec_bind, exec_get]
      cases hfind : db.milestones.rows.find? fun m => m.id = milestone.id with
      | none => exact .ended _
      | some m =>
          have hid : m.id = milestone.id := by simpa using List.find?_some hfind
          exact .removed shipmentId milestoneIndex milestone (List.mem_of_find?_eq_some hfind) hid

/-- Everything resuming an operation can do. -/
theorem planResumed (call : PlanCall) :
    PlanResumed env db call (call.resume env db).1 (call.resume env db).2 := by
  cases call with
  | appendCreate shipmentId dto nextIndex =>
      exact planResumed_appendCreate env db shipmentId dto nextIndex
  | rebalanceWrite shipmentId updates => exact planResumed_rebalanceWrite env db shipmentId updates
  | removeWrite shipmentId milestoneIndex milestone =>
      exact planResumed_removeWrite env db shipmentId milestoneIndex milestone
  | appendShipment shipmentId callerAddress dto =>
      exact planResumed_of_readOnly env db (readOnly_buyerOnly env db _ _ _
        (.appendShipment shipmentId callerAddress dto))
  | rebalanceShipment shipmentId callerAddress updates =>
      exact planResumed_of_readOnly env db (readOnly_buyerOnly env db _ _ _
        (.rebalanceShipment shipmentId callerAddress updates))
  | removeShipment shipmentId milestoneIndex callerAddress =>
      exact planResumed_of_readOnly env db (readOnly_buyerOnly env db _ _ _
        (.removeShipment shipmentId milestoneIndex callerAddress))
  | appendList shipmentId dto =>
      apply planResumed_of_readOnly
      refine readOnly_read env db _ fun _ => ?_
      dsimp only
      split
      · exact readOnly_throw _ _ _
      · refine readOnly_guard fun hroom => ?_
        rw [sum_findMany, not_lt] at hroom
        exact readOnly_planNext _ (.appendList shipmentId dto hroom)
  | appendIndex shipmentId dto =>
      apply planResumed_of_readOnly
      refine readOnly_read env db _ fun _ => ?_
      exact readOnly_planNext _ (.appendIndex shipmentId dto)
  | rebalanceList shipmentId updates =>
      apply planResumed_of_readOnly
      refine readOnly_read env db _ fun _ => ?_
      dsimp only
      split
      · exact readOnly_throw _ _ _
      · refine readOnly_guard fun htotal => ?_
        rw [sum_findMany, not_not] at htotal
        exact readOnly_planNext _ (.rebalanceList shipmentId updates htotal)
  | removeFind shipmentId milestoneIndex =>
      apply planResumed_of_readOnly
      refine readOnly_read env db _ fun _ => ?_
      cases hlive : db.liveMilestone shipmentId milestoneIndex with
      | none => exact readOnly_throw _ _ _
      | some m =>
          refine readOnly_guard fun _ => ?_
          exact readOnly_planNext _ (.removeFind shipmentId milestoneIndex hlive)
  | removeList shipmentId milestoneIndex milestone =>
      apply planResumed_of_readOnly
      refine readOnly_read env db _ fun _ => ?_
      dsimp only
      split
      · exact readOnly_throw _ _ _
      · refine readOnly_guard fun hlength => ?_
        rw [(findMany_perm _ shipmentId).length_eq, not_le] at hlength
        exact readOnly_planNext _ (.removeList shipmentId milestoneIndex milestone hlength)

end Resume

section Live

variable {db : Db}

theorem mem_live {shipmentId : String} {m : Milestone} :
    m ∈ db.live shipmentId ↔
      m ∈ db.milestones.rows ∧ m.shipmentId = shipmentId ∧ m.deletedAt = none := by
  simp [Db.live]

/-- An appended row is live on its own shipment. -/
theorem live_insert {row : Milestone} (hfree : row.key ∉ db.milestones.rows.map Milestone.key)
    (hlive : row.deletedAt = none) (id : String) :
    Db.live { db with milestones := db.milestones.insert row } id =
      db.live id ++ if row.shipmentId = id then [row] else [] := by
  unfold Db.live
  rw [Table.rows_insert hfree, List.filter_append]
  by_cases hid : row.shipmentId = id <;> simp [hid, hlive]

/-- A redistribution as one pass over the rows. -/
def withPercents (shipmentId : String) (updates : List MilestonePercentDto) (m : Milestone) :
    Milestone :=
  if m.shipmentId = shipmentId then { m with paymentPercent := percentAfter updates m } else m

theorem withPercents_id (shipmentId : String) (updates : List MilestonePercentDto)
    (m : Milestone) : (withPercents shipmentId updates m).id = m.id := by
  unfold withPercents
  split <;> rfl

theorem updateMap_cons (u : MilestonePercentDto) (rest : List MilestonePercentDto) (index : Int) :
    updateMap (u :: rest) index =
      (updateMap rest index).or (if u.milestoneIndex = index then some u.paymentPercent else none) := by
  unfold updateMap
  rw [List.reverse_cons, List.find?_append]
  cases rest.reverse.find? fun u => u.milestoneIndex = index with
  | some v => rfl
  | none => by_cases hindex : u.milestoneIndex = index <;> simp [hindex]

theorem rows_setPercents (shipmentId : String) (updates : List MilestonePercentDto) :
    (updates.foldl (Db.setPercent shipmentId) db).milestones.rows =
      db.milestones.rows.map (withPercents shipmentId updates) := by
  induction updates generalizing db with
  | nil =>
      have hid : withPercents shipmentId [] = id := by
        funext m
        unfold withPercents
        split <;> rfl
      rw [hid, List.map_id]
      rfl
  | cons u rest ih =>
      rw [List.foldl_cons, ih]
      simp only [Db.setPercent, Table.modify, List.map_map]
      apply List.map_congr_left
      intro m _
      -- an entry of the rest of the request overrides this one
      simp only [Function.comp_apply, withPercents, percentAfter, updateMap_cons, Milestone.key,
        Prod.mk.injEq]
      by_cases hm : m.shipmentId = shipmentId
      · by_cases hindex : m.milestoneIndex = u.milestoneIndex
        · cases hrest : updateMap rest u.milestoneIndex <;> simp [hm, hindex, hrest]
        · simp [hm, hindex, Ne.symm hindex]
      · simp [hm]

theorem live_setPercents (shipmentId : String) (updates : List MilestonePercentDto) (id : String) :
    (updates.foldl (Db.setPercent shipmentId) db).live id =
      (db.live id).map (withPercents shipmentId updates) := by
  unfold Db.live
  rw [rows_setPercents, List.filter_map]
  congr 1
  apply List.filter_congr
  intro m _
  by_cases hm : m.shipmentId = shipmentId <;> simp [withPercents, hm]

theorem rows_softDelete (key : MilestoneKey) (now : Nat) :
    (db.softDelete key now).milestones.rows = db.milestones.rows.map fun m =>
      if m.key = key then { m with deletedAt := some now } else m := rfl

/-- A soft-deleted row is live no more. -/
theorem live_softDelete (key : MilestoneKey) (now : Nat) (id : String) :
    (db.softDelete key now).live id = (db.live id).filter fun m => m.key ≠ key := by
  unfold Db.live
  rw [rows_softDelete, List.filter_map, List.filter_filter]
  have hkept : db.milestones.rows.filter ((fun m =>
      decide (m.shipmentId = id ∧ m.deletedAt = none)) ∘ fun m =>
        if m.key = key then { m with deletedAt := some now } else m) =
      db.milestones.rows.filter fun m =>
        decide (m.key ≠ key) && decide (m.shipmentId = id ∧ m.deletedAt = none) := by
    apply List.filter_congr
    intro m _
    by_cases hkey : m.key = key <;> simp [hkey]
  rw [hkept]
  conv_rhs => rw [← List.map_id (db.milestones.rows.filter _)]
  apply List.map_congr_left
  intro m hm
  have hkey : m.key ≠ key := by
    have hboth := (List.mem_filter.mp hm).2
    simp only [ne_eq, Bool.and_eq_true, decide_eq_true_eq] at hboth
    exact hboth.1
  rw [if_neg hkey]
  rfl

end Live

/-- The live milestones of a shipment share at most 100 percent, and there is
one. -/
structure PlanSound (db : Db) (shipmentId : String) : Prop where
  sum : ((db.live shipmentId).map Milestone.paymentPercent).sum ≤ 100
  nonempty : db.live shipmentId ≠ []

/-- The row with this key has this id. -/
def Db.HasRow (db : Db) (key : MilestoneKey) (id : String) : Prop :=
  ∃ m ∈ db.milestones.rows, m.key = key ∧ m.id = id

/-- What an operation on the plan has checked still holds. -/
def PlanCall.Fits (id : String) (db : Db) : PlanCall → Prop
  | .appendIndex shipmentId dto | .appendCreate shipmentId dto _ =>
      shipmentId = id →
        ((db.live id).map Milestone.paymentPercent).sum + dto.paymentPercent ≤ 100
  | .rebalanceWrite shipmentId updates =>
      shipmentId = id → ((db.live id).map (percentAfter updates)).sum ≤ 100
  | .removeList shipmentId milestoneIndex m => db.HasRow (shipmentId, milestoneIndex) m.id
  | .removeWrite shipmentId milestoneIndex m =>
      db.HasRow (shipmentId, milestoneIndex) m.id ∧
        (shipmentId = id → ∃ other ∈ db.live id, other.id ≠ m.id)
  | _ => True

/-- The shipment whose percentages the operation has checked and may still
raise. -/
def PlanCall.raises : PlanCall → Option String
  | .appendIndex shipmentId _ | .appendCreate shipmentId _ _ | .rebalanceWrite shipmentId _ =>
      some shipmentId
  | _ => none

/-- The write of the first operation does not touch what the second has checked. -/
def PlanCall.Tolerates : PlanCall → PlanCall → Prop
  | .appendCreate shipmentId _ _, call | .rebalanceWrite shipmentId _, call =>
      call.raises ≠ some shipmentId
  | .removeWrite shipmentId _ m, .removeWrite shipmentId' _ m' =>
      shipmentId' = shipmentId → m'.id = m.id
  | _, _ => True

namespace Planning

/-- Appends and redistributions of one shipment do not overlap between check and
write, and neither do removals of two of its milestones. -/
def WritesApart (s : Planning) : PlanAction → Prop
  | .resume slot _ => ∀ call, s.pending slot = some call → ∀ other call', other ≠ slot →
      s.pending other = some call' → call.Tolerates call'
  | _ => True

structure Planned (id : String) (s : Planning) : Prop where
  sound : PlanSound s.shared id
  ids : (s.shared.milestones.rows.map Milestone.id).Nodup
  percents : ∀ m ∈ s.shared.live id, 0 ≤ m.paymentPercent
  fits : ∀ slot call, s.pending slot = some call → call.Fits id s.shared

end Planning

section Kept

variable {db db' : Db} {id : String} {call : PlanCall}

/-- Nothing is lost of the rows but what an update changes. -/
structure Kept (db db' : Db) : Prop where
  ids : (db.milestones.rows.map Milestone.id).Nodup → (db'.milestones.rows.map Milestone.id).Nodup
  hasRow : ∀ key id, db.HasRow key id → db'.HasRow key id

theorem kept_insert {row : Milestone} (hkey : row.key ∉ db.milestones.rows.map Milestone.key)
    (hid : row.id ∉ db.milestones.rows.map Milestone.id) :
    Kept db { db with milestones := db.milestones.insert row } := by
  have hrows := Table.rows_insert hkey
  refine ⟨fun hnodup => ?_, fun key id ⟨m, hm, hrow⟩ => ⟨m, ?_, hrow⟩⟩
  · rw [hrows, List.map_append, List.map_singleton, ← List.concat_eq_append]
    exact hnodup.concat hid
  · rw [hrows]
    exact List.mem_append_left _ hm

theorem kept_map {f : Milestone → Milestone}
    (hrows : db'.milestones.rows = db.milestones.rows.map f) (hkey : ∀ m, (f m).key = m.key)
    (hid : ∀ m, (f m).id = m.id) : Kept db db' := by
  refine ⟨fun hnodup => ?_, fun key id ⟨m, hm, hrow⟩ => ⟨f m, ?_, ?_⟩⟩
  · rw [hrows, List.map_map, show Milestone.id ∘ f = Milestone.id from funext hid]
    exact hnodup
  · rw [hrows]
    exact List.mem_map_of_mem hm
  · rw [hkey, hid]
    exact hrow

theorem kept_setPercents (shipmentId : String) (updates : List MilestonePercentDto) :
    Kept db (updates.foldl (Db.setPercent shipmentId) db) := by
  refine kept_map (rows_setPercents shipmentId updates) (fun m => ?_)
    (withPercents_id shipmentId updates)
  unfold withPercents
  split <;> rfl

theorem kept_softDelete (key : MilestoneKey) (now : Nat) : Kept db (db.softDelete key now) := by
  refine kept_map (rows_softDelete key now) (fun m => ?_) fun m => ?_
  all_goals split <;> rfl

/-- Of two live milestones one has another id. -/
theorem exists_other (hids : (db.milestones.rows.map Milestone.id).Nodup)
    (hlength : 2 ≤ (db.live id).length) (milestoneId : String) :
    ∃ m ∈ db.live id, m.id ≠ milestoneId := by
  have hnodup : ((db.live id).map Milestone.id).Nodup :=
    hids.sublist (List.filter_sublist.map Milestone.id)
  generalize db.live id = live at hlength hnodup
  match live with
  | [] => simp at hlength
  | [_] => simp at hlength
  | first :: second :: rest =>
      by_cases hfirst : first.id = milestoneId
      · refine ⟨second, .tail _ (.head _), fun hsecond => ?_⟩
        have hsame : first.id = second.id := hfirst.trans hsecond.symm
        simp [hsame] at hnodup
      · exact ⟨first, .head _, hfirst⟩

/-- Nothing changed on the shipment. -/
theorem PlanCall.Fits.of_live_eq (hkept : Kept db db') (hlive : db'.live id = db.live id)
    (h : call.Fits id db) : call.Fits id db' := by
  cases call with
  | removeList => exact hkept.hasRow _ _ h
  | removeWrite =>
      refine ⟨hkept.hasRow _ _ h.1, ?_⟩
      rw [hlive]
      exact h.2
  | _ =>
      unfold PlanCall.Fits at h ⊢
      rw [hlive]
      exact h

/-- The live milestones are all still there, whatever their percentages. -/
theorem PlanCall.Fits.of_live_kept (hkept : Kept db db') (hraises : call.raises ≠ some id)
    (hlive : ∀ m ∈ db.live id, ∃ m' ∈ db'.live id, m'.id = m.id) (h : call.Fits id db) :
    call.Fits id db' := by
  cases call with
  | removeList => exact hkept.hasRow _ _ h
  | removeWrite =>
      refine ⟨hkept.hasRow _ _ h.1, fun hid => ?_⟩
      obtain ⟨other, hother, hne⟩ := h.2 hid
      obtain ⟨other', hother', hsame⟩ := hlive other hother
      exact ⟨other', hother', hsame ▸ hne⟩
  | appendIndex => exact fun hid => absurd (congrArg some hid) hraises
  | appendCreate => exact fun hid => absurd (congrArg some hid) hraises
  | rebalanceWrite => exact fun hid => absurd (congrArg some hid) hraises
  | _ => trivial

theorem percentAfter_nonneg (updates : List MilestonePercentDto) {m : Milestone}
    (h : 0 ≤ m.paymentPercent) : 0 ≤ percentAfter updates m := by
  unfold percentAfter updateMap
  cases updates.reverse.find? fun u => u.milestoneIndex = m.milestoneIndex with
  | none => exact h
  | some u => exact u.min

/-- What is left of the live milestones has no larger share. -/
theorem sum_live_filter {p : Milestone → Bool} (hlive : db'.live id = (db.live id).filter p)
    {f : Milestone → Int} (hf : ∀ m ∈ db.live id, 0 ≤ f m) :
    ((db'.live id).map f).sum ≤ ((db.live id).map f).sum := by
  rw [hlive]
  apply (List.filter_sublist.map f).sum_le_sum
  intro share hshare
  obtain ⟨m, hm, rfl⟩ := List.mem_map.mp hshare
  exact hf m hm

/-- A live milestone is gone. -/
theorem PlanCall.Fits.of_removed {key : MilestoneKey} (hkept : Kept db db')
    (hlive : db'.live id = (db.live id).filter fun m => m.key ≠ key)
    (hpercents : ∀ m ∈ db.live id, 0 ≤ m.paymentPercent)
    (hother : ∀ shipmentId index m', call = .removeWrite shipmentId index m' → shipmentId = id →
      ∀ m ∈ db.live id, m.id ≠ m'.id → m.key ≠ key)
    (h : call.Fits id db) : call.Fits id db' := by
  cases call with
  | appendIndex shipmentId dto =>
      intro hid
      have hless := sum_live_filter hlive hpercents
      have hroom := h hid
      omega
  | appendCreate shipmentId dto nextIndex =>
      intro hid
      have hless := sum_live_filter hlive hpercents
      have hroom := h hid
      omega
  | rebalanceWrite shipmentId updates =>
      intro hid
      exact (sum_live_filter hlive fun m hm => percentAfter_nonneg updates (hpercents m hm)).trans
        (h hid)
  | removeList => exact hkept.hasRow _ _ h
  | removeWrite shipmentId index m' =>
      refine ⟨hkept.hasRow _ _ h.1, fun hid => ?_⟩
      obtain ⟨other, hmem, hne⟩ := h.2 hid
      refine ⟨other, ?_, hne⟩
      rw [hlive, List.mem_filter]
      exact ⟨hmem, decide_eq_true (hother shipmentId index m' rfl hid other hmem hne)⟩
  | _ => trivial

theorem fits_of_starts (h : call.starts = true) : call.Fits id db := by
  cases call with
  | appendIndex => cases h
  | appendCreate => cases h
  | rebalanceWrite => cases h
  | removeList => cases h
  | removeWrite => cases h
  | _ => trivial

/-- A check that passes makes the operation fit. -/
theorem fits_after_read {next : PlanCall} (hids : (db.milestones.rows.map Milestone.id).Nodup)
    (hreads : PlanReads db call next) (hfits : call.Fits id db) : next.Fits id db := by
  cases hreads with
  | appendList shipmentId dto hroom =>
      rintro rfl
      exact hroom
  | appendIndex shipmentId dto => exact hfits
  | rebalanceList shipmentId updates htotal =>
      rintro rfl
      exact htotal.le
  | removeFind shipmentId milestoneIndex hm =>
      have hrow := find?_of_liveMilestone _ _ _ hm
      exact ⟨_, Table.mem_of_find? hrow, Table.key_of_find? hrow, rfl⟩
  | removeList shipmentId milestoneIndex m hothers =>
      refine ⟨hfits, ?_⟩
      rintro rfl
      exact exists_other hids hothers m.id
  | _ => trivial

end Kept

namespace Planning

variable {s t : Planning} {a : PlanAction} {id : String} {slot : Nat} {env : Env}

/-- After the last statement of an operation only the others are in flight. -/
theorem fits_of_others {db : Db} (h : ∀ other call, other ≠ slot → s.pending other = some call →
      call.Fits id db) :
    ∀ other call, Function.update s.pending slot none other = some call → call.Fits id db := by
  intro other call hother
  rcases pending_update hother with ⟨_, hnone⟩ | ⟨hne, hold⟩
  · cases hnone
  · exact h other call hne hold

/-- A write on another shipment. -/
theorem planned_of_live_eq {db : Db} (h : s.Planned id) (hkept : Kept s.shared db)
    (hlive : db.live id = s.shared.live id) :
    Planned id ⟨db, Function.update s.pending slot none⟩ where
  sound := ⟨hlive ▸ h.sound.sum, hlive ▸ h.sound.nonempty⟩
  ids := hkept.ids h.ids
  percents := hlive ▸ h.percents
  fits := fits_of_others fun other call _ hother => (h.fits other call hother).of_live_eq hkept hlive

theorem planned_append {shipmentId : String} {dto : MilestoneDto} {nextIndex : Int}
    (hapart : s.WritesApart (.resume slot env)) (h : s.Planned id)
    (hcall : s.pending slot = some (.appendCreate shipmentId dto nextIndex))
    (hid : dto.id ∉ s.shared.milestones.rows.map Milestone.id)
    (hkey : (shipmentId, nextIndex) ∉ s.shared.milestones.rows.map Milestone.key) :
    Planned id ⟨{ s.shared with
      milestones := s.shared.milestones.insert (dto.row shipmentId nextIndex) },
      Function.update s.pending slot none⟩ := by
  have hkept := @kept_insert s.shared (dto.row shipmentId nextIndex) hkey hid
  have hlive := @live_insert s.shared (dto.row shipmentId nextIndex) hkey rfl id
  by_cases hshipment : shipmentId = id
  · have happended : Db.live { s.shared with
        milestones := s.shared.milestones.insert (dto.row shipmentId nextIndex) } id =
        s.shared.live id ++ [dto.row shipmentId nextIndex] := by
      rw [hlive]
      exact congrArg _ (if_pos hshipment)
    refine ⟨⟨?_, ?_⟩, hkept.ids h.ids, ?_, fits_of_others fun other call' hne hother => ?_⟩
    · have hroom := h.fits slot _ hcall hshipment
      simp only [happended, List.map_append, List.sum_append, List.map_singleton,
        List.sum_singleton]
      exact hroom
    · simp only [happended]
      exact List.append_ne_nil_of_right_ne_nil _ (List.cons_ne_nil _ _)
    · intro m hm
      simp only [happended, List.mem_append, List.mem_singleton] at hm
      rcases hm with hold | rfl
      · exact h.percents m hold
      · exact Int.le_trans (by decide) dto.min
    · have hraises : call'.raises ≠ some id :=
        hshipment ▸ hapart _ hcall other call' hne hother
      refine (h.fits other call' hother).of_live_kept hkept hraises fun m hm => ⟨m, ?_, rfl⟩
      rw [happended]
      exact List.mem_append_left _ hm
  · have hsame : Db.live { s.shared with
        milestones := s.shared.milestones.insert (dto.row shipmentId nextIndex) } id =
        s.shared.live id := by
      rw [hlive]
      exact (congrArg _ (if_neg hshipment)).trans (List.append_nil _)
    exact planned_of_live_eq h hkept hsame

theorem planned_rebalance {shipmentId : String} {updates : List MilestonePercentDto}
    (hapart : s.WritesApart (.resume slot env)) (h : s.Planned id)
    (hcall : s.pending slot = some (.rebalanceWrite shipmentId updates)) :
    Planned id ⟨updates.foldl (Db.setPercent shipmentId) s.shared,
      Function.update s.pending slot none⟩ := by
  have hkept := @kept_setPercents s.shared shipmentId updates
  have hlive := @live_setPercents s.shared shipmentId updates id
  by_cases hshipment : shipmentId = id
  · subst hshipment
    have hpercent : ∀ m ∈ s.shared.live shipmentId,
        (withPercents shipmentId updates m).paymentPercent = percentAfter updates m := by
      intro m hm
      exact congrArg Milestone.paymentPercent (if_pos (mem_live.mp hm).2.1)
    refine ⟨⟨?_, ?_⟩, hkept.ids h.ids, ?_, fits_of_others fun other call' hne hother => ?_⟩
    · rw [hlive, List.map_map]
      refine (congrArg List.sum (List.map_congr_left hpercent)).trans_le ?_
      exact h.fits slot _ hcall rfl
    · rw [hlive]
      exact fun hnil => h.sound.nonempty (List.map_eq_nil_iff.mp hnil)
    · intro m hm
      change m ∈ Db.live _ shipmentId at hm
      rw [hlive] at hm
      obtain ⟨before, hbefore, rfl⟩ := List.mem_map.mp hm
      rw [hpercent before hbefore]
      exact percentAfter_nonneg updates (h.percents before hbefore)
    · have hraises := hapart _ hcall other call' hne hother
      refine (h.fits other call' hother).of_live_kept hkept hraises fun m hm => ?_
      refine ⟨withPercents shipmentId updates m, ?_, ?_⟩
      · rw [hlive]
        exact List.mem_map_of_mem hm
      · exact withPercents_id shipmentId updates m
  · have hsame : (updates.foldl (Db.setPercent shipmentId) s.shared).live id =
        s.shared.live id := by
      rw [hlive]
      conv_rhs => rw [← List.map_id (s.shared.live id)]
      apply List.map_congr_left
      intro m hm
      have hne : m.shipmentId ≠ shipmentId := (mem_live.mp hm).2.1 ▸ Ne.symm hshipment
      exact if_neg hne
    exact planned_of_live_eq h hkept hsame

/-- The row that is removed is the one that the operation has found. -/
theorem planned_remove {shipmentId : String} {milestoneIndex : Int} {milestone m : Milestone}
    (hapart : s.WritesApart (.resume slot env)) (h : s.Planned id)
    (hcall : s.pending slot = some (.removeWrite shipmentId milestoneIndex milestone))
    (hm : m ∈ s.shared.milestones.rows) (hid : m.id = milestone.id) (now : Nat) :
    Planned id ⟨s.shared.softDelete m.key now, Function.update s.pending slot none⟩ := by
  have hkept := @kept_softDelete s.shared m.key now
  have hlive := @live_softDelete s.shared m.key now id
  obtain ⟨⟨row, hrow, hkey, hsame⟩, hothers⟩ := h.fits slot _ hcall
  have hfound : row = m := List.inj_on_of_nodup_map h.ids hrow hm (hsame.trans hid.symm)
  subst hfound
  have hdistinct : ∀ other ∈ s.shared.live id, other.id ≠ row.id → other.key ≠ row.key := by
    intro other hother hne hsamekey
    have hrows := List.inj_on_of_nodup_map s.shared.milestones.nodup (mem_live.mp hother).1 hm
      hsamekey
    exact hne (congrArg Milestone.id hrows)
  by_cases hshipment : shipmentId = id
  · refine ⟨⟨?_, ?_⟩, hkept.ids h.ids, ?_, fits_of_others fun other call' hne hother => ?_⟩
    · exact (sum_live_filter hlive h.percents).trans h.sound.sum
    · obtain ⟨other, hother, hne⟩ := hothers hshipment
      have hleft : other ∈ (s.shared.softDelete row.key now).live id := by
        rw [hlive, List.mem_filter]
        exact ⟨hother, decide_eq_true (hdistinct other hother (hid ▸ hne))⟩
      exact List.ne_nil_of_mem hleft
    · intro other hother
      change other ∈ (s.shared.softDelete row.key now).live id at hother
      rw [hlive] at hother
      exact h.percents other (List.mem_filter.mp hother).1
    · refine (h.fits other call' hother).of_removed hkept hlive h.percents ?_
      rintro shipmentId' index m' rfl hshipment' left hleft hne'
      have hagree : m'.id = milestone.id :=
        hapart _ hcall other _ hne hother (hshipment'.trans hshipment.symm)
      exact hdistinct left hleft (hid ▸ hagree ▸ hne')
  · have hsamelive : (s.shared.softDelete row.key now).live id = s.shared.live id := by
      rw [hlive, List.filter_eq_self]
      intro left hleft
      refine decide_eq_true fun hkeys => hshipment ?_
      have hshipments : left.shipmentId = shipmentId :=
        congrArg Prod.fst (hkeys.trans hkey)
      exact hshipments.symm.trans (mem_live.mp hleft).2.1
    exact planned_of_live_eq h hkept hsamelive

theorem planned_resume {call : PlanCall} {db : Db} {rest : Option PlanCall}
    (hapart : s.WritesApart (.resume slot env)) (hcall : s.pending slot = some call)
    (hresumed : PlanResumed env s.shared call db rest) (h : s.Planned id) :
    Planned id ⟨db, Function.update s.pending slot rest⟩ := by
  cases hresumed with
  | ended =>
      exact ⟨h.sound, h.ids, h.percents,
        fits_of_others fun other call' _ hother => h.fits other call' hother⟩
  | read hreads =>
      refine ⟨h.sound, h.ids, h.percents, fun other call' hother => ?_⟩
      rcases pending_update hother with ⟨_, hnew⟩ | ⟨_, hold⟩
      · cases hnew
        exact fits_after_read h.ids hreads (h.fits slot call hcall)
      · exact h.fits other call' hold
  | appended shipmentId dto nextIndex hid hkey => exact planned_append hapart h hcall hid hkey
  | rebalanced shipmentId updates => exact planned_rebalance hapart h hcall
  | removed shipmentId milestoneIndex milestone hm hid =>
      exact planned_remove hapart h hcall hm hid env.now

theorem planned_step (hapart : s.WritesApart a) (hstep : planning.step s a = some t)
    (h : s.Planned id) : t.Planned id := by
  obtain ⟨slot, call, rfl, hstarts, _, rfl⟩ | ⟨slot, env, call, rfl, hcall, rfl⟩ |
    ⟨event, _⟩ := planning.step_cases hstep
  · refine ⟨h.sound, h.ids, h.percents, fun other call' hother => ?_⟩
    rcases pending_update hother with ⟨_, hnew⟩ | ⟨_, hold⟩
    · cases hnew
      exact fits_of_starts hstarts
    · exact h.fits other call' hold
  · exact planned_resume hapart hcall (planResumed env s.shared call) h
  · exact event.elim

end Planning

section Create

variable {env : Env} {db db' : Db} {new : NewShipment} {milestones : List MilestoneDto}

/-- `create` checks the sum of a plan that is not empty, and inserts its rows. -/
theorem create_ok (h : exec (create env new milestones) db = (.ok (), db')) :
    (milestones ≠ [] → (milestones.map fun m => m.paymentPercent).sum = 100) ∧
      db'.milestones = (milestoneRows new.id (milestones.map fun m => m.toNewMilestone)).foldl
        Table.insert db.milestones := by
  unfold create at h
  by_cases hrefused : milestones ≠ [] ∧ (milestones.map fun m => m.paymentPercent).sum ≠ 100
  · simp only [hrefused, not_false_eq_true, ne_eq, and_self, ↓reduceIte, exec_bind,
      exec_throw] at h
    cases h
  · refine ⟨fun hplan => not_not.mp fun hsum => hrefused ⟨hplan, hsum⟩, ?_⟩
    simp only [hrefused, ↓reduceIte] at h
    unfold shipmentCreate at h
    rw [exec_bind, exec_prismaCall] at h
    cases hfails : env.fails .shipmentWrite with
    | true =>
        rw [hfails] at h
        cases h
    | false =>
        rw [hfails] at h
        cases htaken : (db.shipments.find? new.id).isSome with
        | true =>
            simp only [Bool.false_eq_true, exec_bind, exec_get, htaken, ↓reduceIte,
              exec_throw] at h
            cases h
        | false =>
            simp only [Bool.false_eq_true, exec_bind, exec_get, htaken, ↓reduceIte,
              exec_modify] at h
            cases h
            rfl

theorem keys_milestoneRows (shipmentId : String) (milestones : List NewMilestone) :
    (milestoneRows shipmentId milestones).map Milestone.key =
      (List.range milestones.length).map fun i : Nat => (shipmentId, (i : Int)) := by
  apply List.ext_getElem
  · simp [milestoneRows]
  · intro i _ _
    simp [milestoneRows, NewMilestone.row, Milestone.key]

section Inserted

variable {shipmentId : String} {new : List NewMilestone}

/-- The milestones of a new shipment stand after those there were. -/
theorem rows_insert_milestones (hnew : ∀ m ∈ db.milestones.rows, m.shipmentId ≠ shipmentId) :
    ((milestoneRows shipmentId new).foldl Table.insert db.milestones).rows =
      db.milestones.rows ++ milestoneRows shipmentId new := by
  have hkeys : ((db.milestones.rows ++ milestoneRows shipmentId new).map Milestone.key).Nodup := by
    rw [List.map_append, keys_milestoneRows]
    refine List.Nodup.append db.milestones.nodup ?_ ?_
    · exact List.nodup_range.map fun i j hij => Int.ofNat.inj (congrArg Prod.snd hij)
    · intro key hold hcreated
      obtain ⟨m, hm, rfl⟩ := List.mem_map.mp hold
      obtain ⟨i, _, hkey⟩ := List.mem_map.mp hcreated
      exact hnew m hm (congrArg Prod.fst hkey).symm
  rw [Table.rows_foldl_insert hkeys]

theorem live_of_rows
    (hrows : db'.milestones.rows = db.milestones.rows ++ milestoneRows shipmentId new)
    (hnew : ∀ m ∈ db.milestones.rows, m.shipmentId ≠ shipmentId) :
    db'.live shipmentId = milestoneRows shipmentId new := by
  unfold Db.live
  rw [hrows, List.filter_append]
  have hnone : db.milestones.rows.filter
      (fun m => m.shipmentId = shipmentId ∧ m.deletedAt = none) = [] := by
    rw [List.filter_eq_nil_iff]
    intro m hm hlive
    exact hnew m hm (of_decide_eq_true hlive).1
  rw [hnone, List.nil_append, List.filter_eq_self]
  intro m hm
  obtain ⟨i, _, rfl⟩ := List.mem_mapIdx.mp hm
  exact decide_eq_true ⟨rfl, rfl⟩

end Inserted

theorem rows_create (h : exec (create env new milestones) db = (.ok (), db'))
    (hnew : ∀ m ∈ db.milestones.rows, m.shipmentId ≠ new.id) :
    db'.milestones.rows = db.milestones.rows ++
      milestoneRows new.id (milestones.map fun m => m.toNewMilestone) := by
  rw [(create_ok h).2, rows_insert_milestones hnew]

/-- The live milestones of a new shipment are those of the request. -/
theorem live_create (h : exec (create env new milestones) db = (.ok (), db'))
    (hnew : ∀ m ∈ db.milestones.rows, m.shipmentId ≠ new.id) :
    db'.live new.id = milestoneRows new.id (milestones.map fun m => m.toNewMilestone) :=
  live_of_rows (rows_create h hnew) hnew

theorem planned_create (h : exec (create env new milestones) db = (.ok (), db'))
    (hplan : milestones ≠ []) (hnew : ∀ m ∈ db.milestones.rows, m.shipmentId ≠ new.id)
    (hids : (db'.milestones.rows.map Milestone.id).Nodup) :
    (Planning.idle db').Planned new.id := by
  have hlive := live_create h hnew
  have hshares : (db'.live new.id).map Milestone.paymentPercent =
      milestones.map fun m => m.paymentPercent := by
    rw [hlive]
    apply List.ext_getElem <;> simp [milestoneRows, NewMilestone.row]
  refine ⟨⟨?_, ?_⟩, hids, ?_, fun _ _ hpending => by cases hpending⟩
  · change ((db'.live new.id).map Milestone.paymentPercent).sum ≤ 100
    rw [hshares]
    exact ((create_ok h).1 hplan).le
  · intro hnil
    rw [show db'.live new.id = [] from hnil] at hshares
    exact hplan (List.map_eq_nil_iff.mp hshares.symm)
  · intro m hm
    have hshare : m.paymentPercent ∈ milestones.map fun m => m.paymentPercent :=
      hshares ▸ List.mem_map_of_mem hm
    obtain ⟨dto, _, hdto⟩ := List.mem_map.mp hshare
    rw [← hdto]
    exact Int.le_trans (by decide) dto.min

end Create

/-- From a plan that `create` has accepted, in every state of a run whose checks
and writes do not overlap, the live milestones share at most 100 percent and
there is one. -/
theorem plan_stays_sound {env : Env} {db db' : Db} {new : NewShipment}
    {milestones : List MilestoneDto} {s : Planning}
    (hcreate : exec (create env new milestones) db = (.ok (), db')) (hplan : milestones ≠ [])
    (hnew : ∀ m ∈ db.milestones.rows, m.shipmentId ≠ new.id)
    (hids : (db'.milestones.rows.map Milestone.id).Nodup)
    (hrun : StepsAlong planning.step Planning.WritesApart (Planning.idle db') s) :
    PlanSound s.shared new.id := by
  have hstep : ∀ (u : Planning) a (v : Planning), u.WritesApart a → planning.step u a = some v →
      u.Planned new.id → v.Planned new.id :=
    fun u a v hapart htaken h => Planning.planned_step hapart htaken h
  exact (hrun.invariant hstep (planned_create hcreate hplan hnew hids)).sound

/-- Two milestones of 60 and 40 percent. -/
def demoPlan : List MilestoneDto :=
  [⟨⟨"m-1", "Dispatch", 60, none, []⟩, by decide, by decide, rfl⟩,
    ⟨⟨"m-2", "Delivery", 40, none, []⟩, by decide, by decide, rfl⟩]

def plannedDb : Db := after (create (.calm 1) demoShipment demoPlan) Db.blank

theorem removal_leaves_plan_sound :
    ∃ s : Planning, (s.shared.live "SHIP-1").map Milestone.paymentPercent = [60] ∧
      PlanSound s.shared "SHIP-1" := by
  have hrun : ∃ s : Planning,
      StepsAlong planning.step Planning.WritesApart (Planning.idle plannedDb) s ∧
        (s.shared.live "SHIP-1").map Milestone.paymentPercent = [60] := by
    refine ⟨_, .tail (.tail (.tail (.tail (.tail (.refl _)
      (a := .begin 0 (.removeShipment "SHIP-1" 1 "GBUYER")) trivial rfl)
      (a := .resume 0 (.calm 2)) ?_ rfl) (a := .resume 0 (.calm 2)) ?_ rfl)
      (a := .resume 0 (.calm 2)) ?_ rfl) (a := .resume 0 (.calm 2)) ?_ rfl, by decide⟩
    all_goals
      rintro call _ (_ | other) call' hne hother
      · exact absurd rfl hne
      · cases hother
  obtain ⟨s, hs, hleft⟩ := hrun
  have hcreate : exec (create (.calm 1) demoShipment demoPlan) Db.blank = (.ok (), plannedDb) := rfl
  exact ⟨s, hleft, plan_stays_sound hcreate (List.cons_ne_nil _ _) (fun _ hm => by cases hm)
    (by decide) hs⟩

/-- The buyer removes both milestones; each request has counted two. -/
def crossedRemovals : List PlanAction :=
  [.begin 0 (.removeShipment "SHIP-1" 0 "GBUYER"), .begin 1 (.removeShipment "SHIP-1" 1 "GBUYER"),
    .resume 0 (.calm 2), .resume 0 (.calm 2), .resume 0 (.calm 2),
    .resume 1 (.calm 2), .resume 1 (.calm 2), .resume 1 (.calm 2),
    .resume 0 (.calm 3), .resume 1 (.calm 3)]

theorem crossed_removals_empty_plan :
    ∃ s : Planning, StepsAlong planning.step (fun _ _ => True) (Planning.idle plannedDb) s ∧
      ¬ PlanSound s.shared "SHIP-1" := by
  have hends : (crossedRemovals.foldlM planning.step (Planning.idle plannedDb)).map
      (·.shared.live "SHIP-1") = some [] := by decide
  obtain ⟨s, hs, hempty⟩ := Option.map_eq_some_iff.mp hends
  exact ⟨s, .of_foldlM (fun _ _ _ => trivial) hs, fun h => h.nonempty hempty⟩

end ChainSettle
