import ChainSettle.Concurrency.Plan

/-!
Events name a milestone by its index, so an index must mean the same row for
ever. `appendMilestone` takes one more than the highest index it has read, and
creates the row later. Rows are never deleted, and the index that an append
still holds is at most the next free one: either it is that one, or another
append was faster and the unique index refuses the row.
-/

namespace ChainSettle

open Lib Lib.Eff

/-- The indices of a shipment, those of soft-deleted milestones included, are
`0 .. count - 1`. -/
def Db.NumberedTo (db : Db) (shipmentId : String) (count : Nat) : Prop :=
  ∀ index : Int, (shipmentId, index) ∈ db.milestones.rows.map Milestone.key ↔
    0 ≤ index ∧ index < count

section Numbering

variable {db : Db} {id : String} {count : Nat}

theorem mem_indices {index : Int} :
    index ∈ (db.milestones.rows.filter fun m => m.shipmentId = id).map Milestone.milestoneIndex ↔
      (id, index) ∈ db.milestones.rows.map Milestone.key := by
  simp only [List.mem_map, List.mem_filter, decide_eq_true_eq, Milestone.key, Prod.mk.injEq]
  constructor
  · rintro ⟨m, ⟨hm, hid⟩, hindex⟩
    exact ⟨m, hm, hid, hindex⟩
  · rintro ⟨m, hm, hid, hindex⟩
    exact ⟨m, ⟨hm, hid⟩, hindex⟩

/-- The aggregate finds the next free index. -/
theorem nextIndex_eq (h : db.NumberedTo id count) : db.nextIndex id = count := by
  unfold Db.nextIndex
  cases hmax : ((db.milestones.rows.filter fun m => m.shipmentId = id).map
      Milestone.milestoneIndex).max? with
  | none =>
      have hnone : (id, (0 : Int)) ∉ db.milestones.rows.map Milestone.key := by
        rw [← mem_indices, List.max?_eq_none_iff.mp hmax]
        exact List.not_mem_nil
      have hzero := mt (h 0).mpr hnone
      simp only
      omega
  | some top =>
      obtain ⟨hmem, hbound⟩ := List.max?_eq_some_iff.mp hmax
      obtain ⟨hnonneg, hlt⟩ := (h top).mp (mem_indices.mp hmem)
      have hlast : ((count : Int) - 1) ≤ top := by
        apply hbound
        rw [mem_indices, h]
        omega
      simp only
      omega

/-- A new row takes the next free index, or belongs to another shipment. -/
theorem numberedTo_insert {row : Milestone} (h : db.NumberedTo id count)
    (hfree : row.key ∉ db.milestones.rows.map Milestone.key)
    (hnext : row.shipmentId = id → row.milestoneIndex = count) :
    Db.NumberedTo { db with milestones := db.milestones.insert row } id
      (if row.shipmentId = id then count + 1 else count) := by
  intro index
  simp only [Table.rows_insert hfree, List.map_append, List.map_singleton, List.mem_append,
    List.mem_singleton, h index, Milestone.key, Prod.mk.injEq]
  by_cases hid : row.shipmentId = id
  · rw [if_pos hid, hnext hid]
    push_cast
    simp only [hid, true_and]
    omega
  · rw [if_neg hid]
    simp [Ne.symm hid]

end Numbering

/-- The keys after an operation has been resumed: those there were, and the one
of an appended row. -/
theorem keys_after_resume {env : Env} {db db' : Db} {call : PlanCall} {rest : Option PlanCall}
    (h : PlanResumed env db call db' rest) :
    db'.milestones.rows.map Milestone.key = db.milestones.rows.map Milestone.key ∨
    ∃ shipmentId dto nextIndex, call = .appendCreate shipmentId dto nextIndex ∧ rest = none ∧
      (shipmentId, nextIndex) ∉ db.milestones.rows.map Milestone.key ∧
      db' = { db with milestones := db.milestones.insert (dto.row shipmentId nextIndex) } := by
  cases h with
  | ended | read => exact .inl rfl
  | appended shipmentId dto nextIndex _ hkey =>
      exact .inr ⟨shipmentId, dto, nextIndex, rfl, rfl, hkey, rfl⟩
  | rebalanced shipmentId updates =>
      refine .inl ?_
      rw [rows_setPercents, List.map_map]
      apply List.map_congr_left
      intro m _
      simp only [Function.comp_apply, withPercents]
      split <;> rfl
  | removed =>
      exact .inl (Table.keys_modify db.milestones _
        (fun m => { m with deletedAt := some env.now }) fun _ => rfl)

theorem kept_after_resume {env : Env} {db db' : Db} {call : PlanCall} {rest : Option PlanCall}
    (h : PlanResumed env db call db' rest) : Kept db db' := by
  cases h with
  | ended | read => exact ⟨fun h => h, fun _ _ h => h⟩
  | appended shipmentId dto nextIndex hid hkey => exact kept_insert hkey hid
  | rebalanced shipmentId updates => exact kept_setPercents shipmentId updates
  | removed => exact kept_softDelete _ _

namespace Planning

variable {s t : Planning} {a : PlanAction} {id : String}

/-- The indices are numbered, and no append in flight holds one that is beyond
the next. -/
def Numbered (id : String) (count : Nat) (s : Planning) : Prop :=
  s.shared.NumberedTo id count ∧
    ∀ slot dto nextIndex, s.pending slot = some (.appendCreate id dto nextIndex) →
      0 ≤ nextIndex ∧ nextIndex ≤ count

/-- An append that goes through held the next free index. -/
theorem appended_index {count : Nat} {slot : Nat} {dto : MilestoneDto} {nextIndex : Int}
    (h : s.Numbered id count) (hcall : s.pending slot = some (.appendCreate id dto nextIndex))
    (hfree : (id, nextIndex) ∉ s.shared.milestones.rows.map Milestone.key) :
    nextIndex = count := by
  obtain ⟨hnonneg, hle⟩ := h.2 slot dto nextIndex hcall
  have hbeyond := mt (h.1 nextIndex).mpr hfree
  omega

theorem numbered_resume {count : Nat} {slot : Nat} {env : Env} {call : PlanCall} {db : Db}
    {rest : Option PlanCall} (h : s.Numbered id count) (hcall : s.pending slot = some call)
    (hresumed : PlanResumed env s.shared call db rest) :
    ∃ count', count ≤ count' ∧ Numbered id count' ⟨db, Function.update s.pending slot rest⟩ := by
  rcases keys_after_resume hresumed with
    hkeys | ⟨shipmentId, dto, nextIndex, rfl, rfl, hfree, rfl⟩
  · refine ⟨count, le_rfl, fun index => ?_, fun other dto nextIndex hother => ?_⟩
    · rw [hkeys]
      exact h.1 index
    · rcases pending_update hother with ⟨_, hnew⟩ | ⟨_, hold⟩
      · subst hnew
        -- only the read of the highest index suspends an append before its insert
        cases hresumed with
        | read hreads =>
            cases hreads
            rw [nextIndex_eq h.1]
            omega
      · exact h.2 other dto nextIndex hold
  · have hnext : shipmentId = id → nextIndex = count := by
      rintro rfl
      exact appended_index h hcall hfree
    refine ⟨_, ?_, numberedTo_insert h.1 hfree hnext, fun other dto' nextIndex' hother => ?_⟩
    · split <;> omega
    · rcases pending_update hother with ⟨_, hnew⟩ | ⟨_, hold⟩
      · cases hnew
      · have hheld := h.2 other dto' nextIndex' hold
        split <;> omega

theorem numbered_step {count : Nat} (h : s.Numbered id count)
    (hstep : planning.step s a = some t) : ∃ count', count ≤ count' ∧ t.Numbered id count' := by
  obtain ⟨slot, call, rfl, hstarts, _, rfl⟩ | ⟨slot, env, call, rfl, hcall, rfl⟩ |
    ⟨event, _⟩ := planning.step_cases hstep
  · refine ⟨count, le_rfl, h.1, fun other dto nextIndex hother => ?_⟩
    rcases pending_update hother with ⟨_, hnew⟩ | ⟨_, hold⟩
    · cases hnew
      cases hstarts
    · exact h.2 other dto nextIndex hold
  · exact numbered_resume h hcall (planResumed env s.shared call)
  · exact event.elim

theorem kept_step (hstep : planning.step s a = some t) : Kept s.shared t.shared := by
  obtain ⟨slot, call, rfl, _, _, rfl⟩ | ⟨slot, env, call, rfl, hcall, rfl⟩ |
    ⟨event, _⟩ := planning.step_cases hstep
  · exact ⟨fun h => h, fun _ _ h => h⟩
  · exact kept_after_resume (planResumed env s.shared call)
  · exact event.elim

/-- A row that an operation adds has a higher index than the rows there are. -/
theorem added_above {count : Nat} {slot : Nat} {env : Env} {call : PlanCall} {db : Db}
    {rest : Option PlanCall} (h : s.Numbered id count) (hcall : s.pending slot = some call)
    (hresumed : PlanResumed env s.shared call db rest) {row m : Milestone}
    (hrow : row ∈ db.milestones.rows) (hid : row.shipmentId = id)
    (hnew : row.key ∉ s.shared.milestones.rows.map Milestone.key)
    (hm : m ∈ s.shared.milestones.rows) (hshipment : m.shipmentId = id) :
    m.milestoneIndex < row.milestoneIndex := by
  rcases keys_after_resume hresumed with
    hkeys | ⟨shipmentId, dto, nextIndex, rfl, _, hfree, rfl⟩
  · exact absurd (hkeys ▸ List.mem_map_of_mem hrow) hnew
  · have hrows : (s.shared.milestones.insert (dto.row shipmentId nextIndex)).rows =
        s.shared.milestones.rows ++ [dto.row shipmentId nextIndex] := Table.rows_insert hfree
    simp only [hrows, List.mem_append, List.mem_singleton] at hrow
    rcases hrow with hold | rfl
    · exact absurd (List.mem_map_of_mem hold) hnew
    · subst hid
      have hindex : nextIndex = count := appended_index h hcall hfree
      have hkey : m.key = (shipmentId, m.milestoneIndex) := Prod.ext hshipment rfl
      have hbelow := (h.1 m.milestoneIndex).mp (hkey ▸ List.mem_map_of_mem hm)
      exact hindex ▸ hbelow.2

theorem added_above_step {count : Nat} (h : s.Numbered id count)
    (hstep : planning.step s a = some t) {row m : Milestone}
    (hrow : row ∈ t.shared.milestones.rows) (hid : row.shipmentId = id)
    (hnew : row.key ∉ s.shared.milestones.rows.map Milestone.key)
    (hm : m ∈ s.shared.milestones.rows) (hshipment : m.shipmentId = id) :
    m.milestoneIndex < row.milestoneIndex := by
  obtain ⟨slot, call, rfl, _, _, rfl⟩ | ⟨slot, env, call, rfl, hcall, rfl⟩ |
    ⟨event, _⟩ := planning.step_cases hstep
  · exact absurd (List.mem_map_of_mem hrow) hnew
  · exact added_above h hcall (planResumed env s.shared call) hrow hid hnew hm hshipment
  · exact event.elim

theorem kept_run (h : StepsAlong planning.step (fun _ _ => True) s t) :
    Kept s.shared t.shared := by
  induction h with
  | refl => exact ⟨fun h => h, fun _ _ h => h⟩
  | tail _ _ htaken ih =>
      have hlast := kept_step htaken
      exact ⟨fun h => hlast.ids (ih.ids h), fun key id h => hlast.hasRow key id (ih.hasRow key id h)⟩

theorem numbered_run {count : Nat} (h : s.Numbered id count)
    (hrun : StepsAlong planning.step (fun _ _ => True) s t) :
    ∃ count', count ≤ count' ∧ t.Numbered id count' := by
  induction hrun with
  | refl => exact ⟨count, le_rfl, h⟩
  | tail _ _ htaken ih =>
      obtain ⟨middle, hmiddle, hnumbered⟩ := ih
      obtain ⟨last, hlast, hthen⟩ := numbered_step hnumbered htaken
      exact ⟨last, hmiddle.trans hlast, hthen⟩

end Planning

/-- `create` numbers the milestones by their position. -/
theorem numbered_create {env : Env} {db db' : Db} {new : NewShipment}
    {milestones : List MilestoneDto} (h : exec (create env new milestones) db = (.ok (), db'))
    (hnew : ∀ m ∈ db.milestones.rows, m.shipmentId ≠ new.id) :
    (Planning.idle db').Numbered new.id milestones.length := by
  refine ⟨fun index => ?_, fun _ _ _ hpending => by cases hpending⟩
  change (new.id, index) ∈ db'.milestones.rows.map Milestone.key ↔ _
  rw [rows_create h hnew, List.map_append, List.mem_append, keys_milestoneRows]
  have hold : (new.id, index) ∉ db.milestones.rows.map Milestone.key := by
    intro hmem
    obtain ⟨m, hm, hkey⟩ := List.mem_map.mp hmem
    exact hnew m hm (congrArg Prod.fst hkey)
  simp only [hold, false_or, List.mem_map, List.mem_range, List.length_map, Prod.mk.injEq,
    true_and]
  constructor
  · rintro ⟨i, hi, rfl⟩
    omega
  · rintro ⟨hnonneg, hlt⟩
    exact ⟨index.toNat, by omega, by omega⟩

/-- In every state `t` of a run from a shipment with `n` milestones the indices
are `0 .. m - 1` for some `m ≥ n`, an index names the same row as in any earlier
state `s`, and a row that the next step adds has the highest index. -/
theorem milestone_indices_permanent {env : Env} {db db' : Db} {new : NewShipment}
    {milestones : List MilestoneDto} {s t : Planning}
    (hcreate : exec (create env new milestones) db = (.ok (), db'))
    (hnew : ∀ m ∈ db.milestones.rows, m.shipmentId ≠ new.id)
    (hbefore : StepsAlong planning.step (fun _ _ => True) (Planning.idle db') s)
    (hrun : StepsAlong planning.step (fun _ _ => True) s t) :
    (∃ count, milestones.length ≤ count ∧ t.shared.NumberedTo new.id count) ∧
      (∀ index m, s.shared.milestones.find? (new.id, index) = some m →
        ∃ m', t.shared.milestones.find? (new.id, index) = some m' ∧ m'.id = m.id) ∧
      ∀ a u, planning.step t a = some u → ∀ row ∈ u.shared.milestones.rows,
        row.shipmentId = new.id → row.key ∉ t.shared.milestones.rows.map Milestone.key →
        ∀ m ∈ t.shared.milestones.rows, m.shipmentId = new.id →
          m.milestoneIndex < row.milestoneIndex := by
  have hall := hbefore.trans hrun
  obtain ⟨count, hcount, hnumbered⟩ := Planning.numbered_run (numbered_create hcreate hnew) hall
  refine ⟨⟨count, hcount, hnumbered.1⟩, fun index m hm => ?_, ?_⟩
  · have hthere : s.shared.HasRow (new.id, index) m.id :=
      ⟨m, Table.mem_of_find? hm, Table.key_of_find? hm, rfl⟩
    obtain ⟨m', hm', hkey, hid⟩ := (Planning.kept_run hrun).hasRow _ _ hthere
    exact ⟨m', hkey ▸ Table.find?_of_mem hm', hid⟩
  · intro a u hstep row hrow hid hfresh m hm hshipment
    exact Planning.added_above_step hnumbered hstep hrow hid hfresh hm hshipment

/-- The second milestone is removed and another one appended. -/
def removeThenAppend : List PlanAction :=
  .begin 0 (.removeShipment "SHIP-1" 1 "GBUYER") :: List.replicate 4 (.resume 0 (.calm 2)) ++
    .begin 0 (.appendShipment "SHIP-1" "GBUYER" ⟨⟨"m-3", "Customs", 40, none, []⟩, by decide, by decide, rfl⟩) ::
      List.replicate 4 (.resume 0 (.calm 3))

theorem appended_after_removal :
    ∃ t : Planning, t.shared.milestones.rows.map (fun m => (m.id, m.milestoneIndex)) =
        [("m-1", 0), ("m-2", 1), ("m-3", 2)] ∧
      (∃ count, 2 ≤ count ∧ t.shared.NumberedTo "SHIP-1" count) ∧
      ∃ m, t.shared.milestones.find? ("SHIP-1", 1) = some m ∧ m.id = "m-2" := by
  have hends : ((removeThenAppend.foldlM planning.step (Planning.idle plannedDb)).map
      fun t => t.shared.milestones.rows.map fun m => (m.id, m.milestoneIndex)) =
      some [("m-1", 0), ("m-2", 1), ("m-3", 2)] := by decide
  obtain ⟨t, ht, hrows⟩ := Option.map_eq_some_iff.mp hends
  have hcreate : exec (create (.calm 1) demoShipment demoPlan) Db.blank = (.ok (), plannedDb) := rfl
  obtain ⟨hnumbered, hsame, _⟩ := milestone_indices_permanent hcreate
    (fun _ hm => by cases hm) (.refl _) (.of_foldlM (fun _ _ _ => trivial) ht)
  exact ⟨t, hrows, hnumbered, hsame 1 _ rfl⟩

end ChainSettle
