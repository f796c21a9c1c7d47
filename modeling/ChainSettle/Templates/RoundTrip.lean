import ChainSettle.Arbiters.Reachability
import ChainSettle.Semantics.Templates

/-!
Does a template reproduce the shipment that it was derived from? Names, percentages and
checklists come back as they were. A due date comes back by its distance in days from the
creation of the shipment, rounded; but a distance of zero is taken for no distance at all.
-/

namespace ChainSettle

open Lib Lib.Eff

section Derive

/-- What it takes to derive a template. -/
structure Derivable (env : Env) (callerAddress shipmentId id : String) (s : TemplatesDb) :
    Prop where
  reads : env.fails .shipmentRead = false
  writes : env.fails .templateWrite = false
  buyer : ∃ shipment, s.tables.shipments.find? shipmentId = some shipment ∧
    shipment.buyerAddress = callerAddress
  percentages : ((s.tables.findMany shipmentId).map Milestone.paymentPercent).sum = 100
  unused : s.tables.templates.find? id = none

/-- The template has an element for each live milestone. -/
structure DerivedFrom (shipmentId id : String) (s : TemplatesDb) (template : ShipmentTemplate) :
    Prop where
  id : template.id = id
  present : template.deletedAt = none
  milestoneTemplates : template.milestoneTemplates =
    (s.tables.findMany shipmentId).map (s.milestoneTemplate shipmentId)

theorem exec_shipmentTemplateCreate (env : Env) (db : Db) (template : ShipmentTemplate) :
    exec (shipmentTemplateCreate env template) db =
      if env.fails .templateWrite then (.error (.unavailable .templateWrite), db)
      else if (db.templates.find? template.id).isSome then (.error .invalidValue, db)
      else (.ok template, { db with templates := db.templates.insert template }) := by
  unfold shipmentTemplateCreate
  rw [exec_bind, exec_prismaCall]
  cases env.fails .templateWrite with
  | true => rfl
  | false =>
      simp only [Bool.false_eq_true, if_false, exec_bind, exec_get]
      split <;> rfl

theorem exec_validateMilestonePercentages (db : Db) (milestones : List MilestoneTemplate) :
    exec (validateMilestonePercentages milestones) db =
      if (milestones.map MilestoneTemplate.paymentPercent).sum = 100 then (.ok (), db)
      else (.error (.badRequest s!"Milestone percentages must sum to 100, got {
        (milestones.map MilestoneTemplate.paymentPercent).sum}"), db) := by
  unfold validateMilestonePercentages
  by_cases hsum : (milestones.map MilestoneTemplate.paymentPercent).sum = 100
  · simp only [hsum, ne_eq, not_true_eq_false, if_true, if_false]
    rfl
  · simp only [hsum, ne_eq, not_false_eq_true, if_true, if_false]
    rfl

theorem percentages_milestoneTemplates (s : TemplatesDb) (shipmentId : String) :
    (((s.tables.findMany shipmentId).map (s.milestoneTemplate shipmentId)).map
      MilestoneTemplate.paymentPercent).sum =
        ((s.tables.findMany shipmentId).map Milestone.paymentPercent).sum := by
  rw [List.map_map]
  rfl

/-- A template is derived exactly from a shipment of the caller whose percentages sum to
100. -/
theorem exec_createFromShipment (env : Env) (ownerId callerAddress shipmentId : String)
    (dto : CreateTemplateFromShipmentDto) (s : TemplatesDb) :
    (Derivable env callerAddress shipmentId dto.id s ∧
      ∃ template, DerivedFrom shipmentId dto.id s template ∧
        exec (createFromShipment env ownerId callerAddress shipmentId dto) s = (.ok template,
          { s with tables := { s.tables with templates := s.tables.templates.insert template } })) ∨
    (¬ Derivable env callerAddress shipmentId dto.id s ∧
      ∃ err, exec (createFromShipment env ownerId callerAddress shipmentId dto) s =
        (.error err, s)) := by
  unfold createFromShipment onTables
  rw [exec_bind, exec_focus, exec_shipmentFindUnique]
  cases hreads : env.fails .shipmentRead with
  | true => exact .inr ⟨fun h => absurd (hreads.symm.trans h.reads) (by rintro ⟨⟩), _, rfl⟩
  | false =>
      simp only [Bool.false_eq_true, if_false]
      cases hfound : s.tables.shipments.find? shipmentId with
      | none =>
          refine .inr ⟨fun h => ?_, _, rfl⟩
          obtain ⟨_, hsome, -⟩ := h.buyer
          cases hfound.symm.trans hsome
      | some shipment =>
          by_cases hbuyer : shipment.buyerAddress = callerAddress
          · simp only [hbuyer, ne_eq, not_true_eq_false, if_false, exec_bind, exec_get, exec_focus,
              exec_validateMilestonePercentages, percentages_milestoneTemplates]
            by_cases hsum : ((s.tables.findMany shipmentId).map Milestone.paymentPercent).sum = 100
            · simp only [hsum, if_true, exec_shipmentTemplateCreate]
              cases hwrites : env.fails .templateWrite with
              | true => exact .inr ⟨fun h => absurd (hwrites.symm.trans h.writes) (by rintro ⟨⟩), _, rfl⟩
              | false =>
                  cases hunused : s.tables.templates.find? dto.id with
                  | none =>
                      exact .inl ⟨⟨hreads, hwrites, ⟨shipment, hfound, hbuyer⟩, hsum, hunused⟩,
                        _, ⟨rfl, rfl, rfl⟩, rfl⟩
                  | some taken =>
                      exact .inr ⟨fun h => absurd (hunused.symm.trans h.unused) (by rintro ⟨⟩), _, rfl⟩
            · simp only [hsum, if_false]
              exact .inr ⟨fun h => hsum h.percentages, _, rfl⟩
          · refine .inr ⟨fun h => ?_, ?_⟩
            · obtain ⟨_, hsome, hcaller⟩ := h.buyer
              cases hfound.symm.trans hsome
              exact hbuyer hcaller
            · simp only [hbuyer, ne_eq, not_false_eq_true, if_true]
              exact ⟨_, rfl⟩

end Derive

section Create

/-- The state with a new shipment, its milestones and their checklists. -/
def TemplatesDb.withShipment (s : TemplatesDb) (now : Nat) (new : NewShipment)
    (milestones : List NewMilestone) : TemplatesDb where
  tables := s.tables.withShipment new milestones
  createdAt := Function.update s.createdAt new.id now
  checklistItems := s.checklistItems ++ checklistRows now milestones

/-- What a `create` that goes through inserts. Down to the milestones it is the `create` of
`Db`. -/
structure Inserted (services : Services) (env : Env) (dto : CreateShipmentDto)
    (s : TemplatesDb) (new : NewShipment) (milestones : List NewMilestone) : Prop where
  id : new.id = dto.shipmentId
  merged : (dto.merge (dto.template s.tables) env.now).milestones = some milestones
  ids : UnusedIds s.tables milestones
  unused : s.tables.shipments.find? new.id = none
  tables : exec (ShipmentsService.create services env dto) s.tables =
    (.ok (), s.tables.withShipment new milestones)

theorem exec_createWithChecklists (services : Services) (env : Env) (dto : CreateShipmentDto)
    (s : TemplatesDb) :
    (∃ err, exec (createWithChecklists services env dto) s = (.error err, s)) ∨
    ∃ new milestones, Inserted services env dto s new milestones ∧
      exec (createWithChecklists services env dto) s =
        (.ok (), s.withShipment env.now new milestones) := by
  unfold createWithChecklists onTables
  rw [exec_bind, exec_focus]
  obtain ⟨err, herr⟩ | ⟨⟨new, milestones⟩, hok, hrequested, hmerged⟩ :=
    readOnly_requested services env s.tables dto
  · rw [herr]
    exact .inl ⟨err, rfl⟩
  · rw [hok]
    simp only [exec_bind, exec_get]
    by_cases hids : UnusedIds s.tables milestones
    · simp only [hids, not_true_eq_false, if_false, exec_bind, exec_focus]
      obtain ⟨hinserts, hinserted⟩ | ⟨-, err, herr⟩ :=
        exec_shipmentInsert env s.tables new milestones
      · rw [hinserted]
        refine .inr ⟨new, milestones, ⟨hrequested.id, hmerged, hids, hinserts.2.2, ?_⟩, rfl⟩
        unfold ShipmentsService.create
        rw [exec_bind, hok]
        exact hinserted
      · rw [herr]
        exact .inl ⟨err, rfl⟩
    · simp only [hids, not_false_eq_true, if_true, exec_bind, exec_throw]
      exact .inl ⟨_, rfl⟩

variable {s : TemplatesDb} {now : Nat} {new : NewShipment} {milestones : List NewMilestone}

theorem sorted_milestoneRows (shipmentId : String) (milestones : List NewMilestone) :
    (milestoneRows shipmentId milestones).insertionSort
      (fun a b => a.milestoneIndex ≤ b.milestoneIndex) = milestoneRows shipmentId milestones := by
  apply List.Pairwise.insertionSort_eq
  rw [List.pairwise_iff_getElem]
  intro i j _ _ hlt
  simpa [milestoneRows, NewMilestone.row] using hlt.le

theorem TemplatesDb.Owned.ne_unused (h : s.Owned)
    (hunused : s.tables.shipments.find? new.id = none) :
    ∀ m ∈ s.tables.milestones.rows, m.shipmentId ≠ new.id := by
  intro m hm hid
  have hshipment := h.milestones m hm
  rw [hid, hunused] at hshipment
  cases hshipment

theorem rows_withShipment (howned : s.Owned) (hunused : s.tables.shipments.find? new.id = none) :
    (s.withShipment now new milestones).tables.milestones.rows =
      s.tables.milestones.rows ++ milestoneRows new.id milestones :=
  rows_insert_milestones (howned.ne_unused hunused)

/-- The milestones of the new shipment are the inserted ones, in their order. -/
theorem findMany_withShipment (howned : s.Owned)
    (hunused : s.tables.shipments.find? new.id = none) :
    (s.withShipment now new milestones).tables.findMany new.id =
      milestoneRows new.id milestones := by
  unfold Db.findMany
  rw [live_of_rows (rows_withShipment howned hunused) (howned.ne_unused hunused),
    sorted_milestoneRows]

theorem milestoneId_of_checklistRows {item : MilestoneChecklistItem}
    (h : item ∈ checklistRows now milestones) :
    item.milestoneId ∈ milestones.map NewMilestone.id := by
  obtain ⟨m, hm, hitem⟩ := List.mem_flatMap.mp h
  obtain ⟨given, _, rfl⟩ := List.mem_map.mp hitem
  exact List.mem_map_of_mem hm

/-- The checklist rows of one of the milestones. -/
theorem checklistRows_of_mem (hids : (milestones.map NewMilestone.id).Nodup) {m : NewMilestone}
    (hm : m ∈ milestones) :
    (checklistRows now milestones).filter (fun item => item.milestoneId = m.id) =
      m.checklistItems.map fun item => ⟨m.id, item.label, item.required, now⟩ := by
  induction milestones with
  | nil => cases hm
  | cons first rest ih =>
      rw [List.map_cons] at hids
      obtain ⟨hfirst, hrest⟩ := List.nodup_cons.mp hids
      have hcons : checklistRows now (first :: rest) =
          (first.checklistItems.map fun item => ⟨first.id, item.label, item.required, now⟩) ++
            checklistRows now rest := List.flatMap_cons
      rw [hcons, List.filter_append, List.filter_map]
      rcases List.mem_cons.mp hm with rfl | hmem
      · have hothers :
            (checklistRows now rest).filter (fun item => item.milestoneId = m.id) = [] := by
          rw [List.filter_eq_nil_iff]
          intro item hitem hid
          exact hfirst (of_decide_eq_true hid ▸ milestoneId_of_checklistRows hitem)
        rw [hothers, List.append_nil]
        simp [Function.comp_def]
      · have hne : first.id ≠ m.id := fun hid => hfirst (hid ▸ List.mem_map_of_mem hmem)
        rw [ih hrest hmem]
        simp [Function.comp_def, hne]

/-- The checklist of a new milestone. -/
theorem checklistOf_withShipment (now : Nat) (new : NewShipment) (howned : s.Owned)
    (hids : UnusedIds s.tables milestones) {m : NewMilestone} (hm : m ∈ milestones) (index : Int) :
    (s.withShipment now new milestones).checklistOf (m.row new.id index) =
      m.checklistItems.map fun item => ⟨m.id, item.label, item.required, now⟩ := by
  have hold : s.checklistItems.filter (fun item => item.milestoneId = m.id) = [] := by
    rw [List.filter_eq_nil_iff]
    intro item hitem hid
    have hmilestone := howned.checklistItems item hitem
    rw [of_decide_eq_true hid] at hmilestone
    exact hids.2 m hm hmilestone
  unfold TemplatesDb.checklistOf TemplatesDb.withShipment
  have hrow : (m.row new.id index).id = m.id := rfl
  rw [List.filter_append, hrow, hold, List.nil_append, checklistRows_of_mem hids.1 hm]
  apply List.Pairwise.insertionSort_eq
  rw [List.pairwise_map]
  exact List.pairwise_of_forall fun _ _ => Nat.le_refl now

theorem ids_milestoneRows (shipmentId : String) (milestones : List NewMilestone) :
    (milestoneRows shipmentId milestones).map Milestone.id = milestones.map NewMilestone.id := by
  apply List.ext_getElem <;> simp [milestoneRows, NewMilestone.row]

theorem TemplatesDb.Owned.withShipment (h : s.Owned)
    (hunused : s.tables.shipments.find? new.id = none) :
    (s.withShipment now new milestones).Owned := by
  have hrows : (s.withShipment now new milestones).tables.milestones.rows =
      s.tables.milestones.rows ++ milestoneRows new.id milestones := rows_withShipment h hunused
  constructor
  · intro m hm
    have hfind : (s.withShipment now new milestones).tables.shipments.find? m.shipmentId =
        (s.tables.shipments.find? m.shipmentId).or
          (if m.shipmentId = new.id then some new.row else none) :=
      Table.find?_insert s.tables.shipments new.row m.shipmentId
    rw [hrows, List.mem_append] at hm
    rw [hfind, Option.isSome_or]
    rcases hm with hold | hcreated
    · rw [h.milestones m hold]
      rfl
    · obtain ⟨index, _, rfl⟩ := List.mem_mapIdx.mp hcreated
      simp [NewMilestone.row]
  · intro item hitem
    rw [hrows, List.map_append, List.mem_append, ids_milestoneRows]
    rcases List.mem_append.mp hitem with hold | hcreated
    · exact .inl (h.checklistItems item hold)
    · exact .inr (milestoneId_of_checklistRows hcreated)

end Create

section Run

/-- The requests that write templates, or shipments with their checklists. -/
inductive TemplatesRequest where
  | createFromShipment (env : Env) (ownerId callerAddress shipmentId : String)
      (dto : CreateTemplateFromShipmentDto)
  | create (env : Env) (dto : CreateShipmentDto)

def TemplatesRequest.apply (services : Services) (s : TemplatesDb) : TemplatesRequest → TemplatesDb
  | createFromShipment env ownerId callerAddress shipmentId dto =>
      after (ChainSettle.createFromShipment env ownerId callerAddress shipmentId dto) s
  | create env dto => after (createWithChecklists services env dto) s

theorem owned_apply (services : Services) {s : TemplatesDb} (h : s.Owned)
    (request : TemplatesRequest) :
    (request.apply services s).Owned := by
  cases request with
  | createFromShipment env ownerId callerAddress shipmentId dto =>
      simp only [TemplatesRequest.apply, after]
      obtain ⟨-, template, -, hok⟩ | ⟨-, err, herr⟩ :=
        exec_createFromShipment env ownerId callerAddress shipmentId dto s
      · rw [hok]
        exact ⟨h.milestones, h.checklistItems⟩
      · rw [herr]
        exact h
  | create env dto =>
      simp only [TemplatesRequest.apply, after]
      obtain ⟨err, herr⟩ | ⟨new, milestones, hinserted, hok⟩ :=
        exec_createWithChecklists services env dto s
      · rw [herr]
        exact h
      · rw [hok]
        exact h.withShipment hinserted.unused

end Run

section RoundTrip

/-- A milestone of a shipment made at `now` from a template of another shipment, and the
milestone of that shipment it comes from. -/
structure Reproduced (s : TemplatesDb) (shipmentId : String) (next : TemplatesDb) (now : Nat)
    (m m' : Milestone) : Prop where
  name : m'.name = m.name
  paymentPercent : m'.paymentPercent = m.paymentPercent
  checklist : (next.checklistOf m').map (fun item => (item.label, item.required)) =
    (s.checklistOf m).map fun item => (item.label, item.required)
  dueAt : m'.dueAt =
    m.dueAt.map fun dueAt => now + daysUntil (s.createdAt shipmentId) dueAt * dayLength

theorem forall₂_mapIdx_iff {α β : Type} {R : α → β → Prop} {f : Nat → α → β} {l : List α} :
    List.Forall₂ R l (l.mapIdx f) ↔ ∀ (i : Nat) (h : i < l.length), R l[i] (f i l[i]) := by
  rw [List.forall₂_iff_get]
  simp

/-- The checklist goes through the optional key and comes back. -/
theorem checklist_toNewMilestone (s : TemplatesDb) (shipmentId id : String) (now : Nat)
    (m : Milestone) :
    ((s.milestoneTemplate shipmentId m).toNewMilestone id now).checklistItems =
      (s.checklistOf m).map fun item => ⟨item.label, item.required⟩ := by
  unfold MilestoneTemplate.toNewMilestone TemplatesDb.milestoneTemplate
  by_cases hnone : s.checklistOf m = []
  · simp [hnone]
  · simp only [hnone, if_false, Option.getD_some, List.map_map]
    rfl

/-- A due date goes through the truthiness test exactly when it is days away. -/
theorem dueAt_toNewMilestone_iff (s : TemplatesDb) (shipmentId id : String) (now : Nat)
    (m : Milestone) :
    (((s.milestoneTemplate shipmentId m).toNewMilestone id now).dueAt =
      m.dueAt.map fun dueAt => now + daysUntil (s.createdAt shipmentId) dueAt * dayLength) ↔
        ∀ dueAt ∈ m.dueAt, daysUntil (s.createdAt shipmentId) dueAt ≠ 0 := by
  unfold MilestoneTemplate.toNewMilestone TemplatesDb.milestoneTemplate
  cases m.dueAt with
  | none => simp
  | some dueAt =>
      by_cases hzero : daysUntil (s.createdAt shipmentId) dueAt = 0
      · simp [hzero]
      · simp [hzero]

variable {services : Services} {env env' : Env} {ownerId callerAddress shipmentId : String}
  {dto : CreateTemplateFromShipmentDto} {request : CreateShipmentDto}
  {s saved later next : TemplatesDb} {template : ShipmentTemplate} {new : NewShipment}
  {milestones : List NewMilestone}

theorem derivedFrom_of_createFromShipment
    (h : exec (createFromShipment env ownerId callerAddress shipmentId dto) s =
      (.ok template, saved)) : DerivedFrom shipmentId dto.id s template := by
  obtain ⟨-, derived, hderived, hok⟩ | ⟨-, err, herr⟩ :=
    exec_createFromShipment env ownerId callerAddress shipmentId dto s
  · cases hok.symm.trans h
    exact hderived
  · cases herr.symm.trans h

/-- Without milestones of its own a request takes those of its template. -/
theorem milestones_of_inserted (hderived : DerivedFrom shipmentId dto.id s template)
    (hkept : later.tables.templates.find? template.id = some template)
    (htemplate : request.templateId = some template.id) (hown : request.milestones = none)
    (hinserted : Inserted services env' request later new milestones) :
    milestones = (s.tables.findMany shipmentId).mapIdx fun index m =>
      (s.milestoneTemplate shipmentId m).toNewMilestone (request.milestoneIds index) env'.now := by
  have hmerged := hinserted.merged
  by_cases hempty : template.id = ""
  · have hnone : request.template later.tables = none := by
      simp [CreateShipmentDto.template, truthyText, htemplate, hempty]
    rw [CreateShipmentDto.merge, hown, hnone] at hmerged
    cases hmerged
  · have htruthy : truthyText (some template.id) = some template.id := by
      simp [truthyText, hempty]
    have hsome : request.template later.tables = some template := by
      rw [CreateShipmentDto.template, htemplate, htruthy, Option.bind_some, hkept]
      simp [hderived.present]
    rw [CreateShipmentDto.merge, hown, hsome] at hmerged
    have hmapped : template.milestoneTemplates.mapIdx (fun index m =>
        m.toNewMilestone (request.milestoneIds index) env'.now) = milestones :=
      Option.some.inj hmerged
    rw [← hmapped, hderived.milestoneTemplates]
    apply List.ext_getElem <;> simp

theorem template_reproduces_iff
    (hderived : exec (createFromShipment env ownerId callerAddress shipmentId dto) s =
      (.ok template, saved))
    (howned : later.Owned) (hkept : later.tables.templates.find? template.id = some template)
    (htemplate : request.templateId = some template.id) (hown : request.milestones = none)
    (hcreated : exec (createWithChecklists services env' request) later = (.ok (), next)) :
    List.Forall₂ (Reproduced s shipmentId next env'.now) (s.tables.findMany shipmentId)
        (next.tables.findMany request.shipmentId) ↔
      ∀ m ∈ s.tables.findMany shipmentId, ∀ dueAt ∈ m.dueAt,
        daysUntil (s.createdAt shipmentId) dueAt ≠ 0 := by
  obtain ⟨err, herr⟩ | ⟨new, milestones, hinserted, hok⟩ :=
    exec_createWithChecklists services env' request later
  · cases herr.symm.trans hcreated
  obtain rfl : next = later.withShipment env'.now new milestones :=
    (Prod.ext_iff.mp (hcreated.symm.trans hok)).2
  have hmilestones := milestones_of_inserted (derivedFrom_of_createFromShipment hderived) hkept
    htemplate hown hinserted
  have hnew : (later.withShipment env'.now new milestones).tables.findMany request.shipmentId =
      (s.tables.findMany shipmentId).mapIdx fun index m =>
        ((s.milestoneTemplate shipmentId m).toNewMilestone (request.milestoneIds index)
          env'.now).row new.id index := by
    rw [← hinserted.id, findMany_withShipment howned hinserted.unused, milestoneRows, hmilestones,
      List.mapIdx_mapIdx]
    rfl
  rw [hnew, forall₂_mapIdx_iff, List.forall_mem_iff_getElem]
  refine forall₂_congr fun index hindex => ?_
  have hmem : (s.milestoneTemplate shipmentId (s.tables.findMany shipmentId)[index]).toNewMilestone
      (request.milestoneIds index) env'.now ∈ milestones := by
    rw [hmilestones]
    exact List.mem_mapIdx.mpr ⟨index, hindex, rfl⟩
  have hchecklist := checklistOf_withShipment env'.now new howned hinserted.ids hmem index
  rw [checklist_toNewMilestone] at hchecklist
  rw [← dueAt_toNewMilestone_iff s shipmentId (request.milestoneIds index) env'.now]
  constructor
  · exact Reproduced.dueAt
  · intro hdue
    refine ⟨rfl, rfl, ?_, hdue⟩
    rw [hchecklist, List.map_map, List.map_map]
    rfl

/-- A shipment made at 0 with one milestone, and an optional entry on its checklist. -/
def datedDb (dueAt : Int) : TemplatesDb where
  tables :=
    { Db.demo .pending with
      milestones := ⟨[{ demoMilestone .pending with dueAt := some dueAt }], by simp⟩
      users := demoUsers }
  createdAt := fun _ => 0
  checklistItems := [⟨"m-1", "Bill of lading", false, 0⟩]

theorem datedDb_owned (dueAt : Int) : (datedDb dueAt).Owned := by
  constructor
  · intro m hm
    obtain rfl := List.mem_singleton.mp hm
    rfl
  · intro item hitem
    obtain rfl := List.mem_singleton.mp hitem
    exact List.mem_singleton.mpr rfl

/-- A request that leaves everything to the template. -/
def fromTemplate : CreateShipmentDto :=
  { requestFor "SHIP-2" with
    templateId := some "tpl-1"
    supplierAddress := none
    logisticsAddress := none
    arbiterAddress := none
    tokenAddress := none
    milestones := none }

/-- A template of the shipment. -/
def deriveTemplate : Eff Exn TemplatesDb ShipmentTemplate :=
  createFromShipment (.calm 10) "user-1" "GBUYER" "SHIP-1" ⟨"Standard import", none, none, "tpl-1"⟩

/-- A date two days before the creation comes back two days before the next one. -/
theorem early_milestone_reproduced :
    ∃ template saved next, exec deriveTemplate (datedDb (-172800000)) = (.ok template, saved) ∧
      exec (createWithChecklists openServices (.calm 20) fromTemplate) saved = (.ok (), next) ∧
      List.Forall₂ (Reproduced (datedDb (-172800000)) "SHIP-1" next 20)
        ((datedDb (-172800000)).tables.findMany "SHIP-1") (next.tables.findMany "SHIP-2") := by
  obtain ⟨template, saved, next, hderived, hkept, hcreated⟩ : ∃ template saved next,
      exec deriveTemplate (datedDb (-172800000)) = (.ok template, saved) ∧
      (template.id = "tpl-1" ∧ saved.tables.templates.find? template.id = some template) ∧
      exec (createWithChecklists openServices (.calm 20) fromTemplate) saved = (.ok (), next) :=
    ⟨_, _, _, rfl, ⟨rfl, rfl⟩, rfl⟩
  have hsaved : (exec deriveTemplate (datedDb (-172800000))).2 = saved := congrArg Prod.snd hderived
  have howned : saved.Owned := by
    rw [← hsaved]
    exact owned_apply openServices (datedDb_owned (-172800000)) (.createFromShipment (.calm 10)
      "user-1" "GBUYER" "SHIP-1" ⟨"Standard import", none, none, "tpl-1"⟩)
  refine ⟨template, saved, next, hderived, hcreated, (template_reproduces_iff hderived howned
    hkept.2 (congrArg some hkept.1.symm) rfl hcreated).mpr ?_⟩
  decide

/-- A date one hour after the creation does not come back. -/
theorem early_deadline_dropped :
    ∃ template saved next, exec deriveTemplate (datedDb 3600000) = (.ok template, saved) ∧
      exec (createWithChecklists openServices (.calm 20) fromTemplate) saved = (.ok (), next) ∧
      ¬ List.Forall₂ (Reproduced (datedDb 3600000) "SHIP-1" next 20)
        ((datedDb 3600000).tables.findMany "SHIP-1") (next.tables.findMany "SHIP-2") := by
  obtain ⟨template, saved, next, m, hderived, hcreated, hnext, hdue⟩ : ∃ template saved next m,
      exec deriveTemplate (datedDb 3600000) = (.ok template, saved) ∧
      exec (createWithChecklists openServices (.calm 20) fromTemplate) saved = (.ok (), next) ∧
      next.tables.findMany "SHIP-2" = [m] ∧ m.dueAt = none :=
    ⟨_, _, _, _, rfl, rfl, rfl, rfl⟩
  refine ⟨template, saved, next, hderived, hcreated, fun h => ?_⟩
  rw [hnext] at h
  obtain ⟨hreproduced, -⟩ := List.forall₂_cons.mp h
  cases hdue.symm.trans hreproduced.dueAt

end RoundTrip

end ChainSettle
