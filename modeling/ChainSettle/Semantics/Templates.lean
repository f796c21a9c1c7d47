import ChainSettle.Semantics.Creation

/-!
Shipment templates. `ShipmentTemplatesService.createFromShipment` derives one from a
shipment, and `ShipmentsService.create` fills in what a request leaves out from one. The
elements of the `milestoneTemplates` column have optional keys, which `create` reads by
their truthiness.

The tables of `Db` are joined by the checklist items and by the time at which a shipment
was created, as a template counts days from there. Rows that were created at the same
time come in the order of their table.
-/

namespace ChainSettle

open Lib Lib.Eff

structure MilestoneChecklistItem where
  milestoneId : String
  label : String
  required : Bool
  createdAt : Nat
deriving DecidableEq

structure TemplatesDb where
  tables : Db
  /-- the column of `shipments` -/
  createdAt : String → Nat
  checklistItems : List MilestoneChecklistItem

/-- The foreign keys of the rows below a shipment. -/
structure TemplatesDb.Owned (s : TemplatesDb) : Prop where
  milestones : ∀ m ∈ s.tables.milestones.rows, (s.tables.shipments.find? m.shipmentId).isSome
  checklistItems : ∀ item ∈ s.checklistItems,
    item.milestoneId ∈ s.tables.milestones.rows.map Milestone.id

/-- An operation of `Db`, where the rest stands beside it. -/
def onTables {α : Type} : Tx α → Eff Exn TemplatesDb α :=
  focus TemplatesDb.tables fun tables s => { s with tables := tables }

/-- `checklistItems: { orderBy: { createdAt: 'asc' } }` -/
def TemplatesDb.checklistOf (s : TemplatesDb) (m : Milestone) : List MilestoneChecklistItem :=
  (s.checklistItems.filter fun item => item.milestoneId = m.id).insertionSort
    fun a b => a.createdAt ≤ b.createdAt

section FromShipment

structure CreateTemplateFromShipmentDto where
  name : String
  description : Option String
  isPublic : Option Bool
  /-- generated -/
  id : String

/-- `Math.round` of a quotient: a half is rounded up. -/
def mathRound (dividend divisor : Int) : Int :=
  (2 * dividend + divisor) / (2 * divisor)

/-- The days from the creation of a shipment to a date. -/
def daysUntil (createdAt : Nat) (dueAt : Int) : Int :=
  mathRound (dueAt - createdAt) dayLength

/-- One element of the column. The checklist of a milestone without items is left out. -/
def TemplatesDb.milestoneTemplate (s : TemplatesDb) (shipmentId : String) (m : Milestone) :
    MilestoneTemplate where
  name := m.name
  paymentPercent := m.paymentPercent
  dueDays := m.dueAt.map (daysUntil (s.createdAt shipmentId))
  checklist :=
    if s.checklistOf m = [] then none
    else some ((s.checklistOf m).map fun item => ⟨item.label, some item.required⟩)

def validateMilestonePercentages (milestones : List MilestoneTemplate) : Tx Unit := do
  let total := (milestones.map MilestoneTemplate.paymentPercent).sum
  if total ≠ 100 then
    throw (.badRequest s!"Milestone percentages must sum to 100, got {total}")

/-- `prisma.shipmentTemplate.create` -/
def shipmentTemplateCreate (env : Env) (template : ShipmentTemplate) : Tx ShipmentTemplate := do
  prismaCall env .templateWrite
  if ((← get).templates.find? template.id).isSome then throw .invalidValue
  modify fun db => { db with templates := db.templates.insert template }
  return template

def createFromShipment (env : Env) (ownerId callerAddress shipmentId : String)
    (dto : CreateTemplateFromShipmentDto) : Eff Exn TemplatesDb ShipmentTemplate := do
  match ← onTables (shipmentFindUnique env .shipmentRead shipmentId) with
  | none => throw (.notFound s!"Shipment {shipmentId} not found")
  | some shipment =>
      if shipment.buyerAddress ≠ callerAddress then
        throw (.forbidden "Only the shipment buyer can create a template from it")
      let s ← get
      let milestoneTemplates :=
        (s.tables.findMany shipmentId).map (s.milestoneTemplate shipmentId)
      onTables (validateMilestonePercentages milestoneTemplates)
      onTables (shipmentTemplateCreate env {
        id := dto.id
        ownerId := ownerId
        name := dto.name
        description := dto.description
        supplierAddress := some shipment.supplierAddress
        logisticsAddress := some shipment.logisticsAddress
        arbiterAddress := some shipment.arbiterAddress
        tokenAddress := some shipment.tokenAddress
        milestoneTemplates := milestoneTemplates
        isPublic := dto.isPublic.getD false
        deletedAt := none })

end FromShipment

section Create

/-- The rows of the nested `checklistItems.create`, which are made with the shipment. -/
def checklistRows (now : Nat) (milestones : List NewMilestone) : List MilestoneChecklistItem :=
  milestones.flatMap fun m =>
    m.checklistItems.map fun item => ⟨m.id, item.label, item.required, now⟩

/-- The primary key of `milestones`. -/
def UnusedIds (db : Db) (milestones : List NewMilestone) : Prop :=
  (milestones.map NewMilestone.id).Nodup ∧
    ∀ m ∈ milestones, m.id ∉ db.milestones.rows.map Milestone.id

instance (db : Db) (milestones : List NewMilestone) : Decidable (UnusedIds db milestones) :=
  inferInstanceAs (Decidable (_ ∧ ∀ _ ∈ _, _))

/-- `ShipmentsService.create`, down to the rows of the checklists. -/
def createWithChecklists (services : Services) (env : Env) (dto : CreateShipmentDto) :
    Eff Exn TemplatesDb Unit := do
  let (new, milestones) ← onTables (createChecks services env dto)
  if ¬ UnusedIds (← get).tables milestones then throw .invalidValue
  onTables (shipmentInsert env new milestones)
  modify fun s =>
    { s with
      createdAt := Function.update s.createdAt new.id env.now
      checklistItems := s.checklistItems ++ checklistRows env.now milestones }

end Create

end ChainSettle
