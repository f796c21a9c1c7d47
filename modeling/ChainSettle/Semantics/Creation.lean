import ChainSettle.Semantics.Plan

/-!
The two ways to a new active shipment, `ShipmentsService.create` and `clone`, and
what they ask: `KycService`, `TokenRegistryService` and, for the number of
approvals, `ShipmentApprovalsService`. A request is one operation here, with one
reading of the clock. The checks only read; the insert comes last.
`RecurringScheduleJob` creates drafts from templates in the name of a schedule's
owner.

The ids that the database and `randomUUID` generate are inputs. The columns that
nothing below reads (description, metadata, tags, delivery date) are left out; the
nested checklist items are inserted in `Semantics.Templates`.
-/

namespace ChainSettle

open Lib Lib.Eff

structure TokenInfo where
  symbol : String
  decimals : Nat
  enabled : Option Bool
  minValue : Option String
  maxValue : Option String
deriving DecidableEq

/-- The configuration of the services, and the token registry, which is a `Map`
in memory. -/
structure Services where
  /-- `KYC_VALUE_THRESHOLD_STROOPS` -/
  threshold : Int
  /-- `KYC_ENHANCED_VALUE_THRESHOLD_STROOPS` -/
  enhancedThreshold : Int
  /-- `MULTISIG_VALUE_THRESHOLD_STROOPS` -/
  multisigThreshold : Int
  registry : String → Option TokenInfo
  text : CaseMapping

section Kyc

inductive KycTier where
  | none | basic | enhanced
deriving DecidableEq

/-- The tier of `getRequirements`; its list of documents is not used here. -/
def Services.getRequirements (services : Services) (value : Int) : KycTier :=
  if services.enhancedThreshold ≤ value then .enhanced
  else if services.threshold ≤ value then .basic
  else .none

/-- Whether a shipment of this size requires both parties to be KYC-verified. -/
def Services.meetsThreshold (services : Services) (totalAmount : Int) : Bool :=
  services.getRequirements totalAmount ≠ .none

/-- A user is only verified while their verification has not lapsed. -/
def isActiveVerification (user : Option User) (now : Nat) : Bool :=
  match user with
  | none => false
  | some user =>
      if user.kycStatus ≠ .verified then false
      else match user.kycExpiresAt with
        | none => true
        | some expiresAt => now < expiresAt

def isVerified (env : Env) (stellarAddress : String) : Tx Bool := do
  prismaCall env .userRead
  return isActiveVerification ((← get).users.find? stellarAddress) env.now

/-- The gate of `create` on shipments of high value. -/
def kycGate (services : Services) (env : Env) (buyerAddress supplierAddress : String)
    (totalAmount : Int) : Tx Unit := do
  if services.meetsThreshold totalAmount then
    let buyerVerified ← isVerified env buyerAddress
    let supplierVerified ← isVerified env supplierAddress
    if ¬ buyerVerified ∨ ¬ supplierVerified then
      throw (.forbidden ("This shipment value requires KYC verification. Both the buyer and " ++
        "supplier must complete KYC verification before a shipment of this size can be created."))

end Kyc

section Tokens

/-- What an address that is not registered stands for. -/
def unknownToken : TokenInfo := ⟨"UNKNOWN", 7, some true, none, none⟩

/-- `registry.get` of the address in upper case. -/
def Services.registered (services : Services) (contractAddress : String) : Option TokenInfo :=
  services.registry (services.text.toUpperCase contractAddress)

def Services.getToken (services : Services) (contractAddress : String) : TokenInfo :=
  (services.registered contractAddress).getD unknownToken

/-- A token without the flag is enabled. -/
def Services.isEnabled (services : Services) (contractAddress : String) : Bool :=
  ((services.registered contractAddress).bind TokenInfo.enabled).getD true

/-- One of the two comparisons below, for a bound that is configured. -/
def assertBound (bound : Option String) (violates : Int → Bool) (refusal : Int → String → Exn) :
    Tx Unit :=
  match bound with
  | none => return
  | some text =>
      match bigIntOfString text with
      | none => throw .invalidValue
      | some value => if violates value then throw (refusal value text) else return

/-- Tokens without configured bounds accept any value. -/
def assertValueWithinBounds (services : Services) (contractAddress : String) (amount : Int) :
    Tx Unit :=
  match services.registered contractAddress with
  | none => return
  | some token => do
      let format (value : Int) := s!"{toHumanAmount value token.decimals} {token.symbol}"
      assertBound token.minValue (fun value => amount < value) fun value text =>
        .badRequest (s!"Shipment value {format amount} is below the minimum of {format value} " ++
          s!"({text} base units) configured for token {contractAddress}")
      assertBound token.maxValue (fun value => value < amount) fun value text =>
        .badRequest (s!"Shipment value {format amount} is above the maximum of {format value} " ++
          s!"({text} base units) configured for token {contractAddress}")

/-- `create` reads the flag itself: here a missing one counts as disabled. -/
def tokenGate (services : Services) (tokenAddress : String) (totalAmount : Int) :
    Tx TokenInfo := do
  let token := services.getToken tokenAddress
  if token.enabled ≠ some true then
    throw (.badRequest s!"Token {tokenAddress} is disabled and cannot be used for new shipments")
  assertValueWithinBounds services tokenAddress totalAmount
  return token

end Tokens

/-- The count to persist, or nothing for the single-approver flow. -/
def resolveRequiredApprovals (services : Services) (requiredApprovals : Option Int)
    (totalAmount : Int) : Tx (Option Nat) :=
  match requiredApprovals with
  | none => return none
  | some count => do
      if totalAmount < services.multisigThreshold then
        throw (.badRequest ("requiredApprovals is only accepted for shipments at or above the " ++
          "multi-signature value threshold. Omit it for smaller shipments, which use the " ++
          "single-approver flow."))
      if count < 1 then throw (.badRequest "requiredApprovals must be a positive integer")
      return some count.toNat

section Insert

def NewShipment.participants (new : NewShipment) : List String :=
  [new.buyerAddress, new.supplierAddress, new.logisticsAddress, new.arbiterAddress]

/-- The constraints on the row: the ranges of its columns, the unique index on
`referenceNumber`, the foreign keys of the four participants. -/
def NewShipment.Storable (new : NewShipment) (db : Db) : Prop :=
  fitsBigInt new.totalAmount ∧
    (∀ count ∈ new.requiredApprovals, count ≤ 2147483647) ∧
    (∀ reference ∈ new.referenceNumber,
      ∀ s ∈ db.shipments.rows, s.referenceNumber ≠ some reference) ∧
    ∀ address ∈ new.participants, (db.users.find? address).isSome

instance (new : NewShipment) (db : Db) : Decidable (new.Storable db) :=
  inferInstanceAs (Decidable (_ ∧ (∀ _ ∈ _, _) ∧ (∀ _ ∈ _, _) ∧ _))

/-- `prisma.shipment.create`, with the nested milestones. -/
def shipmentInsert (env : Env) (new : NewShipment) (milestones : List NewMilestone) : Tx Unit := do
  if ¬ new.Storable (← get) then throw .invalidValue
  shipmentCreate env new milestones

end Insert

section Create

structure CreateShipmentDto where
  shipmentId : String
  templateId : Option String
  buyerAddress : String
  supplierAddress : Option String
  logisticsAddress : Option String
  arbiterAddress : Option String
  tokenAddress : Option String
  milestones : Option (List MilestoneDto)
  totalAmount : String
  txHash : Option String
  referenceNumber : Option String
  requiredApprovals : Option Int
  /-- the ids that a template's milestones get, by position -/
  milestoneIds : Nat → String
  /-- `@IsStellarAddress() @IsNotEmpty()` -/
  buyer_nonempty : buyerAddress ≠ ""

def checkUnused (env : Env) (dto : CreateShipmentDto) : Tx Unit := do
  if (← shipmentFindUnique env .shipmentRead dto.shipmentId).isSome then
    throw (.conflict s!"Shipment {dto.shipmentId} already exists")
  match truthyText dto.referenceNumber with
  | none => return
  | some reference =>
      prismaCall env .shipmentRead
      if (← get).shipments.rows.any fun s => s.referenceNumber = some reference then
        throw (.conflict s!"Shipment with referenceNumber \"{reference}\" already exists")

def findTemplate (env : Env) (dto : CreateShipmentDto) : Tx (Option ShipmentTemplate) :=
  match truthyText dto.templateId with
  | none => return none
  | some templateId => do
      prismaCall env .templateRead
      match ((← get).templates.find? templateId).filter fun t => t.deletedAt = none with
      | none => throw (.notFound s!"Template {templateId} not found")
      | some template => return some template

/-- `required: c.required ?? true` -/
def ChecklistItemTemplate.toNewChecklistItem (c : ChecklistItemTemplate) : NewChecklistItem where
  label := c.label
  required := c.required.getD true

/-- Zero `dueDays` are falsy. -/
def MilestoneTemplate.toNewMilestone (t : MilestoneTemplate) (id : String) (now : Nat) :
    NewMilestone where
  id := id
  name := t.name
  paymentPercent := t.paymentPercent
  dueAt := (t.dueDays.filter (· ≠ 0)).map fun days => now + days * dayLength
  checklistItems := (t.checklist.getD []).map ChecklistItemTemplate.toNewChecklistItem

/-- The request merged with the template: `dto.x ?? templateData.x`. -/
structure MergedFields where
  supplierAddress : Option String
  logisticsAddress : Option String
  arbiterAddress : Option String
  tokenAddress : Option String
  milestones : Option (List NewMilestone)

def CreateShipmentDto.merge (dto : CreateShipmentDto) (template : Option ShipmentTemplate)
    (now : Nat) : MergedFields where
  supplierAddress := dto.supplierAddress.or (template.bind ShipmentTemplate.supplierAddress)
  logisticsAddress := dto.logisticsAddress.or (template.bind ShipmentTemplate.logisticsAddress)
  arbiterAddress := dto.arbiterAddress.or (template.bind ShipmentTemplate.arbiterAddress)
  tokenAddress := dto.tokenAddress.or (template.bind ShipmentTemplate.tokenAddress)
  milestones := (dto.milestones.map fun ms => ms.map fun m => m.toNewMilestone).or
    (template.map fun t => t.milestoneTemplates.mapIdx fun index m =>
      m.toNewMilestone (dto.milestoneIds index) now)

/-- Whether the arbiter is one of the parties, in whatever case it is written. -/
def arbiterConflict (text : CaseMapping) (arbiterAddress : String) (parties : List String) :
    Bool :=
  parties.any fun address => text.toLowerCase address = text.toLowerCase arbiterAddress

structure CreateFields where
  supplierAddress : String
  logisticsAddress : String
  arbiterAddress : String
  tokenAddress : String
  milestones : List NewMilestone

/-- The check on the arbiter comes before the one for missing fields, and skips
those. -/
def requiredFields (services : Services) (buyerAddress : String) (merged : MergedFields) :
    Tx CreateFields := do
  let parties := [some buyerAddress, merged.supplierAddress, merged.logisticsAddress].filterMap
    truthyText
  if (truthyText merged.arbiterAddress).any fun arbiterAddress =>
      arbiterConflict services.text arbiterAddress parties then
    throw (.badRequestWith "ARBITER_CONFLICT" "Arbiter cannot be a shipment party")
  match truthyText merged.supplierAddress, truthyText merged.logisticsAddress,
      truthyText merged.arbiterAddress, truthyText merged.tokenAddress, merged.milestones with
  | some supplierAddress, some logisticsAddress, some arbiterAddress, some tokenAddress,
      some milestones =>
      return ⟨supplierAddress, logisticsAddress, arbiterAddress, tokenAddress, milestones⟩
  | _, _, _, _, _ =>
      throw (.conflict ("Missing required fields: supplierAddress, logisticsAddress, " ++
        "arbiterAddress, tokenAddress, milestones"))

def checkPercentages (milestones : List NewMilestone) : Tx Unit := do
  let sum := (milestones.map NewMilestone.paymentPercent).sum
  if milestones ≠ [] ∧ sum ≠ 100 then
    throw (.badRequest s!"Milestone payment percentages must sum to exactly 100. Got {sum}.")

/-- Everything before the insert. -/
def createChecks (services : Services) (env : Env) (dto : CreateShipmentDto) :
    Tx (NewShipment × List NewMilestone) := do
  checkUnused env dto
  let template ← findTemplate env dto
  let fields ← requiredFields services dto.buyerAddress (dto.merge template env.now)
  checkPercentages fields.milestones
  match bigIntOfString dto.totalAmount with
  | none => throw .invalidValue
  | some totalAmount =>
      kycGate services env dto.buyerAddress fields.supplierAddress totalAmount
      let token ← tokenGate services fields.tokenAddress totalAmount
      let requiredApprovals ← resolveRequiredApprovals services dto.requiredApprovals totalAmount
      return ({
        id := dto.shipmentId
        buyerAddress := dto.buyerAddress
        supplierAddress := fields.supplierAddress
        logisticsAddress := fields.logisticsAddress
        requiredApprovals := requiredApprovals
        totalAmount := totalAmount
        txHash := dto.txHash
        tokenDecimals := token.decimals
        arbiterAddress := fields.arbiterAddress
        tokenAddress := fields.tokenAddress
        tokenSymbol := token.symbol
        referenceNumber := dto.referenceNumber
        isDraft := false }, fields.milestones)

def ShipmentsService.create (services : Services) (env : Env) (dto : CreateShipmentDto) :
    Tx Unit := do
  let (new, milestones) ← createChecks services env dto
  shipmentInsert env new milestones

end Create

section Clone

/-- The body of the request, with the ids that are generated. -/
structure CloneShipmentDto where
  txHash : String
  totalAmount : String
  newId : String
  milestoneIds : Nat → String

/-- What is inserted for a source; the registry is only asked for the display of
the amount. -/
def Shipment.copy (services : Services) (dto : CloneShipmentDto) (totalAmount : Int)
    (source : Shipment) : NewShipment where
  id := dto.newId
  buyerAddress := source.buyerAddress
  supplierAddress := source.supplierAddress
  logisticsAddress := source.logisticsAddress
  requiredApprovals := none
  totalAmount := totalAmount
  txHash := some dto.txHash
  tokenDecimals := (services.getToken source.tokenAddress).decimals
  arbiterAddress := source.arbiterAddress
  tokenAddress := source.tokenAddress
  tokenSymbol := (services.getToken source.tokenAddress).symbol
  referenceNumber := none
  isDraft := false

def CloneShipmentDto.milestones (dto : CloneShipmentDto) (source : List Milestone) :
    List NewMilestone :=
  source.mapIdx fun index m => ⟨dto.milestoneIds index, m.name, m.paymentPercent, none, []⟩

def clone (services : Services) (env : Env) (id buyerAddress : String) (dto : CloneShipmentDto) :
    Tx Unit := do
  match ← shipmentFindUnique env .shipmentRead id with
  | none => throw (.notFound s!"Shipment {id} not found")
  | some source =>
      if source.buyerAddress ≠ buyerAddress then
        throw (.forbidden "Only the original shipment buyer can clone it")
      let milestones := dto.milestones ((← get).findMany id)
      match bigIntOfString dto.totalAmount with
      | none => throw .invalidValue
      | some totalAmount => shipmentInsert env (source.copy services dto totalAmount) milestones

end Clone

section Drafts

/-- A schedule as the job reads it, with its template. -/
structure DueSchedule where
  schedule : RecurringSchedule
  template : ShipmentTemplate
deriving DecidableEq

def RecurringScheduleJob.BATCH_SIZE : Nat := 50

/-- The job's query. The foreign key makes the join total. -/
def Db.dueSchedules (db : Db) (now : Nat) : List DueSchedule :=
  let due := db.schedules.rows.filter fun s => s.active ∧ s.nextRunAt ≤ now
  let batch := (due.insertionSort fun a b => a.nextRunAt ≤ b.nextRunAt).take
    RecurringScheduleJob.BATCH_SIZE
  batch.filterMap fun s =>
    (db.templates.find? s.templateId).map fun template => ⟨s, template⟩

/-- The draft of a schedule; a missing address is no value for its column. -/
def DueSchedule.draft (services : Services) (due : DueSchedule) (shipmentId : String) :
    Option NewShipment := do
  let supplierAddress ← due.template.supplierAddress
  let logisticsAddress ← due.template.logisticsAddress
  let arbiterAddress ← due.template.arbiterAddress
  let tokenAddress ← due.template.tokenAddress
  return {
    id := shipmentId
    buyerAddress := due.schedule.ownerAddress
    supplierAddress := supplierAddress
    logisticsAddress := logisticsAddress
    requiredApprovals := none
    totalAmount := due.schedule.totalAmount
    txHash := none
    tokenDecimals := (services.getToken tokenAddress).decimals
    arbiterAddress := arbiterAddress
    tokenAddress := tokenAddress
    tokenSymbol := (services.getToken tokenAddress).symbol
    referenceNumber := none
    isDraft := true }

def RecurringSchedule.claim (nextRunAt now : Nat) (s : RecurringSchedule) : RecurringSchedule :=
  { s with nextRunAt := nextRunAt, lastRunAt := some now }

def Db.claimSchedule (db : Db) (id : String) (nextRunAt now : Nat) : Db :=
  { db with
    schedules := db.schedules.modify id (RecurringSchedule.claim nextRunAt now) fun _ => rfl }

def Db.deactivateSchedule (db : Db) (id : String) : Db :=
  { db with schedules := db.schedules.modify id (fun s => { s with active := false }) fun _ => rfl }

/-- Whether the compare-and-set on `nextRunAt` finds the schedule as it was read. -/
def Db.claimable (db : Db) (due : DueSchedule) : Bool :=
  (db.schedules.find? due.schedule.id).any fun s =>
    s.active ∧ s.nextRunAt = due.schedule.nextRunAt

/-- What a run generates for a schedule: the id of the draft, and by `advance` the
first time after this run. -/
structure DraftInput where
  shipmentId : String
  nextRunAt : Nat

/-- The schedule of a deleted template is switched off. -/
def deactivate (env : Env) (due : DueSchedule) : Tx Bool := do
  prismaCall env .scheduleWrite
  if ((← get).schedules.find? due.schedule.id).isNone then throw .recordNotFound
  modify fun db => db.deactivateSchedule due.schedule.id
  return false

/-- The transaction of `runOne`: when the insert is rejected nothing is claimed
either. -/
def claimAndDraft (services : Services) (env : Env) (due : DueSchedule) (input : DraftInput) :
    Tx Bool := do
  prismaCall env .scheduleWrite
  if (← get).claimable due then
    match due.draft services input.shipmentId with
    | none => throw .invalidValue
    | some new =>
        shipmentInsert env new []
        modify fun db => db.claimSchedule due.schedule.id input.nextRunAt env.now
        return true
  else return false

def runOne (services : Services) (env : Env) (due : DueSchedule) (input : DraftInput) :
    Tx Bool :=
  match due.template.deletedAt with
  | some _ => deactivate env due
  | none => claimAndDraft services env due input

/-- The number of drafts. A schedule that fails is logged and skipped. -/
def RecurringScheduleJob.run (services : Services) (env : Env) (lockHeld : Bool)
    (input : DueSchedule → DraftInput) : Tx Nat := do
  if lockHeld then return 0
  prismaCall env .jobRead
  ((← get).dueSchedules env.now).foldlM (fun created due =>
    tryCatch (do return if ← runOne services env due (input due) then created + 1 else created)
      fun _ => return created) 0

end Drafts

end ChainSettle
