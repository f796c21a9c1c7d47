import ChainSettle.Lib.Pool
import ChainSettle.Semantics.Database
import Mathlib.Data.List.Sort

/-!
`ShipmentRemindersService` with the job that sends reminders, and `InvitationsService`. Both
count rows in one statement and create a row in a later one. A call is suspended before each of
its statements.
-/

namespace ChainSettle

open Lib

/-- What the database does in a step: whether the statement throws, and the id it generates. -/
structure RowInput where
  thrown : Bool
  id : String

section Reminders

def MAX_ACTIVE_REMINDERS : Nat := 20

structure ShipmentReminder where
  id : String
  shipmentId : String
  userId : String
  remindAt : Nat
  message : String
  sentAt : Option Nat
deriving DecidableEq

/-- `remindAt` is a date that may be invalid. -/
structure CreateShipmentReminderDto where
  remindAt : Option Nat
  message : String

inductive RemindersReply where
  | created (reminder : ShipmentReminder)
  | removed
  | sent (count : Nat)

structure RemindersWorld where
  shipmentIds : List String
  reminders : Table ShipmentReminder.id
  now : Nat
  replies : List (Except HttpError RemindersReply)

inductive RemindersCall where
  | create (shipmentId userId : String) (dto : CreateShipmentReminderDto)
  | countActive (shipmentId userId : String) (remindAt : Nat) (message : String)
  | insert (shipmentId userId : String) (remindAt : Nat) (message : String)
  | remove (shipmentId reminderId userId : String)
  /-- `ShipmentReminderJob`, which claims the due reminders one after the other -/
  | run
  | claim (due : List ShipmentReminder) (sent : Nat)

namespace RemindersWorld

variable (w : RemindersWorld)

def reply (answer : Except HttpError RemindersReply) : RemindersWorld × List RemindersCall :=
  ({ w with replies := answer :: w.replies }, [])

def fail (status : Nat) (message : String) : RemindersWorld × List RemindersCall :=
  w.reply (.error ⟨status, message⟩)

/-- `count({ where: { shipmentId, userId, sentAt: null } })` -/
def active (shipmentId userId : String) : List ShipmentReminder :=
  w.reminders.rows.filter fun r => r.shipmentId = shipmentId ∧ r.userId = userId ∧ r.sentAt = none

/-- The rows that the job reads. -/
def due : List ShipmentReminder :=
  ((w.reminders.rows.filter fun r => r.sentAt = none ∧ r.remindAt ≤ w.now).insertionSort
    fun a b => a.remindAt ≤ b.remindAt).take 100

end RemindersWorld

def RemindersCall.resume (input : RowInput) (w : RemindersWorld) :
    RemindersCall → RemindersWorld × List RemindersCall
  | .create shipmentId userId dto =>
      match dto.remindAt with
      | none => w.fail 400 "remindAt must be in the future"
      | some remindAt =>
          if remindAt ≤ w.now then w.fail 400 "remindAt must be in the future"
          else if input.thrown then w.fail 500 "Internal server error"
          else if shipmentId ∉ w.shipmentIds then w.fail 404 s!"Shipment {shipmentId} not found"
          else (w, [.countActive shipmentId userId remindAt dto.message])
  | .countActive shipmentId userId remindAt message =>
      if input.thrown then w.fail 500 "Internal server error"
      else if MAX_ACTIVE_REMINDERS ≤ (w.active shipmentId userId).length then
        w.fail 400 s!"At most {MAX_ACTIVE_REMINDERS} active reminders are allowed per shipment"
      else (w, [.insert shipmentId userId remindAt message])
  | .insert shipmentId userId remindAt message =>
      if input.thrown ∨ (w.reminders.find? input.id).isSome then w.fail 500 "Internal server error"
      else
        let reminder : ShipmentReminder :=
          ⟨input.id, shipmentId, userId, remindAt, String.ofList (jsTrim message.toList), none⟩
        { w with reminders := w.reminders.insert reminder }.reply (.ok (.created reminder))
  | .remove shipmentId reminderId userId =>
      let matching (r : ShipmentReminder) : Bool :=
        r.id = reminderId ∧ r.shipmentId = shipmentId ∧ r.userId = userId
      if input.thrown then w.fail 500 "Internal server error"
      else if w.reminders.rows.any matching then
        { w with reminders := w.reminders.filter fun r => !matching r }.reply (.ok .removed)
      else w.fail 404 s!"Reminder {reminderId} not found"
  | .run => if input.thrown then w.fail 500 "Internal server error" else (w, [.claim w.due 0])
  | .claim [] sent => w.reply (.ok (.sent sent))
  | .claim (reminder :: rest) sent =>
      if input.thrown then w.fail 500 "Internal server error"
      else if (w.reminders.find? reminder.id).any fun r => r.sentAt = none then
        ({ w with
            reminders := w.reminders.modify reminder.id
              (fun r => { r with sentAt := some w.now }) fun _ => rfl },
          [.claim rest (sent + 1)])
      else (w, [.claim rest sent])

def RemindersCall.starts : RemindersCall → Bool
  | .create .. | .remove .. | .run => true
  | _ => false

/-- Reminders go with their shipment or their user. -/
inductive RemindersEvent where
  | tick (ms : Nat)
  | cascade (keeps : ShipmentReminder → Bool)
  | shipments (ids : List String)

def RemindersEvent.apply (w : RemindersWorld) : RemindersEvent → RemindersWorld
  | .tick ms => { w with now := w.now + ms }
  | .cascade keeps => { w with reminders := w.reminders.filter keeps }
  | .shipments ids => { w with shipmentIds := ids }

def reminders : PoolSystem RemindersWorld RemindersCall RowInput RemindersEvent where
  starts := RemindersCall.starts
  resume input w call := call.resume input w
  external event w := event.apply w

abbrev RemindersPool := Pool RemindersWorld RemindersCall

abbrev RemindersAction := PoolAction RemindersCall RowInput RemindersEvent

end Reminders

section Invitations

/-- 7 days. -/
def INVITATION_TTL_MS : Nat := 7 * 24 * 60 * 60 * 1000

def DAILY_INVITATION_LIMIT : Nat := 20

/-- 24 hours. -/
def invitationWindow : Nat := 24 * 60 * 60 * 1000

structure Invitation where
  id : String
  shipmentId : Option String
  templateId : Option String
  email : String
  role : UserRole
  tokenHash : String
  invitedById : String
  acceptedById : Option String
  acceptedAt : Option Nat
  expiresAt : Nat
  createdAt : Nat
deriving DecidableEq

structure CreateInvitationDto where
  email : String
  role : UserRole
  shipmentId : Option String
  templateId : Option String

structure InvitationsWorld where
  shipmentIds : List String
  invitations : Table Invitation.id
  now : Nat
  replies : List (Except HttpError Invitation)

structure InvitationsService where
  text : CaseMapping
  hashToken : String → String

/-- The random token of an invitation comes with the call. -/
inductive InvitationsCall where
  | create (inviterId token : String) (dto : CreateInvitationDto)
  | checkShipment (inviterId token : String) (dto : CreateInvitationDto)
  | insert (inviterId token : String) (dto : CreateInvitationDto)
  | accept (token userId : String)
  | acceptWrite (invitationId userId : String)

namespace InvitationsWorld

variable (w : InvitationsWorld)

def reply (answer : Except HttpError Invitation) : InvitationsWorld × List InvitationsCall :=
  ({ w with replies := answer :: w.replies }, [])

def fail (status : Nat) (message : String) : InvitationsWorld × List InvitationsCall :=
  w.reply (.error ⟨status, message⟩)

/-- `count({ where: { invitedById, createdAt: { gte: since } } })` -/
def sentToday (inviterId : String) : List Invitation :=
  w.invitations.rows.filter fun inv =>
    inv.invitedById = inviterId ∧ w.now ≤ inv.createdAt + invitationWindow

end InvitationsWorld

def InvitationsCall.resume (service : InvitationsService) (input : RowInput)
    (w : InvitationsWorld) : InvitationsCall → InvitationsWorld × List InvitationsCall
  | .create inviterId token dto =>
      if input.thrown then w.fail 500 "Internal server error"
      else if DAILY_INVITATION_LIMIT ≤ (w.sentToday inviterId).length then
        w.fail 429 s!"Invitation limit of {DAILY_INVITATION_LIMIT} per day reached"
      else if (truthyText dto.shipmentId).isSome then (w, [.checkShipment inviterId token dto])
      else (w, [.insert inviterId token dto])
  | .checkShipment inviterId token dto =>
      let shipmentId := dto.shipmentId.getD ""
      if input.thrown then w.fail 500 "Internal server error"
      else if shipmentId ∉ w.shipmentIds then w.fail 404 s!"Shipment {shipmentId} not found"
      else (w, [.insert inviterId token dto])
  | .insert inviterId token dto =>
      if input.thrown ∨ (w.invitations.find? input.id).isSome ∨
          (w.invitations.rows.any fun inv => inv.tokenHash = service.hashToken token) then
        w.fail 500 "Internal server error"
      else
        let invitation : Invitation :=
          { id := input.id
            shipmentId := dto.shipmentId
            templateId := dto.templateId
            email := service.text.toLowerCase dto.email
            role := dto.role
            tokenHash := service.hashToken token
            invitedById := inviterId
            acceptedById := none
            acceptedAt := none
            expiresAt := w.now + INVITATION_TTL_MS
            createdAt := w.now }
        { w with invitations := w.invitations.insert invitation }.reply (.ok invitation)
  | .accept token userId =>
      if input.thrown then w.fail 500 "Internal server error"
      else
        match w.invitations.rows.find? fun inv => inv.tokenHash = service.hashToken token with
        | none => w.fail 404 "Invitation not found"
        | some invitation =>
            if invitation.acceptedAt.isSome then w.fail 410 "Invitation has already been used"
            else if invitation.expiresAt ≤ w.now then w.fail 410 "Invitation has expired"
            else (w, [.acceptWrite invitation.id userId])
  | .acceptWrite invitationId userId =>
      if input.thrown then w.fail 500 "Internal server error"
      else
        match (w.invitations.find? invitationId).filter fun inv => inv.acceptedAt.isNone with
        | none => w.fail 410 "Invitation has already been used"
        | some invitation =>
            let accept (inv : Invitation) : Invitation :=
              { inv with acceptedAt := some w.now, acceptedById := some userId }
            { w with invitations := w.invitations.modify invitationId accept fun _ => rfl }.reply
              (.ok (accept invitation))

def InvitationsCall.starts : InvitationsCall → Bool
  | .create .. | .accept .. => true
  | _ => false

/-- Invitations go with their inviter. -/
inductive InvitationsEvent where
  | tick (ms : Nat)
  | cascade (keeps : Invitation → Bool)
  | shipments (ids : List String)

def InvitationsEvent.apply (w : InvitationsWorld) : InvitationsEvent → InvitationsWorld
  | .tick ms => { w with now := w.now + ms }
  | .cascade keeps => { w with invitations := w.invitations.filter keeps }
  | .shipments ids => { w with shipmentIds := ids }

def invitations (service : InvitationsService) :
    PoolSystem InvitationsWorld InvitationsCall RowInput InvitationsEvent where
  starts := InvitationsCall.starts
  resume input w call := call.resume service input w
  external event w := event.apply w

abbrev InvitationsPool := Pool InvitationsWorld InvitationsCall

abbrev InvitationsAction := PoolAction InvitationsCall RowInput InvitationsEvent

end Invitations

end ChainSettle
