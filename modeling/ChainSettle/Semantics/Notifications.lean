import ChainSettle.Semantics.Accounts
import ChainSettle.Semantics.Organizations
import ChainSettle.Semantics.Preferences

/-!
`NotificationsService` and the comments on a shipment. `notifyUser` reads the user and
his preferences, stores the notification, sends an email and a text message where the
preferences ask for them, and dispatches a webhook. A comment is checked and stored,
dispatched as a webhook of its own, and then notified to the participants that can see
it and to those it mentions, one after the other.

Posts to Slack and Discord and web pushes change nothing that is read here, and their
failures are caught.
-/

namespace ChainSettle

open Lib

section Rows

/-- `SMS_ALLOWED_TYPES`. -/
def SMS_ALLOWED_TYPES : List NotificationType :=
  [.disputeRaised, .disputeResolved, .paymentReleased, .milestoneOverdue]

def SMS_RATE_LIMIT : Nat := 10

/-- 24 hours. -/
def smsWindow : Nat := 24 * 60 * 60 * 1000

structure Notification where
  id : String
  userId : String
  type : NotificationType
  title : String
  message : String
  data : List (String × Json)
  deliverAfter : Option Int

inductive CommentVisibility where
  | all | buyerSupplier | internal
deriving DecidableEq

structure ShipmentComment where
  id : String
  shipmentId : String
  authorId : String
  body : String
  visibility : CommentVisibility
  parentCommentId : Option String
  milestoneIndex : Option Int
  createdAt : Nat
  deletedAt : Option Nat
deriving DecidableEq

/-- A text message that was handed over. -/
structure SmsMessage where
  userId : String
  phoneNumber : String
  body : String
  sentAt : Nat
deriving DecidableEq

/-- An event that is dispatched to webhooks. -/
structure WebhookEvent where
  eventType : NotificationType
  notificationId : Option String
  data : List (String × Json)

def WebhookEvent.payload (event : WebhookEvent) : Json :=
  .obj ((event.notificationId.map fun id => ("notificationId", Json.str id)).toList ++ event.data)

structure WebhookReceipt where
  endpoint : WebhookEndpoint
  event : WebhookEvent

/-- One call of `notifyUser`, or of `notifyUserWithForcedEmail`. -/
structure NotifyTask where
  stellarAddress : String
  type : NotificationType
  title : String
  message : String
  data : List (String × Json)
  forced : Bool

def NotifyTask.urgent (task : NotifyTask) : Bool :=
  match task.type, task.data.lookup "urgent" with
  | .systemAlert, some (.bool true) => true
  | _, _ => false

/-- A call that has stored its notification, and the calls that follow it. -/
structure Notifying where
  task : NotifyTask
  user : Account
  channels : ChannelPrefs
  deliverAfter : Option Int
  notificationId : String
  rest : List NotifyTask

def Notifying.event (n : Notifying) : WebhookEvent :=
  ⟨n.task.type, some n.notificationId, n.task.data⟩

structure CommentRequest where
  shipmentId : String
  authorId : String
  authorAddress : String
  body : String
  visibility : Option CommentVisibility
  parentCommentId : Option String
  milestoneIndex : Option Int
deriving DecidableEq

end Rows

section Comments

def buildVisibilityFilter (address : String) (shipment : Shipment) (isAdmin : Bool) :
    List CommentVisibility :=
  if isAdmin then [.all, .buyerSupplier, .internal]
  else
    let isBuyerOrSupplier := address = shipment.buyerAddress ∨ address = shipment.supplierAddress
    let isInternalParty := address = shipment.logisticsAddress ∨ address = shipment.arbiterAddress
    .all :: ((if isBuyerOrSupplier then [.buyerSupplier] else []) ++
      if isInternalParty then [.internal] else [])

/-- The characters up to a length in UTF-16; half of a pair is left out. -/
def utf16Prefix : Nat → List Char → List Char
  | _, [] => []
  | limit, c :: rest =>
      let units := if c.toNat < 0x10000 then 1 else 2
      if units ≤ limit then c :: utf16Prefix (limit - units) rest else []

def COMMENT_EXCERPT_LENGTH : Nat := 200

def ShipmentComment.excerpt (comment : ShipmentComment) : String :=
  String.ofList (utf16Prefix COMMENT_EXCERPT_LENGTH comment.body.toList)

def ShipmentComment.event (comment : ShipmentComment) (authorAddress : String) : WebhookEvent where
  eventType := .shipmentCommentCreated
  notificationId := none
  data := [("shipmentId", .str comment.shipmentId), ("commentId", .str comment.id),
    ("authorAddress", .str authorAddress), ("bodyExcerpt", .str comment.excerpt),
    ("createdAt", .str (toISOString comment.createdAt))]

/-- The matches of `STELLAR_ADDRESS_RE`, in a text no longer than `fuel`. -/
def addressMatches : Nat → List Char → List String
  | 0, _ | _, [] => []
  | fuel + 1, c :: rest =>
      let following := rest.take 55
      if c = 'G' ∧ following.length = 55 ∧ following.all fun d => d.isUpper || d.isDigit then
        String.ofList (c :: following) :: addressMatches fuel (rest.drop 55)
      else addressMatches fuel rest

/-- `notifyParticipants`. -/
def participantTasks (shipment : Shipment) (comment : ShipmentComment) (authorAddress : String) :
    List NotifyTask :=
  let parties := if comment.visibility ≠ .internal then
    [shipment.buyerAddress, shipment.supplierAddress] else []
  let internal := if comment.visibility ≠ .buyerSupplier then
    [shipment.logisticsAddress, shipment.arbiterAddress] else []
  ((parties ++ internal).eraseDups.filter fun address => address ≠ authorAddress).map fun address =>
    { stellarAddress := address
      type := .commentAdded
      title := "New comment on shipment"
      message := s!"A new comment has been added to shipment {shipment.id}."
      data := [("shipmentId", .str shipment.id), ("commentId", .str comment.id)]
      forced := false }

/-- `handleMentions`. -/
def mentionTasks (shipment : Shipment) (comment : ShipmentComment) (authorAddress : String) :
    List NotifyTask :=
  let body := comment.body.toList
  let mentioned := (addressMatches body.length body).eraseDups.filter fun address =>
    address ∈ shipment.participants ∧ address ≠ authorAddress
  mentioned.map fun address =>
    { stellarAddress := address
      type := .commentMention
      title := "You were mentioned in a comment"
      message := s!"You were mentioned in a comment on shipment {shipment.id}."
      data := [("shipmentId", .str shipment.id), ("commentId", .str comment.id),
        ("mentionedBy", .str authorAddress)]
      forced := true }

end Comments

section Calls

inductive NotificationCall where
  | updatePreferences (userId : String) (dto : UpdatePreferencesDto)
  /-- the token stands for what `verifyUnsubscribeToken` finds in it -/
  | unsubscribe (token : Except HttpError (String × UnsubscribeType))
  | readPreferences (userId : String) (request : PreferenceRequest)
  | writePreferences (userId : String) (current : StoredPreferences) (request : PreferenceRequest)
  | preferencesResponse (userId : String)
  | notify (tasks : List NotifyTask)
  | notifyPreferences (task : NotifyTask) (user : Account) (rest : List NotifyTask)
  | createNotification (task : NotifyTask) (user : Account) (channels : ChannelPrefs)
      (deliverAfter : Option Int) (rest : List NotifyTask)
  | sendEmail (n : Notifying)
  | smsCheck (n : Notifying)
  | smsReset (n : Notifying) (now : Nat)
  | smsSend (n : Notifying) (currentCount : Nat)
  | smsCount (n : Notifying) (currentCount : Nat)
  | push (n : Notifying)
  | dispatch (event : WebhookEvent)
  | comment (request : CommentRequest)
  | commentOrganizations (shipment : Shipment) (request : CommentRequest)
  | commentParent (shipment : Shipment) (request : CommentRequest)
  | commentMilestone (shipment : Shipment) (request : CommentRequest)
  | commentInsert (shipment : Shipment) (request : CommentRequest)

inductive NotificationReply where
  | preferences (row : NotificationPreference)
  | unsubscribed (type : UnsubscribeType)
  | commented (comment : ShipmentComment) (mentionedAddresses : List String)

structure NotificationWorld where
  users : Table Account.id
  preferences : Table NotificationPreference.userId
  notifications : Table Notification.id
  shipments : Table Shipment.id
  milestones : Table Milestone.key
  comments : Table ShipmentComment.id
  members : Members
  endpoints : Table WebhookEndpoint.id
  now : Nat
  /-- what calls have written to preferences, with their users -/
  saved : List (String × PreferenceRequest)
  /-- the newest first -/
  sms : List SmsMessage
  deliveries : List WebhookReceipt
  responses : List (Except HttpError NotificationReply)

structure NotificationsService where
  validTimezone : String → Bool
  offsetAt : String → Int → Int
  /-- there is an SMS provider -/
  sendsSms : Bool

inductive SmsOutcome where
  | sent | failed | sentThenFailed
deriving DecidableEq

/-- The inputs of a step: whether its statement throws, the id that the database
generates, and what the SMS provider does. -/
structure NotificationInput where
  thrown : Bool
  id : String
  sms : SmsOutcome

inductive NotificationEvent where
  | tick (ms : Nat)
  /-- what other requests write -/
  | edit (other : NotificationWorld)

namespace NotificationWorld

variable (w : NotificationWorld)

def respond (response : Except HttpError NotificationReply) : NotificationWorld :=
  { w with responses := response :: w.responses }

def refuse (status : Nat) (message : String) : NotificationWorld × List NotificationCall :=
  (w.respond (.error ⟨status, message⟩), [])

def defaultPreference (userId : String) : NotificationPreference :=
  ⟨userId, buildDefaultPreferences, none, none, 0, w.now⟩

/-- `getOrCreatePreferenceRecord`. -/
def withPreference (userId : String) : NotificationWorld :=
  { w with
    preferences := w.preferences.upsert (w.defaultPreference userId) id fun _ => rfl }

def preferenceOf (userId : String) : NotificationPreference :=
  (w.preferences.find? userId).getD (w.defaultPreference userId)

def updatePreference (userId : String) (f : NotificationPreference → NotificationPreference)
    (hf : ∀ row, (f row).userId = row.userId) : NotificationWorld :=
  { w with preferences := w.preferences.modify userId f hf }

/-- `getShipmentOrgRole`, by rank. -/
def shipmentOrgRank (userId : String) (shipment : Shipment) : Option Nat :=
  let reaches (orgId : Uuid) : Bool := w.members.rows.any fun m =>
    m.orgId = orgId ∧ (w.users.find? m.userId).any fun user =>
      user.stellarAddress ∈ shipment.participants
  let memberships := w.members.rows.filter fun m => m.userId = userId ∧ reaches m.orgId
  if userId = "" then none else (memberships.map fun m => m.role.rank).max?

def deliverAfter (service : NotificationsService) (task : NotifyTask)
    (quietHours : Option QuietHours) : Option Int :=
  if task.urgent then none else getQuietHoursEnd service.offsetAt w.now quietHours

end NotificationWorld

/-- The channels of a call; `none` is the exception over a type that is not stored. -/
def NotifyTask.channels (task : NotifyTask) (prefs : StoredPreferences) : Option ChannelPrefs :=
  if task.forced then
    ((prefs.types.channels task.type).or (prefs.types.channels .commentAdded)).map fun flags =>
      ⟨flags.inApp = some true, true, false, false, false, false⟩
  else some (normalizeChannelPrefs (prefs.types.channels task.type))

/-- What follows the email. -/
def Notifying.afterEmail (service : NotificationsService) (n : Notifying) : NotificationCall :=
  if service.sendsSms ∧ n.channels.sms ∧ n.user.phoneVerified ∧
      (truthyText n.user.phoneNumber).isSome ∧ n.task.type ∈ SMS_ALLOWED_TYPES then .smsCheck n
  else .push n

def Notifying.smsBody (n : Notifying) : String :=
  s!"ChainSettle: {n.task.title} - {String.ofList (utf16Prefix 140 n.task.message.toList)}"

/-- What follows the check of the parent comment. -/
def CommentRequest.afterParent (shipment : Shipment) (request : CommentRequest) :
    NotificationCall :=
  if request.milestoneIndex.isSome then .commentMilestone shipment request
  else .commentInsert shipment request

/-- What follows the check of the author. -/
def CommentRequest.afterAuthor (shipment : Shipment) (request : CommentRequest) :
    NotificationCall :=
  if (truthyText request.parentCommentId).isSome then .commentParent shipment request
  else request.afterParent shipment

def NotificationCall.resume (service : NotificationsService) (input : NotificationInput)
    (w : NotificationWorld) : NotificationCall → NotificationWorld × List NotificationCall
  | .updatePreferences userId dto =>
      match dto.quietHours.bind (QuietHours.refusal service.validTimezone) with
      | some refusal => (w.respond (.error refusal), [])
      | none =>
          if input.thrown then w.refuse 500 "Internal server error"
          else
            (w.withPreference userId,
              [.writePreferences userId (w.preferenceOf userId).preferences (.update dto)])
  | .unsubscribe token =>
      match token with
      | .error refusal => (w.respond (.error refusal), [])
      | .ok (userId, type) =>
          if input.thrown then w.refuse 500 "Internal server error"
          else
            match w.users.find? userId with
            | none => w.refuse 404 "User not found"
            | some _ => (w, [.readPreferences userId (.unsubscribe type)])
  | .readPreferences userId request =>
      if input.thrown then w.refuse 500 "Internal server error"
      else
        (w.withPreference userId,
          [.writePreferences userId (w.preferenceOf userId).preferences request])
  | .writePreferences userId current request =>
      if input.thrown ∨ (w.preferences.find? userId).isNone then
        w.refuse 500 "Internal server error"
      else
        let written := { w.updatePreference userId (request.write current)
            (request.userId_write current) with saved := (userId, request) :: w.saved }
        match request with
        | .update _ => (written, [.preferencesResponse userId])
        | .unsubscribe type => (written.respond (.ok (.unsubscribed type)), [])
  | .preferencesResponse userId =>
      if input.thrown then w.refuse 500 "Internal server error"
      else
        ((w.withPreference userId).respond (.ok (.preferences (w.preferenceOf userId))), [])
  | .notify [] => (w, [])
  | .notify (task :: rest) =>
      match w.users.rows.find? fun user => user.stellarAddress = task.stellarAddress with
      | none => (w, [.notify rest])
      | some user =>
          if input.thrown then (w, [.notify rest]) else (w, [.notifyPreferences task user rest])
  | .notifyPreferences task user rest =>
      if input.thrown then (w, [.notify rest])
      else
        let prefs := (w.preferenceOf user.id).preferences
        match task.channels prefs with
        | none => (w.withPreference user.id, [.notify rest])
        | some channels =>
            (w.withPreference user.id,
              if channels.inApp then
                [.createNotification task user channels
                  (w.deliverAfter service task prefs.quietHours) rest]
              else [.notify rest])
  | .createNotification task user channels deliverAfter rest =>
      if input.thrown ∨ (w.notifications.find? input.id).isSome then (w, [.notify rest])
      else
        let forceEmail := if task.forced ∧ deliverAfter.isSome then
          [("forceEmail", Json.bool true)] else []
        let notification : Notification :=
          ⟨input.id, user.id, task.type, task.title, task.message, task.data ++ forceEmail,
            deliverAfter⟩
        let n : Notifying := ⟨task, user, channels, deliverAfter, input.id, rest⟩
        ({ w with notifications := w.notifications.insert notification },
          if deliverAfter.isNone ∧ channels.email ∧ (truthyText user.email).isSome then
            [.sendEmail n]
          else [n.afterEmail service])
  | .sendEmail n => if input.thrown then (w, [.notify n.rest]) else (w, [n.afterEmail service])
  | .smsCheck n =>
      match w.preferences.find? n.user.id with
      | none => (w, [.push n])
      | some pref =>
          if input.thrown then (w, [.push n])
          else if pref.smsWindowStart + smsWindow < w.now then (w, [.smsReset n w.now])
          else if SMS_RATE_LIMIT ≤ pref.smsSentCount then (w, [.push n])
          else (w, [.smsSend n pref.smsSentCount])
  | .smsReset n now =>
      if input.thrown ∨ (w.preferences.find? n.user.id).isNone then (w, [.push n])
      else
        (w.updatePreference n.user.id
          (fun row => { row with smsSentCount := 0, smsWindowStart := now }) fun _ => rfl,
          [.smsSend n 0])
  | .smsSend n currentCount =>
      let message : SmsMessage :=
        ⟨n.user.id, (truthyText n.user.phoneNumber).getD "", n.smsBody, w.now⟩
      match input.sms with
      | .sent => ({ w with sms := message :: w.sms }, [.smsCount n currentCount])
      | .failed => (w, [.push n])
      | .sentThenFailed => ({ w with sms := message :: w.sms }, [.push n])
  | .smsCount n currentCount =>
      if input.thrown ∨ (w.preferences.find? n.user.id).isNone then (w, [.push n])
      else
        (w.updatePreference n.user.id (fun row => { row with smsSentCount := currentCount + 1 })
          fun _ => rfl, [.push n])
  | .push n => (w, [.dispatch n.event, .notify n.rest])
  | .dispatch event =>
      if input.thrown then (w, [])
      else
        let endpoints := w.endpoints.rows.filter fun ep =>
          ep.active && ep.events.contains event.eventType.name
        ({ w with deliveries := (endpoints.map fun ep => ⟨ep, event⟩) ++ w.deliveries }, [])
  | .comment request =>
      if input.thrown then w.refuse 500 "Internal server error"
      else
        match w.shipments.find? request.shipmentId with
        | none => w.refuse 404 s!"Shipment {request.shipmentId} not found"
        | some shipment =>
            if request.authorAddress ∈ shipment.participants then
              (w, [request.afterAuthor shipment])
            else (w, [.commentOrganizations shipment request])
  | .commentOrganizations shipment request =>
      if input.thrown then w.refuse 500 "Internal server error"
      -- VIEWERs are read-only
      else if (w.shipmentOrgRank request.authorId shipment).any fun rank =>
          OrganizationRole.member.rank ≤ rank then
        (w, [request.afterAuthor shipment])
      else w.refuse 403 "Only shipment participants can post comments"
  | .commentParent shipment request =>
      let visible := buildVisibilityFilter request.authorAddress shipment false
      if input.thrown then w.refuse 500 "Internal server error"
      else if w.comments.rows.any fun parent =>
          request.parentCommentId = some parent.id ∧ parent.shipmentId = request.shipmentId ∧
            parent.deletedAt = none ∧ parent.visibility ∈ visible then
        (w, [request.afterParent shipment])
      else
        let parentCommentId := request.parentCommentId.getD ""
        w.refuse 404 s!"Comment {parentCommentId} not found"
  | .commentMilestone shipment request =>
      if input.thrown then w.refuse 500 "Internal server error"
      else if w.milestones.rows.any fun m =>
          m.shipmentId = request.shipmentId ∧ request.milestoneIndex = some m.milestoneIndex ∧
            m.deletedAt = none then
        (w, [.commentInsert shipment request])
      else
        w.refuse 400 (s!"Milestone {request.milestoneIndex.getD 0} does not exist on shipment " ++
          request.shipmentId)
  | .commentInsert shipment request =>
      if input.thrown ∨ (w.comments.find? input.id).isSome then
        w.refuse 500 "Internal server error"
      else
        let comment : ShipmentComment :=
          { id := input.id
            shipmentId := request.shipmentId
            authorId := request.authorId
            body := request.body
            visibility := request.visibility.getD .all
            parentCommentId := request.parentCommentId
            milestoneIndex := request.milestoneIndex
            createdAt := w.now
            deletedAt := none }
        let mentions := mentionTasks shipment comment request.authorAddress
        -- the reply waits for the notifications, which never fail
        ({ w with comments := w.comments.insert comment }.respond
            (.ok (.commented comment (mentions.map NotifyTask.stellarAddress))),
          [.dispatch (comment.event request.authorAddress),
            .notify (participantTasks shipment comment request.authorAddress ++ mentions)])

def NotificationCall.starts : NotificationCall → Bool
  | .updatePreferences .. | .unsubscribe _ | .notify _ | .comment _ => true
  | _ => false

/-- The clock goes on; others write everything but the preferences, the notifications and
the logs. -/
def NotificationEvent.apply (w : NotificationWorld) : NotificationEvent → NotificationWorld
  | .tick ms => { w with now := w.now + ms }
  | .edit other =>
      { w with
        users := other.users
        shipments := other.shipments
        milestones := other.milestones
        comments := other.comments
        members := other.members
        endpoints := other.endpoints }

def notifications (service : NotificationsService) :
    PoolSystem NotificationWorld NotificationCall NotificationInput NotificationEvent where
  starts := NotificationCall.starts
  resume input w call := call.resume service input w
  external event w := event.apply w

abbrev NotificationPool := Pool NotificationWorld NotificationCall

abbrev NotificationAction :=
  PoolAction NotificationCall NotificationInput NotificationEvent

end Calls

end ChainSettle
