import ChainSettle.Semantics.Dashboard
import Mathlib.Logic.Function.Iterate

/-!
Notification preferences. One row per user holds a document, with the channels of each
notification type, the quiet hours and the digest frequency, and in columns of their own
the webhook URLs and the counter of text messages. `updatePreferences` and `unsubscribe`
read the document, merge their changes into it and write all of it back. For the end of
quiet hours `Intl` knows how many minutes a time zone is ahead of UTC at an instant.
-/

namespace ChainSettle

open Lib

section Document

inductive NotificationType where
  | shipmentCreated | proofSubmitted | milestoneConfirmed | disputeRaised | disputeResolved
  | disputeEvidenceSubmitted | shipmentCancelled | paymentReleased | milestoneOverdue
  | commentAdded | commentMention | systemAlert | arbiterInvited | arbiterAccepted
  | arbiterDeclined | trackingUpdated | proofRejected | deadlineExtensionRequested
  | deadlineExtensionDecided | deliveryDelayed | shipmentCommentCreated
deriving DecidableEq

namespace NotificationType

/-- `Object.values(NotificationType)`. -/
def values : List NotificationType :=
  [shipmentCreated, proofSubmitted, milestoneConfirmed, disputeRaised, disputeResolved,
    disputeEvidenceSubmitted, shipmentCancelled, paymentReleased, milestoneOverdue, commentAdded,
    commentMention, systemAlert, arbiterInvited, arbiterAccepted, arbiterDeclined,
    trackingUpdated, proofRejected, deadlineExtensionRequested, deadlineExtensionDecided,
    deliveryDelayed, shipmentCommentCreated]

def name : NotificationType → String
  | shipmentCreated => "SHIPMENT_CREATED"
  | proofSubmitted => "PROOF_SUBMITTED"
  | milestoneConfirmed => "MILESTONE_CONFIRMED"
  | disputeRaised => "DISPUTE_RAISED"
  | disputeResolved => "DISPUTE_RESOLVED"
  | disputeEvidenceSubmitted => "DISPUTE_EVIDENCE_SUBMITTED"
  | shipmentCancelled => "SHIPMENT_CANCELLED"
  | paymentReleased => "PAYMENT_RELEASED"
  | milestoneOverdue => "MILESTONE_OVERDUE"
  | commentAdded => "COMMENT_ADDED"
  | commentMention => "COMMENT_MENTION"
  | systemAlert => "SYSTEM_ALERT"
  | arbiterInvited => "ARBITER_INVITED"
  | arbiterAccepted => "ARBITER_ACCEPTED"
  | arbiterDeclined => "ARBITER_DECLINED"
  | trackingUpdated => "TRACKING_UPDATED"
  | proofRejected => "PROOF_REJECTED"
  | deadlineExtensionRequested => "DEADLINE_EXTENSION_REQUESTED"
  | deadlineExtensionDecided => "DEADLINE_EXTENSION_DECIDED"
  | deliveryDelayed => "DELIVERY_DELAYED"
  | shipmentCommentCreated => "SHIPMENT_COMMENT_CREATED"

end NotificationType

/-- The flags that are stored of a type, not all of which need be there. -/
structure StoredChannels where
  inApp : Option Bool
  email : Option Bool
  slack : Option Bool
  sms : Option Bool
  discord : Option Bool
  push : Option Bool
deriving DecidableEq

structure ChannelPrefs where
  inApp : Bool
  email : Bool
  slack : Bool
  sms : Bool
  discord : Bool
  push : Bool
deriving DecidableEq

def normalizeChannelPrefs (raw : Option StoredChannels) : ChannelPrefs where
  inApp := (raw.bind StoredChannels.inApp).getD true
  email := (raw.bind StoredChannels.email).getD true
  slack := (raw.bind StoredChannels.slack).getD true
  sms := (raw.bind StoredChannels.sms).getD false
  discord := (raw.bind StoredChannels.discord).getD false
  push := (raw.bind StoredChannels.push).getD true

def ChannelPrefs.stored (prefs : ChannelPrefs) : StoredChannels where
  inApp := some prefs.inApp
  email := some prefs.email
  slack := some prefs.slack
  sms := some prefs.sms
  discord := some prefs.discord
  push := some prefs.push

inductive DigestFrequency where
  | instant | daily | weekly
deriving DecidableEq

structure QuietHours where
  enabled : Bool
  start : String
  «end» : String
  timezone : String
deriving DecidableEq

/-- The channels by notification type. -/
abbrev PreferenceMap := Table (Prod.fst : NotificationType × StoredChannels → NotificationType)

namespace PreferenceMap

def channels (map : PreferenceMap) (type : NotificationType) : Option StoredChannels :=
  (map.find? type).map Prod.snd

/-- An assignment to a property of the object. -/
def set (map : PreferenceMap) (type : NotificationType) (channels : StoredChannels) :
    PreferenceMap :=
  map.upsert (type, channels) (fun row => (row.1, channels)) fun _ => rfl

theorem channels_set (map : PreferenceMap) (type other : NotificationType)
    (flags : StoredChannels) :
    (map.set type flags).channels other =
      if other = type then some flags else map.channels other := by
  unfold channels set
  rw [Table.find?_upsert]
  split
  · cases map.find? type <;> rfl
  · rfl

end PreferenceMap

structure StoredPreferences where
  types : PreferenceMap
  /-- `_meta` -/
  digestFrequency : Option DigestFrequency
  /-- `_quietHours` -/
  quietHours : Option QuietHours

instance : DecidableEq StoredPreferences := fun a b =>
  decidable_of_iff
    (a.types.rows = b.types.rows ∧ a.digestFrequency = b.digestFrequency ∧
      a.quietHours = b.quietHours) (by
    obtain ⟨⟨rows, hrows⟩, digest, quiet⟩ := a
    obtain ⟨⟨rows', hrows'⟩, digest', quiet'⟩ := b
    simp)

def buildDefaultPreferences : StoredPreferences where
  types := {
    rows := NotificationType.values.map fun type =>
      (type, ⟨some true, some true, some true, some false, some false, some true⟩)
    nodup := by decide }
  digestFrequency := none
  quietHours := none

structure NotificationPreference where
  userId : String
  preferences : StoredPreferences
  slackWebhookUrl : Option String
  discordWebhookUrl : Option String
  smsSentCount : Nat
  smsWindowStart : Nat
deriving DecidableEq

end Document

section Requests

/-- A URL that is `null` or empty removes the stored one. -/
structure UpdatePreferencesDto where
  quietHours : Option QuietHours
  preferences : Option PreferenceMap
  digestFrequency : Option DigestFrequency
  slackWebhookUrl : Option (Option String)
  discordWebhookUrl : Option (Option String)

/-- The type of an unsubscribe token. -/
inductive UnsubscribeType where
  | all
  | type (kind : NotificationType)
deriving DecidableEq

/-- What a call does to the document and the columns that it has read. -/
inductive PreferenceRequest where
  | update (dto : UpdatePreferencesDto)
  | unsubscribe (type : UnsubscribeType)

/-- `{ ...current, ...patch }`. -/
def PreferenceMap.spread (current patch : PreferenceMap) : PreferenceMap :=
  patch.rows.foldl (fun map row => map.set row.1 row.2) current

/-- The types an unsubscription is about. -/
def UnsubscribeType.types : UnsubscribeType → List NotificationType
  | .all => NotificationType.values
  | .type kind => [kind]

def PreferenceMap.emailOff (map : PreferenceMap) (type : NotificationType) : PreferenceMap :=
  map.set type { normalizeChannelPrefs (map.channels type) with email := false }.stored

/-- The document to write. -/
def PreferenceRequest.merge (request : PreferenceRequest) (current : StoredPreferences) :
    StoredPreferences :=
  match request with
  | .update dto =>
      { types := (dto.preferences.map current.types.spread).getD current.types
        quietHours := dto.quietHours.or current.quietHours
        digestFrequency := dto.digestFrequency.or current.digestFrequency }
  | .unsubscribe type =>
      { current with types := type.types.foldl PreferenceMap.emailOff current.types }

def storedUrl (url : Option String) : Option String := url.filter fun text => text ≠ ""

/-- The columns to write beside the document. -/
def PreferenceRequest.urls (request : PreferenceRequest) (row : NotificationPreference) :
    NotificationPreference :=
  match request with
  | .update dto =>
      { row with
        slackWebhookUrl := (dto.slackWebhookUrl.map storedUrl).getD row.slackWebhookUrl
        discordWebhookUrl := (dto.discordWebhookUrl.map storedUrl).getD row.discordWebhookUrl }
  | .unsubscribe _ => row

/-- The `UPDATE` of a call that has read `current`. -/
def PreferenceRequest.write (request : PreferenceRequest) (current : StoredPreferences)
    (row : NotificationPreference) : NotificationPreference :=
  { request.urls row with preferences := request.merge current }

theorem PreferenceRequest.userId_write (request : PreferenceRequest) (current : StoredPreferences)
    (row : NotificationPreference) : (request.write current row).userId = row.userId := by
  cases request <;> rfl

/-- `/^([01]\d|2[0-3]):[0-5]\d$/`. -/
def isClockTime (text : String) : Bool :=
  match text.toList with
  | [h, hour, ':', m, minute] =>
      hour.isDigit && minute.isDigit && '0' ≤ m && m ≤ '5' &&
        (h = '0' || h = '1' || (h = '2' && hour ≤ '3'))
  | _ => false

/-- `validateQuietHours`, with what `Intl` says about time zones. -/
def QuietHours.refusal (validTimezone : String → Bool) (hours : QuietHours) : Option HttpError :=
  if ¬ (isClockTime hours.start ∧ isClockTime hours.end) then
    some ⟨400, "quietHours must contain enabled, HH:mm start/end, and an IANA timezone"⟩
  else if ¬ validTimezone hours.timezone then
    some ⟨400, "quietHours.timezone must be a valid IANA timezone"⟩
  else none

end Requests

section Clock

def msPerMinute : Int := 60000

/-- The parts that `Intl.DateTimeFormat` prints. -/
structure WallClock where
  year : Int
  month : Int
  day : Int
  hour : Int
  minute : Int
deriving DecidableEq

def WallClock.minuteOfDay (clock : WallClock) : Int := clock.hour * 60 + clock.minute

/-- `Date.UTC`. The years 0 to 99 stand for those of the 20th century. -/
def dateUTC (year month day hour minute : Int) : Int :=
  let fullYear := if 0 ≤ year ∧ year ≤ 99 then 1900 + year else year
  makeDay fullYear month day * msPerDay + (hour * 60 + minute) * msPerMinute

/-- `text.split(':').map(Number)` of hours and minutes. -/
def clockTime (text : String) : Nat × Nat :=
  let numbers := (text.toList.splitOn ':').map fun part => Nat.ofDigitChars 10 part 0
  (numbers.getD 0 0, numbers.getD 1 0)

def clockMinutes (text : String) : Int := (clockTime text).1 * 60 + (clockTime text).2

variable (offsetAt : String → Int → Int)

/-- The time in milliseconds as the clocks of a time zone show it. -/
def localTime (timezone : String) (time : Int) : Int :=
  time + offsetAt timezone time * msPerMinute

def wallClock (timezone : String) (time : Int) : WallClock :=
  let shown := localTime offsetAt timezone time
  let day := shown / msPerDay
  { year := yearFromDay day
    month := monthFromDay day + 1
    day := dateFromDay day
    hour := shown % msPerDay / (60 * msPerMinute)
    minute := shown / msPerMinute % 60 }

def QuietHours.activeAt (q : QuietHours) (n : Int) : Bool :=
  let start := clockMinutes q.start
  let «end» := clockMinutes q.end
  start = «end» ||
    (if start < «end» then n ≥ start && n < «end» else n ≥ start || n < «end»)

/-- One round of the loop that looks for the instant of a wall-clock time. -/
def adjust (timezone : String) (wall utc : Int) : Int :=
  let parts := wallClock offsetAt timezone utc
  utc + (wall - dateUTC parts.year (parts.month - 1) parts.day parts.hour parts.minute)

def getQuietHoursEnd (now : Nat) (q : Option QuietHours) : Option Int :=
  match q with
  | none => none
  | some q =>
      if ¬ q.enabled then none
      else
        let clock := wallClock offsetAt q.timezone now
        let n := clock.minuteOfDay
        if ¬ q.activeAt n then none
        else
          let plusDay := clockMinutes q.start > clockMinutes q.end ∧ n ≥ clockMinutes q.start
          let (eh, em) := clockTime q.end
          let wall := dateUTC clock.year (clock.month - 1) (clock.day + if plusDay then 1 else 0)
            eh em
          some ((adjust offsetAt q.timezone wall)^[2] wall)

end Clock

end ChainSettle
