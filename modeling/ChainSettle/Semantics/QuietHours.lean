import ChainSettle.Semantics.Notifications

/-!
What one call of `notifyUser` or `notifyUserWithForcedEmail` sends to the world outside. It reads
the user and the preferences, stores the notification and goes through its channels one after the
other; an exception ends it where it stands.
-/

namespace ChainSettle

open Lib

section Delivery

/-- Where a call may throw. The channels themselves catch what goes wrong. -/
inductive DeliveryStep where
  | findUser | getPreferences | createNotification | markEmailSent | findSmsCount | resetSmsCount
  | pushToUser
deriving DecidableEq

/-- What a call meets on its way. -/
structure DeliveryEnv where
  offsetAt : String → Int → Int
  now : Nat
  user : Option Account
  /-- the record that `getOrCreatePreferenceRecord` returns -/
  preference : NotificationPreference
  emailSuppressed : Bool
  /-- there is an SMS provider -/
  sendsSms : Bool
  /-- the record and the time at which `sendSmsNotification` counts -/
  smsPreference : Option NotificationPreference
  smsNow : Nat
  /-- web push is configured, and the user has a subscription -/
  webPush : Bool
  throws : DeliveryStep → Bool

/-- What is handed to a channel, with the arguments it is rendered from. -/
inductive ExternalMessage where
  | email (address : String) (task : NotifyTask)
  | slack (webhookUrl : String) (task : NotifyTask)
  | sms (phoneNumber body : String)
  | discord (webhookUrl : String) (task : NotifyTask)
  | webPush (userId : String) (task : NotifyTask)

/-- The `data` of the row to create. -/
structure NotificationData where
  userId : String
  type : NotificationType
  title : String
  message : String
  data : Fields String Json
  deliverAfter : Option Int

structure Delivery where
  notification : Option NotificationData
  sent : List ExternalMessage

/-- A call that has stopped early. -/
def Delivery.nothing : Delivery := ⟨none, []⟩

def NotifyTask.smsBody (task : NotifyTask) : String :=
  s!"ChainSettle: {task.title} - {String.ofList (utf16Prefix 140 task.message.toList)}"

namespace DeliveryEnv

variable (env : DeliveryEnv) (task : NotifyTask)

def quietHoursEnd : Option Int :=
  getQuietHoursEnd env.offsetAt env.now env.preference.preferences.quietHours

def deliverAfter : Option Int := if task.urgent then none else env.quietHoursEnd

def sendEmail (address : String) : List ExternalMessage :=
  if env.emailSuppressed then [] else [.email address task]

def sendSmsNotification (phoneNumber : String) : List ExternalMessage :=
  if ¬ env.sendsSms then []
  else if env.throws .findSmsCount then []
  else
    match env.smsPreference with
    | none => []
    | some pref =>
        let expired := pref.smsWindowStart + smsWindow < env.smsNow
        let currentCount := if expired then 0 else pref.smsSentCount
        if expired ∧ env.throws .resetSmsCount then []
        else if currentCount ≥ SMS_RATE_LIMIT then []
        else [.sms phoneNumber task.smsBody]

/-- The guard of the text message, and what is sent where it holds. -/
def smsChannel (user : Account) (channels : ChannelPrefs) : List ExternalMessage :=
  match truthyText user.phoneNumber with
  | some phoneNumber =>
      if channels.sms ∧ user.phoneVerified ∧ task.type ∈ SMS_ALLOWED_TYPES then
        env.sendSmsNotification task phoneNumber
      else []
  | none => []

def discordChannel (channels : ChannelPrefs) : List ExternalMessage :=
  match truthyText env.preference.discordWebhookUrl with
  | some discordWebhookUrl => if channels.discord then [.discord discordWebhookUrl task] else []
  | none => []

/-- The channels after the email. -/
def afterEmail (user : Account) (channels : ChannelPrefs) (deliverAfter : Option Int) :
    List ExternalMessage :=
  let slack := match truthyText env.preference.slackWebhookUrl with
    | some slackWebhookUrl =>
        if deliverAfter.isNone ∧ channels.slack then [.slack slackWebhookUrl task] else []
    | none => []
  let pushed :=
    if ¬ env.throws .pushToUser ∧ deliverAfter.isNone ∧ channels.push ∧ env.webPush then
      [.webPush user.id task]
    else []
  slack ++ env.smsChannel task user channels ++ env.discordChannel task channels ++ pushed

end DeliveryEnv

def notifyUser (env : DeliveryEnv) (task : NotifyTask) : Delivery :=
  if env.throws .findUser then .nothing
  else
    match env.user with
    | none => .nothing
    | some user =>
        if env.throws .getPreferences then .nothing
        else
          let deliverAfter := env.deliverAfter task
          let types := env.preference.preferences.types
          let channels := normalizeChannelPrefs (types.channels task.type)
          if ¬ channels.inApp ∨ env.throws .createNotification then .nothing
          else
            let notification : NotificationData :=
              ⟨user.id, task.type, task.title, task.message, task.data, deliverAfter⟩
            let rest := env.afterEmail task user channels deliverAfter
            match truthyText user.email with
            | some email =>
                if deliverAfter.isNone ∧ channels.email then
                  ⟨notification, env.sendEmail task email ++
                    if env.throws .markEmailSent then [] else rest⟩
                else ⟨notification, rest⟩
            | none => ⟨notification, rest⟩

def notifyUserWithForcedEmail (env : DeliveryEnv) (task : NotifyTask) : Delivery :=
  if env.throws .findUser then .nothing
  else
    match env.user with
    | none => .nothing
    | some user =>
        if env.throws .getPreferences then .nothing
        else
          let types := env.preference.preferences.types
          let deliverAfter := env.deliverAfter task
          match (types.channels task.type).or (types.channels .commentAdded) with
          -- the destructuring throws
          | none => .nothing
          | some flags =>
              if flags.inApp ≠ some true ∨ env.throws .createNotification then .nothing
              else
                let forceEmail :=
                  if deliverAfter.isSome then [("forceEmail", Json.bool true)] else []
                let notification : NotificationData :=
                  ⟨user.id, task.type, task.title, task.message, Fields.assign task.data forceEmail,
                    deliverAfter⟩
                match truthyText user.email with
                | some email =>
                    ⟨notification, if deliverAfter.isNone then env.sendEmail task email else []⟩
                | none => ⟨notification, []⟩

end Delivery

end ChainSettle
