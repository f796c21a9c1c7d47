import ChainSettle.Semantics.Notifications

/-!
What the steps of a notification call change. Only six kinds of steps write what a user
asked for, count or send text messages, or deliver webhooks; every other step at most
creates the preferences of a user that has none.
-/

namespace ChainSettle

open Lib

section Calls

/-- The request that a call carries, with its user. -/
def NotificationCall.request : NotificationCall → Option (String × PreferenceRequest)
  | .updatePreferences userId dto => some (userId, .update dto)
  | .unsubscribe (.ok (userId, type)) => some (userId, .unsubscribe type)
  | .readPreferences userId request | .writePreferences userId _ request => some (userId, request)
  | _ => none

/-- The user to whom a call is about to send a text message. -/
def NotificationCall.texts : NotificationCall → Option String
  | .smsReset n _ | .smsSend n _ => some n.user.id
  | _ => none

/-- The event that a call is to dispatch. -/
def NotificationCall.event : NotificationCall → Option WebhookEvent
  | .sendEmail n | .smsCheck n | .smsReset n _ | .smsSend n _ | .smsCount n _ | .push n =>
      some n.event
  | .dispatch event => some event
  | _ => none

/-- The event of a stored notification, or of a comment. -/
inductive EventKnown (w : NotificationWorld) (event : WebhookEvent) : Prop where
  | notification (n : Notification) (stored : w.notifications.find? n.id = some n)
      (id : event.notificationId = some n.id) (type : event.eventType = n.type)
      (data : event.data <+: n.data)
  | comment (comment : ShipmentComment) (authorAddress : String)
      (same : event = comment.event authorAddress)

def NotificationCall.quiet : NotificationCall → Bool
  | .writePreferences .. | .smsCheck _ | .smsReset .. | .smsSend .. | .smsCount .. | .dispatch _ =>
      false
  | _ => true

end Calls

section Steps

variable {w w' : NotificationWorld} {userId : String}

/-- The row of a user, when it is there, stays. -/
theorem find?_withPreference {row : NotificationPreference} (other : String)
    (h : w.preferences.find? other = some row) :
    (w.withPreference userId).preferences.find? other = some row := by
  unfold NotificationWorld.withPreference
  rw [Table.find?_upsert]
  split
  · rename_i hother
    have hkey : other = userId := hother
    subst hkey
    simp only [NotificationWorld.defaultPreference, h, Option.elim_some, id]
  · exact h

/-- Notifications stay as they are stored. -/
def KeepsNotifications (w w' : NotificationWorld) : Prop :=
  ∀ id n, w.notifications.find? id = some n → w'.notifications.find? id = some n

/-- A call that neither carries a request nor sends a text message, and dispatches what the
call before it was to dispatch or something known. -/
structure Plain (w' : NotificationWorld) (call next : NotificationCall) : Prop where
  request : next.request = none
  texts : next.texts = none
  event : ∀ event ∈ next.event, event ∈ call.event ∨ EventKnown w' event

/-- A step that writes nothing but notifications and a missing row of preferences. -/
structure QuietStep (w : NotificationWorld) (call : NotificationCall)
    (result : NotificationWorld × List NotificationCall) : Prop where
  preferences : ∀ userId row, w.preferences.find? userId = some row →
    result.1.preferences.find? userId = some row
  notifications : KeepsNotifications w result.1
  saved : result.1.saved = w.saved
  sms : result.1.sms = w.sms
  deliveries : result.1.deliveries = w.deliveries
  now : result.1.now = w.now
  requests : (result.2.filterMap NotificationCall.request).Sublist call.request.toList
  texts : ∀ next ∈ result.2, next.texts = none
  events : ∀ next ∈ result.2, ∀ event ∈ next.event, event ∈ call.event ∨ EventKnown result.1 event

variable {call : NotificationCall} {calls : List NotificationCall}

/-- No change to the data, except for notifications. -/
theorem quiet_of_eq (hpreferences : w'.preferences = w.preferences)
    (hnotifications : KeepsNotifications w w') (hsaved : w'.saved = w.saved)
    (hsms : w'.sms = w.sms) (hdeliveries : w'.deliveries = w.deliveries) (hnow : w'.now = w.now)
    (hcalls : ∀ next ∈ calls, Plain w' call next) : QuietStep w call (w', calls) where
  preferences _ _ h := hpreferences ▸ h
  notifications := hnotifications
  saved := hsaved
  sms := hsms
  deliveries := hdeliveries
  now := hnow
  requests := by
    rw [List.filterMap_eq_nil_iff.mpr fun next hnext => (hcalls next hnext).request]
    exact List.nil_sublist _
  texts next hnext := (hcalls next hnext).texts
  events next hnext := (hcalls next hnext).event

theorem quiet_respond (response : Except HttpError NotificationReply) :
    QuietStep w call (w.respond response, []) :=
  quiet_of_eq rfl (fun _ _ h => h) rfl rfl rfl rfl (List.forall_mem_nil _)

theorem quiet_refuse (status : Nat) (message : String) :
    QuietStep w call (w.refuse status message) :=
  quiet_respond _

theorem quiet_next (h : ∀ next ∈ calls, Plain w call next) : QuietStep w call (w, calls) :=
  quiet_of_eq rfl (fun _ _ h => h) rfl rfl rfl rfl h

theorem plain_notify (tasks : List NotifyTask) : Plain w' call (.notify tasks) :=
  ⟨rfl, rfl, nofun⟩

theorem quiet_notify (tasks : List NotifyTask) : QuietStep w call (w, [.notify tasks]) :=
  quiet_next (List.forall_mem_singleton.mpr (plain_notify tasks))

theorem quiet_withPreference {next : NotificationCall}
    (hrequest : next.request = none ∨ next.request = call.request) (htexts : next.texts = none)
    (hevent : next.event = none) : QuietStep w call (w.withPreference userId, [next]) where
  preferences other _ h := find?_withPreference other h
  notifications _ _ h := h
  saved := rfl
  sms := rfl
  deliveries := rfl
  now := rfl
  requests := by
    rcases hrequest with hnone | hsame
    · simp [List.filterMap, hnone]
    · cases hcall : call.request <;> simp [List.filterMap, hsame, hcall]
  texts := List.forall_mem_singleton.mpr htexts
  events := List.forall_mem_singleton.mpr (by simp [hevent])

/-- The notification that a call has stored is known. -/
theorem eventKnown_insert {notification : Notification} {n : Notifying}
    (hfree : w.notifications.find? notification.id = none)
    (hid : n.notificationId = notification.id) (htype : n.task.type = notification.type)
    (hdata : n.task.data <+: notification.data) :
    EventKnown { w with notifications := w.notifications.insert notification } n.event := by
  refine .notification notification ?_ (congrArg some hid) htype hdata
  rw [Table.find?_insert, hfree, if_pos rfl, Option.none_or]

theorem plain_afterEmail (service : NotificationsService) (n : Notifying)
    (h : n.event ∈ call.event ∨ EventKnown w' n.event) :
    Plain w' call (n.afterEmail service) := by
  unfold Notifying.afterEmail
  split <;> exact ⟨rfl, rfl, fun event hevent => by cases hevent; exact h⟩

theorem plain_afterParent (shipment : Shipment) (request : CommentRequest) :
    Plain w' call (request.afterParent shipment) := by
  unfold CommentRequest.afterParent
  split <;> exact ⟨rfl, rfl, nofun⟩

theorem plain_afterAuthor (shipment : Shipment) (request : CommentRequest) :
    Plain w' call (request.afterAuthor shipment) := by
  unfold CommentRequest.afterAuthor
  split
  · exact ⟨rfl, rfl, nofun⟩
  · exact plain_afterParent shipment request

theorem quiet_resume (service : NotificationsService) (input : NotificationInput)
    (h : call.quiet = true) : QuietStep w call (call.resume service input w) := by
  cases call with
  | updatePreferences userId dto =>
      simp only [NotificationCall.resume]
      split
      · exact quiet_respond _
      · split
        · exact quiet_refuse _ _
        · exact quiet_withPreference (.inr rfl) rfl rfl
  | unsubscribe token =>
      cases token with
      | error refusal => exact quiet_respond _
      | ok found =>
          obtain ⟨userId, type⟩ := found
          simp only [NotificationCall.resume]
          split
          · exact quiet_refuse _ _
          · split
            · exact quiet_refuse _ _
            · exact ⟨fun _ _ h => h, fun _ _ h => h, rfl, rfl, rfl, rfl, List.Sublist.refl _,
                List.forall_mem_singleton.mpr rfl, List.forall_mem_singleton.mpr (by rintro _ ⟨⟩)⟩
  | readPreferences userId request =>
      simp only [NotificationCall.resume]
      split
      · exact quiet_refuse _ _
      · exact quiet_withPreference (.inr rfl) rfl rfl
  | preferencesResponse userId =>
      simp only [NotificationCall.resume]
      split
      · exact quiet_refuse _ _
      · exact ⟨fun other _ h => find?_withPreference other h, fun _ _ h => h, rfl, rfl, rfl, rfl,
          List.nil_sublist _, List.forall_mem_nil _, List.forall_mem_nil _⟩
  | notify tasks =>
      cases tasks with
      | nil => exact quiet_next (List.forall_mem_nil _)
      | cons task rest =>
          simp only [NotificationCall.resume]
          split
          · exact quiet_notify rest
          · split
            · exact quiet_notify rest
            · exact quiet_next (List.forall_mem_singleton.mpr ⟨rfl, rfl, (by rintro _ ⟨⟩)⟩)
  | notifyPreferences task user rest =>
      simp only [NotificationCall.resume]
      split
      · exact quiet_notify rest
      · split
        · exact quiet_withPreference (.inl rfl) rfl rfl
        · split <;> exact quiet_withPreference (.inl rfl) rfl rfl
  | createNotification task user channels deliverAfter rest =>
      simp only [NotificationCall.resume]
      split
      · exact quiet_notify rest
      · rename_i hstores
        obtain ⟨-, hfree⟩ := not_or.mp hstores
        have hnew : w.notifications.find? input.id = none := by
          simpa using hfree
        refine quiet_of_eq rfl (fun id n hn => ?_) rfl rfl rfl rfl ?_
        · rw [Table.find?_insert, hn, Option.some_or]
        · split
          · refine List.forall_mem_singleton.mpr ⟨rfl, rfl, fun event hevent => ?_⟩
            cases hevent
            exact .inr (eventKnown_insert hnew rfl rfl (List.prefix_append _ _))
          · refine List.forall_mem_singleton.mpr (plain_afterEmail service _ (.inr ?_))
            exact eventKnown_insert hnew rfl rfl (List.prefix_append _ _)
  | sendEmail n =>
      simp only [NotificationCall.resume]
      split
      · exact quiet_notify n.rest
      · exact quiet_next (List.forall_mem_singleton.mpr (plain_afterEmail service n (.inl rfl)))
  | push n =>
      exact quiet_next (List.forall_mem_cons.mpr
        ⟨⟨rfl, rfl, fun event hevent => .inl hevent⟩,
          List.forall_mem_singleton.mpr (plain_notify n.rest)⟩)
  | comment request =>
      simp only [NotificationCall.resume]
      split
      · exact quiet_refuse _ _
      · split
        · exact quiet_refuse _ _
        · rename_i shipment _
          split
          · exact quiet_next (List.forall_mem_singleton.mpr (plain_afterAuthor shipment request))
          · exact quiet_next (List.forall_mem_singleton.mpr ⟨rfl, rfl, (by rintro _ ⟨⟩)⟩)
  | commentOrganizations shipment request =>
      simp only [NotificationCall.resume]
      split
      · exact quiet_refuse _ _
      · split
        · exact quiet_next (List.forall_mem_singleton.mpr (plain_afterAuthor shipment request))
        · exact quiet_refuse _ _
  | commentParent shipment request =>
      simp only [NotificationCall.resume]
      split
      · exact quiet_refuse _ _
      · split
        · exact quiet_next (List.forall_mem_singleton.mpr (plain_afterParent shipment request))
        · exact quiet_refuse _ _
  | commentMilestone shipment request =>
      simp only [NotificationCall.resume]
      split
      · exact quiet_refuse _ _
      · split
        · exact quiet_next (List.forall_mem_singleton.mpr ⟨rfl, rfl, (by rintro _ ⟨⟩)⟩)
        · exact quiet_refuse _ _
  | commentInsert shipment request =>
      simp only [NotificationCall.resume]
      split
      · exact quiet_refuse _ _
      · refine quiet_of_eq rfl (fun _ _ h => h) rfl rfl rfl rfl
          (List.forall_mem_cons.mpr ⟨⟨rfl, rfl, fun event hevent => ?_⟩,
            List.forall_mem_singleton.mpr (plain_notify _)⟩)
        cases hevent
        exact .inr (.comment _ _ rfl)
  | writePreferences _ _ _ => cases h
  | smsCheck _ => cases h
  | smsReset _ _ => cases h
  | smsSend _ _ => cases h
  | smsCount _ _ => cases h
  | dispatch _ => cases h

end Steps

end ChainSettle
