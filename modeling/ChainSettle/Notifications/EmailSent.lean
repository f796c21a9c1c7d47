import ChainSettle.Semantics.QuietHours

/-!
The email of a notification, and the flag `emailSent` of its row. `sendEmail` looks the address up
on the suppression list and hands the mail to the transporter; it catches what goes wrong and returns
whether the mail was accepted. Any number of calls of `notifyUser` and `notifyUserWithForcedEmail`
are under way, each of them suspended before its next statement. What a call does after its email is
left out.

What `emailSent` tells. `sendEmail` does not throw when it sends nothing, and the flag is set
whatever it returns. So it is true of the notifications whose mail the transporter has accepted as
long as no mail is suppressed and none is rejected.
-/

namespace ChainSettle

open Lib

section Rows

structure NotificationRow extends NotificationData where
  id : String
  emailSent : Bool

structure MailWorld where
  users : Table Account.id
  preferences : Table NotificationPreference.userId
  notifications : Table NotificationRow.id
  /-- the addresses on the suppression list -/
  suppressions : List String
  now : Nat
  /-- the notifications for which the transporter has accepted a mail -/
  accepted : List String

structure MailService where
  offsetAt : String → Int → Int
  text : CaseMapping

/-- A notification that is stored, with the address of its user. -/
structure Mailing where
  id : String
  address : String
deriving DecidableEq

end Rows

section Calls

inductive MailCall where
  | notify (task : NotifyTask)
  | getPreferences (task : NotifyTask) (user : Account)
  | createNotification (task : NotifyTask) (user : Account) (channels : ChannelPrefs)
      (deliverAfter : Option Int)
  | isEmailSuppressed (mailing : Mailing)
  | sendMail (mailing : Mailing)
  /-- with the result of `sendEmail` -/
  | markEmailSent (mailing : Mailing) (result : Bool)

/-- Whether the statement throws, the id that the database generates, and whether the transporter
accepts. -/
structure MailInput where
  thrown : Bool
  id : String
  accepts : Bool
deriving DecidableEq

/-- What other requests write, and the time. -/
structure MailEdit where
  users : Table Account.id
  preferences : Table NotificationPreference.userId
  suppressions : List String
  now : Nat

variable (service : MailService)

/-- The lookup on the suppression list. -/
def MailService.isSuppressed (suppressions : List String) (email : String) : Bool :=
  service.text.toLowerCase (String.ofList (jsTrim email.toList)) ∈ suppressions

def MailWorld.preferenceOf (w : MailWorld) (userId : String) : StoredPreferences :=
  ((w.preferences.find? userId).map NotificationPreference.preferences).getD
    buildDefaultPreferences

def MailWorld.deliverAfter (w : MailWorld) (task : NotifyTask) (prefs : StoredPreferences) :
    Option Int :=
  if task.urgent then none else getQuietHoursEnd service.offsetAt w.now prefs.quietHours

def MailCall.resume (input : MailInput) (w : MailWorld) : MailCall → MailWorld × List MailCall
  | .notify task =>
      match w.users.rows.find? fun user => user.stellarAddress = task.stellarAddress with
      | none => (w, [])
      | some user => (w, if input.thrown then [] else [.getPreferences task user])
  | .getPreferences task user =>
      let prefs := w.preferenceOf user.id
      match task.channels prefs with
      | none => (w, [])
      | some channels =>
          (w, if input.thrown ∨ ¬ channels.inApp then []
            else [.createNotification task user channels (w.deliverAfter service task prefs)])
  | .createNotification task user channels deliverAfter =>
      if input.thrown ∨ (w.notifications.find? input.id).isSome then (w, [])
      else
        let forceEmail :=
          if task.forced ∧ deliverAfter.isSome then [("forceEmail", Json.bool true)] else []
        let row : NotificationRow :=
          { userId := user.id
            type := task.type
            title := task.title
            message := task.message
            data := Fields.assign task.data forceEmail
            deliverAfter := deliverAfter
            id := input.id
            emailSent := false }
        ({ w with notifications := w.notifications.insert row },
          match truthyText user.email with
          | some email =>
              if deliverAfter.isNone ∧ channels.email then [.isEmailSuppressed ⟨input.id, email⟩]
              else []
          | none => [])
  | .isEmailSuppressed mailing =>
      -- a failure of the lookup counts as a hit
      if input.thrown ∨ service.isSuppressed w.suppressions mailing.address then
        (w, [.markEmailSent mailing false])
      else (w, [.sendMail mailing])
  | .sendMail mailing =>
      if input.accepts then
        ({ w with accepted := mailing.id :: w.accepted }, [.markEmailSent mailing true])
      else (w, [.markEmailSent mailing false])
  | .markEmailSent mailing _ =>
      if input.thrown then (w, [])
      else
        ({ w with
          notifications := w.notifications.modify mailing.id
            (fun row => { row with emailSent := true }) fun _ => rfl }, [])

def mails : PoolSystem MailWorld MailCall MailInput MailEdit where
  starts call := match call with
    | .notify _ => true
    | _ => false
  resume input w call := call.resume service input w
  external edit w :=
    { w with
      users := edit.users
      preferences := edit.preferences
      suppressions := edit.suppressions
      now := edit.now }

abbrev MailPool := Pool MailWorld MailCall

abbrev MailAction := PoolAction MailCall MailInput MailEdit

/-- Before the first notification. -/
def freshMails (edit : MailEdit) : MailPool where
  shared := {
    users := edit.users
    preferences := edit.preferences
    notifications := Table.empty
    suppressions := edit.suppressions
    now := edit.now
    accepted := [] }
  inflight := []

end Calls

/-- A notification with the flag has had its mail accepted. -/
def Truthful (w : MailWorld) : Prop :=
  ∀ row ∈ w.notifications.rows, row.emailSent = true → row.id ∈ w.accepted

/-- A call that is about to set the flag has had its mail accepted. -/
def MailAccepted (w : MailWorld) : MailCall → Prop
  | .markEmailSent mailing _ => mailing.id ∈ w.accepted
  | _ => True

/-- `sendEmail` does not stop at this statement: the lookup finds nothing, and the transporter
accepts. -/
def MailCall.goesThrough (service : MailService) (input : MailInput) (w : MailWorld) :
    MailCall → Bool
  | .isEmailSuppressed mailing =>
      !input.thrown && !service.isSuppressed w.suppressions mailing.address
  | .sendMail _ => input.accepts
  | _ => true

def SendsMail (service : MailService) (s : MailPool) : MailAction → Bool
  | .resume index input =>
      s.inflight[index]?.all fun call => call.goesThrough service input s.shared
  | _ => true

variable {service : MailService} {w w' : MailWorld}

theorem MailAccepted.mono {call : MailCall} (h : MailAccepted w call)
    (haccepted : ∀ id ∈ w.accepted, id ∈ w'.accepted) : MailAccepted w' call := by
  cases call with
  | markEmailSent mailing result => exact haccepted _ h
  | _ => trivial

/-- No mail is taken back. -/
theorem accepted_resume (service : MailService) (input : MailInput) (w : MailWorld)
    (call : MailCall) : ∀ id ∈ w.accepted, id ∈ (call.resume service input w).1.accepted := by
  intro id hid
  cases call with
  | sendMail mailing =>
      simp only [MailCall.resume]
      split
      · exact List.mem_cons_of_mem _ hid
      · exact hid
  | _ =>
      simp only [MailCall.resume]
      repeat' split
      all_goals exact hid

theorem Truthful.insert (h : Truthful w) {row : NotificationRow} (hrow : row.emailSent = false) :
    Truthful { w with notifications := w.notifications.insert row } := by
  intro other hmem hsent
  rcases Table.mem_insert hmem with hold | rfl
  · exact h other hold hsent
  · rw [hrow] at hsent
    cases hsent

theorem Truthful.mark (h : Truthful w) {id : String} (hid : id ∈ w.accepted) :
    Truthful { w with
      notifications := w.notifications.modify id
        (fun row => { row with emailSent := true }) fun _ => rfl } := by
  intro row hmem hsent
  obtain ⟨old, hold, rfl⟩ := List.mem_map.mp hmem
  by_cases hkey : old.id = id
  · simp only [if_pos hkey]
    exact hkey ▸ hid
  · simp only [if_neg hkey] at hsent ⊢
    exact h old hold hsent

/-- What one step of a call leaves behind. -/
theorem truthful_resume {s : MailPool} {index : Nat} {input : MailInput} {call : MailCall}
    (hcall : s.inflight[index]? = some call) (h : Truthful s.shared)
    (haccepted : MailAccepted s.shared call) (hsends : SendsMail service s (.resume index input)) :
    Truthful (call.resume service input s.shared).1 ∧
      ∀ next ∈ (call.resume service input s.shared).2,
        MailAccepted (call.resume service input s.shared).1 next := by
  simp only [SendsMail, hcall, Option.all_some] at hsends
  cases call with
  | notify task =>
      simp only [MailCall.resume]
      repeat' split
      all_goals simp [h, MailAccepted]
  | getPreferences task user =>
      simp only [MailCall.resume]
      repeat' split
      all_goals simp [h, MailAccepted]
  | createNotification task user channels deliverAfter =>
      simp only [MailCall.resume]
      split
      · exact ⟨h, List.forall_mem_nil _⟩
      · refine ⟨h.insert rfl, ?_⟩
        repeat' split
        all_goals simp [MailAccepted]
  | isEmailSuppressed mailing =>
      have hneither : ¬ (input.thrown ∨
          service.isSuppressed s.shared.suppressions mailing.address) := by
        simpa [MailCall.goesThrough] using hsends
      simp only [MailCall.resume]
      rw [if_neg hneither]
      exact ⟨h, List.forall_mem_singleton.mpr trivial⟩
  | sendMail mailing =>
      have haccepts : input.accepts = true := hsends
      simp only [MailCall.resume]
      rw [if_pos haccepts]
      refine ⟨fun row hmem hsent => List.mem_cons_of_mem _ (h row hmem hsent), ?_⟩
      exact List.forall_mem_singleton.mpr (List.mem_cons_self ..)
  | markEmailSent mailing result =>
      simp only [MailCall.resume]
      split
      · exact ⟨h, List.forall_mem_nil _⟩
      · exact ⟨h.mark haccepted, List.forall_mem_nil _⟩

structure MailsSound (s : MailPool) : Prop where
  truthful : Truthful s.shared
  accepted : ∀ call ∈ s.inflight, MailAccepted s.shared call

theorem MailsSound.step {s : MailPool} (h : MailsSound s) (a : MailAction)
    (hsends : SendsMail service s a) : MailsSound ((mails service).step s a) := by
  have hboth : Truthful ((mails service).step s a).shared ∧
      ∀ call ∈ ((mails service).step s a).inflight,
        MailAccepted ((mails service).step s a).shared call := by
    refine (mails service).keeps_step a h.truthful h.accepted ?_ ?_ ?_
    · intro call _ hstarts
      cases call with
      | notify task => trivial
      | _ => cases hstarts
    · rintro index input call rfl hcall
      obtain ⟨hnext, hcalls⟩ := truthful_resume hcall h.truthful
        (h.accepted call (List.mem_of_getElem? hcall)) hsends
      refine ⟨hnext, hcalls, fun other hother => ?_⟩
      exact (h.accepted other (List.mem_of_mem_eraseIdx hother)).mono
        (accepted_resume service input s.shared call)
    · intro edit
      exact ⟨h.truthful, fun other hother => (h.accepted other hother).mono fun _ hid => hid⟩
  exact ⟨hboth.1, hboth.2⟩

/-- As long as every mail is sent, the flag is true in every state of a run. -/
theorem email_sent_truthful (service : MailService) (edit : MailEdit) (actions : List MailAction)
    (h : Along (mails service).step (fun s a => SendsMail service s a) (freshMails edit) actions) :
    ∀ pre post, actions = pre ++ post →
      Truthful (pre.foldl (mails service).step (freshMails edit)).shared := by
  have hfresh : MailsSound (freshMails edit) :=
    ⟨fun _ hmem => absurd hmem List.not_mem_nil, fun _ hmem => absurd hmem List.not_mem_nil⟩
  intro pre post hsplit
  exact (h.invariant (fun s a hs hsends => hs.step a hsends) hfresh pre post hsplit).truthful

section Demo

def demoMails (suppressions : List String) : MailEdit where
  users := Table.empty.insert
    { newAccount "u1" "GBUYER" with email := some "Buyer@chainsettle.test" }
  preferences := Table.empty
  suppressions := suppressions
  now := 0

def demoMailService : MailService := ⟨fun _ _ => 0, .ascii⟩

/-- A notification from its call to its flag; the transporter accepts. -/
def demoMailActions : List MailAction :=
  .begin (.notify
    { stellarAddress := "GBUYER"
      type := .paymentReleased
      title := "Payment released"
      message := "A payment was released."
      data := []
      forced := false }) ::
    List.replicate 6 (.resume 0 ⟨false, "n1", true⟩)

theorem email_flag_of_sent_mail :
    let s := demoMailActions.foldl (mails demoMailService).step (freshMails (demoMails []))
    (s.shared.notifications.rows.map fun row => (row.id, row.emailSent)) = [("n1", true)] ∧
      Truthful s.shared :=
  ⟨by decide, email_sent_truthful demoMailService (demoMails []) demoMailActions (by decide)
    demoMailActions [] (List.append_nil _).symm⟩

/-- The address is on the suppression list. -/
theorem email_flag_of_suppressed_mail :
    let s := demoMailActions.foldl (mails demoMailService).step
      (freshMails (demoMails ["buyer@chainsettle.test"]))
    (s.shared.notifications.rows.map fun row => (row.id, row.emailSent)) = [("n1", true)] ∧
      s.shared.accepted = [] ∧ ¬ Truthful s.shared := by
  intro s
  have hrows : (s.shared.notifications.rows.map fun row => (row.id, row.emailSent)) =
      [("n1", true)] := by decide
  have haccepted : s.shared.accepted = [] := by decide
  refine ⟨hrows, haccepted, fun h => ?_⟩
  obtain ⟨row, hmem, hrow⟩ := List.mem_map.mp (hrows ▸ List.mem_cons_self .. :
    ("n1", true) ∈ s.shared.notifications.rows.map fun row => (row.id, row.emailSent))
  have hid := h row hmem (Prod.mk.inj hrow).2
  rw [haccepted] at hid
  exact absurd hid List.not_mem_nil

end Demo

end ChainSettle
