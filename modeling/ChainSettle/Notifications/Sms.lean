import ChainSettle.Lib.Window
import ChainSettle.Notifications.Preferences

/-!
The limit on text messages. The row of a user counts what was sent since its window
began. A new window begins with the first check after 24 hours, whatever was sent just
before, and the counter is read before a message is sent and written after it.
-/

namespace ChainSettle

open Lib

section Messages

variable {w w' : NotificationWorld} {userId : String}

/-- When messages were sent to a user, the newest first. -/
def NotificationWorld.texted (w : NotificationWorld) (userId : String) : List Nat :=
  (w.sms.filter fun message => message.userId = userId).map SmsMessage.sentAt

/-- The messages to a user in the last 24 hours. -/
def NotificationWorld.recentTexts (w : NotificationWorld) (userId : String) : Nat :=
  (recent smsWindow w.now (w.texted userId)).length

/-- The messages to a user that a call is about to send. -/
def NotificationCall.textsTo (userId : String) (call : NotificationCall) : Nat :=
  if call.texts = some userId then 1 else 0

/-- What a check finds in the counter, which starts anew once the window is over. -/
def NotificationPreference.counted (pref : NotificationPreference) (now : Nat) : Nat :=
  if pref.smsWindowStart + smsWindow < now then 0 else pref.smsSentCount

/-- What a step does to the messages: it sends none, with a call that was about to send one
or none left, or a check passes, or the message of a call is sent. -/
theorem texts_cases (service : NotificationsService) (input : NotificationInput)
    (w : NotificationWorld) (call : NotificationCall) :
    (call.resume service input w).1.now = w.now ∧
    (((call.resume service input w).1.sms = w.sms ∧
        ∀ userId, ((call.resume service input w).2.map (NotificationCall.textsTo userId)).sum ≤
          call.textsTo userId) ∨
      (∃ n pref, call = .smsCheck n ∧ w.preferences.find? n.user.id = some pref ∧
        pref.counted w.now < SMS_RATE_LIMIT ∧ (call.resume service input w).1.sms = w.sms ∧
        ∀ userId, ((call.resume service input w).2.map (NotificationCall.textsTo userId)).sum =
          if n.user.id = userId then 1 else 0) ∨
      (∃ n currentCount message, call = .smsSend n currentCount ∧ message.userId = n.user.id ∧
        message.sentAt = w.now ∧ (call.resume service input w).1.sms = message :: w.sms ∧
        ∀ userId,
          ((call.resume service input w).2.map (NotificationCall.textsTo userId)).sum = 0)) := by
  by_cases hquiet : call.quiet = true
  · have h : QuietStep w call _ := quiet_resume service input hquiet
    refine ⟨h.now, .inl ⟨h.sms, fun userId => ?_⟩⟩
    have hnone : ∀ x ∈ (call.resume service input w).2.map (NotificationCall.textsTo userId),
        x = 0 := by
      intro x hx
      obtain ⟨next, hnext, rfl⟩ := List.mem_map.mp hx
      simp [NotificationCall.textsTo, h.texts next hnext]
    rw [List.sum_eq_zero_iff_forall_eq_nat.mpr hnone]
    exact Nat.zero_le _
  · cases call with
    | writePreferences userId current request =>
        simp only [NotificationCall.resume]
        split
        · exact ⟨rfl, .inl ⟨rfl, fun _ => Nat.le_refl _⟩⟩
        · cases request <;> exact ⟨rfl, .inl ⟨rfl, fun _ => Nat.le_refl _⟩⟩
    | smsCheck n =>
        simp only [NotificationCall.resume]
        split
        · exact ⟨rfl, .inl ⟨rfl, fun _ => Nat.le_refl _⟩⟩
        · rename_i pref hpref
          split
          · exact ⟨rfl, .inl ⟨rfl, fun _ => Nat.le_refl _⟩⟩
          · split
            · rename_i hover
              refine ⟨rfl, .inr (.inl ⟨n, pref, rfl, hpref, ?_, rfl, fun userId => ?_⟩)⟩
              · rw [NotificationPreference.counted, if_pos hover]
                decide
              · simp [NotificationCall.textsTo, NotificationCall.texts]
            · rename_i hopen
              split
              · exact ⟨rfl, .inl ⟨rfl, fun _ => Nat.le_refl _⟩⟩
              · rename_i hbelow
                refine ⟨rfl, .inr (.inl ⟨n, pref, rfl, hpref, ?_, rfl, fun userId => ?_⟩)⟩
                · rw [NotificationPreference.counted, if_neg hopen]
                  exact Nat.lt_of_not_le hbelow
                · simp [NotificationCall.textsTo, NotificationCall.texts]
    | smsReset n now =>
        simp only [NotificationCall.resume]
        split
        · exact ⟨rfl, .inl ⟨rfl, fun _ => Nat.zero_le _⟩⟩
        · exact ⟨rfl, .inl ⟨rfl, fun _ => Nat.le_refl _⟩⟩
    | smsSend n currentCount =>
        simp only [NotificationCall.resume]
        split
        · exact ⟨rfl, .inr (.inr ⟨n, currentCount, _, rfl, rfl, rfl, rfl, fun _ => rfl⟩)⟩
        · exact ⟨rfl, .inl ⟨rfl, fun _ => Nat.zero_le _⟩⟩
        · exact ⟨rfl, .inr (.inr ⟨n, currentCount, _, rfl, rfl, rfl, rfl, fun _ => rfl⟩)⟩
    | smsCount n currentCount =>
        simp only [NotificationCall.resume]
        split <;> exact ⟨rfl, .inl ⟨rfl, fun _ => Nat.le_refl _⟩⟩
    | dispatch event =>
        simp only [NotificationCall.resume]
        split <;> exact ⟨rfl, .inl ⟨rfl, fun _ => Nat.le_refl _⟩⟩
    | _ => exact absurd rfl hquiet

theorem texted_cons {message : SmsMessage} (h : w'.sms = message :: w.sms) :
    w'.texted userId =
      if message.userId = userId then message.sentAt :: w.texted userId else w.texted userId := by
  unfold NotificationWorld.texted
  rw [h]
  by_cases huser : message.userId = userId <;> simp [huser]

theorem recentTexts_of_eq (hnow : w'.now = w.now) (hsms : w'.sms = w.sms) :
    w'.recentTexts userId = w.recentTexts userId := by
  simp only [NotificationWorld.recentTexts, NotificationWorld.texted, hnow, hsms]

end Messages

section Runs

variable (service : NotificationsService)

/-- No user is sent more than the limit in any 24 hours. -/
def TextsWithinLimit (w : NotificationWorld) : Prop :=
  ∀ userId, WithinRate SMS_RATE_LIMIT smsWindow (w.texted userId)

/-- Where as many messages as the limit allows went out in the last 24 hours or are on
their way, the counter that the check reads says so. -/
def NotificationCall.CountsTexts (w : NotificationWorld) (others : List NotificationCall) :
    NotificationCall → Prop
  | .smsCheck n =>
      ∀ pref ∈ w.preferences.find? n.user.id,
        SMS_RATE_LIMIT ≤ w.recentTexts n.user.id +
            (others.map (NotificationCall.textsTo n.user.id)).sum →
          SMS_RATE_LIMIT ≤ pref.counted w.now
  | _ => True

def TextsCounted (s : NotificationPool) : NotificationAction → Prop
  | .resume index _ =>
      ∀ call ∈ s.inflight[index]?, call.CountsTexts s.shared (s.inflight.eraseIdx index)
  | _ => True

instance (w : NotificationWorld) (others : List NotificationCall) (call : NotificationCall) :
    Decidable (call.CountsTexts w others) := by
  unfold NotificationCall.CountsTexts
  split <;> infer_instance

instance (s : NotificationPool) : (a : NotificationAction) → Decidable (TextsCounted s a)
  | .resume index _ =>
      inferInstanceAs (Decidable
        (∀ call ∈ s.inflight[index]?, call.CountsTexts s.shared (s.inflight.eraseIdx index)))
  | .begin _ | .crash _ | .external _ => inferInstanceAs (Decidable True)

/-- The recent messages and those on their way are within the limit. -/
structure TextsLimited (s : NotificationPool) : Prop where
  within : TextsWithinLimit s.shared
  budget : ∀ userId, s.shared.recentTexts userId +
    (s.inflight.map (NotificationCall.textsTo userId)).sum ≤ SMS_RATE_LIMIT

variable {service} in
theorem within_resume {w : NotificationWorld} (h : TextsWithinLimit w) (input : NotificationInput)
    {call : NotificationCall}
    (hbudget : ∀ userId, w.recentTexts userId + call.textsTo userId ≤ SMS_RATE_LIMIT) :
    TextsWithinLimit (call.resume service input w).1 := by
  intro userId
  obtain ⟨-, ⟨hsms, -⟩ | ⟨n, pref, -, -, -, hsms, -⟩ |
    ⟨n, currentCount, message, rfl, huser, hsent, hsms, -⟩⟩ := texts_cases service input w call
  · unfold NotificationWorld.texted
    rw [hsms]
    exact h userId
  · unfold NotificationWorld.texted
    rw [hsms]
    exact h userId
  · rw [texted_cons hsms]
    split
    · rename_i hself
      rw [hsent]
      refine (h userId).cons ?_
      have hroom := hbudget userId
      rw [NotificationCall.textsTo, if_pos (by rw [← hself, huser]; rfl)] at hroom
      exact hroom
    · exact h userId

/-- The step of a call pays for its message out of what its check has reserved. -/
theorem budget_resume {w : NotificationWorld} (input : NotificationInput) {call : NotificationCall}
    {others : List NotificationCall} (hcounted : call.CountsTexts w others) (userId : String)
    (hbefore : w.recentTexts userId + (call.textsTo userId +
      (others.map (NotificationCall.textsTo userId)).sum) ≤ SMS_RATE_LIMIT) :
    (call.resume service input w).1.recentTexts userId +
        (((call.resume service input w).2.map (NotificationCall.textsTo userId)).sum +
          (others.map (NotificationCall.textsTo userId)).sum) ≤ SMS_RATE_LIMIT := by
  obtain ⟨hnow, ⟨hsms, hnext⟩ | ⟨n, pref, rfl, hpref, hbelow, hsms, hnext⟩ |
    ⟨n, currentCount, message, rfl, huser, hsent, hsms, hnext⟩⟩ := texts_cases service input w call
  · rw [recentTexts_of_eq hnow hsms]
    have hleft := hnext userId
    omega
  · rw [recentTexts_of_eq hnow hsms, hnext]
    by_cases hself : n.user.id = userId
    · subst hself
      have hroom : ¬ SMS_RATE_LIMIT ≤ w.recentTexts n.user.id +
          (others.map (NotificationCall.textsTo n.user.id)).sum :=
        fun hfull => Nat.not_lt.mpr (hcounted pref hpref hfull) hbelow
      rw [if_pos rfl]
      omega
    · rw [if_neg hself]
      omega
  · have hshare : NotificationCall.textsTo userId (.smsSend n currentCount) =
        if n.user.id = userId then 1 else 0 := by
      simp [NotificationCall.textsTo, NotificationCall.texts]
    rw [hnext, NotificationWorld.recentTexts, hnow, texted_cons hsms, hsent, huser]
    rw [hshare] at hbefore
    split
    · rename_i hself
      rw [if_pos hself] at hbefore
      rw [recent_cons, List.length_cons]
      unfold NotificationWorld.recentTexts at hbefore
      omega
    · rename_i hother
      rw [if_neg hother] at hbefore
      unfold NotificationWorld.recentTexts at hbefore
      omega

theorem textsLimited_step (s : NotificationPool) (a : NotificationAction) (h : TextsLimited s)
    (hcounted : TextsCounted s a) : TextsLimited ((notifications service).step s a) := by
  constructor
  · refine (notifications service).shared_step a h.within (fun input call hcall => ?_) ?_
    · refine within_resume h.within input fun userId => ?_
      obtain ⟨pre, post, hsplit⟩ := List.append_of_mem hcall
      have hbudget := h.budget userId
      rw [hsplit] at hbudget
      simp only [List.map_append, List.map_cons, List.sum_append, List.sum_cons] at hbudget
      omega
    · intro event
      cases event <;> exact h.within
  · intro userId
    refine (notifications service).budget_step (fun w => w.recentTexts userId)
      (fun _ => SMS_RATE_LIMIT) (NotificationCall.textsTo userId) a (h.budget userId) ?_ ?_ ?_
    · intro call hstart
      cases call <;> first | rfl | cases hstart
    · intro index input call others haction hcall hothers hbefore
      subst haction hothers
      exact budget_resume service input (hcounted call hcall) userId hbefore
    · intro event
      refine ⟨?_, Nat.le_refl _⟩
      cases event with
      | tick ms => exact length_recent_le (Nat.le_add_right _ _)
      | edit other => exact Nat.le_refl _

/-- Along every run in which a check finds in its counter that the limit is reached, whenever
it is with the messages of the last 24 hours and those on their way, no user is sent more
than ten messages within any 24 hours. -/
theorem texts_within_limit_while_counted (w : NotificationWorld)
    (actions : List NotificationAction)
    (h : Along (notifications service).step TextsCounted w.fresh actions) :
    ∀ pre post, actions = pre ++ post →
      TextsWithinLimit ((notifications service).run pre w.fresh).shared := by
  intro pre post hsplit
  have hfresh : TextsLimited w.fresh := ⟨fun _ => withinRate_nil, fun _ => Nat.zero_le _⟩
  have hstep (s : NotificationPool) (a : NotificationAction) (hs : TextsLimited s)
      (ha : TextsCounted s a) : TextsLimited ((notifications service).step s a) :=
    textsLimited_step service s a hs ha
  exact (h.invariant hstep hfresh pre post hsplit).within

/-- A user who wants text messages, with a counter that begins at zero. -/
def textedWorld : NotificationWorld :=
  { notificationsOf uma 0 with
    preferences := Table.empty.insert
      { (notificationsOf uma 0).defaultPreference "uma" with
        preferences := { buildDefaultPreferences with
          types := buildDefaultPreferences.types.set .disputeRaised
            ⟨some true, some false, some false, some true, some false, some false⟩ } } }

def raised : NotifyTask := ⟨"GUMA", .disputeRaised, "Dispute raised", "A dispute.", [], false⟩

/-- The steps of one call, with or without the start of a new window. -/
def textOnce (steps : Nat) (id : String) : List NotificationAction :=
  .begin (.notify [raised]) :: List.replicate steps (.resume 0 ⟨false, id, .sent⟩)

/-- Ten messages, and an eleventh that is refused. -/
def elevenAtOnce : List NotificationAction :=
  ["n1", "n2", "n3", "n4", "n5", "n6", "n7", "n8", "n9", "n10"].flatMap (textOnce 9) ++
    textOnce 7 "n11"

theorem eleventh_refused :
    TextsWithinLimit ((notifications plainNotifications).run elevenAtOnce textedWorld.fresh).shared ∧
      (((notifications plainNotifications).run elevenAtOnce
        textedWorld.fresh).shared.texted "uma").length = 10 :=
  ⟨texts_within_limit_while_counted plainNotifications textedWorld elevenAtOnce (by decide +kernel)
    elevenAtOnce [] rfl, by decide +kernel⟩

/-- One message at the end of a window, and ten at the start of the next one. -/
def overTheEdge : List NotificationAction :=
  .external (.tick smsWindow) :: textOnce 9 "n0" ++ .external (.tick 1) :: textOnce 10 "n1" ++
    ["n2", "n3", "n4", "n5", "n6", "n7", "n8", "n9", "n10"].flatMap (textOnce 9)

theorem eleven_over_the_edge :
    ¬ TextsWithinLimit
        ((notifications plainNotifications).run overTheEdge textedWorld.fresh).shared ∧
      ((notifications plainNotifications).run overTheEdge textedWorld.fresh).shared.texted "uma" =
        List.replicate 10 (smsWindow + 1) ++ [smsWindow] := by
  have htimes : ((notifications plainNotifications).run overTheEdge
      textedWorld.fresh).shared.texted "uma" = List.replicate 10 (smsWindow + 1) ++ [smsWindow] := by
    decide +kernel
  refine ⟨fun h => ?_, htimes⟩
  have hrate := h "uma" smsWindow
  rw [htimes] at hrate
  exact absurd hrate (by decide)

end Runs

end ChainSettle
