import ChainSettle.Notifications.Preferences

/-!
Who receives webhooks. An event goes to every active endpoint that has subscribed to its
type, whoever owns it: neither the notified user, nor the participants of the shipment, nor
the visibility of a comment are looked at.
-/

namespace ChainSettle

open Lib

section Receivers

/-- The shipment that an event is about. -/
def WebhookEvent.shipmentId? (event : WebhookEvent) : Option String :=
  match event.data.lookup "shipmentId" with
  | some (.str id) => some id
  | _ => none

/-- The comment that an event has an excerpt of. -/
def WebhookEvent.commentId? (event : WebhookEvent) : Option String :=
  match event.notificationId, event.data.lookup "commentId" with
  | none, some (.str id) => some id
  | _, _ => none

namespace NotificationWorld

variable (w : NotificationWorld)

/-- The user is the one that the event notifies, a participant of the shipment or an
administrator, and may read the comment that the event has an excerpt of. -/
def Concerns (event : WebhookEvent) (shipmentId : String) (user : Account) : Prop :=
  (user.role = .admin ∨
      ((event.notificationId.bind w.notifications.find?).any fun n => n.userId = user.id) = true ∨
      ((w.shipments.find? shipmentId).any fun shipment =>
        user.stellarAddress ∈ shipment.participants) = true) ∧
    ∀ commentId ∈ event.commentId?, ∀ comment ∈ w.comments.find? commentId,
      ∀ shipment ∈ w.shipments.find? shipmentId,
        comment.visibility ∈
          buildVisibilityFilter user.stellarAddress shipment (user.role = .admin)

instance (event : WebhookEvent) (shipmentId : String) (user : Account) :
    Decidable (w.Concerns event shipmentId user) :=
  inferInstanceAs (Decidable (_ ∧ _))

/-- What is about a shipment is for the endpoints of those it concerns. -/
def MayReceive (endpoint : WebhookEndpoint) (event : WebhookEvent) : Prop :=
  ∀ shipmentId ∈ event.shipmentId?,
    ∃ owner ∈ w.users.find? endpoint.userId, w.Concerns event shipmentId owner

instance (endpoint : WebhookEndpoint) (event : WebhookEvent) :
    Decidable (w.MayReceive endpoint event) :=
  inferInstanceAs (Decidable (∀ shipmentId ∈ event.shipmentId?, _))

end NotificationWorld

/-- The endpoints that have subscribed to an event belong to users it concerns. -/
def NotificationCall.Scoped (w : NotificationWorld) : NotificationCall → Prop
  | .dispatch event =>
      ∀ ep ∈ w.endpoints.rows, ep.active = true → ep.events.contains event.eventType.name = true →
        w.MayReceive ep event
  | _ => True

instance (w : NotificationWorld) (call : NotificationCall) : Decidable (call.Scoped w) := by
  unfold NotificationCall.Scoped
  split <;> infer_instance

def DispatchScoped (s : NotificationPool) : NotificationAction → Prop
  | .resume index input =>
      ∀ call ∈ s.inflight[index]?, input.thrown = false → call.Scoped s.shared
  | _ => True

instance (s : NotificationPool) : (a : NotificationAction) → Decidable (DispatchScoped s a)
  | .resume index input =>
      inferInstanceAs (Decidable
        (∀ call ∈ s.inflight[index]?, input.thrown = false → call.Scoped s.shared))
  | .begin _ | .crash _ | .external _ => inferInstanceAs (Decidable True)

variable (service : NotificationsService)

/-- What a step delivers goes to endpoints that may receive it. -/
def DeliversConfidentially (s : NotificationPool) (a : NotificationAction) : Prop :=
  ∀ new, ((notifications service).step s a).shared.deliveries = new ++ s.shared.deliveries →
    ∀ receipt ∈ new, s.shared.MayReceive receipt.endpoint receipt.event

/-- Where an event is dispatched, to the endpoints that have subscribed to it. -/
def NotificationWorld.receipts (w : NotificationWorld) (event : WebhookEvent) :
    List WebhookReceipt :=
  (w.endpoints.rows.filter fun ep => ep.active && ep.events.contains event.eventType.name).map
    fun ep => ⟨ep, event⟩

/-- Only dispatching delivers. -/
theorem deliveries_resume (input : NotificationInput) (w : NotificationWorld)
    (call : NotificationCall) :
    (∃ event, call = .dispatch event ∧ input.thrown = false ∧
      (call.resume service input w).1.deliveries = w.receipts event ++ w.deliveries) ∨
    ((call.resume service input w).1.deliveries = w.deliveries ∧
      ∀ event, call = .dispatch event → input.thrown = true) := by
  by_cases hquiet : call.quiet = true
  · have h : QuietStep w call _ := quiet_resume service input hquiet
    refine .inr ⟨h.deliveries, ?_⟩
    rintro event rfl
    cases hquiet
  · cases call with
    | dispatch event =>
        simp only [NotificationCall.resume]
        split
        · rename_i hthrown
          exact .inr ⟨rfl, fun _ _ => hthrown⟩
        · rename_i hthrown
          exact .inl ⟨event, rfl, by simpa using hthrown, rfl⟩
    | writePreferences userId current request =>
        simp only [NotificationCall.resume]
        split
        · exact .inr ⟨rfl, (by rintro _ ⟨⟩)⟩
        · cases request <;> exact .inr ⟨rfl, (by rintro _ ⟨⟩)⟩
    | smsCheck n =>
        simp only [NotificationCall.resume]
        split
        · exact .inr ⟨rfl, (by rintro _ ⟨⟩)⟩
        · split
          · exact .inr ⟨rfl, (by rintro _ ⟨⟩)⟩
          · split
            · exact .inr ⟨rfl, (by rintro _ ⟨⟩)⟩
            · split <;> exact .inr ⟨rfl, (by rintro _ ⟨⟩)⟩
    | smsReset n now =>
        simp only [NotificationCall.resume]
        split <;> exact .inr ⟨rfl, (by rintro _ ⟨⟩)⟩
    | smsSend n currentCount =>
        simp only [NotificationCall.resume]
        split <;> exact .inr ⟨rfl, (by rintro _ ⟨⟩)⟩
    | smsCount n currentCount =>
        simp only [NotificationCall.resume]
        split <;> exact .inr ⟨rfl, (by rintro _ ⟨⟩)⟩
    | _ => exact absurd rfl hquiet

/-- A step delivers confidentially exactly when no outsider has subscribed to what it
dispatches. -/
theorem deliversConfidentially_iff (s : NotificationPool) (a : NotificationAction) :
    DeliversConfidentially service s a ↔ DispatchScoped s a := by
  have hsilent (h : ((notifications service).step s a).shared.deliveries = s.shared.deliveries) :
      DeliversConfidentially service s a := by
    intro new hnew
    rw [h] at hnew
    rw [List.self_eq_append_left.mp hnew]
    exact List.forall_mem_nil _
  cases a with
  | begin call =>
      refine iff_of_true (hsilent ?_) trivial
      simp only [PoolSystem.step]
      split <;> rfl
  | crash index => exact iff_of_true (hsilent rfl) trivial
  | external event => exact iff_of_true (hsilent (by cases event <;> rfl)) trivial
  | resume index input =>
      cases hcall : s.inflight[index]? with
      | none =>
          refine iff_of_true (hsilent (by simp only [PoolSystem.step, hcall])) ?_
          intro call hmem
          rw [hcall] at hmem
          cases hmem
      | some call =>
          have hstep : ((notifications service).step s (.resume index input)).shared =
              (call.resume service input s.shared).1 := by
            simp only [PoolSystem.step, hcall, notifications]
          obtain ⟨event, rfl, hdone, hdeliveries⟩ | ⟨hsame, hthrown⟩ :=
            deliveries_resume service input s.shared call
          · constructor
            · intro h other hother _
              cases hcall.symm.trans hother
              intro ep hep hactive hsubscribed
              refine h (s.shared.receipts event) (by rw [hstep, hdeliveries]) ⟨ep, event⟩ ?_
              exact List.mem_map_of_mem (List.mem_filter.mpr
                ⟨hep, Bool.and_eq_true_iff.mpr ⟨hactive, hsubscribed⟩⟩)
            · intro h new hnew receipt hreceipt
              rw [hstep, hdeliveries] at hnew
              rw [← List.append_cancel_right hnew] at hreceipt
              obtain ⟨ep, hep, rfl⟩ := List.mem_map.mp hreceipt
              obtain ⟨hmem, hgets⟩ := List.mem_filter.mp hep
              obtain ⟨hactive, hsubscribed⟩ := Bool.and_eq_true_iff.mp hgets
              exact h _ hcall hdone ep hmem hactive hsubscribed
          · refine iff_of_true (hsilent (by rw [hstep, hsame])) ?_
            intro other hother hdone
            cases hcall.symm.trans hother
            cases call with
            | dispatch event => exact absurd (hthrown event rfl) (by simp [hdone])
            | _ => trivial

end Receivers

section Events

variable (service : NotificationsService) {w w' : NotificationWorld}

theorem EventKnown.kept {event : WebhookEvent} (h : EventKnown w event)
    (hkeeps : KeepsNotifications w w') : EventKnown w' event := by
  cases h with
  | notification n stored id type data => exact .notification n (hkeeps _ n stored) id type data
  | comment comment authorAddress same => exact .comment comment authorAddress same

/-- What the calls that a step leaves are to dispatch. -/
theorem events_resume (input : NotificationInput) (w : NotificationWorld)
    (call : NotificationCall) :
    KeepsNotifications w (call.resume service input w).1 ∧
      ∀ next ∈ (call.resume service input w).2, ∀ event ∈ next.event,
        event ∈ call.event ∨ EventKnown (call.resume service input w).1 event := by
  by_cases hquiet : call.quiet = true
  · have h : QuietStep w call _ := quiet_resume service input hquiet
    exact ⟨h.notifications, h.events⟩
  · have hkept {w' : NotificationWorld} (hsame : w'.notifications = w.notifications) :
        KeepsNotifications w w' := fun _ _ hn => hsame ▸ hn
    cases call with
    | writePreferences userId current request =>
        simp only [NotificationCall.resume]
        split
        · exact ⟨hkept rfl, List.forall_mem_nil _⟩
        · cases request with
          | update dto => exact ⟨hkept rfl, List.forall_mem_singleton.mpr (by rintro _ ⟨⟩)⟩
          | unsubscribe type => exact ⟨hkept rfl, List.forall_mem_nil _⟩
    | smsCheck n =>
        simp only [NotificationCall.resume]
        split
        · exact ⟨hkept rfl, List.forall_mem_singleton.mpr fun _ h => .inl h⟩
        · split
          · exact ⟨hkept rfl, List.forall_mem_singleton.mpr fun _ h => .inl h⟩
          · split
            · exact ⟨hkept rfl, List.forall_mem_singleton.mpr fun _ h => .inl h⟩
            · split <;> exact ⟨hkept rfl, List.forall_mem_singleton.mpr fun _ h => .inl h⟩
    | smsReset n now =>
        simp only [NotificationCall.resume]
        split <;> exact ⟨hkept rfl, List.forall_mem_singleton.mpr fun _ h => .inl h⟩
    | smsSend n currentCount =>
        simp only [NotificationCall.resume]
        split <;> exact ⟨hkept rfl, List.forall_mem_singleton.mpr fun _ h => .inl h⟩
    | smsCount n currentCount =>
        simp only [NotificationCall.resume]
        split <;> exact ⟨hkept rfl, List.forall_mem_singleton.mpr fun _ h => .inl h⟩
    | dispatch event =>
        simp only [NotificationCall.resume]
        split <;> exact ⟨hkept rfl, List.forall_mem_nil _⟩
    | _ => exact absurd rfl hquiet

/-- Everything that is delivered is known. -/
def DeliveriesKnown (w : NotificationWorld) : Prop :=
  ∀ receipt ∈ w.deliveries, EventKnown w receipt.event

structure EventsKnown (s : NotificationPool) : Prop where
  delivered : DeliveriesKnown s.shared
  pending : ∀ call ∈ s.inflight, ∀ event ∈ call.event, EventKnown s.shared event

theorem eventsKnown_step (s : NotificationPool) (a : NotificationAction) (h : EventsKnown s) :
    EventsKnown ((notifications service).step s a) := by
  have hkeeps := (notifications service).keeps_step (Q := DeliveriesKnown)
    (P := fun w call => ∀ event ∈ call.event, EventKnown w event) a h.delivered h.pending
    (fun call _ hstart => by
      have hnone : call.event = none := by
        cases call <;> first | rfl | cases hstart
      simp [hnone])
    (fun index input call _ hcall => by
      have hpending := h.pending call (List.mem_of_getElem? hcall)
      obtain ⟨hkept, hnext⟩ := events_resume service input s.shared call
      refine ⟨?_, fun next hmem event hevent => ?_, fun other hother event hevent => ?_⟩
      · obtain ⟨event, rfl, -, hdeliveries⟩ | ⟨hsame, -⟩ :=
          deliveries_resume service input s.shared call
        · intro receipt hreceipt
          rw [notifications, hdeliveries] at hreceipt
          rcases List.mem_append.mp hreceipt with hnew | hold
          · obtain ⟨ep, -, rfl⟩ := List.mem_map.mp hnew
            exact (hpending event rfl).kept hkept
          · exact (h.delivered receipt hold).kept hkept
        · intro receipt hreceipt
          rw [notifications, hsame] at hreceipt
          exact (h.delivered receipt hreceipt).kept hkept
      · exact (hnext next hmem event hevent).elim (fun hold => (hpending event hold).kept hkept) id
      · exact (h.pending other (List.mem_of_mem_eraseIdx hother) event hevent).kept hkept)
    (fun event => by
      cases event <;>
        exact ⟨fun receipt hreceipt => (h.delivered receipt hreceipt).kept fun _ _ hn => hn,
          fun other hother event hevent => (h.pending other hother event hevent).kept
            fun _ _ hn => hn⟩)
  exact ⟨hkeeps.1, hkeeps.2⟩

end Events

section Runs

variable (service : NotificationsService)

theorem deliversConfidentially_eq : DeliversConfidentially service = DispatchScoped :=
  funext₂ fun s a => propext (deliversConfidentially_iff service s a)

/-- In every run, what webhooks deliver is the event of a stored notification or of a
comment. It goes only to endpoints that may receive it exactly when, at every dispatch, the
active endpoints that have subscribed to its type belong to users whom it concerns. -/
theorem webhooks_confidential_iff_scoped (w : NotificationWorld)
    (actions : List NotificationAction) :
    (∀ pre post, actions = pre ++ post →
      DeliveriesKnown ((notifications service).run pre w.fresh).shared) ∧
    (Along (notifications service).step (DeliversConfidentially service) w.fresh actions ↔
      Along (notifications service).step DispatchScoped w.fresh actions) := by
  refine ⟨fun pre post _ => ?_, by rw [deliversConfidentially_eq]⟩
  have hfresh : EventsKnown w.fresh := ⟨List.forall_mem_nil _, List.forall_mem_nil _⟩
  have hknown : EventsKnown ((notifications service).run pre w.fresh) :=
    List.foldlRecOn pre _ hfresh fun s hs a _ => eventsKnown_step service s a hs
  exact hknown.delivered

/-- The buyer of a shipment, a stranger, and an endpoint of each. -/
def twoTenants : NotificationWorld :=
  { notificationsOf uma 20 with
    users := (Table.empty.insert (newAccount "bo" "GBUYER")).insert (newAccount "mallory" "GMALLORY")
    shipments := (Db.demo .pending).shipments
    endpoints := (Table.empty.insert
      ⟨"ep-1", "bo", "https://bo.test", "s-1", ["SHIPMENT_COMMENT_CREATED"], none, true⟩).insert
      ⟨"ep-2", "mallory", "https://mallory.test", "s-2", ["SHIPMENT_COMMENT_CREATED"], none, true⟩ }

/-- The buyer writes to the supplier. -/
def writtenToSupplier : List NotificationAction :=
  [.begin (.comment ⟨"SHIP-1", "bo", "GBUYER", "The price.", some .buyerSupplier, none, none⟩),
    .resume 0 calmInput, .resume 0 ⟨false, "c-1", .sent⟩, .resume 0 calmInput]

theorem stranger_receives_excerpt :
    ¬ Along (notifications plainNotifications).step (DeliversConfidentially plainNotifications)
        twoTenants.fresh writtenToSupplier ∧
      ((notifications plainNotifications).run writtenToSupplier
        twoTenants.fresh).shared.deliveries.map
          (fun receipt => (receipt.endpoint.userId, receipt.event.commentId?)) =
        [("bo", some "c-1"), ("mallory", some "c-1")] := by
  rw [deliversConfidentially_eq]
  decide

end Runs

end ChainSettle
