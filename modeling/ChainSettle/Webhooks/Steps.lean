import ChainSettle.Semantics.Webhooks

/-!
What one step of a call can do to the deliveries. `WebhookResumed` lists the
ways an attempt begins, goes on and ends; everything else the service does leaves
the deliveries alone.
-/

namespace ChainSettle

open Lib

/-- The delivery an attempt is for. An automatic retry counts from the moment the
queue has selected its row, a manual one from its read of the row. -/
def WebhookCall.attempting : WebhookCall → Option String
  | .statement (.executeRetry _ delivery _ _) => some delivery.id
  | .statement (.skip a) | .statement (.handleFailure a _) | .post a | .answer a =>
      some a.deliveryId
  | _ => none

/-- The row of a first attempt. -/
def newDelivery (id : String) (ep : WebhookEndpoint) (eventType : String) (payload : Json)
    (now : Nat) : WebhookDelivery :=
  { id, endpointId := ep.id, eventType, payload, statusCode := none, responseBody := none,
    deliveredAt := none, nextRetryAt := none, attemptCount := 1, permanentlyFailedAt := none,
    createdAt := now }

/-- The first update of an automatic retry. -/
def claimData (delivery : WebhookDelivery) : DeliveryData :=
  { attemptCount := some (delivery.attemptCount + 1), nextRetryAt := some none }

/-- Everything a resumed call can do to the deliveries and the requests for them. -/
inductive WebhookResumed (input : WebhookInput) (w : WebhookWorld) :
    WebhookCall → WebhookWorld → List WebhookCall → Prop where
  | thrown {next : WebhookStatement} :
      input.thrown.isSome → WebhookResumed input w (.statement next) w []
  /-- no attempt: endpoints, responses and test pings -/
  | aside {call : WebhookCall} {w' : WebhookWorld} {calls : List WebhookCall}
      {pings : List WebhookPost} :
      call.attempting = none → w'.deliveries = w.deliveries → w'.now = w.now →
      w'.posts = pings ++ w.posts → (∀ post ∈ pings, post.attempt = none) →
      (∀ next ∈ calls, next.attempting = none) → WebhookResumed input w call w' calls
  | created {ep : WebhookEndpoint} {eventType : String} {payload : Json} {check : PayloadCheck}
      {request : WebhookRequest} :
      input.thrown = none → w.deliveries.find? input.id = none →
      WebhookResumed input w (.statement (.deliverOnce ep eventType payload check request))
        { w with
          deliveries := w.deliveries.insert (newDelivery input.id ep eventType payload w.now) }
        [DeliveryAttempt.proceed ⟨.first, input.id, 1, check, ep, request⟩]
  | read {endpoint : WebhookEndpoint} {delivery : WebhookDelivery} {check : PayloadCheck}
      {request : WebhookRequest} :
      input.thrown = none → w.deliveries.find? delivery.id = some delivery →
      check = input.service.preparePayloadForDelivery delivery.eventType delivery.payload w.now →
      WebhookResumed input w (.statement (.retryRow endpoint delivery.id)) w
        [DeliveryAttempt.proceed
          ⟨.manual, delivery.id, delivery.attemptCount, check, endpoint, request⟩]
  | selected {calls : List WebhookCall} :
      input.thrown = none →
      (∀ next ∈ calls, ∃ ep delivery check request,
        next = .statement (.executeRetry ep delivery check request) ∧
        w.deliveries.find? delivery.id = some delivery ∧ delivery.due w.now) →
      WebhookResumed input w (.statement .processRetryQueue) w calls
  | claimed {ep : WebhookEndpoint} {delivery : WebhookDelivery} {check : PayloadCheck}
      {request : WebhookRequest} :
      input.thrown = none →
      WebhookResumed input w (.statement (.executeRetry ep delivery check request))
        (w.updateDelivery delivery.id (claimData delivery))
        [DeliveryAttempt.proceed ⟨.automatic delivery.nextRetryAt, delivery.id,
          delivery.attemptCount + 1, check, ep, request⟩]
  | skipped {a : DeliveryAttempt} {w' : WebhookWorld} :
      input.thrown = none → (w', []) = a.finish w (a.sizeData input.service w.now) →
      WebhookResumed input w (.statement (.skip a)) w' []
  | posted {a : DeliveryAttempt} :
      WebhookResumed input w (.post a)
        (w.send (some (a.path, a.deliveryId)) a.endpoint a.request) [.answer a]
  /-- of a manual retry, which writes the failure -/
  | rejected {a : DeliveryAttempt} {err : DeliveryError} :
      a.path = .manual → WebhookResumed input w (.answer a) w [.statement (.handleFailure a err)]
  /-- of the others, which write nothing -/
  | abandoned {a : DeliveryAttempt} :
      a.path ≠ .manual → (∀ res, axiosPost input.receiver = .ok res → input.thrown ≠ none) →
      WebhookResumed input w (.answer a) w []
  | delivered {a : DeliveryAttempt} {res : HttpResponse} :
      a.path ≠ .manual → input.thrown = none → axiosPost input.receiver = .ok res →
      WebhookResumed input w (.answer a)
        (w.updateDelivery a.deliveryId (a.deliveredData res w.now)) []
  /-- and the metric is handled like a failure -/
  | deliveredManually {a : DeliveryAttempt} {res : HttpResponse} {err : DeliveryError} :
      a.path = .manual →
      WebhookResumed input w (.answer a)
        (w.updateDelivery a.deliveryId (a.deliveredData res w.now))
        [.statement (.handleFailure a err)]
  | failed {a : DeliveryAttempt} {err : DeliveryError} {w' : WebhookWorld} :
      input.thrown = none →
      (w', []) = a.finish w (a.failureData err input.random w.now) →
      WebhookResumed input w (.statement (.handleFailure a err)) w' []

/-- The last update of an attempt, apart from the response. -/
theorem finish_frame {a : DeliveryAttempt} {w w' : WebhookWorld} {data : DeliveryData}
    (h : (w', []) = a.finish w data) :
    w'.deliveries = (w.updateDelivery a.deliveryId data).deliveries ∧ w'.now = w.now ∧
      w'.posts = w.posts := by
  obtain rfl : w' = (a.finish w data).1 := congrArg Prod.fst h
  unfold DeliveryAttempt.finish
  dsimp only
  split
  · exact ⟨rfl, rfl, rfl⟩
  · exact ⟨rfl, rfl, rfl⟩

theorem caught_of_manual {a : DeliveryAttempt} (h : a.path = .manual) {w : WebhookWorld}
    {err : DeliveryError} : a.caught w err = (w, [.statement (.handleFailure a err)]) := by
  simp [DeliveryAttempt.caught, recordDeliveryMetric, observeWebhookDelivery, h]

/-- The metric throws before the failure is handled. -/
theorem caught_of_automatic {a : DeliveryAttempt} (h : a.path ≠ .manual) {w : WebhookWorld}
    {err : DeliveryError} : a.caught w err = (w, []) := by
  simp [DeliveryAttempt.caught, recordDeliveryMetric, observeWebhookDelivery, h]

theorem find?_updateDelivery (w : WebhookWorld) (id : String) (data : DeliveryData) :
    (w.updateDelivery id data).deliveries.find? id = (w.deliveries.find? id).map data.apply :=
  Table.find?_modify_self _ _ data.apply fun _ => rfl

theorem find?_updateDelivery_of_ne (w : WebhookWorld) {id other : String} (data : DeliveryData)
    (h : other ≠ id) :
    (w.updateDelivery id data).deliveries.find? other = w.deliveries.find? other :=
  Table.find?_modify_of_ne _ data.apply (fun _ => rfl) h

theorem find?_finish {a : DeliveryAttempt} {w w' : WebhookWorld} {data : DeliveryData}
    (h : (w', []) = a.finish w data) :
    w'.deliveries.find? a.deliveryId = (w.deliveries.find? a.deliveryId).map data.apply := by
  rw [(finish_frame h).1]
  exact find?_updateDelivery w _ data

theorem find?_finish_of_ne {a : DeliveryAttempt} {w w' : WebhookWorld} {data : DeliveryData}
    {d : String} (h : (w', []) = a.finish w data) (hd : a.deliveryId ≠ d) :
    w'.deliveries.find? d = w.deliveries.find? d := by
  rw [(finish_frame h).1]
  exact find?_updateDelivery_of_ne w data hd.symm

theorem attempting_proceed (a : DeliveryAttempt) : a.proceed.attempting = some a.deliveryId := by
  unfold DeliveryAttempt.proceed
  split
  · rfl
  · rfl

theorem mem_due {w : WebhookWorld} {scan : RowOrder} {delivery : WebhookDelivery}
    (h : delivery ∈ w.due scan) :
    w.deliveries.find? delivery.id = some delivery ∧ delivery.due w.now := by
  have hmem : delivery ∈ w.deliveries.rows.filter (WebhookDelivery.due w.now) :=
    (scan.perm _).mem_iff.mp (List.mem_of_mem_take h)
  obtain ⟨hrow, hdue⟩ := List.mem_filter.mp hmem
  exact ⟨Table.find?_of_mem hrow, hdue⟩

variable (crypto : Crypto) (input : WebhookInput) (w : WebhookWorld)

theorem exec_resumed (next : WebhookStatement) (hthrown : input.thrown = none) :
    WebhookResumed input w (.statement next) (next.exec crypto input w).1
      (next.exec crypto input w).2 := by
  have hnone : ∀ post ∈ ([] : List WebhookPost), post.attempt = none := fun _ h => nomatch h
  have hover : ∀ call ∈ ([] : List WebhookCall), call.attempting = none := fun _ h => nomatch h
  cases next with
  | register userId dto =>
      simp only [WebhookStatement.exec]
      split
      · exact .aside rfl rfl rfl rfl hnone hover
      · exact .aside rfl rfl rfl rfl hnone hover
      · split
        · exact .aside rfl rfl rfl rfl hnone hover
        · exact .aside rfl rfl rfl rfl hnone hover
  | update userId id dto =>
      simp only [WebhookStatement.exec]
      split
      · exact .aside rfl rfl rfl rfl hnone hover
      · split
        · exact .aside rfl rfl rfl rfl hnone hover
        · exact .aside rfl rfl rfl rfl hnone hover
        · exact .aside rfl rfl rfl rfl hnone (by simp [WebhookCall.attempting])
  | updateRow id dto headers => exact .aside rfl rfl rfl rfl hnone hover
  | rotateSecret id userId =>
      simp only [WebhookStatement.exec]
      split
      · exact .aside rfl rfl rfl rfl hnone hover
      · split
        · exact .aside rfl rfl rfl rfl hnone hover
        · exact .aside rfl rfl rfl rfl hnone (by simp [WebhookCall.attempting])
  | rotateRow id plaintext =>
      exact .aside rfl rfl rfl rfl hnone (by simp [WebhookStatement.exec, WebhookCall.attempting])
  | rotateRecord id plaintext => exact .aside rfl rfl rfl rfl hnone hover
  | dispatch eventType payload =>
      refine .aside rfl rfl rfl rfl hnone fun call hcall => ?_
      obtain ⟨ep, -, rfl⟩ := List.mem_map.mp hcall
      rfl
  | deliverOnce ep eventType payload check request =>
      simp only [WebhookStatement.exec]
      split
      · exact .aside rfl rfl rfl rfl hnone hover
      · rename_i hfree
        exact .created hthrown (Option.not_isSome_iff_eq_none.mp hfree)
  | retryDelivery endpointId deliveryId userId =>
      simp only [WebhookStatement.exec]
      split
      · exact .aside rfl rfl rfl rfl hnone hover
      · exact .aside rfl rfl rfl rfl hnone (by simp [WebhookCall.attempting])
  | retryRow endpoint deliveryId =>
      simp only [WebhookStatement.exec]
      split
      · exact .aside rfl rfl rfl rfl hnone hover
      · rename_i delivery hfound
        have hkey : delivery.id = deliveryId := by
          have hboth := List.find?_some hfound
          simp only [decide_eq_true_eq] at hboth
          exact hboth.1
        subst hkey
        exact .read hthrown (Table.find?_of_mem (List.mem_of_find?_eq_some hfound)) rfl
  | replayFailedDeliveries endpointId from_ to_ =>
      simp only [WebhookStatement.exec]
      split
      · exact .aside rfl rfl rfl rfl hnone hover
      · exact .aside rfl rfl rfl rfl hnone (by simp [WebhookCall.attempting])
  | replayRows endpoint from_ to_ =>
      refine .aside rfl rfl rfl rfl hnone fun call hcall => ?_
      obtain ⟨row, -, rfl⟩ := List.mem_map.mp hcall
      rfl
  | bulkTest userId =>
      refine .aside rfl rfl rfl rfl hnone fun call hcall => ?_
      obtain ⟨ep, -, rfl⟩ := List.mem_map.mp hcall
      rfl
  | processRetryQueue =>
      refine .selected hthrown fun call hcall => ?_
      obtain ⟨delivery, hdelivery, hep⟩ := List.mem_filterMap.mp hcall
      obtain ⟨ep, -, rfl⟩ := Option.map_eq_some_iff.mp hep
      exact ⟨ep, delivery, _, _, rfl, mem_due hdelivery⟩
  | executeRetry ep delivery check request => exact .claimed hthrown
  | skip a => exact .skipped hthrown rfl
  | handleFailure a err => exact .failed hthrown rfl

theorem webhook_resumed (call : WebhookCall) :
    WebhookResumed input w call (call.resume crypto input w).1
      (call.resume crypto input w).2 := by
  cases call with
  | statement next =>
      simp only [WebhookCall.resume]
      split
      · rename_i hthrown
        exact .thrown hthrown
      · rename_i hthrown
        exact exec_resumed crypto input w next (Option.not_isSome_iff_eq_none.mp hthrown)
  | post a => exact .posted
  | answer a =>
      simp only [WebhookCall.resume]
      have hcaught (err : DeliveryError)
          (hfails : ∀ res, axiosPost input.receiver = .ok res → input.thrown ≠ none) :
          WebhookResumed input w (.answer a) (a.caught w err).1 (a.caught w err).2 := by
        by_cases hpath : a.path = .manual
        · rw [caught_of_manual hpath]
          exact .rejected hpath
        · rw [caught_of_automatic hpath]
          exact .abandoned hpath hfails
      split
      · rename_i hreply
        exact hcaught _ fun res hok => by simp [hreply] at hok
      · rename_i hthrown
        exact hcaught _ fun _ _ h => by simp [hthrown] at h
      · rename_i res hreply hthrown
        change WebhookResumed input w (.answer a) (a.caught _ _).1 (a.caught _ _).2
        by_cases hpath : a.path = .manual
        · rw [caught_of_manual hpath]
          exact .deliveredManually hpath
        · rw [caught_of_automatic hpath]
          exact .delivered hpath hthrown hreply
  | ping ep request =>
      have hposts : (w.send none ep request).posts =
          [⟨none, ep, request, w.returned ep.id⟩] ++ w.posts := rfl
      refine .aside rfl rfl rfl hposts ?_ fun _ h => (nomatch h)
      intro post hpost
      rw [List.mem_singleton.mp hpost]

end ChainSettle
