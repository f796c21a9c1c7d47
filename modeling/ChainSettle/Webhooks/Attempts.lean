import ChainSettle.Webhooks.Retry

/-!
One request for each attempt. No retry is ever scheduled, as the metric throws
before a failure is handled: the queue selects nothing, and after its first request
a delivery is sent again by hand only. A manual retry counts after its request, to
one more than the value that it read before. Where every attempt has its delivery
to itself, the counter agrees with the requests; of two manual retries that overlap,
one is not counted.
-/

namespace ChainSettle

open Lib

section Ledger

/-- The attempt of a call whose first statement is done. -/
def WebhookCall.attempt : WebhookCall → Option DeliveryAttempt
  | .statement (.skip a) | .statement (.handleFailure a _) | .post a | .answer a => some a
  | _ => none

def WebhookCall.worksOn (d : String) (call : WebhookCall) : Bool :=
  call.attempt.any fun a => a.deliveryId = d

def SendPath.isAutomatic (path : SendPath) : Bool := path ≠ .manual

/-- Where the one attempt under way stands, and what the counter says there. The
requests that were sent stand in front of the earlier ones. -/
inductive Phase (row : WebhookDelivery) (sent : List SendPath) : List WebhookCall → Prop where
  | rest : row.attemptCount = sent.length → Phase row sent []
  | counted {a : DeliveryAttempt} :
      a.path = .first → sent = [] → row.attemptCount = 1 → Phase row sent [.post a]
  | read {a : DeliveryAttempt} :
      a.path = .manual → row.attemptCount = sent.length → a.attemptCount = row.attemptCount →
      Phase row sent [.post a]
  | sentFirst {a : DeliveryAttempt} :
      a.path = .first → row.attemptCount = sent.length → Phase row sent [.answer a]
  | sent {a : DeliveryAttempt} {call : WebhookCall} :
      call = .answer a ∨ (∃ err, call = .statement (.handleFailure a err)) → a.path = .manual →
      row.attemptCount + 1 = sent.length → a.attemptCount = row.attemptCount →
      Phase row sent [call]
  /-- the answer was a success, and the metric has thrown -/
  | recounted {a : DeliveryAttempt} {err : DeliveryError} :
      a.path = .manual → row.attemptCount = sent.length → row.attemptCount = a.attemptCount + 1 →
      Phase row sent [.statement (.handleFailure a err)]

structure Ledger (row : WebhookDelivery) (sent : List SendPath) (calls : List WebhookCall) :
    Prop where
  phase : Phase row sent calls
  unscheduled : row.nextRetryAt = none
  byHand : ∀ path ∈ sent, path.scheduledFor = none
  automatic : sent.countP SendPath.isAutomatic ≤ 1

variable {row : WebhookDelivery} {sent : List SendPath}

/-- Attempts of one delivery do not overlap. -/
theorem Phase.length_le {calls : List WebhookCall} (h : Phase row sent calls) :
    calls.length ≤ 1 := by
  cases h <;> simp

theorem Ledger.posted {a : DeliveryAttempt} (h : Ledger row sent [.post a]) :
    Ledger row (a.path :: sent) [.answer a] := by
  obtain ⟨hphase, hunscheduled, hbyHand, hautomatic⟩ := h
  cases hphase with
  | counted hpath hnone hcount =>
      subst hnone
      rw [hpath]
      exact ⟨.sentFirst hpath hcount, hunscheduled, List.forall_mem_singleton.mpr rfl, by decide⟩
  | read hpath hcount hattempt =>
      rw [hpath]
      exact ⟨.sent (.inl rfl) hpath (congrArg (· + 1) hcount) hattempt, hunscheduled,
        List.forall_mem_cons.mpr ⟨rfl, hbyHand⟩, hautomatic⟩
  | sent hcall => rcases hcall with h | ⟨err, h⟩ <;> cases h

theorem Ledger.created (id : String) (ep : WebhookEndpoint) (eventType : String) (payload : Json)
    (now : Nat) (check : PayloadCheck) (request : WebhookRequest) :
    Ledger (newDelivery id ep eventType payload now) []
      [.post ⟨.first, id, 1, check, ep, request⟩] :=
  ⟨.counted rfl rfl rfl, rfl, List.forall_mem_nil _, Nat.zero_le _⟩

theorem Ledger.read {a : DeliveryAttempt} (h : Ledger row sent []) (hpath : a.path = .manual)
    (hattempt : a.attemptCount = row.attemptCount) : Ledger row sent [.post a] := by
  cases h.phase with
  | rest hcount => exact ⟨.read hpath hcount hattempt, h.unscheduled, h.byHand, h.automatic⟩

theorem Ledger.rejected {a : DeliveryAttempt} {err : DeliveryError} (hpath : a.path = .manual)
    (h : Ledger row sent [.answer a]) : Ledger row sent [.statement (.handleFailure a err)] := by
  refine ⟨?_, h.unscheduled, h.byHand, h.automatic⟩
  cases h.phase with
  | sentFirst hfirst => exact absurd (hpath.symm.trans hfirst) (by decide)
  | sent hcall _ hcount hattempt =>
      obtain hcall | ⟨_, hcall⟩ := hcall
      · cases hcall
        exact .sent (.inr ⟨err, rfl⟩) hpath hcount hattempt
      · cases hcall

/-- The first request is over, whatever the answer. -/
theorem Ledger.answered {a : DeliveryAttempt} (hpath : a.path ≠ .manual)
    (h : Ledger row sent [.answer a]) : Ledger row sent [] := by
  refine ⟨.rest ?_, h.unscheduled, h.byHand, h.automatic⟩
  cases h.phase with
  | sentFirst _ hcount => exact hcount
  | sent hcall hmanual =>
      obtain hcall | ⟨_, hcall⟩ := hcall
      · cases hcall
        exact absurd hmanual hpath
      · cases hcall

theorem Ledger.delivered {a : DeliveryAttempt} {res : HttpResponse} {now : Nat}
    (hpath : a.path ≠ .manual) (h : Ledger row sent [.answer a]) :
    Ledger ((a.deliveredData res now).apply row) sent [] := by
  obtain ⟨hphase, -, hbyHand, hautomatic⟩ := h.answered hpath
  cases hphase with
  | rest hcount =>
      refine ⟨.rest ?_, rfl, hbyHand, hautomatic⟩
      simpa [DeliveryData.apply, DeliveryAttempt.deliveredData, hpath] using hcount

theorem Ledger.deliveredManually {a : DeliveryAttempt} {res : HttpResponse} {now : Nat}
    {err : DeliveryError} (hpath : a.path = .manual) (h : Ledger row sent [.answer a]) :
    Ledger ((a.deliveredData res now).apply row) sent [.statement (.handleFailure a err)] := by
  obtain ⟨hphase, -, hbyHand, hautomatic⟩ := h
  have hraised : ((a.deliveredData res now).apply row).attemptCount = a.attemptCount + 1 := by
    simp [DeliveryData.apply, DeliveryAttempt.deliveredData, hpath]
  cases hphase with
  | sentFirst hfirst => exact absurd (hpath.symm.trans hfirst) (by decide)
  | sent hcall _ hcount hattempt =>
      obtain hcall | ⟨_, hcall⟩ := hcall
      · cases hcall
        refine ⟨.recounted hpath ?_ hraised, rfl, hbyHand, hautomatic⟩
        rw [hraised, hattempt, hcount]
      · cases hcall

theorem Ledger.failed {a : DeliveryAttempt} {err : DeliveryError} {random : JsRandom} {now : Nat}
    (h : Ledger row sent [.statement (.handleFailure a err)]) :
    Ledger ((a.failureData err random now).apply row) sent [] := by
  obtain ⟨hphase, hunscheduled, hbyHand, hautomatic⟩ := h
  have hcount : a.path = .manual ∧ a.attemptCount + 1 = sent.length := by
    cases hphase with
    | sent hcall hpath hcount hattempt =>
        obtain hcall | ⟨_, hcall⟩ := hcall
        · cases hcall
        · cases hcall
          exact ⟨hpath, by rw [hattempt, hcount]⟩
    | recounted hpath hcount hraised => exact ⟨hpath, hraised.symm.trans hcount⟩
  obtain ⟨hpath, hraised⟩ := hcount
  unfold DeliveryAttempt.failureData
  rw [if_pos hpath]
  exact ⟨.rest hraised, hunscheduled, hbyHand, hautomatic⟩

end Ledger

section Steps

/-- The requests that were sent for a delivery, the latest first. -/
def WebhookWorld.sent (w : WebhookWorld) (d : String) : List SendPath :=
  w.posts.filterMap fun post =>
    (post.attempt.filter fun attempt => decide (attempt.2 = d)).map Prod.fst

def underWay (calls : List WebhookCall) (d : String) : List WebhookCall :=
  calls.filter (WebhookCall.worksOn d)

/-- A delivery that does not exist has neither attempts nor requests. -/
def LedgerAt (w : WebhookWorld) (calls : List WebhookCall) (d : String) : Prop :=
  match w.deliveries.find? d with
  | some row => Ledger row (w.sent d) (underWay calls d)
  | none => underWay calls d = [] ∧ w.sent d = []

/-- The calls that may be lost without a trace in the counter. -/
def WebhookCall.MayEnd (w : WebhookWorld) : WebhookCall → Prop
  | .post a => a.path = .manual
  | .answer a | .statement (.handleFailure a _) =>
      a.path = .manual → ∀ row ∈ w.deliveries.find? a.deliveryId,
        row.attemptCount = a.attemptCount + 1
  | _ => True

/-- An attempt begins on a payload within the limit, while no other attempt for
the delivery is under way. -/
def WebhookStatement.FindsRow (s : WebhookPool) (input : WebhookInput) : WebhookStatement → Prop
  | .deliverOnce _ _ _ check _ => check.exceedsLimit = false
  | .retryRow _ id =>
      underWay s.inflight id = [] ∧ ∀ row ∈ s.shared.deliveries.find? id,
        (input.service.preparePayloadForDelivery row.eventType row.payload
          s.shared.now).exceedsLimit = false
  | _ => True

def WebhookCall.statement? : WebhookCall → Option WebhookStatement
  | .statement next => some next
  | _ => none

def AttemptsApart (s : WebhookPool) : WebhookAction → Prop
  | .resume index input =>
      ∀ call ∈ s.inflight[index]?, ∀ next ∈ call.statement?,
        if input.thrown.isSome then call.MayEnd s.shared else next.FindsRow s input
  | .crash index => ∀ call ∈ s.inflight[index]?, call.MayEnd s.shared
  | _ => True

instance (w : WebhookWorld) (call : WebhookCall) : Decidable (call.MayEnd w) :=
  match call with
  | .post _ => inferInstanceAs (Decidable (_ = _))
  | .answer a => inferInstanceAs (Decidable (_ → ∀ row ∈ w.deliveries.find? a.deliveryId, _))
  | .statement next =>
      match next with
      | .handleFailure a _ =>
          inferInstanceAs (Decidable (_ → ∀ row ∈ w.deliveries.find? a.deliveryId, _))
      | .register .. | .update .. | .updateRow .. | .rotateSecret .. | .rotateRow ..
      | .rotateRecord .. | .dispatch .. | .deliverOnce .. | .retryDelivery .. | .retryRow ..
      | .replayFailedDeliveries .. | .replayRows .. | .bulkTest _ | .processRetryQueue
      | .executeRetry .. | .skip _ => inferInstanceAs (Decidable True)
  | .ping .. => inferInstanceAs (Decidable True)

instance (s : WebhookPool) (input : WebhookInput) (next : WebhookStatement) :
    Decidable (next.FindsRow s input) :=
  match next with
  | .deliverOnce .. => inferInstanceAs (Decidable (_ = _))
  | .retryRow _ _ => inferInstanceAs (Decidable (_ ∧ _))
  | .register .. | .update .. | .updateRow .. | .rotateSecret .. | .rotateRow ..
  | .rotateRecord .. | .dispatch .. | .retryDelivery .. | .replayFailedDeliveries ..
  | .replayRows .. | .bulkTest _ | .processRetryQueue | .executeRetry .. | .skip _
  | .handleFailure .. => inferInstanceAs (Decidable True)

instance (s : WebhookPool) (a : WebhookAction) : Decidable (AttemptsApart s a) :=
  match a with
  | .resume index input =>
      inferInstanceAs (Decidable (∀ call ∈ s.inflight[index]?, ∀ next ∈ call.statement?,
        if input.thrown.isSome then call.MayEnd s.shared else next.FindsRow s input))
  | .crash index => inferInstanceAs (Decidable (∀ call ∈ s.inflight[index]?, _))
  | .begin _ | .external _ => inferInstanceAs (Decidable True)

theorem underWay_append (pre post : List WebhookCall) (d : String) :
    underWay (pre ++ post) d = underWay pre d ++ underWay post d :=
  List.filter_append _ _

theorem underWay_cons_of_pos {call : WebhookCall} {d : String} (h : call.worksOn d)
    (post : List WebhookCall) : underWay (call :: post) d = call :: underWay post d :=
  List.filter_cons_of_pos h

theorem underWay_cons_of_neg {call : WebhookCall} {d : String} (h : ¬ call.worksOn d)
    (post : List WebhookCall) : underWay (call :: post) d = underWay post d :=
  List.filter_cons_of_neg h

theorem underWay_eq_nil {calls : List WebhookCall} {d : String}
    (h : ∀ call ∈ calls, ¬ call.worksOn d) : underWay calls d = [] :=
  List.filter_eq_nil_iff.mpr h

theorem LedgerAt.frame {w w' : WebhookWorld} {calls calls' : List WebhookCall} {d : String}
    (h : LedgerAt w calls d) (hfind : w'.deliveries.find? d = w.deliveries.find? d)
    (hsent : w'.sent d = w.sent d) (hcalls : underWay calls' d = underWay calls d) :
    LedgerAt w' calls' d := by
  unfold LedgerAt
  rw [hfind, hsent, hcalls]
  exact h

theorem ledgerAt_of_row {w : WebhookWorld} {calls : List WebhookCall} {d : String}
    {row : WebhookDelivery} (hrow : w.deliveries.find? d = some row)
    (h : Ledger row (w.sent d) (underWay calls d)) : LedgerAt w calls d := by
  unfold LedgerAt
  rw [hrow]
  exact h

theorem LedgerAt.row {w : WebhookWorld} {calls : List WebhookCall} {d : String}
    {row : WebhookDelivery} (h : LedgerAt w calls d) (hrow : w.deliveries.find? d = some row) :
    Ledger row (w.sent d) (underWay calls d) := by
  unfold LedgerAt at h
  rw [hrow] at h
  exact h

/-- A call that works on a delivery is the only one. -/
theorem LedgerAt.only {w : WebhookWorld} {pre post : List WebhookCall} {call : WebhookCall}
    {d : String} (h : LedgerAt w (pre ++ call :: post) d) (hworks : call.worksOn d) :
    (∃ row, w.deliveries.find? d = some row ∧ Ledger row (w.sent d) [call]) ∧
      underWay pre d = [] ∧ underWay post d = [] := by
  have hsplit : underWay (pre ++ call :: post) d =
      underWay pre d ++ call :: underWay post d := by
    rw [underWay_append, underWay_cons_of_pos hworks]
  unfold LedgerAt at h
  rw [hsplit] at h
  split at h
  · rename_i row hrow
    have hlength := h.phase.length_le
    rw [List.length_append, List.length_cons] at hlength
    have hpre : underWay pre d = [] := List.eq_nil_of_length_eq_zero (by omega)
    have hpost : underWay post d = [] := List.eq_nil_of_length_eq_zero (by omega)
    rw [hpre, hpost] at h
    exact ⟨⟨row, hrow, h⟩, hpre, hpost⟩
  · exact absurd h.1 (by simp)

theorem sent_append {w w' : WebhookWorld} {pings : List WebhookPost}
    (hposts : w'.posts = pings ++ w.posts) (hpings : ∀ post ∈ pings, post.attempt = none)
    (d : String) : w'.sent d = w.sent d := by
  unfold WebhookWorld.sent
  rw [hposts, List.filterMap_append]
  have hnone : (pings.filterMap fun post =>
      (post.attempt.filter fun attempt => decide (attempt.2 = d)).map Prod.fst) = [] := by
    rw [List.filterMap_eq_nil_iff]
    intro post hpost
    rw [hpings post hpost]
    rfl
  rw [hnone, List.nil_append]

theorem worksOn_self {call : WebhookCall} {a : DeliveryAttempt} (h : call.attempt = some a) :
    call.worksOn a.deliveryId := by
  simp [WebhookCall.worksOn, h]

theorem not_worksOn_of_ne {call : WebhookCall} {a : DeliveryAttempt} {d : String}
    (h : call.attempt = some a) (hd : a.deliveryId ≠ d) : ¬ call.worksOn d := by
  simp [WebhookCall.worksOn, h, hd]

theorem not_worksOn_of_none {call : WebhookCall} (h : call.attempt = none) (d : String) :
    ¬ call.worksOn d := by
  simp [WebhookCall.worksOn, h]

theorem not_worksOn_of_attempting {call : WebhookCall} (h : call.attempting = none) (d : String) :
    ¬ call.worksOn d := by
  refine not_worksOn_of_none ?_ d
  cases call with
  | statement next => cases next <;> first | (cases h; done) | rfl
  | post a => cases h
  | answer a => cases h
  | ping ep request => rfl

theorem proceed_of_within (path : SendPath) (id : String) (count : Nat) {check : PayloadCheck}
    (ep : WebhookEndpoint) (request : WebhookRequest) (h : check.exceedsLimit = false) :
    DeliveryAttempt.proceed ⟨path, id, count, check, ep, request⟩ =
      .post ⟨path, id, count, check, ep, request⟩ := by
  simp [DeliveryAttempt.proceed, h]

/-- A step leaves the delivery alone. -/
theorem LedgerAt.aside {w w' : WebhookWorld} {pre post : List WebhookCall} {call : WebhookCall}
    {d : String} (calls : List WebhookCall) (h : LedgerAt w (pre ++ call :: post) d)
    (hcall : ¬ call.worksOn d) (hcalls : ∀ next ∈ calls, ¬ next.worksOn d)
    (hfind : w'.deliveries.find? d = w.deliveries.find? d) (hsent : w'.sent d = w.sent d) :
    LedgerAt w' (pre ++ (calls ++ post)) d := by
  refine h.frame hfind hsent ?_
  rw [underWay_append, underWay_append, underWay_append, underWay_cons_of_neg hcall,
    underWay_eq_nil hcalls, List.nil_append]

/-- The attempt under way goes on to its next call, or ends. -/
theorem LedgerAt.turned {w w' : WebhookWorld} {pre post calls : List WebhookCall}
    {call : WebhookCall} {a : DeliveryAttempt} {d : String} {f : WebhookDelivery → WebhookDelivery}
    (h : LedgerAt w (pre ++ call :: post) d) (hcall : call.attempt = some a)
    (hcalls : ∀ next ∈ calls, next.attempt = some a)
    (hself : w'.deliveries.find? a.deliveryId = (w.deliveries.find? a.deliveryId).map f)
    (hother : a.deliveryId ≠ d → w'.deliveries.find? d = w.deliveries.find? d)
    (hsent : a.deliveryId ≠ d → w'.sent d = w.sent d)
    (hledger : ∀ row, w.deliveries.find? a.deliveryId = some row →
      Ledger row (w.sent a.deliveryId) [call] → Ledger (f row) (w'.sent a.deliveryId) calls) :
    LedgerAt w' (pre ++ (calls ++ post)) d := by
  by_cases hd : a.deliveryId = d
  · subst hd
    obtain ⟨⟨row, hrow, hbefore⟩, hpre, hpost⟩ := h.only (worksOn_self hcall)
    refine ledgerAt_of_row (by rw [hself, hrow, Option.map_some]) ?_
    have hall : underWay calls a.deliveryId = calls :=
      List.filter_eq_self.mpr fun next hnext => worksOn_self (hcalls next hnext)
    rw [underWay_append, underWay_append, hpre, hpost, hall, List.nil_append, List.append_nil]
    exact hledger row hrow hbefore
  · exact h.aside calls (not_worksOn_of_ne hcall hd)
      (fun next hnext => not_worksOn_of_ne (hcalls next hnext) hd) (hother hd) (hsent hd)

/-- A call that may be lost is lost. -/
theorem LedgerAt.lost {w : WebhookWorld} {pre post : List WebhookCall} {call : WebhookCall}
    {d : String} (h : LedgerAt w (pre ++ call :: post) d) (hend : call.MayEnd w) :
    LedgerAt w (pre ++ post) d := by
  rw [← List.nil_append post]
  cases hattempt : call.attempt with
  | none => exact h.aside [] (not_worksOn_of_none hattempt d) (List.forall_mem_nil _) rfl rfl
  | some a =>
      refine h.turned hattempt (List.forall_mem_nil _) Option.map_id'.symm (fun _ => rfl)
        (fun _ => rfl) fun row hrow hledger => ?_
      refine ⟨.rest ?_, hledger.unscheduled, hledger.byHand, hledger.automatic⟩
      cases hledger.phase with
      | counted hpath => exact absurd (hpath.symm.trans hend) (by decide)
      | read _ hcount => exact hcount
      | sentFirst _ hcount => exact hcount
      | sent hcall hpath _ hsame =>
          obtain rfl | ⟨err, rfl⟩ := hcall
          all_goals
            cases hattempt
            have hcounted := hend hpath row hrow
            omega
      | recounted _ hcount => exact hcount

/-- An attempt begins while no other one is under way. -/
theorem underWay_begun {pre post : List WebhookCall} {call : WebhookCall} {d : String}
    (hidle : underWay (pre ++ call :: post) d = []) {a : DeliveryAttempt}
    (ha : a.deliveryId = d) : underWay (pre ++ ([.post a] ++ post)) d = [.post a] := by
  rw [underWay_append, List.append_eq_nil_iff] at hidle
  have hpost : underWay post d = [] := by
    refine underWay_eq_nil fun next hnext => ?_
    exact List.filter_eq_nil_iff.mp hidle.2 next (.tail _ hnext)
  rw [underWay_append, hidle.1, List.nil_append, List.singleton_append,
    underWay_cons_of_pos (ha ▸ worksOn_self rfl), hpost]

theorem sent_send_self (w : WebhookWorld) (path : SendPath) (d : String) (ep : WebhookEndpoint)
    (request : WebhookRequest) : (w.send (some (path, d)) ep request).sent d = path :: w.sent d := by
  simp [WebhookWorld.sent, WebhookWorld.send]

theorem sent_send_of_ne (w : WebhookWorld) (path : SendPath) {d other : String} (h : other ≠ d)
    (ep : WebhookEndpoint) (request : WebhookRequest) :
    (w.send (some (path, other)) ep request).sent d = w.sent d := by
  simp [WebhookWorld.sent, WebhookWorld.send, h]

theorem sent_of_posts {w w' : WebhookWorld} (h : w'.posts = w.posts) (d : String) :
    w'.sent d = w.sent d := by
  unfold WebhookWorld.sent
  rw [h]

def WebhookCall.claims : WebhookCall → Bool
  | .statement (.executeRetry ..) => true
  | _ => false

structure Accounted (s : WebhookPool) : Prop where
  ledger : ∀ d, LedgerAt s.shared s.inflight d
  unclaimed : ∀ call ∈ s.inflight, ¬ call.claims

theorem ledgerAt_resume {s : WebhookPool} {index : Nat} {input : WebhookInput}
    {call : WebhookCall} {pre post calls : List WebhookCall} {w' : WebhookWorld} {d : String}
    (hcall : s.inflight[index]? = some call) (hsplit : s.inflight = pre ++ call :: post)
    (hallowed : AttemptsApart s (.resume index input)) (hclaim : ¬ call.claims)
    (hstep : WebhookResumed input s.shared call w' calls) (h : LedgerAt s.shared s.inflight d) :
    LedgerAt w' (pre ++ (calls ++ post)) d := by
  have hinflight := hsplit ▸ h
  cases hstep with
  | thrown hthrown =>
      have hmay := hallowed _ hcall _ rfl
      rw [if_pos hthrown] at hmay
      exact hinflight.lost hmay
  | aside hnone hdeliveries _ hposts hpings hcalls =>
      exact hinflight.aside calls (not_worksOn_of_attempting hnone d)
        (fun next hnext => not_worksOn_of_attempting (hcalls next hnext) d) (by rw [hdeliveries])
        (sent_append hposts hpings d)
  | @created ep eventType payload check request hthrown hfree =>
      have hmay := hallowed _ hcall _ rfl
      rw [if_neg (by simp [hthrown])] at hmay
      have hwithin : check.exceedsLimit = false := hmay
      rw [proceed_of_within _ _ _ _ _ hwithin]
      by_cases hd : input.id = d
      · subst hd
        unfold LedgerAt at h
        rw [hfree, hsplit] at h
        have hrow : (s.shared.deliveries.insert
            (newDelivery input.id ep eventType payload s.shared.now)).find? input.id =
              some (newDelivery input.id ep eventType payload s.shared.now) := by
          rw [Table.find?_insert, hfree]
          exact if_pos rfl
        refine ledgerAt_of_row hrow ?_
        change Ledger _ (s.shared.sent input.id) _
        rw [underWay_begun h.1 rfl, h.2]
        exact Ledger.created _ _ _ _ _ _ _
      · refine hinflight.aside _ (not_worksOn_of_none rfl d) ?_
          (Table.find?_insert_of_ne _ (Ne.symm hd)) rfl
        exact List.forall_mem_singleton.mpr (not_worksOn_of_ne rfl hd)
  | @read endpoint delivery check request hthrown hrow hcheck =>
      have hmay := hallowed _ hcall _ rfl
      rw [if_neg (by simp [hthrown])] at hmay
      obtain ⟨hidle, hwithin⟩ := hmay
      have hsmall : check.exceedsLimit = false := hcheck ▸ hwithin delivery hrow
      rw [proceed_of_within _ _ _ _ _ hsmall]
      by_cases hd : delivery.id = d
      · subst hd
        have hledger := h.row hrow
        rw [hidle] at hledger
        refine ledgerAt_of_row hrow ?_
        rw [underWay_begun (hsplit ▸ hidle) rfl]
        exact hledger.read rfl rfl
      · refine hinflight.aside _ (not_worksOn_of_none rfl d) ?_ rfl rfl
        exact List.forall_mem_singleton.mpr (not_worksOn_of_ne rfl hd)
  | selected _ hcalls =>
      refine hinflight.aside calls (not_worksOn_of_none rfl d) ?_ rfl rfl
      intro next hnext
      obtain ⟨ep, delivery, check, request, rfl, -⟩ := hcalls next hnext
      exact not_worksOn_of_none rfl d
  | claimed => exact absurd rfl hclaim
  | @skipped a _ _ hfinish =>
      -- there is no attempt over the limit
      refine hinflight.turned rfl (List.forall_mem_nil _) (find?_finish hfinish)
        (find?_finish_of_ne hfinish) (fun _ => sent_of_posts (finish_frame hfinish).2.2 d)
        fun row _ hledger => ?_
      cases hledger.phase with
      | sent hphase => rcases hphase with hphase | ⟨err, hphase⟩ <;> cases hphase
  | @posted a =>
      refine hinflight.turned rfl (List.forall_mem_singleton.mpr rfl) Option.map_id'.symm
        (fun _ => rfl) (fun hd => sent_send_of_ne _ _ hd _ _) fun row _ hledger => ?_
      rw [sent_send_self]
      exact hledger.posted
  | rejected hpath =>
      exact hinflight.turned rfl (List.forall_mem_singleton.mpr rfl) Option.map_id'.symm
        (fun _ => rfl) (fun _ => rfl) fun row _ hledger => hledger.rejected hpath
  | abandoned hpath =>
      exact hinflight.turned rfl (List.forall_mem_nil _) Option.map_id'.symm (fun _ => rfl)
        (fun _ => rfl) fun row _ hledger => hledger.answered hpath
  | delivered hpath =>
      exact hinflight.turned rfl (List.forall_mem_nil _) (find?_updateDelivery _ _ _)
        (fun hd => find?_updateDelivery_of_ne _ _ hd.symm) (fun _ => rfl)
        fun row _ hledger => hledger.delivered hpath
  | deliveredManually hpath =>
      exact hinflight.turned rfl (List.forall_mem_singleton.mpr rfl) (find?_updateDelivery _ _ _)
        (fun hd => find?_updateDelivery_of_ne _ _ hd.symm) (fun _ => rfl)
        fun row _ hledger => hledger.deliveredManually hpath
  | failed _ hfinish =>
      refine hinflight.turned rfl (List.forall_mem_nil _) (find?_finish hfinish)
        (find?_finish_of_ne hfinish) (fun _ => sent_of_posts (finish_frame hfinish).2.2 d)
        fun row _ hledger => ?_
      rw [sent_of_posts (finish_frame hfinish).2.2]
      exact hledger.failed

theorem not_claims_of_attempting {call : WebhookCall} (h : call.attempting = none) :
    ¬ call.claims := by
  cases call with
  | statement next => cases next <;> first | (cases h; done) | exact Bool.false_ne_true
  | post a => exact Bool.false_ne_true
  | answer a => exact Bool.false_ne_true
  | ping ep request => exact Bool.false_ne_true

theorem not_claims_proceed (a : DeliveryAttempt) : ¬ a.proceed.claims := by
  unfold DeliveryAttempt.proceed
  split <;> exact Bool.false_ne_true

/-- The queue selects nothing, as nothing is scheduled. -/
theorem not_claims_resume {input : WebhookInput} {w w' : WebhookWorld} {call : WebhookCall}
    {calls : List WebhookCall} (h : WebhookResumed input w call w' calls)
    (hrows : ∀ d row, w.deliveries.find? d = some row → row.nextRetryAt = none) :
    ∀ next ∈ calls, ¬ next.claims := by
  cases h with
  | thrown => exact List.forall_mem_nil _
  | aside _ _ _ _ _ hcalls =>
      exact fun next hnext => not_claims_of_attempting (hcalls next hnext)
  | created => exact List.forall_mem_singleton.mpr (not_claims_proceed _)
  | read => exact List.forall_mem_singleton.mpr (not_claims_proceed _)
  | selected _ hcalls =>
      intro next hnext
      obtain ⟨ep, delivery, check, request, -, hrow, hdue⟩ := hcalls next hnext
      simp [WebhookDelivery.due, hrows _ _ hrow] at hdue
  | claimed => exact List.forall_mem_singleton.mpr (not_claims_proceed _)
  | posted => exact List.forall_mem_singleton.mpr Bool.false_ne_true
  | rejected => exact List.forall_mem_singleton.mpr Bool.false_ne_true
  | deliveredManually => exact List.forall_mem_singleton.mpr Bool.false_ne_true
  | skipped => exact List.forall_mem_nil _
  | abandoned => exact List.forall_mem_nil _
  | delivered => exact List.forall_mem_nil _
  | failed => exact List.forall_mem_nil _

theorem ledger_step (crypto : Crypto) (s : WebhookPool) (a : WebhookAction)
    (h : Accounted s) (hallowed : AttemptsApart s a) (d : String) :
    LedgerAt ((webhooks crypto).step s a).shared ((webhooks crypto).step s a).inflight d := by
  have hledger := h.ledger d
  rcases (webhooks crypto).step_cases s a with ⟨call, rfl, hstarts, hnext⟩ |
    ⟨index, input, call, pre, post, rfl, hcall, hsplit, -, hnext⟩ |
    ⟨index, call, pre, post, rfl, hcall, hsplit, -, hnext⟩ |
    ⟨milliseconds, rfl, hnext⟩ | ⟨hnext, -⟩
  · rw [hnext]
    refine hledger.frame rfl rfl ?_
    have hnone := attempting_of_starts hstarts
    rw [underWay_append, underWay_cons_of_neg (not_worksOn_of_attempting hnone d)]
    exact List.append_nil _
  · rw [hnext]
    exact ledgerAt_resume hcall hsplit hallowed (h.unclaimed call (List.mem_of_getElem? hcall))
      (webhook_resumed crypto input s.shared call) hledger
  · rw [hnext]
    exact (hsplit ▸ hledger).lost (hallowed call hcall)
  · rw [hnext]
    exact hledger.frame rfl rfl rfl
  · rw [hnext]
    exact hledger

theorem accounted_step (crypto : Crypto) (s : WebhookPool) (a : WebhookAction)
    (h : Accounted s) (hallowed : AttemptsApart s a) :
    Accounted ((webhooks crypto).step s a) := by
  refine ⟨ledger_step crypto s a h hallowed, ?_⟩
  refine (webhooks crypto).calls_step (P := fun _ call => ¬ call.claims) a h.unclaimed ?_ ?_ ?_
  · exact fun call hstarts => not_claims_of_attempting (attempting_of_starts hstarts)
  · intro input call _
    exact ⟨not_claims_resume (webhook_resumed crypto input s.shared call)
      fun d row hrow => ((h.ledger d).row hrow).unscheduled, fun _ hother => hother⟩
  · exact fun _ _ hother => hother

end Steps

section Runs

/-- An automatic attempt that is counted already, before its request. -/
def WebhookCall.unsent : WebhookCall → Bool
  | .post a => a.path.isAutomatic
  | _ => false

/-- A manual attempt that is not counted yet, after its request. -/
def WebhookCall.uncounted (row : WebhookDelivery) : WebhookCall → Bool
  | .answer a | .statement (.handleFailure a _) =>
      !a.path.isAutomatic && row.attemptCount ≠ a.attemptCount + 1
  | _ => false

/-- At most one request for a time in `nextRetryAt`, a counter that agrees with the
requests but for the attempt under way, and no more automatic attempts than
allowed. -/
structure OnePostEach (s : WebhookPool) (d : String) (row : WebhookDelivery) : Prop where
  once : ∀ t, (s.shared.sent d).countP (fun path => path.scheduledFor = some t) ≤ 1
  counted : underWay s.inflight d = [] → row.attemptCount = (s.shared.sent d).length
  balance : row.attemptCount + (underWay s.inflight d).countP (WebhookCall.uncounted row) =
    (s.shared.sent d).length + (underWay s.inflight d).countP WebhookCall.unsent
  automatic : (s.shared.sent d).countP SendPath.isAutomatic ≤ MAX_AUTO_ATTEMPTS

theorem Phase.balance {row : WebhookDelivery} {sent : List SendPath} {calls : List WebhookCall}
    (h : Phase row sent calls) :
    row.attemptCount + calls.countP (WebhookCall.uncounted row) =
      sent.length + calls.countP WebhookCall.unsent := by
  cases h with
  | rest hcount => simpa using hcount
  | counted hpath hnone hcount =>
      simp [WebhookCall.uncounted, WebhookCall.unsent, SendPath.isAutomatic, hpath, hcount, hnone]
  | read hpath hcount =>
      simp [WebhookCall.uncounted, WebhookCall.unsent, SendPath.isAutomatic, hpath, hcount]
  | sentFirst hpath hcount =>
      simp [WebhookCall.uncounted, WebhookCall.unsent, SendPath.isAutomatic, hpath, hcount]
  | sent hcall hpath hcount hattempt =>
      rcases hcall with rfl | ⟨err, rfl⟩ <;>
        simpa [WebhookCall.uncounted, WebhookCall.unsent, SendPath.isAutomatic, hpath, hattempt]
          using hcount
  | recounted hpath hcount hraised =>
      simp [WebhookCall.uncounted, WebhookCall.unsent, SendPath.isAutomatic, hpath, hcount,
        ← hraised]

/-- Along a run in which attempts begin one at a time and within the limit, and are
not cut off between a request and its count, every delivery has one request for
each attempt. -/
theorem one_post_per_schedule (crypto : Crypto) (endpoints : Table WebhookEndpoint.id) (now : Nat)
    (actions : List WebhookAction)
    (hrun : Along (webhooks crypto).step AttemptsApart (freshPool endpoints now) actions) :
    ∀ pre post, actions = pre ++ post → ∀ d row,
      ((webhooks crypto).run pre (freshPool endpoints now)).shared.deliveries.find? d = some row →
      OnePostEach ((webhooks crypto).run pre (freshPool endpoints now)) d row := by
  have hstart : Accounted (freshPool endpoints now) :=
    ⟨fun _ => ⟨rfl, rfl⟩, List.forall_mem_nil _⟩
  intro pre post hsplit d row hrow
  have haccounted : Accounted ((webhooks crypto).run pre (freshPool endpoints now)) :=
    hrun.invariant (accounted_step crypto) hstart pre post hsplit
  have hledger := (haccounted.ledger d).row hrow
  refine ⟨fun t => ?_, fun hidle => ?_, hledger.phase.balance,
    hledger.automatic.trans (by decide)⟩
  · have hzero : (((webhooks crypto).run pre (freshPool endpoints now)).shared.sent d).countP
        (fun path => path.scheduledFor = some t) = 0 := by
      rw [List.countP_eq_zero]
      intro path hpath
      simp [hledger.byHand path hpath]
    rw [hzero]
    exact Nat.zero_le _
  · have hbalance := hledger.phase.balance
    rw [hidle] at hbalance
    exact hbalance

/-- The manual retry of `deliveredRun` has the delivery to itself. -/
theorem sent_delivery_counted :
    (((webhooks plainCrypto).run deliveredRun demoPool).shared.deliveries.find? "d-1").map
        WebhookDelivery.attemptCount = some 2 ∧
      ∀ d row, ((webhooks plainCrypto).run deliveredRun demoPool).shared.deliveries.find? d =
          some row →
        OnePostEach ((webhooks plainCrypto).run deliveredRun demoPool) d row := by
  have hrun : Along (webhooks plainCrypto).step AttemptsApart demoPool deliveredRun := by
    refine ⟨trivial, ?_, ?_, ?_, ?_, trivial, ?_, ?_, ?_, ?_, ?_, trivial⟩ <;> decide +kernel
  refine ⟨by decide +kernel, ?_⟩
  unfold demoPool at hrun ⊢
  exact one_post_per_schedule plainCrypto demoEndpoints 0 deliveredRun hrun deliveredRun []
    (List.append_nil _).symm

/-- The receiver refuses the event, and the owner sends it twice at the same time. -/
def overlappingRetries : List WebhookAction :=
  firstAnswer 503 ++
    [.begin manualRetry, .begin manualRetry, .resume 0 (answering 200), .resume 1 (answering 200),
      .resume 0 (answering 200), .resume 1 (answering 200), .resume 0 (answering 200),
      .resume 1 (answering 200), .resume 0 (answering 200), .resume 0 (answering 200),
      .resume 0 (answering 200), .resume 0 (answering 200)]

/-- Three requests are made, and two are counted. -/
theorem overlapping_retry_uncounted :
    (∃ row, ((webhooks plainCrypto).run overlappingRetries demoPool).shared.deliveries.find?
        "d-1" = some row ∧ row.attemptCount = 2 ∧
        ¬ OnePostEach ((webhooks plainCrypto).run overlappingRetries demoPool) "d-1" row) ∧
      ((webhooks plainCrypto).run overlappingRetries demoPool).inflight.length = 0 ∧
      ((webhooks plainCrypto).run overlappingRetries demoPool).shared.sent "d-1" =
        [.manual, .manual, .first] := by
  have hfacts : ((webhooks plainCrypto).run overlappingRetries demoPool).inflight.length = 0 ∧
      ((webhooks plainCrypto).run overlappingRetries demoPool).shared.sent "d-1" =
        [.manual, .manual, .first] ∧
      (((webhooks plainCrypto).run overlappingRetries demoPool).shared.deliveries.find? "d-1").map
        WebhookDelivery.attemptCount = some 2 := by
    decide +kernel
  obtain ⟨hidle, hsent, hcount⟩ := hfacts
  obtain ⟨row, hrow, hcount⟩ := Option.map_eq_some_iff.mp hcount
  refine ⟨⟨row, hrow, hcount, fun heach => ?_⟩, hidle, hsent⟩
  have hquiet : underWay
      ((webhooks plainCrypto).run overlappingRetries demoPool).inflight "d-1" = [] := by
    rw [List.eq_nil_of_length_eq_zero hidle]
    rfl
  have hcounted := heach.counted hquiet
  rw [hsent, hcount] at hcounted
  exact absurd hcounted (by decide)

end Runs

end ChainSettle
