import ChainSettle.Webhooks.Steps

/-!
No delivery gets stuck. A delivery without an attempt in flight ought to be
delivered, scheduled, or given up, and only one of these. But a failed attempt
writes nothing, as the metric throws before `handleFailure`; a manual retry that
fails clears what was given up; and an attempt may be cut off.
-/

namespace ChainSettle

open Lib

section Rows

def WebhookDelivery.succeeded (row : WebhookDelivery) : Bool := row.deliveredAt.isSome

def WebhookDelivery.scheduled (row : WebhookDelivery) : Bool :=
  row.nextRetryAt.isSome && row.permanentlyFailedAt.isNone && row.deliveredAt.isNone

def WebhookDelivery.permanentlyFailed (row : WebhookDelivery) : Bool :=
  row.permanentlyFailedAt.isSome

/-- Exactly one of the three. -/
def WebhookDelivery.Settled (row : WebhookDelivery) : Prop :=
  [row.succeeded, row.scheduled, row.permanentlyFailed].count true = 1

instance (row : WebhookDelivery) : Decidable row.Settled :=
  inferInstanceAs (Decidable (_ = _))

theorem settled_iff (row : WebhookDelivery) :
    row.Settled ↔
      (row.deliveredAt.isSome → row.permanentlyFailedAt = none) ∧
        (row.deliveredAt.isSome ∨ row.nextRetryAt.isSome ∨ row.permanentlyFailedAt.isSome) := by
  unfold WebhookDelivery.Settled WebhookDelivery.succeeded WebhookDelivery.scheduled
    WebhookDelivery.permanentlyFailed
  cases row.deliveredAt <;> cases row.nextRetryAt <;> cases row.permanentlyFailedAt <;> simp

/-- From the time in its row on, the queue selects the row, if it does not have to
choose among more than it takes. -/
def WebhookDelivery.SelectedLater (row : WebhookDelivery) : Prop :=
  ∃ at_, row.nextRetryAt = some at_ ∧ ∀ (w : WebhookWorld) (scan : RowOrder),
    row ∈ w.deliveries.rows → at_ ≤ w.now →
    (w.deliveries.rows.filter (WebhookDelivery.due w.now)).length ≤ 50 → row ∈ w.due scan

theorem selectedLater_of_scheduled {row : WebhookDelivery} (h : row.scheduled) :
    row.SelectedLater := by
  simp only [WebhookDelivery.scheduled, Bool.and_eq_true] at h
  obtain ⟨at_, hat⟩ := Option.isSome_iff_exists.mp h.1.1
  refine ⟨at_, hat, fun w scan hrow hnow hfew => ?_⟩
  have hdue : row.due w.now := by simp [WebhookDelivery.due, hat, hnow, h.1.2, h.2]
  have hall := scan.perm (w.deliveries.rows.filter (WebhookDelivery.due w.now))
  rw [WebhookWorld.due, List.take_of_length_le (hall.length_eq.le.trans hfew)]
  exact hall.mem_iff.mpr (List.mem_filter.mpr ⟨hrow, hdue⟩)

variable (a : DeliveryAttempt) (now : Nat) (row : WebhookDelivery)

theorem settled_sizeData (service : WebhooksService) :
    ((a.sizeData service now).apply row).Settled ↔ row.deliveredAt = none := by
  simp [settled_iff, DeliveryAttempt.sizeData, DeliveryData.apply]

theorem settled_deliveredData (res : HttpResponse) :
    ((a.deliveredData res now).apply row).Settled ↔
      (a.path = .first → row.permanentlyFailedAt = none) := by
  by_cases hfirst : a.path = .first
  · simp [settled_iff, DeliveryAttempt.deliveredData, DeliveryData.apply, hfirst]
  · simp [settled_iff, DeliveryAttempt.deliveredData, DeliveryData.apply, hfirst]

/-- What the row must be for a failure to settle it. -/
def DeliveryAttempt.FailureSettles (err : DeliveryError) : Prop :=
  if a.path = .manual then row.deliveredAt.isSome ∨ row.nextRetryAt.isSome
  else isRetryable err ∧ a.attemptCount < MAX_AUTO_ATTEMPTS ∨ row.deliveredAt = none

instance (err : DeliveryError) : Decidable (a.FailureSettles row err) :=
  inferInstanceAs (Decidable (ite _ _ _))

theorem settled_failureData (err : DeliveryError) (random : JsRandom) :
    ((a.failureData err random now).apply row).Settled ↔ a.FailureSettles row err := by
  unfold DeliveryAttempt.failureData DeliveryAttempt.FailureSettles handleFailure
  by_cases hmanual : a.path = .manual
  · simp [settled_iff, DeliveryData.apply, hmanual]
  · by_cases hagain : isRetryable err ∧ ¬ MAX_AUTO_ATTEMPTS ≤ a.attemptCount
    · have hless : a.attemptCount < MAX_AUTO_ATTEMPTS := Nat.lt_of_not_le hagain.2
      simp [settled_iff, DeliveryData.apply, hmanual, hagain.1, hless]
    · have hover : ¬ (isRetryable err ∧ a.attemptCount < MAX_AUTO_ATTEMPTS) :=
        fun h => hagain ⟨h.1, Nat.not_le.mpr h.2⟩
      simp only [if_neg hmanual, if_neg hagain, hover, false_or]
      simp [settled_iff, DeliveryData.apply]

end Rows

section Steps

/-- What the row must be for the step of its only attempt to leave it settled,
if the step is the attempt's last. -/
def WebhookCall.EndsSettled (input : WebhookInput) (row : WebhookDelivery) : WebhookCall → Prop
  | .statement next =>
      -- an exception cuts the attempt off
      if input.thrown.isSome then row.Settled
      else match next with
        | .skip _ => row.deliveredAt = none
        | .handleFailure a err => a.FailureSettles row err
        | _ => True
  | .answer a =>
      -- a manual retry goes on with the exception of the metric or of the request
      a.path = .manual ∨
        -- the failure of another attempt is never written
        if (axiosPost input.receiver).isOk ∧ input.thrown = none then
          a.path = .first → row.permanentlyFailedAt = none
        else row.Settled
  | _ => True

instance (input : WebhookInput) (row : WebhookDelivery) (call : WebhookCall) :
    Decidable (call.EndsSettled input row) :=
  match call with
  | .statement next =>
      match next with
      | .skip _ => inferInstanceAs (Decidable (ite _ _ _))
      | .handleFailure _ _ => inferInstanceAs (Decidable (ite _ _ _))
      | .register .. | .update .. | .updateRow .. | .rotateSecret .. | .rotateRow ..
      | .rotateRecord .. | .dispatch .. | .deliverOnce .. | .retryDelivery .. | .retryRow ..
      | .replayFailedDeliveries .. | .replayRows .. | .bulkTest _ | .processRetryQueue
      | .executeRetry .. => inferInstanceAs (Decidable (ite _ _ True))
  | .answer _ => inferInstanceAs (Decidable (_ ∨ ite _ _ _))
  | .post _ | .ping .. => inferInstanceAs (Decidable True)

/-- An attempt goes on, or it ends and leaves its row settled exactly where it may. -/
theorem attempt_step (crypto : Crypto) (input : WebhookInput) (w : WebhookWorld)
    {call : WebhookCall} {d : String} (h : call.attempting = some d) :
    (∃ next, (call.resume crypto input w).2 = [next] ∧ next.attempting = some d ∧
      ∀ row, call.EndsSettled input row) ∨
    ((call.resume crypto input w).2 = [] ∧ ∃ f : WebhookDelivery → WebhookDelivery,
      (call.resume crypto input w).1.deliveries.find? d = (w.deliveries.find? d).map f ∧
      ∀ row, (f row).Settled ↔ call.EndsSettled input row) := by
  have hstep := webhook_resumed crypto input w call
  generalize (call.resume crypto input w).1 = w' at hstep ⊢
  generalize (call.resume crypto input w).2 = calls at hstep ⊢
  cases hstep with
  | thrown hthrown =>
      refine .inr ⟨rfl, id, by simp, fun row => ?_⟩
      simp [WebhookCall.EndsSettled, hthrown]
  | aside hcall => exact absurd (hcall.symm.trans h) (by rintro ⟨⟩)
  | created => exact absurd h (by rintro ⟨⟩)
  | read => exact absurd h (by rintro ⟨⟩)
  | selected => exact absurd h (by rintro ⟨⟩)
  | claimed hthrown =>
      cases h
      refine .inl ⟨_, rfl, attempting_proceed _, fun row => ?_⟩
      simp [WebhookCall.EndsSettled, hthrown]
  | skipped hthrown hfinish =>
      cases h
      refine .inr ⟨rfl, _, find?_finish hfinish, fun row => ?_⟩
      rw [settled_sizeData]
      simp [WebhookCall.EndsSettled, hthrown]
  | posted => exact .inl ⟨_, rfl, h, fun _ => trivial⟩
  | rejected hpath => exact .inl ⟨_, rfl, h, fun _ => .inl hpath⟩
  | abandoned hpath hfails =>
      refine .inr ⟨rfl, id, by simp, fun row => ?_⟩
      have hnot : ¬ ((axiosPost input.receiver).isOk ∧ input.thrown = none) := by
        rintro ⟨hok, hthrown⟩
        cases hreply : axiosPost input.receiver with
        | error err => simp [hreply, Except.isOk, Except.toBool] at hok
        | ok res => exact hfails res hreply hthrown
      simp only [WebhookCall.EndsSettled, hpath, if_neg hnot, false_or, id_eq]
  | delivered hpath hthrown hres =>
      cases h
      refine .inr ⟨rfl, _, find?_updateDelivery w _ _, fun row => ?_⟩
      rw [settled_deliveredData]
      simp [WebhookCall.EndsSettled, hpath, hthrown, hres, Except.isOk, Except.toBool]
  | deliveredManually hpath => exact .inl ⟨_, rfl, h, fun _ => .inl hpath⟩
  | failed hthrown hfinish =>
      cases h
      refine .inr ⟨rfl, _, find?_finish hfinish, fun row => ?_⟩
      rw [settled_failureData]
      simp [WebhookCall.EndsSettled, hthrown]

/-- A step of something else leaves a delivery alone, or it begins with its first
attempt. -/
theorem other_step (crypto : Crypto) (input : WebhookInput) (w : WebhookWorld)
    {call : WebhookCall} {d : String} (h : call.attempting ≠ some d) :
    (call.resume crypto input w).1.deliveries.find? d = w.deliveries.find? d ∨
      w.deliveries.find? d = none ∧
        ∃ next ∈ (call.resume crypto input w).2, next.attempting = some d := by
  have hstep := webhook_resumed crypto input w call
  generalize (call.resume crypto input w).1 = w' at hstep ⊢
  generalize (call.resume crypto input w).2 = calls at hstep ⊢
  cases hstep with
  | thrown => exact .inl rfl
  | aside _ hdeliveries => exact .inl (by rw [hdeliveries])
  | created _ hfree =>
      by_cases hd : d = input.id
      · subst hd
        exact .inr ⟨hfree, _, List.mem_singleton_self _, attempting_proceed _⟩
      · exact .inl (Table.find?_insert_of_ne _ hd)
  | read => exact .inl rfl
  | selected => exact .inl rfl
  | claimed =>
      exact .inl (find?_updateDelivery_of_ne w _ fun hsame => h (congrArg some hsame.symm))
  | skipped _ hlast => exact .inl (find?_finish_of_ne hlast fun hsame => h (congrArg some hsame))
  | posted => exact .inl rfl
  | rejected => exact .inl rfl
  | abandoned => exact .inl rfl
  | delivered =>
      exact .inl (find?_updateDelivery_of_ne w _ fun hsame => h (congrArg some hsame.symm))
  | deliveredManually =>
      exact .inl (find?_updateDelivery_of_ne w _ fun hsame => h (congrArg some hsame.symm))
  | failed _ hlast => exact .inl (find?_finish_of_ne hlast fun hsame => h (congrArg some hsame))

/-- No attempt for the delivery is in flight. -/
def Quiet (calls : List WebhookCall) (d : String) : Prop :=
  ∀ call ∈ calls, call.attempting ≠ some d

theorem quiet_append {pre post : List WebhookCall} {d : String} :
    Quiet (pre ++ post) d ↔ Quiet pre d ∧ Quiet post d :=
  List.forall_mem_append

def NoneStuck (s : WebhookPool) : Prop :=
  ∀ d row, s.shared.deliveries.find? d = some row → Quiet s.inflight d → row.Settled

/-- Where an action takes the last attempt of a delivery, the row allows it to
end there. -/
def LeavesSettled (s : WebhookPool) : WebhookAction → Prop
  | .resume index input =>
      ∀ call ∈ s.inflight[index]?, ∀ d ∈ call.attempting, Quiet (s.inflight.eraseIdx index) d →
        ∀ row ∈ s.shared.deliveries.find? d, call.EndsSettled input row
  | .crash index =>
      ∀ call ∈ s.inflight[index]?, ∀ d ∈ call.attempting, Quiet (s.inflight.eraseIdx index) d →
        ∀ row ∈ s.shared.deliveries.find? d, row.Settled
  | _ => True

instance (calls : List WebhookCall) (d : String) : Decidable (Quiet calls d) :=
  inferInstanceAs (Decidable (∀ call ∈ calls, _))

instance (s : WebhookPool) (a : WebhookAction) : Decidable (LeavesSettled s a) :=
  match a with
  | .resume index _ => inferInstanceAs (Decidable (∀ call ∈ s.inflight[index]?, _))
  | .crash index => inferInstanceAs (Decidable (∀ call ∈ s.inflight[index]?, _))
  | .begin _ | .external _ => inferInstanceAs (Decidable True)

end Steps

section Runs

variable (crypto : Crypto)

theorem attempting_of_starts {call : WebhookCall} (h : call.starts) : call.attempting = none := by
  cases call with
  | statement next => cases next <;> first | rfl | exact absurd h (by simp [WebhookCall.starts])
  | post a => exact absurd h (by simp [WebhookCall.starts])
  | answer a => exact absurd h (by simp [WebhookCall.starts])
  | ping ep request => rfl

/-- From a state without stuck deliveries, a step leads to one exactly if it may. -/
theorem noneStuck_step (s : WebhookPool) (a : WebhookAction) (h : NoneStuck s) :
    NoneStuck ((webhooks crypto).step s a) ↔ LeavesSettled s a := by
  rcases (webhooks crypto).step_cases s a with ⟨call, rfl, hstarts, hnext⟩ |
    ⟨index, input, call, pre, post, rfl, hcall, hsplit, herase, hnext⟩ |
    ⟨index, call, pre, post, rfl, hcall, hsplit, herase, hnext⟩ |
    ⟨event, rfl, hnext⟩ | ⟨hnext, hidle⟩
  · rw [hnext]
    refine iff_of_true ?_ trivial
    intro d row hrow hquiet
    exact h d row hrow (quiet_append.mp hquiet).1
  · rw [hnext]
    constructor
    · intro hafter call' hcall' d hd hquiet row hrow
      obtain rfl : call = call' := Option.some.inj (hcall.symm.trans hcall')
      rw [herase] at hquiet
      rcases attempt_step crypto input s.shared hd with ⟨next, -, -, hends⟩ |
        ⟨hdone, f, hfind, hsettled⟩
      · exact hends row
      · refine (hsettled row).mp (hafter d (f row) ?_ ?_)
        · exact hfind.trans (by rw [hrow, Option.map_some])
        · change Quiet (pre ++ ((call.resume crypto input s.shared).2 ++ post)) d
          rw [hdone]
          exact hquiet
    · intro hallowed d row hrow hquiet
      obtain ⟨hpre, hrest⟩ := quiet_append.mp hquiet
      obtain ⟨hnew, hpost⟩ := quiet_append.mp hrest
      by_cases hd : call.attempting = some d
      · rcases attempt_step crypto input s.shared hd with ⟨next, hlist, hattempting, -⟩ |
          ⟨-, f, hfind, hsettled⟩
        · have hmem : next ∈ (call.resume crypto input s.shared).2 := by simp [hlist]
          exact absurd hattempting (hnew next hmem)
        · obtain ⟨old, hold, rfl⟩ := Option.map_eq_some_iff.mp (hfind.symm.trans hrow)
          refine (hsettled old).mpr (hallowed call hcall d hd ?_ old hold)
          rw [herase]
          exact quiet_append.mpr ⟨hpre, hpost⟩
      · rcases other_step crypto input s.shared hd with hsame | ⟨-, next, hmem, hattempting⟩
        · refine h d row (hsame.symm.trans hrow) ?_
          rw [hsplit]
          exact quiet_append.mpr ⟨hpre, List.forall_mem_cons.mpr ⟨hd, hpost⟩⟩
        · exact absurd hattempting (hnew next hmem)
  · rw [hnext]
    constructor
    · intro hafter call' hcall' d hd hquiet row hrow
      rw [herase] at hquiet
      exact hafter d row hrow hquiet
    · intro hallowed d row hrow hquiet
      by_cases hd : call.attempting = some d
      · refine hallowed call hcall d hd ?_ row hrow
        rw [herase]
        exact hquiet
      · obtain ⟨hpre, hpost⟩ := quiet_append.mp hquiet
        refine h d row hrow ?_
        rw [hsplit]
        exact quiet_append.mpr ⟨hpre, List.forall_mem_cons.mpr ⟨hd, hpost⟩⟩
  · rw [hnext]
    exact iff_of_true h trivial
  · rw [hnext]
    refine iff_of_true h ?_
    cases a with
    | begin call => trivial
    | resume index input =>
        intro call hcall
        exact absurd ((hidle index (.inl ⟨input, rfl⟩)).symm.trans hcall) nofun
    | crash index =>
        intro call hcall
        exact absurd ((hidle index (.inr rfl)).symm.trans hcall) nofun
    | external event => trivial

/-- No path writes `deliveredAt` but with a time. -/
theorem succeeded_resume (input : WebhookInput) (w : WebhookWorld) (call : WebhookCall)
    {d : String} {row : WebhookDelivery} (hrow : w.deliveries.find? d = some row)
    (h : row.succeeded) :
    ∃ row', (call.resume crypto input w).1.deliveries.find? d = some row' ∧ row'.succeeded := by
  have hstep := webhook_resumed crypto input w call
  generalize (call.resume crypto input w).1 = w' at hstep ⊢
  generalize (call.resume crypto input w).2 = calls at hstep
  have hwritten {id : String} {data : DeliveryData} (hdata : data.deliveredAt ≠ some none)
      (hself : w'.deliveries.find? id = (w.deliveries.find? id).map data.apply)
      (hother : id ≠ d → w'.deliveries.find? d = w.deliveries.find? d) :
      ∃ row', w'.deliveries.find? d = some row' ∧ row'.succeeded := by
    by_cases hd : id = d
    · subst hd
      refine ⟨data.apply row, by rw [hself, hrow, Option.map_some], ?_⟩
      unfold WebhookDelivery.succeeded DeliveryData.apply
      match hcolumn : data.deliveredAt with
      | none => exact h
      | some none => exact absurd hcolumn hdata
      | some (some _) => rfl
    · exact ⟨row, (hother hd).trans hrow, h⟩
  cases hstep with
  | thrown => exact ⟨row, hrow, h⟩
  | aside _ hdeliveries => exact ⟨row, by rw [hdeliveries, hrow], h⟩
  | created _ hfree =>
      refine ⟨row, ?_, h⟩
      rw [Table.find?_insert, hrow]
      rfl
  | read => exact ⟨row, hrow, h⟩
  | selected => exact ⟨row, hrow, h⟩
  | claimed =>
      refine hwritten ?_ (find?_updateDelivery w _ _)
        fun hd => find?_updateDelivery_of_ne w _ hd.symm
      exact nofun
  | skipped _ hlast =>
      refine hwritten ?_ (find?_finish hlast) (find?_finish_of_ne hlast)
      exact nofun
  | posted => exact ⟨row, hrow, h⟩
  | rejected => exact ⟨row, hrow, h⟩
  | abandoned => exact ⟨row, hrow, h⟩
  | delivered =>
      exact hwritten (by simp [DeliveryAttempt.deliveredData]) (find?_updateDelivery w _ _)
        fun hd => find?_updateDelivery_of_ne w _ hd.symm
  | deliveredManually =>
      exact hwritten (by simp [DeliveryAttempt.deliveredData]) (find?_updateDelivery w _ _)
        fun hd => find?_updateDelivery_of_ne w _ hd.symm
  | failed _ hlast =>
      refine hwritten ?_ (find?_finish hlast) (find?_finish_of_ne hlast)
      unfold DeliveryAttempt.failureData handleFailure
      split
      · exact nofun
      · split <;> exact nofun

/-- A delivery that has succeeded has succeeded in every later state. -/
def StaysSucceeded (s t : WebhookPool) : Prop :=
  ∀ d row, s.shared.deliveries.find? d = some row → row.succeeded →
    ∃ row', t.shared.deliveries.find? d = some row' ∧ row'.succeeded

theorem staysSucceeded_step (s : WebhookPool) (a : WebhookAction) :
    StaysSucceeded s ((webhooks crypto).step s a) := by
  intro d row hrow h
  refine (webhooks crypto).shared_step
    (Q := fun w => ∃ row', w.deliveries.find? d = some row' ∧ row'.succeeded)
    a ⟨row, hrow, h⟩ ?_ ?_
  · exact fun input call _ => succeeded_resume crypto input s.shared call hrow h
  · exact fun _ => ⟨row, hrow, h⟩

/-- Without an attempt in flight every delivery is exactly one of delivered,
scheduled (and then selected later) and given up, and what has been delivered
stays so: this holds along a run exactly if, whenever the last attempt of a
delivery ends, the row allows it. -/
theorem no_delivery_stuck_iff (s : WebhookPool) (hstart : NoneStuck s)
    (actions : List WebhookAction) :
    ((∀ pre post, actions = pre ++ post → NoneStuck ((webhooks crypto).run pre s)) ∧
        (∀ row : WebhookDelivery, row.scheduled → row.SelectedLater) ∧
        ∀ pre mid post, actions = pre ++ mid ++ post →
          StaysSucceeded ((webhooks crypto).run pre s) ((webhooks crypto).run (pre ++ mid) s)) ↔
      Along (webhooks crypto).step LeavesSettled s actions := by
  have hsucceeded : ∀ pre mid post, actions = pre ++ mid ++ post →
      StaysSucceeded ((webhooks crypto).run pre s) ((webhooks crypto).run (pre ++ mid) s) := by
    refine (along_iff_between ?_ ?_ s actions).mpr ?_
    · exact fun _ _ row hrow h => ⟨row, hrow, h⟩
    · intro s t u hst htu d row hrow h
      obtain ⟨row', hrow', h'⟩ := hst d row hrow h
      exact htu d row' hrow' h'
    · exact along_iff_forall.mpr fun _ a _ _ => staysSucceeded_step crypto _ a
  rw [and_iff_left ⟨fun _ => selectedLater_of_scheduled, hsucceeded⟩]
  exact along_iff_invariant (fun t a ht => noneStuck_step crypto t a ht) hstart actions

end Runs

section Demonstration

def demoEndpoint : WebhookEndpoint where
  id := "ep-1"
  userId := "u-1"
  url := "https://receiver.example/hook"
  secret := "67ef9de3b81d374fd9cb2d95844f2db27236cdedb89a36f68d9f18c0091b6cf2"
  events := ["PROOF_SUBMITTED"]
  headers := none
  active := true

def demoEndpoints : Table WebhookEndpoint.id := ⟨[demoEndpoint], by simp⟩

def demoPool : WebhookPool := freshPool demoEndpoints 0

def demoPlaintext : HexText 64 where
  text := "3f3f3f3f3f3f3f3f3f3f3f3f3f3f3f3f3f3f3f3f3f3f3f3f3f3f3f3f3f3f3f3f"
  hex := List.all_eq_true.mp (by decide)
  size := by decide

/-- A step without exceptions, with the status that the receiver answers. -/
def answering (status : Nat) : WebhookInput where
  service := ⟨262144, "webhook-headers-encryption-key-1"⟩
  id := "d-1"
  plaintext := demoPlaintext
  iv _ := "AAAAAAAAAAAAAAAA"
  random := 0
  requestId := none
  thrown := none
  receiver := .response ⟨status, ""⟩
  scan := ⟨id, fun _ => .refl _⟩

def proofSubmitted : WebhookCall :=
  .statement (.dispatch "PROOF_SUBMITTED" (.obj [("shipmentId", .str "SHIP-1")]))

def manualRetry : WebhookCall := .statement (.retryDelivery "ep-1" "d-1" "u-1")

/-- The first attempt, up to its request, and then with its answer. -/
def firstRequest : List WebhookAction :=
  [.begin proofSubmitted, .resume 0 (answering 200), .resume 0 (answering 200),
    .resume 0 (answering 200)]

def firstAnswer (status : Nat) : List WebhookAction :=
  firstRequest ++ [.resume 0 (answering status)]

/-- A stand-in: no digest and no header matters for what becomes of a delivery. -/
def plainCrypto : Crypto where
  sha256 _ := demoPlaintext
  hmacSha256 _ _ := demoPlaintext
  cipher _ _ _ := none
  decipher _ _ _ _ := none

/-- The first attempt succeeds, and the owner sends the delivery again. -/
def deliveredRun : List WebhookAction :=
  firstAnswer 200 ++
    [.begin manualRetry, .resume 0 (answering 200), .resume 0 (answering 200),
      .resume 0 (answering 200), .resume 0 (answering 200), .resume 0 (answering 200)]

theorem sent_delivery_settled :
    NoneStuck ((webhooks plainCrypto).run deliveredRun demoPool) ∧
      (((webhooks plainCrypto).run deliveredRun demoPool).shared.deliveries.find? "d-1").map
        WebhookDelivery.describeRetryStatus = some .succeeded := by
  have hrun : Along (webhooks plainCrypto).step LeavesSettled demoPool deliveredRun := by
    refine ⟨trivial, ?_, ?_, ?_, ?_, trivial, ?_, ?_, ?_, ?_, ?_, trivial⟩ <;> decide +kernel
  have hsettled := (no_delivery_stuck_iff plainCrypto demoPool (fun _ _ h => nomatch h) _).mpr hrun
  exact ⟨hsettled.1 deliveredRun [] rfl, by decide +kernel⟩

/-- The process ends between the insert of the row and the request. -/
def crashedFirst : List WebhookAction :=
  [.begin proofSubmitted, .resume 0 (answering 200), .resume 0 (answering 200), .crash 0]

theorem not_noneStuck_of_any {s : WebhookPool} {d : String}
    (h : (s.shared.deliveries.find? d).any fun row =>
      s.inflight.isEmpty && !decide row.Settled) : ¬ NoneStuck s := by
  intro hnone
  obtain ⟨row, hrow, hstuck⟩ := (Option.any_eq_true _ _).mp h
  obtain ⟨hempty, hunsettled⟩ := Bool.and_eq_true_iff.mp hstuck
  rw [List.isEmpty_iff] at hempty
  have hsettled : row.Settled := hnone d row hrow (hempty ▸ fun _ h => nomatch h)
  simp [hsettled] at hunsettled

/-- The receiver is down for a moment, or it refuses the event, or the process ends:
nothing will ever be done about the delivery again. -/
theorem deliveries_stuck :
    ¬ NoneStuck ((webhooks plainCrypto).run (firstAnswer 503) demoPool) ∧
      ¬ NoneStuck ((webhooks plainCrypto).run (firstAnswer 404) demoPool) ∧
      ¬ NoneStuck ((webhooks plainCrypto).run crashedFirst demoPool) := by
  refine ⟨?_, ?_, ?_⟩
  all_goals exact not_noneStuck_of_any (d := "d-1") (by decide +kernel)

end Demonstration

end ChainSettle
