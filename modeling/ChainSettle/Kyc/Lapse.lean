import ChainSettle.Semantics.Kyc

/-!
How long a verification is good for. The provider's webhook sets `kycExpiresAt`
to its own instant plus the validity; a manual approval writes the status alone,
so the row keeps whatever date it has, or none. The expiry job writes the users
it selected, whatever has become of them since.
-/

namespace ChainSettle

open Lib

section Steps

variable {crypto : Crypto} {service : KycService}

/-- What the expiry job still has to write. -/
def KycStatement.selecting : KycStatement → List (KycUser × Nat)
  | .expireUpdate user users => user :: users
  | _ => []

/-- Everything a resumed call can do to the users and their verifications. -/
inductive KycResumed (service : KycService) (input : KycInput) (w : KycWorld) :
    KycStatement → KycWorld → List KycStatement → Prop where
  /-- a read or a refusal -/
  | aside {next : KycStatement} {w' : KycWorld} {calls : List KycStatement} :
      w'.users = w.users → w'.grants = w.grants → w'.reverts = w.reverts →
      (∀ call ∈ calls, call.selecting = []) → KycResumed service input w next w' calls
  /-- a write that verifies nobody -/
  | written {next : KycStatement} {w' : KycWorld} {calls : List KycStatement} (id : String)
      (f : KycUser → KycUser) (hf : ∀ user, (f user).id = user.id) :
      w'.users = w.users.modify id f hf →
      (∀ user, (f user).kycStatus = .verified →
        user.kycStatus = .verified ∧ (f user).kycExpiresAt = user.kycExpiresAt) →
      w'.grants = w.grants → w'.reverts = w.reverts → (∀ call ∈ calls, call.selecting = []) →
      KycResumed service input w next w' calls
  | granted {user : KycUser} {dto : KycWebhookDto} {verifiedAt : Nat} {w' : KycWorld} :
      ¬ input.thrown → dto.status = .verified →
      w'.users = w.users.modify user.id (KycUser.reported service dto verifiedAt)
        (KycUser.reported_id _ _ _) →
      w'.grants = (user.id, verifiedAt) :: w.grants → w'.reverts = w.reverts →
      KycResumed service input w (.webhookUpdate user dto verifiedAt) w' []
  | approved {userId : String} {w' : KycWorld} :
      ¬ input.thrown → ((w.users.find? userId).any fun user => user.kycStatus = .pending) →
      KycResumed service input w (.decideUpdate userId .verified) w' []
  | selected {calls : List KycStatement} :
      (∀ call ∈ calls, ∀ selected ∈ call.selecting,
        selected.2 = (w.grantsOf selected.1.id).length) →
      KycResumed service input w .expireLapsed w calls
  | reverted {user : KycUser × Nat} {users : List (KycUser × Nat)} {w' : KycWorld}
      {calls : List KycStatement} :
      w'.users = w.users.modify user.1.id KycUser.expired (fun _ => rfl) → w'.grants = w.grants →
      w'.reverts = ⟨user.1.id, user.2, (w.grantsOf user.1.id).length⟩ :: w.reverts →
      (∀ call ∈ calls, ∀ selected ∈ call.selecting, selected ∈ users) →
      KycResumed service input w (.expireUpdate user users) w' calls

theorem selecting_remindNext (reminder : KycReminder) (users : List KycUser)
    (passes : List KycReminder) (now : Nat) :
    (remindNext reminder users passes now).selecting = [] := by
  unfold remindNext
  split <;> rfl

theorem selecting_expireNext (users : List (KycUser × Nat)) :
    ∀ call ∈ expireNext users, call.selecting = users := by
  intro call hmem
  cases users with
  | nil => cases hmem
  | cons user users =>
      rw [List.mem_singleton.mp hmem]
      rfl

theorem kyc_resumed (crypto : Crypto) (service : KycService) (input : KycInput) (w : KycWorld)
    (next : KycStatement) :
    KycResumed service input w next (next.resume crypto service input w).1
      (next.resume crypto service input w).2 := by
  have hrefused {next : KycStatement} (status : Nat) (message : String) :
      KycResumed service input w next (w.fail status message).1 (w.fail status message).2 :=
    .aside rfl rfl rfl (List.forall_mem_nil _)
  have hread {next call : KycStatement} (h : call.selecting = []) :
      KycResumed service input w next w [call] :=
    .aside rfl rfl rfl (List.forall_mem_singleton.mpr h)
  unfold KycStatement.resume
  split
  · exact .aside rfl rfl rfl (List.forall_mem_nil _)
  · rename_i hthrown
    cases next with
    | initiateVerification userId =>
        simp only [KycStatement.exec]
        split
        · exact hrefused _ _
        · exact hread rfl
    | initiateUpdate userId reference submittedAt =>
        exact .written userId (KycUser.initiated reference submittedAt) (fun _ => rfl) rfl
          (fun _ h => by cases h) rfl rfl (List.forall_mem_nil _)
    | handleWebhook dto signature =>
        simp only [KycStatement.exec]
        split
        · split
          · exact hrefused _ _
          · exact hread rfl
        · exact hrefused _ _
    | webhookUpdate user dto verifiedAt =>
        by_cases hverified : dto.status = .verified
        · refine .granted hthrown hverified ?_ ?_ ?_
          all_goals simp only [KycStatement.exec, hverified, ↓reduceIte]
          all_goals rfl
        · refine .written user.id (KycUser.reported service dto verifiedAt)
            (KycUser.reported_id _ _ _) ?_ ?_ ?_ ?_ (List.forall_mem_nil _)
          · simp only [KycStatement.exec, hverified, ↓reduceIte]
            rfl
          · intro other hother
            simp only [KycUser.reported, hverified, ↓reduceIte] at hother
            cases hstatus : dto.status <;> simp_all [KycResult.status]
          · simp only [KycStatement.exec, hverified, ↓reduceIte]
            rfl
          · simp only [KycStatement.exec, hverified, ↓reduceIte]
            rfl
    | withdraw userId id =>
        simp only [KycStatement.exec]
        split
        · exact hrefused _ _
        · split
          · exact hrefused _ _
          · split
            · exact hrefused _ _
            · exact hread rfl
    | withdrawUpdate userId =>
        exact .written userId KycUser.withdrawn (fun _ => rfl) rfl (fun _ h => by cases h) rfl rfl
          (List.forall_mem_nil _)
    | decide userId decision =>
        simp only [KycStatement.exec]
        split
        · exact hrefused _ _
        · split
          · exact hrefused _ _
          · exact hread rfl
    | decideUpdate userId decision =>
        simp only [KycStatement.exec]
        split
        · rename_i hpending
          by_cases hverified : decision = .verified
          · subst hverified
            exact .approved hthrown hpending
          · simp only [hverified, ↓reduceIte]
            exact .written userId (KycUser.decided decision) (fun _ => rfl) rfl
              (fun _ h => absurd h hverified) rfl rfl (List.forall_mem_nil _)
        · exact hrefused _ _
    | run => exact hread (selecting_remindNext _ _ _ _)
    | remindFind reminder passes now => exact hread (selecting_remindNext _ _ _ _)
    | remindUpdate reminder user users passes now =>
        refine .written user.id (KycUser.reminded reminder now) (KycUser.reminded_id _ _) rfl ?_ rfl
          rfl (List.forall_mem_singleton.mpr (selecting_remindNext _ _ _ _))
        intro other hother
        cases reminder <;> exact ⟨hother, rfl⟩
    | expireLapsed =>
        refine .selected fun call hcall selected hselected => ?_
        rw [selecting_expireNext _ call hcall] at hselected
        obtain ⟨user, -, rfl⟩ := List.mem_map.mp hselected
        rfl
    | expireUpdate user users =>
        refine .reverted rfl rfl rfl fun call hcall selected hselected => ?_
        rwa [selecting_expireNext _ call hcall] at hselected

end Steps

section Dates

/-- A verified user's date is that of his latest verification. -/
def Lapses (service : KycService) (w : KycWorld) : Prop :=
  ∀ id user, w.users.find? id = some user → user.kycStatus = .verified →
    ∃ instant, (w.grantsOf id).head? = some instant ∧
      user.kycExpiresAt = some (service.expiresAt instant)

/-- The expiry job has taken back only verifications it had selected. -/
def RevertsSelected (w : KycWorld) : Prop :=
  ∀ revert ∈ w.reverts, revert.written = revert.selected

/-- The users that runs of the expiry job have selected are still verified as they were. -/
def SelectedStill (w : KycWorld) (call : KycStatement) : Prop :=
  ∀ selected ∈ call.selecting, selected.2 = (w.grantsOf selected.1.id).length

/-- A write that verifies a user is the provider's, at a time when no run of the
expiry job still has him selected. -/
def KycStatement.GrantsApart (s : KycPool) : KycStatement → Prop
  | .webhookUpdate user dto _ =>
      dto.status = .verified →
        ∀ call ∈ s.inflight, ∀ selected ∈ call.selecting, selected.1.id ≠ user.id
  | .decideUpdate userId decision =>
      decision = .verified →
        ¬ (s.shared.users.find? userId).any fun user => user.kycStatus = .pending
  | _ => True

def GrantsApart (s : KycPool) : KycAction → Prop
  | .resume index input => input.thrown ∨ ∀ call ∈ s.inflight[index]?, call.GrantsApart s
  | _ => True

instance (s : KycPool) (call : KycStatement) : Decidable (call.GrantsApart s) :=
  match call with
  | .webhookUpdate .. => inferInstanceAs (Decidable (_ → _))
  | .decideUpdate .. => inferInstanceAs (Decidable (_ → _))
  | .initiateVerification _ | .initiateUpdate .. | .handleWebhook .. | .withdraw .. |
    .withdrawUpdate _ | .decide .. | .run | .remindFind .. | .remindUpdate .. | .expireLapsed |
    .expireUpdate .. => inferInstanceAs (Decidable True)

instance (s : KycPool) (a : KycAction) : Decidable (GrantsApart s a) :=
  match a with
  | .resume .. => inferInstanceAs (Decidable (_ ∨ _))
  | .begin _ | .crash _ | .external _ => inferInstanceAs (Decidable True)

variable {crypto : Crypto} {service : KycService}

theorem grantsOf_grant {w w' : KycWorld} {userId : String} {instant : Nat}
    (h : w'.grants = (userId, instant) :: w.grants) (id : String) :
    w'.grantsOf id = if id = userId then instant :: w.grantsOf id else w.grantsOf id := by
  unfold KycWorld.grantsOf
  rw [h, List.filter_cons]
  by_cases hid : id = userId
  · simp [hid]
  · simp [hid, Ne.symm hid]

theorem grantsOf_congr {w w' : KycWorld} (h : w'.grants = w.grants) (id : String) :
    w'.grantsOf id = w.grantsOf id := by
  unfold KycWorld.grantsOf
  rw [h]

/-- A write that verifies nobody. -/
theorem Lapses.modify {w w' : KycWorld} (h : Lapses service w) {id : String}
    {f : KycUser → KycUser} {hf : ∀ user, (f user).id = user.id}
    (husers : w'.users = w.users.modify id f hf)
    (hdates : ∀ user, (f user).kycStatus = .verified →
      user.kycStatus = .verified ∧ (f user).kycExpiresAt = user.kycExpiresAt)
    (hgrants : w'.grants = w.grants) : Lapses service w' := by
  intro other user hfind hverified
  rw [grantsOf_congr hgrants]
  rw [husers, Table.find?_modify] at hfind
  split at hfind
  · rename_i hother
    obtain ⟨before, hbefore, rfl⟩ := Option.map_eq_some_iff.mp hfind
    obtain ⟨hstatus, hexpires⟩ := hdates before hverified
    rw [hexpires, hother]
    exact h id before hbefore hstatus
  · exact h other user hfind hverified

/-- A verification by the provider sets the date with the status. -/
theorem Lapses.granted {w w' : KycWorld} (h : Lapses service w) {user : KycUser}
    {dto : KycWebhookDto} {verifiedAt : Nat} (hverified : dto.status = .verified)
    (husers : w'.users = w.users.modify user.id (KycUser.reported service dto verifiedAt)
      (KycUser.reported_id _ _ _))
    (hgrants : w'.grants = (user.id, verifiedAt) :: w.grants) : Lapses service w' := by
  intro other row hfind hstatus
  rw [grantsOf_grant hgrants]
  rw [husers, Table.find?_modify] at hfind
  split at hfind
  · rename_i hother
    obtain ⟨before, -, rfl⟩ := Option.map_eq_some_iff.mp hfind
    refine ⟨verifiedAt, by rw [if_pos hother]; rfl, ?_⟩
    simp only [KycUser.reported, hverified, ↓reduceIte]
  · rename_i hother
    rw [if_neg hother]
    exact h other row hfind hstatus

structure LapseInvariant (service : KycService) (s : KycPool) : Prop where
  lapses : Lapses service s.shared
  reverts : RevertsSelected s.shared
  selected : ∀ call ∈ s.inflight, SelectedStill s.shared call

theorem SelectedStill.congr {w w' : KycWorld} {call : KycStatement} (h : SelectedStill w call)
    (hgrants : ∀ selected ∈ call.selecting, w'.grantsOf selected.1.id = w.grantsOf selected.1.id) :
    SelectedStill w' call := by
  intro selected hmem
  rw [hgrants selected hmem]
  exact h selected hmem

theorem selectedStill_of_nil {w : KycWorld} {call : KycStatement} (h : call.selecting = []) :
    SelectedStill w call := by
  intro selected hmem
  rw [h] at hmem
  cases hmem

/-- What a resumed call does to the invariant, with the selections of the calls it
leaves behind and of all others. -/
theorem lapses_resume {s : KycPool} (h : LapseInvariant service s) {index : Nat} {input : KycInput}
    {call : KycStatement} (hcall : s.inflight[index]? = some call)
    (hallowed : GrantsApart s (.resume index input)) {w' : KycWorld} {calls : List KycStatement}
    (hstep : KycResumed service input s.shared call w' calls) :
    Lapses service w' ∧ RevertsSelected w' ∧ (∀ next ∈ calls, SelectedStill w' next) ∧
      ∀ other ∈ s.inflight, SelectedStill w' other := by
  have hkept (hgrants : w'.grants = s.shared.grants) :
      ∀ other ∈ s.inflight, SelectedStill w' other := fun other hmem =>
    (h.selected other hmem).congr fun _ _ => grantsOf_congr hgrants _
  have hsame (hreverts : w'.reverts = s.shared.reverts) : RevertsSelected w' := by
    unfold RevertsSelected
    rw [hreverts]
    exact h.reverts
  cases hstep with
  | aside husers hgrants hreverts hcalls =>
      refine ⟨?_, hsame hreverts, fun next hnext => selectedStill_of_nil (hcalls next hnext),
        hkept hgrants⟩
      intro id user hfind hverified
      rw [grantsOf_congr hgrants]
      exact h.lapses id user (husers ▸ hfind) hverified
  | written id f hf husers hdates hgrants hreverts hcalls =>
      exact ⟨h.lapses.modify husers hdates hgrants, hsame hreverts,
        fun next hnext => selectedStill_of_nil (hcalls next hnext), hkept hgrants⟩
  | granted hthrown hverified husers hgrants hreverts =>
      have hapart := (hallowed.resolve_left hthrown) _ hcall hverified
      refine ⟨h.lapses.granted hverified husers hgrants, hsame hreverts,
        List.forall_mem_nil _, fun other hmem => (h.selected other hmem).congr ?_⟩
      intro selected hselected
      rw [grantsOf_grant hgrants, if_neg (hapart other hmem selected hselected)]
  | approved hthrown hpending =>
      exact absurd hpending ((hallowed.resolve_left hthrown) _ hcall rfl)
  | selected hcalls => exact ⟨h.lapses, h.reverts, hcalls, h.selected⟩
  | @reverted user users w' calls husers hgrants hreverts hcalls =>
      have hbefore := h.selected _ (List.mem_of_getElem? hcall)
      refine ⟨h.lapses.modify husers (fun _ hexpired => nomatch hexpired) hgrants, ?_, ?_,
        hkept hgrants⟩
      · rw [RevertsSelected, hreverts]
        exact List.forall_mem_cons.mpr ⟨(hbefore user (.head _)).symm, h.reverts⟩
      · intro next hnext selected hselected
        rw [grantsOf_congr hgrants]
        exact hbefore selected (.tail _ (hcalls next hnext selected hselected))

theorem selecting_of_starts {call : KycStatement} (h : call.starts) : call.selecting = [] := by
  cases call with
  | expireUpdate user users => cases h
  | _ => rfl

theorem lapseInvariant_step (crypto : Crypto) (s : KycPool) (a : KycAction)
    (h : LapseInvariant service s) (hallowed : GrantsApart s a) :
    LapseInvariant service ((kyc crypto service).step s a) := by
  have hkeeps := (kyc crypto service).keeps_step
    (Q := fun w => Lapses service w ∧ RevertsSelected w) (P := SelectedStill) a
    ⟨h.lapses, h.reverts⟩ h.selected
    (fun call _ hstart => selectedStill_of_nil (selecting_of_starts hstart))
    (fun index input call haction hcall => by
      subst haction
      obtain ⟨hlapses, hreverts, hnew, hothers⟩ :=
        lapses_resume h hcall hallowed (kyc_resumed crypto service input s.shared call)
      exact ⟨⟨hlapses, hreverts⟩, hnew,
        fun other hmem => hothers other (List.mem_of_mem_eraseIdx hmem)⟩)
    (fun event => ⟨⟨h.lapses, h.reverts⟩, h.selected⟩)
  exact ⟨hkeeps.1.1, hkeeps.1.2, hkeeps.2⟩

theorem isActiveVerification_iff {user : User} {expiresAt : Nat}
    (hverified : user.kycStatus = .verified) (hexpires : user.kycExpiresAt = some expiresAt)
    (now : Nat) :
    isActiveVerification (some user) now ↔ now < expiresAt := by
  simp [isActiveVerification, hverified, hexpires]

/-- Along a run in which only the provider verifies users, and none while the
expiry job still has him selected, every verification is good for its validity
and is taken back by no earlier selection. -/
theorem verifications_lapse_while_apart (crypto : Crypto) (service : KycService) (s : KycPool)
    (hidle : s.inflight = []) (hlapses : Lapses service s.shared)
    (hreverts : RevertsSelected s.shared) (actions : List KycAction)
    (hrun : Along (kyc crypto service).step GrantsApart s actions) :
    ∀ pre post, actions = pre ++ post →
      (∀ id user, ((kyc crypto service).run pre s).shared.users.find? id = some user →
        user.kycStatus = .verified →
        ∃ instant, (((kyc crypto service).run pre s).shared.grantsOf id).head? = some instant ∧
          user.kycExpiresAt = some (service.expiresAt instant) ∧
          ∀ now, isActiveVerification (some user.toUser) now ↔ now < service.expiresAt instant) ∧
      RevertsSelected ((kyc crypto service).run pre s).shared := by
  have hstart : LapseInvariant service s := by
    refine ⟨hlapses, hreverts, ?_⟩
    rw [hidle]
    exact List.forall_mem_nil _
  intro pre post hsplit
  have hinv : LapseInvariant service ((kyc crypto service).run pre s) :=
    hrun.invariant (lapseInvariant_step crypto) hstart pre post hsplit
  refine ⟨fun id user hfind hverified => ?_, hinv.reverts⟩
  obtain ⟨instant, hlatest, hexpires⟩ := hinv.lapses id user hfind hverified
  exact ⟨instant, hlatest, hexpires, isActiveVerification_iff hverified hexpires⟩

end Dates

section Examples

def demoKycService : KycService := ⟨"kyc-webhook-secret", 365⟩

/-- The signature of `demoResult` under the secret of `demoKycService`. -/
def demoSignature : HexText 64 where
  text := "1cb2815b24572b87282f44216b91eba9025f5ff0a472d06d4e9b0ddb9e93b4da"
  hex := List.all_eq_true.mp (by decide)
  size := by decide

/-- Nothing else is signed here. -/
def kycCrypto : Crypto where
  sha256 _ := demoSignature
  hmacSha256 _ _ := demoSignature
  cipher _ _ _ := none
  decipher _ _ _ _ := none

def demoKycUser : KycUser where
  stellarAddress := "GUSER"
  role := .buyer
  kycStatus := .unverified
  kycExpiresAt := none
  id := "u-1"
  kycReference := none
  kycSubmittedAt := none
  kycVerifiedAt := none
  kycReminder30dSentAt := none
  kycReminder7dSentAt := none

def demoKycPool : KycPool where
  shared := ⟨⟨[demoKycUser], by decide⟩, 0, [], [], []⟩
  inflight := []

def kycInput : KycInput := ⟨"r-1", ⟨id, fun _ => .refl _⟩, false⟩

def demoResult : KycWebhookDto := ⟨"r-1", "GUSER", .verified⟩

def reportDemoResult : KycStatement := .handleWebhook demoResult (some demoSignature.text)

/-- The provider verifies the user, and the expiry job runs a year later. -/
def verifiedYear : List KycAction :=
  [.begin (.initiateVerification "u-1"), .resume 0 kycInput, .resume 0 kycInput,
    .begin reportDemoResult, .resume 0 kycInput, .resume 0 kycInput,
    .external (365 * DAY_MS), .begin .run, .resume 0 kycInput, .resume 0 kycInput,
    .resume 0 kycInput, .resume 0 kycInput]

theorem verification_lapses_after_a_year :
    ((kyc kycCrypto demoKycService).run verifiedYear demoKycPool).shared.reverts =
        [⟨"u-1", 1, 1⟩] ∧
      RevertsSelected ((kyc kycCrypto demoKycService).run verifiedYear demoKycPool).shared := by
  have hverified : Lapses demoKycService demoKycPool.shared := by
    intro id user hfind hstatus
    have huser : user = demoKycUser := List.mem_singleton.mp (Table.mem_of_find? hfind)
    rw [huser] at hstatus
    cases hstatus
  have hrun : Along (kyc kycCrypto demoKycService).step GrantsApart demoKycPool verifiedYear := by
    decide +kernel
  exact ⟨by decide +kernel, (verifications_lapse_while_apart kycCrypto demoKycService demoKycPool rfl
    hverified (List.forall_mem_nil _) verifiedYear hrun verifiedYear []
    (List.append_nil _).symm).2⟩

/-- An administrator approves the case. -/
def manualApproval : List KycAction :=
  [.begin (.initiateVerification "u-1"), .resume 0 kycInput, .resume 0 kycInput,
    .begin (.decide "u-1" .verified), .resume 0 kycInput, .resume 0 kycInput]

/-- The user is verified anew while the expiry job has him selected. -/
def overtakenExpiry : List KycAction :=
  verifiedYear.take 11 ++
    [.begin reportDemoResult, .resume 1 kycInput, .resume 1 kycInput, .resume 0 kycInput]

/-- A manual approval has no date and is good for ever; and the expiry job takes
back a verification that was granted after it selected the user. -/
theorem approval_never_lapses :
    (((kyc kycCrypto demoKycService).run manualApproval demoKycPool).shared.users.find? "u-1").map
        (fun user => (user.kycStatus, user.kycExpiresAt,
          isActiveVerification (some user.toUser) (1000 * 365 * DAY_MS))) =
        some (.verified, none, true) ∧
      ((kyc kycCrypto demoKycService).run manualApproval demoKycPool).shared.grantsOf "u-1" = [0] ∧
      ¬ Lapses demoKycService
        ((kyc kycCrypto demoKycService).run manualApproval demoKycPool).shared ∧
      ¬ RevertsSelected
        ((kyc kycCrypto demoKycService).run overtakenExpiry demoKycPool).shared := by
  have hreverted : ((kyc kycCrypto demoKycService).run overtakenExpiry demoKycPool).shared.reverts =
      [⟨"u-1", 1, 2⟩] := by
    decide +kernel
  refine ⟨by decide +kernel, by decide +kernel, fun hlapses => ?_, fun hreverts => ?_⟩
  · have hundated : (((kyc kycCrypto demoKycService).run manualApproval
        demoKycPool).shared.users.find? "u-1").any
          (fun user => user.kycStatus = .verified && user.kycExpiresAt.isNone) = true := by
      decide +kernel
    obtain ⟨user, hfind, huser⟩ := (Option.any_eq_true _ _).mp hundated
    simp only [Bool.and_eq_true, decide_eq_true_eq, Option.isNone_iff_eq_none] at huser
    obtain ⟨instant, -, hexpires⟩ := hlapses "u-1" user hfind huser.1
    rw [huser.2] at hexpires
    cases hexpires
  · rw [RevertsSelected, hreverted] at hreverts
    exact absurd (hreverts _ (.head _)) (by decide)

end Examples

end ChainSettle
