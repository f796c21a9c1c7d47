import ChainSettle.Kyc.Lapse

/-!
Which user a provider's result reaches. A webhook names a reference and an
address, and it is applied to a user that has one of the two. The row is read
first and written by its id afterwards, so a case may be withdrawn or begun anew
in between.
-/

namespace ChainSettle

open Lib

section Lookup

variable {crypto : Crypto} {service : KycService}

/-- The result that a call applies. -/
def KycStatement.result? : KycStatement → Option KycWebhookDto
  | .handleWebhook dto _ => some dto
  | .webhookUpdate _ dto _ => some dto
  | _ => none

theorem webhookUpdate_not_mem_expireNext {users : List (KycUser × Nat)} {user : KycUser}
    {dto : KycWebhookDto} {verifiedAt : Nat} :
    .webhookUpdate user dto verifiedAt ∉ expireNext users := by
  cases users with
  | nil => exact List.not_mem_nil
  | cons first users =>
      intro h
      cases List.mem_singleton.mp h

theorem remindNext_ne_webhookUpdate {reminder : KycReminder} {users : List KycUser}
    {passes : List KycReminder} {now : Nat} {user : KycUser} {dto : KycWebhookDto}
    {verifiedAt : Nat} :
    .webhookUpdate user dto verifiedAt ≠ remindNext reminder users passes now := by
  unfold remindNext
  split <;> exact fun h => nomatch h

/-- Only a webhook's lookup is followed by its update. -/
theorem lookup_of_webhookUpdate {input : KycInput} {w : KycWorld} {call : KycStatement}
    {user : KycUser} {dto : KycWebhookDto} {verifiedAt : Nat}
    (h : .webhookUpdate user dto verifiedAt ∈ (call.resume crypto service input w).2) :
    (∃ signature, call = .handleWebhook dto signature) ∧ user ∈ w.users.rows ∧ dto.finds user := by
  unfold KycStatement.resume at h
  split at h
  · cases h
  cases call with
  | handleWebhook dto' signature =>
      simp only [KycStatement.exec] at h
      split at h
      · split at h
        · cases h
        · rename_i found hfound
          cases List.mem_singleton.mp h
          exact ⟨⟨signature, rfl⟩, Scan.mem_of_findFirst hfound⟩
      · cases h
  | initiateVerification userId =>
      simp only [KycStatement.exec] at h
      split at h
      · cases h
      · cases List.mem_singleton.mp h
  | initiateUpdate userId reference submittedAt => cases h
  | webhookUpdate other dto' verifiedAt' => cases h
  | withdraw userId id =>
      simp only [KycStatement.exec] at h
      split at h
      · cases h
      · split at h
        · cases h
        · split at h
          · cases h
          · cases List.mem_singleton.mp h
  | withdrawUpdate userId => cases h
  | decide userId decision =>
      simp only [KycStatement.exec] at h
      split at h
      · cases h
      · split at h
        · cases h
        · cases List.mem_singleton.mp h
  | decideUpdate userId decision =>
      simp only [KycStatement.exec] at h
      split at h <;> cases h
  | run => exact absurd (List.mem_singleton.mp h) remindNext_ne_webhookUpdate
  | remindFind reminder passes now =>
      exact absurd (List.mem_singleton.mp h) remindNext_ne_webhookUpdate
  | remindUpdate reminder other users passes now =>
      exact absurd (List.mem_singleton.mp h) remindNext_ne_webhookUpdate
  | expireLapsed => exact absurd h webhookUpdate_not_mem_expireNext
  | expireUpdate other users => exact absurd h webhookUpdate_not_mem_expireNext

/-- The look-up of a webhook, at the action `a`: it finds the user, and the update that it
leaves to do has been waiting ever since. -/
structure LookUp (crypto : Crypto) (service : KycService) (s : KycPool)
    (earlier : List KycAction) (a : KycAction) (later : List KycAction) (user : KycUser)
    (dto : KycWebhookDto) (verifiedAt : Nat) : Prop where
  read : ∃ index input signature, a = .resume index input ∧
    ((kyc crypto service).run earlier s).inflight[index]? = some (.handleWebhook dto signature)
  stored : ((kyc crypto service).run earlier s).shared.users.find? user.id = some user
  finds : dto.finds user
  since : ∀ pre post, later = pre ++ post →
    .webhookUpdate user dto verifiedAt ∈
      ((kyc crypto service).run (earlier ++ a :: pre) s).inflight

theorem lookUp_of_inflight {s : KycPool} (hidle : s.inflight = []) (actions : List KycAction)
    {user : KycUser} {dto : KycWebhookDto} {verifiedAt : Nat}
    (hcall : .webhookUpdate user dto verifiedAt ∈ ((kyc crypto service).run actions s).inflight) :
    ∃ earlier a later, actions = earlier ++ a :: later ∧
      LookUp crypto service s earlier a later user dto verifiedAt := by
  obtain ⟨earlier, a, later, hsplit, hleft⟩ :=
    (kyc crypto service).left_of_mem_inflight hidle actions hcall
  refine ⟨earlier, a, later, hsplit, ?_⟩
  rcases hleft.by_step with ⟨-, hstart⟩ | ⟨index, input, parent, rfl, hparent, hnext⟩
  · cases hstart
  · obtain ⟨⟨signature, rfl⟩, hmem, hfinds⟩ := lookup_of_webhookUpdate hnext
    exact ⟨⟨index, input, signature, rfl, hparent⟩, Table.find?_of_mem hmem, hfinds, hleft.since⟩

/-- What a webhook's statements change. -/
theorem find?_of_result {input : KycInput} {w : KycWorld} {call : KycStatement} {dto : KycWebhookDto}
    (hresult : call.result? = some dto) {id : String}
    (hchanged : (call.resume crypto service input w).1.users.find? id ≠ w.users.find? id) :
    ∃ user verifiedAt, call = .webhookUpdate user dto verifiedAt ∧
      ∃ current, w.users.find? id = some current ∧ user.id = id := by
  unfold KycStatement.resume at hchanged
  split at hchanged
  · exact absurd rfl hchanged
  cases call with
  | handleWebhook dto' signature =>
      simp only [KycStatement.exec] at hchanged
      split at hchanged
      · split at hchanged <;> exact absurd rfl hchanged
      · exact absurd rfl hchanged
  | webhookUpdate user dto' verifiedAt =>
      cases hresult
      have husers : (KycStatement.exec crypto service input w
          (.webhookUpdate user dto verifiedAt)).1.users =
          w.users.modify user.id (KycUser.reported service dto verifiedAt)
            (KycUser.reported_id _ _ _) := by
        simp only [KycStatement.exec]
        split <;> rfl
      have hid : id = user.id := by
        by_contra hother
        exact hchanged (husers ▸ Table.find?_modify_of_ne _ _ _ hother)
      subst hid
      rw [husers, Table.find?_modify_self] at hchanged
      cases hrow : w.users.find? user.id with
      | none => exact absurd (by rw [hrow, Option.map_none]) hchanged
      | some current => exact ⟨user, verifiedAt, rfl, current, rfl, rfl⟩
  | _ => cases hresult

/-- The case of the user whom a webhook has found is the one it reports on, or its look-up,
among `users`, found nobody with its reference and the user by his address. -/
def OwnResult (users : Table KycUser.id) (dto : KycWebhookDto) (user current : KycUser) : Prop :=
  current.kycReference = some dto.reference ∨
    (∀ other ∈ users.rows, other.kycReference ≠ some dto.reference) ∧
      user.stellarAddress = dto.stellarAddress

/-- The reference and the address of a webhook name no two users. -/
def KycWebhookDto.Unambiguous (dto : KycWebhookDto) (users : Table KycUser.id) : Prop :=
  ∀ user ∈ users.rows, ∀ other ∈ users.rows, dto.finds user → dto.finds other → user.id = other.id

instance (dto : KycWebhookDto) (users : Table KycUser.id) : Decidable (dto.Unambiguous users) :=
  inferInstanceAs (Decidable (∀ user ∈ users.rows, ∀ other ∈ users.rows,
    dto.finds user → dto.finds other → user.id = other.id))

theorem ownResult_of_lookup {users : Table KycUser.id} {dto : KycWebhookDto}
    {user current : KycUser} (hstored : users.find? user.id = some user) (hfinds : dto.finds user)
    (hplain : dto.Unambiguous users) (hreference : current.kycReference = user.kycReference) :
    OwnResult users dto user current := by
  by_cases hown : user.kycReference = some dto.reference
  · exact .inl (hreference.trans hown)
  · have hfound : user.stellarAddress = dto.stellarAddress := by
      simpa [KycWebhookDto.finds, hown] using hfinds
    refine .inr ⟨fun other hother hhas => hown ?_, hfound⟩
    have hmem : user ∈ users.rows := Table.mem_of_find? hstored
    have hid := hplain user hmem other hother hfinds (by simp [KycWebhookDto.finds, hhas])
    have hsame : some other = some user := by
      rw [← Table.find?_of_mem hother, ← hid, hstored]
    rwa [← Option.some.inj hsame]

/-- In every run, a webhook changes no one but the user whom its look-up has found. It
changes him only if his case is the one it reports on, or nobody had its reference when it
looked and he has its address; this holds where he still has the reference that he had then,
and where the reference and the address named no two users. -/
theorem result_reaches_looked_up_user (crypto : Crypto) (service : KycService) (s : KycPool)
    (hidle : s.inflight = []) (actions : List KycAction) (index : Nat) (input : KycInput)
    (call : KycStatement)
    (hcall : ((kyc crypto service).run actions s).inflight[index]? = some call)
    (dto : KycWebhookDto) (hresult : call.result? = some dto) (id : String)
    (hchanged : ((kyc crypto service).step ((kyc crypto service).run actions s)
        (.resume index input)).shared.users.find? id ≠
      ((kyc crypto service).run actions s).shared.users.find? id) :
    ∃ earlier a later user verifiedAt current, actions = earlier ++ a :: later ∧
      call = .webhookUpdate user dto verifiedAt ∧ user.id = id ∧
      LookUp crypto service s earlier a later user dto verifiedAt ∧
      ((kyc crypto service).run actions s).shared.users.find? id = some current ∧
      (current.kycReference = user.kycReference →
        dto.Unambiguous ((kyc crypto service).run earlier s).shared.users →
        OwnResult ((kyc crypto service).run earlier s).shared.users dto user current) := by
  have hstep : ((kyc crypto service).step ((kyc crypto service).run actions s)
      (.resume index input)).shared =
      (call.resume crypto service input ((kyc crypto service).run actions s).shared).1 := by
    rw [(kyc crypto service).step_at input hcall]
    rfl
  rw [hstep] at hchanged
  obtain ⟨user, verifiedAt, rfl, current, hcurrent, rfl⟩ := find?_of_result hresult hchanged
  obtain ⟨earlier, a, later, hsplit, hlookup⟩ :=
    lookUp_of_inflight hidle actions (List.mem_of_getElem? hcall)
  exact ⟨earlier, a, later, user, verifiedAt, current, hsplit, rfl, rfl, hlookup, hcurrent,
    fun hreference hplain => ownResult_of_lookup hlookup.stored hlookup.finds hplain hreference⟩

/-- The result of a case that is still open. -/
def promptResult : List KycAction :=
  [.begin (.initiateVerification "u-1"), .resume 0 kycInput, .resume 0 kycInput,
    .begin reportDemoResult, .resume 0 kycInput]

def openCase : KycUser := demoKycUser.initiated "r-1" 0

theorem prompt_result_reaches_its_user :
    (((kyc kycCrypto demoKycService).step
        ((kyc kycCrypto demoKycService).run promptResult demoKycPool)
        (.resume 0 kycInput)).shared.users.find? "u-1").map
        (fun user => user.kycStatus) = some .verified ∧
    ∃ earlier a later, promptResult = earlier ++ a :: later ∧
      LookUp kycCrypto demoKycService demoKycPool earlier a later openCase demoResult 0 ∧
      OwnResult ((kyc kycCrypto demoKycService).run earlier demoKycPool).shared.users demoResult
        openCase openCase := by
  have hcurrent : ((kyc kycCrypto demoKycService).run promptResult demoKycPool).shared.users.find?
      "u-1" = some openCase := by decide +kernel
  have hverified : (((kyc kycCrypto demoKycService).step
      ((kyc kycCrypto demoKycService).run promptResult demoKycPool)
      (.resume 0 kycInput)).shared.users.find? "u-1").map
      (fun user => user.kycStatus) = some .verified := by
    decide +kernel
  refine ⟨hverified, ?_⟩
  obtain ⟨earlier, a, later, user, verifiedAt, current, hsplit, hcall, -, hlookup, hfound, hown⟩ :=
    result_reaches_looked_up_user kycCrypto demoKycService demoKycPool rfl promptResult 0 kycInput
      (.webhookUpdate openCase demoResult 0) rfl demoResult rfl "u-1" (by
        intro hsame
        rw [hsame, hcurrent] at hverified
        cases hverified)
  cases hcall
  cases hcurrent.symm.trans hfound
  -- there is one user in every state of the run
  have hplain : ∀ earlier ∈ promptResult.inits, demoResult.Unambiguous
      ((kyc kycCrypto demoKycService).run earlier demoKycPool).shared.users := by
    decide +kernel
  have hprefix : earlier ∈ promptResult.inits := by
    rw [List.mem_inits, hsplit]
    exact List.prefix_append _ _
  exact ⟨earlier, a, later, hsplit, hlookup, hown rfl (hplain earlier hprefix)⟩

/-- The user withdraws the case before its result arrives. -/
def lateResult : List KycAction :=
  [.begin (.initiateVerification "u-1"), .resume 0 kycInput, .resume 0 kycInput,
    .begin (.withdraw "u-1" "r-1"), .resume 0 kycInput, .resume 0 kycInput,
    .begin reportDemoResult, .resume 0 kycInput]

/-- The result of the withdrawn case verifies the user, found by his address. -/
theorem late_result_verifies_withdrawn_case :
    (((kyc kycCrypto demoKycService).run lateResult demoKycPool).shared.users.find? "u-1").map
        (fun user => (user.kycStatus, user.kycReference)) = some (.unverified, none) ∧
      (((kyc kycCrypto demoKycService).run lateResult demoKycPool).inflight[0]?).bind
        KycStatement.result? = some demoResult ∧
      (((kyc kycCrypto demoKycService).step
        ((kyc kycCrypto demoKycService).run lateResult demoKycPool)
        (.resume 0 kycInput)).shared.users.find? "u-1").map
        (fun user => (user.kycStatus, user.kycReference)) = some (.verified, some "r-1") := by
  decide +kernel

end Lookup

end ChainSettle
