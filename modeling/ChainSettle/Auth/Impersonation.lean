import ChainSettle.Semantics.AuditLog
import ChainSettle.Auth.ForceLogout

/-!
Impersonation. The token that `impersonateUser` signs says who the administrator is,
and the guard and the interceptor look for that in `request.user`. `JwtStrategy` does
not hand it on: it returns the id, the address, the role and the session. So the guard
lets every request pass, and what is recorded is recorded as the user's own.
-/

namespace ChainSettle

open Lib

section Recognition

def Successful (response : Except HttpError Nat) : Prop :=
  ∃ statusCode, response = .ok statusCode ∧ 200 ≤ statusCode ∧ statusCode < 300

/-- A request of the impersonated user is kept from a marked route, and if it succeeds
it is recorded with the administrator as the actor and the user as the target. -/
def Recognised (text : CaseMapping) (user : RequestUser) (token : Jwt) (route : Route)
    (request : ApiRequest) (response : Except HttpError Nat) : Prop :=
  (route.marked → ∃ error, ImpersonationGuard.canActivate route (some user) = .error error) ∧
  (Successful response → ∃ record target,
    AuditLogInterceptor.intercept text { request with user := some user } response = some record ∧
    record.metadata.impersonation = some target ∧ target.targetUserId = token.sub ∧
    ∃ impersonator ∈ token.impersonator, record.actorId = some impersonator.1 ∧
      record.actorAddress = impersonator.2)

/-- The strategy keeps nothing of the impersonation. -/
theorem user_of_validateJwt {w : AuthWorld} {token : Jwt} {user : RequestUser}
    (h : w.validateJwt token = .ok user) : user.id = token.sub ∧ user.isImpersonation = none := by
  unfold AuthWorld.validateJwt at h
  split at h
  · cases h
  · split at h
    · cases h
    · cases h
      exact ⟨rfl, rfl⟩

/-- The guard passes a user that is not marked as impersonated. -/
theorem canActivate_of_unmarked (route : Route) {user : RequestUser}
    (h : user.isImpersonation = none) :
    ImpersonationGuard.canActivate route (some user) = .ok true := by
  have hnot : isImpersonation (some user) = false := by simp [isImpersonation, h]
  unfold ImpersonationGuard.canActivate
  rw [hnot]
  dsimp only
  split <;> rfl

/-- No record says that it is about an impersonation. -/
theorem impersonation_of_unmarked {text : CaseMapping} {request : ApiRequest} {user : RequestUser}
    {response : Except HttpError Nat} {record : RecordAuditLogDto}
    (h : AuditLogInterceptor.intercept text { request with user := some user } response =
      some record) (hunmarked : user.isImpersonation = none) :
    record.metadata.impersonation = none ∧ record.actorId = some user.id := by
  have hnot : isImpersonation (some user) = false := by simp [isImpersonation, hunmarked]
  unfold AuditLogInterceptor.intercept at h
  dsimp only at h
  rw [hnot] at h
  split at h
  · cases h
  · split at h
    · cases h
    · split at h
      · cases h
        exact ⟨rfl, rfl⟩
      · cases h

end Recognition

section Runs

variable (config : AuthConfig) (crypto : Crypto)

/-- The impersonations that were started name their administrator, who is another
user. -/
def ImpersonationsNamed (w : AuthWorld) : Prop :=
  ∀ token, .impersonated token ∈ w.log →
    ∃ adminId adminAddress, token.impersonator = some (adminId, adminAddress) ∧ token.sub ≠ adminId

theorem ImpersonationsNamed.record {w w' : AuthWorld} (h : ImpersonationsNamed w)
    (hlog : w'.log = w.log ∨ ∃ event, w'.log = event :: w.log ∧
      ∀ token, event = .impersonated token → ∃ adminId adminAddress,
        token.impersonator = some (adminId, adminAddress) ∧ token.sub ≠ adminId) :
    ImpersonationsNamed w' := by
  intro token hmem
  rcases hlog with hsame | ⟨event, hnew, hevent⟩
  · exact h token (hsame ▸ hmem)
  · rw [hnew] at hmem
    rcases List.mem_cons.mp hmem with hself | hbefore
    · exact hevent token hself.symm
    · exact h token hbefore

theorem impersonationsNamed_account {w : AuthWorld} (h : ImpersonationsNamed w)
    (input : AuthInput) (next : AccountStatement) :
    ImpersonationsNamed (next.exec config input w).1 := by
  have hother (event : AuthEvent) (hevent : ∀ token, event ≠ .impersonated token)
      (accounts : Table Account.id) :
      ImpersonationsNamed ({ w with accounts := accounts }.record event) :=
    h.record (.inr ⟨event, rfl, fun token hself => absurd hself (hevent token)⟩)
  cases next with
  | impersonateUser targetUserId adminId adminAddress =>
      simp only [AccountStatement.exec]
      split
      · exact hother _ (by simp) w.accounts
      · rename_i hdistinct
        split
        · exact hother _ (by simp) w.accounts
        · rename_i target htarget
          split
          · exact hother _ (by simp) w.accounts
          · split
            · exact hother _ (by simp) w.accounts
            · refine h.record (.inr ⟨_, rfl, fun token hself => ?_⟩)
              cases hself
              have hid : target.id = targetUserId := Table.key_of_find? htarget
              exact ⟨adminId, adminAddress, rfl, hid.trans_ne hdistinct⟩
  | deactivateUpdate userId deactivatedAt => exact hother _ (by simp) _
  | setActiveUpdate id deactivatedAt => exact hother _ (by simp) _
  | updateRole callerId id newRole => exact hother _ (by simp) _
  | _ =>
      simp only [AccountStatement.exec]
      repeat' split
      all_goals first | exact h | exact hother _ (by simp) w.accounts

theorem impersonationsNamed_resume {w : AuthWorld} (h : ImpersonationsNamed w)
    (input : AuthInput) (call : AuthStatement) :
    ImpersonationsNamed (call.resume config crypto input w).1 := by
  have hframe : AuthFrame call.group w (call.resume config crypto input w).1 :=
    resume_frame input w call
  have haside (hg : call.group ≠ .account) :
      ImpersonationsNamed (call.resume config crypto input w).1 := by
    refine h.record ((hframe.log_of_ne hg).imp_right ?_)
    rintro ⟨event, hlog, hgroup⟩
    refine ⟨event, hlog, ?_⟩
    rintro token rfl
    exact absurd rfl hgroup
  cases call with
  | account next =>
      simp only [AuthStatement.resume]
      split
      · exact h
      · exact impersonationsNamed_account config h input next
  | _ => exact haside (by simp [AuthStatement.group])

theorem impersonationsNamed_run (accounts : Table Account.id) (now : Nat)
    (actions : List AuthAction) :
    ImpersonationsNamed ((auth config crypto).run actions (freshAuth accounts now)).shared := by
  refine List.foldlRecOn (motive := fun s : AuthPool => ImpersonationsNamed s.shared) actions
    (auth config crypto).step ?_ ?_
  · intro token hmem
    cases hmem
  · intro s hs a _
    exact (auth config crypto).shared_step a hs
      (fun input call _ => impersonationsNamed_resume config crypto hs input call) (fun _ => hs)

/-- A request with a token of `impersonateUser`, after any history: it is recognised if
and only if there is nothing to recognise, on a route that is not marked and with a
response that is not a success. What is recorded names the impersonated user as the
actor, who is not the administrator. -/
theorem impersonation_recognised_iff (accounts : Table Account.id) (now : Nat)
    (actions : List AuthAction) (text : CaseMapping) (token : Jwt) (user : RequestUser)
    (route : Route) (request : ApiRequest) (response : Except HttpError Nat)
    (hissued : .impersonated token ∈
      ((auth config crypto).run actions (freshAuth accounts now)).shared.log)
    (hvalid : ((auth config crypto).run actions (freshAuth accounts now)).shared.validateJwt token =
      .ok user) :
    (Recognised text user token route request response ↔
      route.marked = false ∧ ¬ Successful response) ∧
    ∀ record, AuditLogInterceptor.intercept text { request with user := some user } response =
        some record →
      record.actorId = some token.sub ∧
        ∃ impersonator ∈ token.impersonator, impersonator.1 ≠ token.sub := by
  obtain ⟨hid, hunmarked⟩ := user_of_validateJwt hvalid
  refine ⟨⟨?_, ?_⟩, fun record hrecord => ?_⟩
  · rintro ⟨hblocked, hrecorded⟩
    refine ⟨?_, fun hsuccess => ?_⟩
    · by_contra hmarked
      obtain ⟨error, herror⟩ := hblocked (Bool.of_not_eq_false hmarked)
      rw [canActivate_of_unmarked route hunmarked] at herror
      cases herror
    · obtain ⟨record, target, hrecord, htarget, -⟩ := hrecorded hsuccess
      rw [(impersonation_of_unmarked hrecord hunmarked).1] at htarget
      cases htarget
  · rintro ⟨hopen, hfailed⟩
    refine ⟨fun hmarked => ?_, fun hsuccess => absurd hsuccess hfailed⟩
    rw [hopen] at hmarked
    cases hmarked
  · obtain ⟨adminId, adminAddress, hnamed, hother⟩ :=
      impersonationsNamed_run config crypto accounts now actions token hissued
    refine ⟨hid ▸ (impersonation_of_unmarked hrecord hunmarked).2, _, hnamed, Ne.symm hother⟩

def impersonatedUser : RequestUser where
  id := "u-1"
  stellarAddress := some "GUSER"
  role := some .buyer
  jti := none

/-- `GET /users/me`, and `PUT /users/me/avatar` under `@BlockImpersonation`. -/
def readProfile : ApiRequest :=
  ⟨.get, "/api/v1/users/me", none, none, none, some "127.0.0.1", none⟩

def putAvatar : ApiRequest :=
  ⟨.put, "/api/v1/users/me/avatar", none, none, none, some "127.0.0.1", none⟩

theorem missing_profile_recognised :
    Recognised CaseMapping.ascii impersonatedUser impersonationToken ⟨none, none⟩ readProfile
      (.error ⟨404, "User not found"⟩) := by
  refine (impersonation_recognised_iff demoAuthConfig demoAuthCrypto demoAccounts 0
    credentialsIssued CaseMapping.ascii impersonationToken impersonatedUser ⟨none, none⟩ readProfile
    (.error ⟨404, "User not found"⟩) (by decide +kernel) (by decide +kernel)).1.mpr ⟨rfl, ?_⟩
  rintro ⟨statusCode, hresponse, -⟩
  cases hresponse

/-- The impersonated request is accepted, passes the guard of a marked route, and is
recorded as the user's own; a read is not recorded at all. -/
theorem impersonation_unrecognised :
    ((auth demoAuthConfig demoAuthCrypto).run credentialsIssued demoAuthPool).shared.validateJwt
        impersonationToken = .ok impersonatedUser ∧
      ImpersonationGuard.canActivate ⟨some true, none⟩ (some impersonatedUser) = .ok true ∧
      ((AuditLogInterceptor.intercept CaseMapping.ascii
        { putAvatar with user := some impersonatedUser } (.ok 200)).map fun record =>
          (record.actorId, record.actorAddress, record.action, record.metadata.impersonation)) =
        some (some "u-1", "GUSER", "user.update", none) ∧
      (AuditLogInterceptor.intercept CaseMapping.ascii
        { readProfile with user := some impersonatedUser } (.ok 200)).isNone := by
  decide +kernel

end Runs

end ChainSettle
