import ChainSettle.Semantics.Accounts

/-!
The calls that issue, check and withdraw credentials: logins, API keys, forced
logouts, deactivation, role changes, and the verification of e-mail addresses and
phone numbers. A call is cut before each of its Redis and database statements; what
the code computes between two of them belongs to the step before.

`AuditLogService.record` never throws and is left out, and so are the columns that
no check reads. An update of an account follows a read that found it.
-/

namespace ChainSettle

open Lib

section Config

structure AuthConfig where
  /-- `JWT_EXPIRES_IN` -/
  jwtExpiresIn : String
  /-- `IMPERSONATION_JWT_EXPIRES_IN` -/
  impersonationExpiresIn : String
  /-- the seconds for which jsonwebtoken signs a token with an `expiresIn` -/
  lifetime : String → Nat
  /-- `Keypair.fromPublicKey(address).verify(message, signature)`; `none` throws -/
  verifySignature : String → String → String → Option Bool

/-- Milliseconds. -/
def NONCE_TTL_MS : Nat := 5 * 60 * 1000

def PHONE_OTP_TTL_MS : Nat := 5 * 60 * 1000

def VERIFICATION_TOKEN_TTL_MS : Nat := 24 * 60 * 60 * 1000

/-- The seconds of `/^(\d+)([smhd]?)$/`, seven days for any other text. -/
def parseExpiry (expiry : String) : Nat :=
  let digits := expiry.toList.takeWhile Char.isDigit
  let value := digits.foldl (fun value digit => 10 * value + (digit.toNat - 48)) 0
  if digits.isEmpty then 7 * 24 * 60 * 60
  else
    match expiry.toList.dropWhile Char.isDigit with
    | [] => value
    | ['s'] => value
    | ['m'] => value * 60
    | ['h'] => value * 3600
    | ['d'] => value * 86400
    | _ => 7 * 24 * 60 * 60

def AuthConfig.jwtTtlSeconds (config : AuthConfig) : Nat := parseExpiry config.jwtExpiresIn

/-- `redis.set` with a time to live in seconds; with zero there is none. -/
def ttlFrom (now ttlSeconds : Nat) : Option Nat :=
  if ttlSeconds = 0 then none else some (now + ttlSeconds * 1000)

/-- `jwt.sign`. -/
def AuthConfig.sign (config : AuthConfig) (now : Nat) (expiresIn : String) (claims : Jwt) : Jwt :=
  { claims with iat := now / 1000, exp := now / 1000 + config.lifetime expiresIn }

def loginClaims (account : Account) (jti : String) : Jwt :=
  ⟨account.id, some account.stellarAddress, some account.role, some jti, none, none, 0, 0⟩

def impersonationClaims (target : Account) (adminId adminAddress : String) : Jwt :=
  ⟨target.id, some target.stellarAddress, some target.role, none, none,
    some (adminId, adminAddress), 0, 0⟩

def mailClaims (userId email : String) : Jwt :=
  ⟨userId, none, none, none, some email, none, 0, 0⟩

/-- The inputs of a step: what is drawn at random, how many ACTIVE shipments the
user has, and whether the statement throws. -/
structure AuthInput where
  id : String
  jti : String
  random : String
  plaintext : String
  otp : String
  activeShipments : Nat
  thrown : Bool

end Config

section Statements

inductive LoginStatement where
  | generateNonce (stellarAddress : String)
  | login (dto : LoginDto)
  | clearNonce (dto : LoginDto) (nonce : String)
  | upsertUser (dto : LoginDto) (nonce : String)
  | registerSession (dto : LoginDto) (nonce : String) (token : Jwt)

inductive ApiKeyStatement where
  | create (userId name : String) (scopes : List String) (expiresAt : Option Nat)
  | rotate (userId id : String) (gracePeriodSeconds : Option Nat)
  | rotateTransaction (existing : ApiKey) (now : Nat) (gracePeriodEndsAt : Option Nat)
  | revoke (userId id : String)
  | revokeUpdate (id : String) (now : Nat)

/-- A call of `revokeAllSessions`, by the user himself or for a forced logout. -/
structure Revocation where
  userId : String
  currentJti : String
  includeCurrent : Bool
  forced : Option ForceLogout

inductive LogoutStatement where
  | forceLogoutUser (targetUserId : String) (revokeApiKeys : Bool)
  | revokeAllSessions (call : Revocation)
  /-- the sessions left to be blocked, of those the call has found -/
  | block (call : Revocation) (jti : String) (jtis found : List String) (failed : Bool)
  | removeSessions (call : Revocation) (found : List String)
  | sweep (call : ForceLogout)

inductive AccountStatement where
  | impersonateUser (targetUserId adminId adminAddress : String)
  | deactivateUser (userId : String)
  | countActive (userId : String)
  | deactivateUpdate (userId : String) (deactivatedAt : Nat)
  | adminSetActive (id : String) (active : Bool) (adminId : String)
  | setActiveUpdate (id : String) (deactivatedAt : Option Nat)
  /-- with the token that the request carries -/
  | updateUserRole (token : Jwt) (id : String) (newRole : UserRole)
  | readUser (callerId id : String) (newRole : UserRole)
  | updateRole (callerId id : String) (newRole : UserRole)

inductive EmailStatement where
  | updateProfile (userId email : String)
  | checkUnused (userId email : String)
  /-- `sendVerificationEmail`, of `updateProfile` or of a resend -/
  | storeToken (token : Jwt) (email : String) (profile : Bool)
  | sendEmail (token : Jwt) (email : String) (profile : Bool)
  | setPendingEmail (userId email : String)
  | resendVerificationEmail (userId : String)
  | verifyEmail (token : Jwt)
  | findPending (token : Jwt) (email : String)
  | findExisting (token : Jwt) (email : String)
  | setEmail (token : Jwt) (email : String)
  | clearToken (token : Jwt)

inductive PhoneStatement where
  | sendPhoneVerificationOtp (userId phoneNumber : String)
  | storeOtp (userId phoneNumber otp : String)
  | storePending (userId phoneNumber otp : String)
  | verifyPhone (userId otp : String)
  | getPending (userId otp : String) (storedOtp : Option String)
  | clearOtp (userId otp pendingPhone : String)
  | clearPending (userId otp pendingPhone : String)
  | setPhone (userId otp pendingPhone : String)

end Statements

section Execution

variable (config : AuthConfig) (crypto : Crypto) (input : AuthInput) (w : AuthWorld)

def AuthWorld.refuse {κ : Type} (status : Nat) (message : String) : AuthWorld × List κ :=
  (w.record (.refused ⟨status, message⟩), [])

def nonceText (stellarAddress : String) (now : Nat) (random : String) : String :=
  "chainsettle:" ++ stellarAddress ++ ":" ++ toString now ++ ":" ++ random

def LoginStatement.exec : LoginStatement → AuthWorld × List LoginStatement
  | .generateNonce stellarAddress =>
      let nonce := nonceText stellarAddress w.now input.random
      ({ w with nonces := w.nonces.set stellarAddress nonce (some (w.now + NONCE_TTL_MS)) }.record
        (.nonceGenerated stellarAddress nonce), [])
  | .login dto =>
      match truthyText (w.nonces.get w.now dto.stellarAddress) with
      | none => w.refuse 401 "Nonce expired or not found. Request a new one."
      | some nonce =>
          if config.verifySignature dto.stellarAddress nonce dto.signature = some true then
            (w, [.clearNonce dto nonce])
          else w.refuse 401 "Signature verification failed"
  | .clearNonce dto nonce =>
      ({ w with nonces := w.nonces.del dto.stellarAddress }.record
        (.nonceUsed dto.stellarAddress nonce), [.upsertUser dto nonce])
  | .upsertUser dto nonce =>
      match w.findAddress dto.stellarAddress with
      | some account =>
          (w, [.registerSession dto nonce
            (config.sign w.now config.jwtExpiresIn (loginClaims account input.jti))])
      | none =>
          let account := newAccount input.id dto.stellarAddress
          if (w.accounts.find? input.id).isSome then w.refuse 500 "Internal server error"
          else
            ({ w with accounts := w.accounts.insert account },
              [.registerSession dto nonce
                (config.sign w.now config.jwtExpiresIn (loginClaims account input.jti))])
  | .registerSession dto nonce token =>
      ({ w with
        sessions := Function.update w.sessions token.sub
          (token.jti.toList ++ w.sessions token.sub)
        signed := token :: w.signed }.record (.loggedIn dto nonce token), [])

def ApiKeyStatement.exec : ApiKeyStatement → AuthWorld × List ApiKeyStatement
  | .create userId name scopes expiresAt =>
      let key : ApiKey := ⟨input.id, userId, (crypto.sha256 input.plaintext).text, name, scopes,
        expiresAt, none, none, none⟩
      match (w.accounts.find? userId).bind fun _ => w.apiKeys.create key with
      | none => w.refuse 500 "Internal server error"
      | some keys => ({ w with apiKeys := keys }.record (.keyCreated input.id), [])
  | .rotate userId id gracePeriodSeconds =>
      match (w.apiKeys.find? id).filter fun existing => existing.userId = userId with
      | none => w.refuse 404 "API key not found"
      | some existing =>
          if existing.revokedAt.isSome then w.refuse 409 "API_KEY_ALREADY_REVOKED"
          else
            let graceSecs := gracePeriodSeconds.getD 0
            (w, [.rotateTransaction existing w.now
              (if graceSecs > 0 then some (w.now + graceSecs * 1000) else none)])
  | .rotateTransaction existing now gracePeriodEndsAt =>
      let keys := w.apiKeys.update existing.id (ApiKey.rotated now gracePeriodEndsAt)
        fun _ => ⟨rfl, rfl⟩
      match keys.create ⟨input.id, existing.userId, (crypto.sha256 input.plaintext).text,
          existing.name, existing.scopes, none, none, some existing.id, none⟩ with
      | none => w.refuse 500 "Internal server error"
      | some keys =>
          ({ w with apiKeys := keys }.record
            (.keyRotated existing.id input.id gracePeriodEndsAt), [])
  | .revoke userId id =>
      match (w.apiKeys.find? id).filter fun key => key.revokedAt.isNone with
      | none => w.refuse 404 "API key not found"
      | some key =>
          if key.userId ≠ userId then w.refuse 403 "You do not own this API key"
          else (w, [.revokeUpdate id w.now])
  | .revokeUpdate id now =>
      ({ w with
        apiKeys := w.apiKeys.update id (ApiKey.revoked now) fun _ => ⟨rfl, rfl⟩ }.record
        (.keyRevoked id), [])

/-- What follows `revokeAllSessions`. -/
def Revocation.finish (call : Revocation) (count : Nat) : AuthWorld × List LogoutStatement :=
  match call.forced with
  | none => (w.record (.sessionsRevoked call.userId count), [])
  | some logout =>
      if logout.revokeApiKeys then (w.record (.sessionsRevoked call.userId count), [.sweep logout])
      else
        ({ w with logouts := logout :: w.logouts }.record (.sessionsRevoked call.userId count), [])

def Revocation.blockNext (call : Revocation) (jtis found : List String) (failed : Bool) :
    AuthWorld × List LogoutStatement :=
  match jtis with
  | jti :: jtis => (w, [.block call jti jtis found failed])
  | [] => if failed then w.refuse 500 "Internal server error" else (w, [.removeSessions call found])

def LogoutStatement.exec : LogoutStatement → AuthWorld × List LogoutStatement
  | .forceLogoutUser targetUserId revokeApiKeys =>
      match w.accounts.find? targetUserId with
      | none => w.refuse 404 "User not found"
      | some target =>
          (w, [.revokeAllSessions ⟨target.id, "", true,
            some ⟨target.id, revokeApiKeys, w.signed, w.apiKeys.rows.map ApiKey.id⟩⟩])
  | .revokeAllSessions call =>
      let allJtis := (w.sessions call.userId).dedup
      let found := if call.includeCurrent then allJtis else allJtis.filter (· ≠ call.currentJti)
      if found = [] then call.finish w 0 else call.blockNext w found found false
  | .block call jti jtis found failed =>
      -- `Promise.all`: the other sessions are blocked all the same
      if input.thrown then call.blockNext w jtis found true
      else
        call.blockNext { w with
          blocklist := w.blocklist.set jti () (ttlFrom w.now config.jwtTtlSeconds) } jtis found
          failed
  | .removeSessions call found =>
      call.finish { w with
        sessions := Function.update w.sessions call.userId
          ((w.sessions call.userId).filter (· ∉ found)) } found.length
  | .sweep logout =>
      ({ w with
        apiKeys := w.apiKeys.updateAll
          (fun key => key.userId = logout.targetUserId && key.revokedAt.isNone)
          (ApiKey.swept w.now) fun _ => ⟨rfl, rfl⟩
        logouts := logout :: w.logouts }, [])

def AccountStatement.exec : AccountStatement → AuthWorld × List AccountStatement
  | .impersonateUser targetUserId adminId adminAddress =>
      if targetUserId = adminId then w.refuse 400 "Cannot impersonate your own account"
      else
        match w.accounts.find? targetUserId with
        | none => w.refuse 404 "User not found"
        | some target =>
            if target.deactivatedAt.isSome then
              w.refuse 403 "Cannot impersonate a deactivated user"
            else if target.role = .admin then w.refuse 403 "Cannot impersonate another admin"
            else
              let token := config.sign w.now config.impersonationExpiresIn
                (impersonationClaims target adminId adminAddress)
              ({ w with signed := token :: w.signed }.record (.impersonated token), [])
  | .deactivateUser userId =>
      match w.accounts.find? userId with
      | none => w.refuse 404 "User not found"
      | some user =>
          if user.deactivatedAt.isSome then w.refuse 409 "Account is already deactivated"
          else (w, [.countActive userId])
  | .countActive userId =>
      if input.activeShipments > 0 then
        w.refuse 409 ("Cannot deactivate account while you have " ++
          toString input.activeShipments ++ " active shipment(s). " ++
          "Resolve or transfer all ACTIVE shipments where you are buyer, supplier, logistics, " ++
          "or arbiter first.")
      else (w, [.deactivateUpdate userId w.now])
  | .deactivateUpdate userId deactivatedAt =>
      ((w.updateAccount userId (fun user => { user with deactivatedAt := some deactivatedAt })
        fun _ => rfl).record (.accountUpdated userId), [])
  | .adminSetActive id active adminId =>
      if ¬ active ∧ id = adminId then
        w.refuse 400 ("Admins cannot deactivate their own account via this route. " ++
          "Use DELETE /users/me instead.")
      else
        match w.accounts.find? id with
        | none => w.refuse 404 "User not found"
        | some user =>
            -- already in that state: nothing to do
            if user.deactivatedAt.isNone = active then (w.record (.accountUpdated id), [])
            else (w, [.setActiveUpdate id (if active then none else some w.now)])
  | .setActiveUpdate id deactivatedAt =>
      ((w.updateAccount id (fun user => { user with deactivatedAt := deactivatedAt })
        fun _ => rfl).record (.accountUpdated id), [])
  | .updateUserRole token id newRole =>
      match w.validateJwt token with
      | .error error => w.refuse error.status error.message
      | .ok caller =>
          if RolesGuard.canActivate (some [.admin]) caller then
            (w, [.readUser caller.id id newRole])
          else w.refuse 403 "Forbidden resource"
  | .readUser callerId id newRole =>
      match w.accounts.find? id with
      | none => w.refuse 401 "User not found"
      | some _ =>
          if id = callerId ∧ newRole ≠ .admin then w.refuse 409 "Admins cannot demote themselves"
          else (w, [.updateRole callerId id newRole])
  | .updateRole _ id newRole =>
      ((w.updateAccount id (fun user => { user with role := newRole })
        fun _ => rfl).record (.accountUpdated id), [])

def EmailStatement.exec : EmailStatement → AuthWorld × List EmailStatement
  | .updateProfile userId email =>
      match w.accounts.find? userId with
      | none => w.refuse 401 "User not found"
      | some user => if user.email = some email then (w, []) else (w, [.checkUnused userId email])
  | .checkUnused userId email =>
      if (w.findEmail email).any fun existing => existing.id ≠ userId then
        w.refuse 409 "Email is already in use"
      else (w, [.storeToken (config.sign w.now "24h" (mailClaims userId email)) email true])
  | .storeToken token email profile =>
      ({ w with
        verificationTokens := w.verificationTokens.set token.sub token
          (some (w.now + VERIFICATION_TOKEN_TTL_MS))
        signed := token :: w.signed }, [.sendEmail token email profile])
  | .sendEmail token email profile =>
      (w.record (.mailSent email token), if profile then [.setPendingEmail token.sub email] else [])
  | .setPendingEmail userId email =>
      ((w.updateAccount userId (fun user => { user with pendingEmail := some email })
        fun _ => rfl).record (.profileUpdated userId), [])
  | .resendVerificationEmail userId =>
      match w.accounts.find? userId with
      | none => w.refuse 404 "User not found"
      | some user =>
          match truthyText user.pendingEmail with
          | none => w.refuse 400 "No pending email to verify"
          | some email =>
              (w, [.storeToken (config.sign w.now "24h" (mailClaims userId email)) email false])
  | .verifyEmail token =>
      match token.email with
      | some email =>
          if w.verifies token ∧ w.verificationTokens.get w.now token.sub = some token then
            (w, [.findPending token email])
          else w.refuse 401 "Invalid or expired verification token"
      -- only tokens of mails are ever stored
      | none => w.refuse 401 "Invalid or expired verification token"
  | .findPending token email =>
      match w.accounts.find? token.sub with
      | none => w.refuse 401 "User not found"
      | some user =>
          if user.pendingEmail ≠ some email then
            w.refuse 401 "Verification token does not match pending email"
          else (w, [.findExisting token email])
  | .findExisting token email =>
      if (w.findEmail email).any fun existing => existing.id ≠ token.sub then
        w.refuse 409 "Email is already in use"
      else (w, [.setEmail token email])
  | .setEmail token email =>
      -- the unique index on `email`
      if (w.findEmail email).any fun existing => existing.id ≠ token.sub then
        w.refuse 500 "Internal server error"
      else
        ((w.updateAccount token.sub (fun user =>
          { user with email := some email, emailVerified := true, pendingEmail := none })
          fun _ => rfl).record (.emailVerified token), [.clearToken token])
  | .clearToken token => ({ w with verificationTokens := w.verificationTokens.del token.sub }, [])

def PhoneStatement.exec : PhoneStatement → AuthWorld × List PhoneStatement
  | .sendPhoneVerificationOtp userId phoneNumber =>
      if (w.accounts.find? userId).any fun user =>
          user.phoneVerified && decide (user.phoneNumber = some phoneNumber) then
        w.refuse 400 "Phone number is already verified"
      else (w, [.storeOtp userId phoneNumber input.otp])
  | .storeOtp userId phoneNumber otp =>
      ({ w with phoneOtps := w.phoneOtps.set userId otp (some (w.now + PHONE_OTP_TTL_MS)) }.record
        (.otpSent userId phoneNumber otp), [.storePending userId phoneNumber otp])
  | .storePending userId phoneNumber _ =>
      ({ w with
        pendingPhones := w.pendingPhones.set userId phoneNumber
          (some (w.now + PHONE_OTP_TTL_MS)) }, [])
  | .verifyPhone userId otp => (w, [.getPending userId otp (w.phoneOtps.get w.now userId)])
  | .getPending userId otp storedOtp =>
      if truthyText storedOtp ≠ some otp then w.refuse 401 "Invalid or expired verification code"
      else
        match truthyText (w.pendingPhones.get w.now userId) with
        | none => w.refuse 400 "No pending phone verification. Request a new code."
        | some pendingPhone => (w, [.clearOtp userId otp pendingPhone])
  | .clearOtp userId otp pendingPhone =>
      ({ w with phoneOtps := w.phoneOtps.del userId }.record (.otpUsed userId pendingPhone otp),
        [.clearPending userId otp pendingPhone])
  | .clearPending userId otp pendingPhone =>
      ({ w with pendingPhones := w.pendingPhones.del userId },
        [.setPhone userId otp pendingPhone])
  | .setPhone userId otp pendingPhone =>
      match w.accounts.find? userId with
      | none => w.refuse 500 "Internal server error"
      | some _ =>
          ((w.updateAccount userId (fun user =>
            { user with
              phoneNumber := some pendingPhone, phoneVerified := true, pendingPhone := none })
            fun _ => rfl).record (.phoneVerified userId pendingPhone otp), [])

end Execution

section Calls

/-- What a call in flight does next. -/
inductive AuthStatement where
  | login (next : LoginStatement)
  | apiKey (next : ApiKeyStatement)
  | logout (next : LogoutStatement)
  | account (next : AccountStatement)
  | email (next : EmailStatement)
  | phone (next : PhoneStatement)

def AuthStatement.starts : AuthStatement → Bool
  | .login (.generateNonce _) | .login (.login _) => true
  | .apiKey (.create ..) | .apiKey (.rotate ..) | .apiKey (.revoke ..) => true
  | .logout (.forceLogoutUser ..) => true
  | .logout (.revokeAllSessions call) => call.forced.isNone
  | .account (.impersonateUser ..) | .account (.deactivateUser _)
  | .account (.adminSetActive ..) | .account (.updateUserRole ..) => true
  | .email (.updateProfile ..) | .email (.resendVerificationEmail _)
  | .email (.verifyEmail _) => true
  | .phone (.sendPhoneVerificationOtp ..) | .phone (.verifyPhone ..) => true
  | _ => false

variable (config : AuthConfig) (crypto : Crypto)

/-- A statement that throws ends its call, unless others run beside it. -/
def AuthStatement.resume (input : AuthInput) (w : AuthWorld) :
    AuthStatement → AuthWorld × List AuthStatement
  | .login next =>
      if input.thrown then (w, [])
      else ((next.exec config input w).1, (next.exec config input w).2.map .login)
  | .apiKey next =>
      if input.thrown then (w, [])
      else ((next.exec crypto input w).1, (next.exec crypto input w).2.map .apiKey)
  | .logout (.block call jti jtis found failed) =>
      let next := LogoutStatement.block call jti jtis found failed
      ((next.exec config input w).1, (next.exec config input w).2.map .logout)
  | .logout next =>
      if input.thrown then (w, [])
      else ((next.exec config input w).1, (next.exec config input w).2.map .logout)
  | .account next =>
      if input.thrown then (w, [])
      else ((next.exec config input w).1, (next.exec config input w).2.map .account)
  | .email next =>
      if input.thrown then (w, [])
      else ((next.exec config w).1, (next.exec config w).2.map .email)
  | .phone next =>
      if input.thrown then (w, [])
      else ((next.exec input w).1, (next.exec input w).2.map .phone)

def auth : PoolSystem AuthWorld AuthStatement AuthInput Nat where
  starts := AuthStatement.starts
  resume input w next := next.resume config crypto input w
  external milliseconds w := { w with now := w.now + milliseconds }

end Calls

abbrev AuthPool := Pool AuthWorld AuthStatement

/-- Before anything was issued. -/
def freshAuth (accounts : Table Account.id) (now : Nat) : AuthPool where
  shared := {
    accounts := accounts
    apiKeys := ⟨Table.empty, List.nodup_nil⟩
    nonces := Store.empty
    sessions := fun _ => []
    blocklist := Store.empty
    verificationTokens := Store.empty
    phoneOtps := Store.empty
    pendingPhones := Store.empty
    now := now
    signed := []
    log := []
    logouts := [] }
  inflight := []

abbrev AuthAction := PoolAction AuthStatement AuthInput Nat

end ChainSettle
