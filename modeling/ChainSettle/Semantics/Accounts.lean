import ChainSettle.Lib.Store
import ChainSettle.Semantics.Webhooks

/-!
Accounts and what proves their identity: tokens signed with `JWT_SECRET`, API keys,
and the entries in Redis that go with them. A request is authenticated by
`JwtStrategy`, by `ApiKeyStrategy` or, on a socket, by the notifications gateway.

A token is its claims: `signed` holds those that were signed so far, and no others
verify. `log` and `logouts` record what happened, the latest first.
-/

namespace ChainSettle

open Lib

section Rows

structure Account where
  id : String
  stellarAddress : String
  role : UserRole
  deactivatedAt : Option Nat
  email : Option String
  emailVerified : Bool
  pendingEmail : Option String
  phoneNumber : Option String
  phoneVerified : Bool
  pendingPhone : Option String
deriving DecidableEq

/-- The defaults of a row that `login` creates. -/
def newAccount (id stellarAddress : String) : Account where
  id := id
  stellarAddress := stellarAddress
  role := .buyer
  deactivatedAt := none
  email := none
  emailVerified := false
  pendingEmail := none
  phoneNumber := none
  phoneVerified := false
  pendingPhone := none

structure ApiKey where
  id : String
  userId : String
  keyHash : String
  name : String
  scopes : List String
  /-- in milliseconds, as all instants of rows -/
  expiresAt : Option Nat
  revokedAt : Option Nat
  rotatedFromId : Option String
  gracePeriodEndsAt : Option Nat
deriving DecidableEq

/-- The updates of a rotation, of a revocation and of a forced logout. -/
def ApiKey.rotated (now : Nat) (gracePeriodEndsAt : Option Nat) (key : ApiKey) : ApiKey :=
  { key with revokedAt := some now, gracePeriodEndsAt := gracePeriodEndsAt }

def ApiKey.revoked (now : Nat) (key : ApiKey) : ApiKey := { key with revokedAt := some now }

def ApiKey.swept (now : Nat) (key : ApiKey) : ApiKey :=
  { key with revokedAt := some now, gracePeriodEndsAt := none }

/-- The keys have unique ids and unique hashes. -/
structure ApiKeys extends Table ApiKey.id where
  hashes : (rows.map ApiKey.keyHash).Nodup

namespace ApiKeys

variable (keys : ApiKeys)

def findHash (keyHash : String) : Option ApiKey :=
  keys.rows.find? fun key => key.keyHash = keyHash

/-- An `UPDATE` by id; it throws where there is no such row. -/
def update (id : String) (f : ApiKey → ApiKey)
    (hf : ∀ key, (f key).id = key.id ∧ (f key).keyHash = key.keyHash) : ApiKeys where
  toTable := keys.toTable.modify id f fun key => (hf key).1
  hashes := by
    rw [Table.map_modify _ _ _ _ fun key => (hf key).2]
    exact keys.hashes

/-- `updateMany`. -/
def updateAll (p : ApiKey → Bool) (f : ApiKey → ApiKey)
    (hf : ∀ key, (f key).id = key.id ∧ (f key).keyHash = key.keyHash) : ApiKeys where
  toTable := keys.toTable.updateMany p f fun key => (hf key).1
  hashes := by
    have hsame : (keys.toTable.updateMany p f fun key => (hf key).1).rows.map ApiKey.keyHash =
        keys.rows.map ApiKey.keyHash := by
      simp only [Table.updateMany, List.map_map]
      apply List.map_congr_left
      intro key _
      cases hkey : p key <;> simp [hkey, hf]
    rw [hsame]
    exact keys.hashes

/-- An `INSERT`; it throws where the id or the hash is taken. -/
def create (key : ApiKey) : Option ApiKeys :=
  if h : key.id ∉ keys.rows.map ApiKey.id ∧ key.keyHash ∉ keys.rows.map ApiKey.keyHash then
    some {
      rows := keys.rows ++ [key]
      nodup := by
        rw [List.map_append, List.map_singleton, ← List.concat_eq_append]
        exact List.Nodup.concat h.1 keys.nodup
      hashes := by
        rw [List.map_append, List.map_singleton, ← List.concat_eq_append]
        exact List.Nodup.concat h.2 keys.hashes }
  else none

end ApiKeys

/-- The claims of a token. A login's token has a `jti`, an impersonation's the
administrator, that of a verification mail the address it was sent to. -/
structure Jwt where
  sub : String
  stellarAddress : Option String
  role : Option UserRole
  jti : Option String
  email : Option String
  /-- `impersonatorAdminId` and `impersonatorAddress`, with `isImpersonation` -/
  impersonator : Option (String × String)
  /-- in seconds -/
  iat : Nat
  exp : Nat
deriving DecidableEq

end Rows

section World

/-- A login's request; `signedNonce` is not looked at. -/
structure LoginDto where
  stellarAddress : String
  signedNonce : String
  signature : String
deriving DecidableEq

inductive AuthEvent where
  | nonceGenerated (stellarAddress nonce : String)
  | nonceUsed (stellarAddress nonce : String)
  | loggedIn (dto : LoginDto) (nonce : String) (token : Jwt)
  | impersonated (token : Jwt)
  | keyCreated (id : String)
  | keyRotated (id successor : String) (gracePeriodEndsAt : Option Nat)
  | keyRevoked (id : String)
  | sessionsRevoked (userId : String) (count : Nat)
  | accountUpdated (id : String)
  | profileUpdated (id : String)
  | mailSent (email : String) (token : Jwt)
  | emailVerified (token : Jwt)
  | otpSent (userId phoneNumber otp : String)
  | otpUsed (userId phoneNumber otp : String)
  | phoneVerified (userId phoneNumber otp : String)
  | refused (error : HttpError)
deriving DecidableEq

/-- A forced logout, with the tokens that were signed and the keys that existed
before it began. -/
structure ForceLogout where
  targetUserId : String
  revokeApiKeys : Bool
  tokens : List Jwt
  keys : List String
deriving DecidableEq

structure AuthWorld where
  accounts : Table Account.id
  apiKeys : ApiKeys
  /-- `chainsettle:nonce:` -/
  nonces : Store String String
  /-- `chainsettle:sessions:`, a set of `jti` -/
  sessions : String → List String
  /-- `chainsettle:blocklist:` -/
  blocklist : Store String Unit
  /-- `chainsettle:email-verification-token:` -/
  verificationTokens : Store String Jwt
  /-- `chainsettle:phone-otp:` -/
  phoneOtps : Store String String
  /-- the same with `:pending` -/
  pendingPhones : Store String String
  /-- in milliseconds -/
  now : Nat
  signed : List Jwt
  log : List AuthEvent
  logouts : List ForceLogout

namespace AuthWorld

variable (w : AuthWorld)

def record (event : AuthEvent) : AuthWorld := { w with log := event :: w.log }

def updateAccount (id : String) (f : Account → Account)
    (hf : ∀ account, (f account).id = account.id) : AuthWorld :=
  { w with accounts := w.accounts.modify id f hf }

def findEmail (email : String) : Option Account :=
  w.accounts.rows.find? fun account => account.email = some email

def findAddress (stellarAddress : String) : Option Account :=
  w.accounts.rows.find? fun account => account.stellarAddress = stellarAddress

/-- `jwt.verify`. -/
def verifies (token : Jwt) : Bool :=
  decide (token ∈ w.signed) && decide (w.now / 1000 < token.exp)

/-- `SessionService.isRevoked`. -/
def isRevoked (jti : String) : Bool := (w.blocklist.get w.now jti).isSome

end AuthWorld

end World

section Strategies

/-- `request.user`. -/
structure RequestUser where
  id : String
  stellarAddress : Option String
  role : Option UserRole
  jti : Option String
  isImpersonation : Option Bool := none
  impersonatorAdminId : Option String := none
  impersonatorAddress : Option String := none
  apiKeyScopes : Option (List String) := none
deriving DecidableEq

variable (w : AuthWorld)

/-- `JwtStrategy.validate`; the claims are not checked against the account. -/
def AuthWorld.validateJwt (token : Jwt) : Except HttpError RequestUser :=
  if w.verifies token = false then .error ⟨401, "Unauthorized"⟩
  else if (truthyText token.jti).any w.isRevoked then .error ⟨401, "Token has been revoked"⟩
  else
    .ok {
      id := token.sub
      stellarAddress := token.stellarAddress
      role := token.role
      jti := token.jti }

def ApiKey.inGracePeriod (key : ApiKey) (now : Nat) : Bool :=
  key.gracePeriodEndsAt.any (now < ·)

/-- `ApiKeyStrategy.validate`. -/
def AuthWorld.validateApiKey (crypto : Crypto) (rawKey : Option String) :
    Except HttpError RequestUser :=
  match truthyText rawKey with
  | none => .error ⟨401, "Missing X-Api-Key header"⟩
  | some rawKey =>
      match w.apiKeys.findHash (crypto.sha256 rawKey).text with
      | none => .error ⟨401, "Invalid or revoked API key"⟩
      | some apiKey =>
          if apiKey.revokedAt.isSome && !apiKey.inGracePeriod w.now then
            .error ⟨401, "Invalid or revoked API key"⟩
          else if apiKey.expiresAt.any (· ≤ w.now) then .error ⟨401, "API_KEY_EXPIRED"⟩
          else
            match w.accounts.find? apiKey.userId with
            -- the foreign key has a row
            | none => .error ⟨401, "Unauthorized"⟩
            | some user =>
                if user.deactivatedAt.isSome then .error ⟨401, "Account has been deactivated"⟩
                else
                  .ok {
                    id := user.id
                    stellarAddress := some user.stellarAddress
                    role := some user.role
                    jti := none
                    apiKeyScopes := some apiKey.scopes }

/-- The user of the room that a socket joins, or why it is rejected. -/
def AuthWorld.handleConnection (token : Option Jwt) : Except String String :=
  match token with
  | none => .error "Missing authentication token"
  | some token => if w.verifies token then .ok token.sub else .error "Invalid or expired token"

/-- `RolesGuard`; a handler or controller without roles is open. -/
def RolesGuard.canActivate (roles : Option (List UserRole)) (user : RequestUser) : Bool :=
  match roles with
  | none | some [] => true
  | some roles => user.role.any (· ∈ roles)

end Strategies

end ChainSettle
