import ChainSettle.Auth.Roles

/-!
Deactivated accounts. `ApiKeyStrategy` looks at `deactivatedAt`; a login, the JWT
strategy and the notifications gateway do not. So a request that carries a good
signature or token is accepted whether the account is active or not.
-/

namespace ChainSettle

open Lib

section Requests

/-- What a request authenticates itself with: the rest of a login, a token, an API
key, or a token on a socket. -/
inductive AuthRequest where
  | login (next : LoginStatement) (input : AuthInput)
  | bearer (token : Jwt)
  | apiKey (rawKey : String)
  | socket (token : Jwt)

/-- A login that is left to itself; four steps are enough. -/
def completeLogin (config : AuthConfig) (input : AuthInput) :
    Nat → AuthWorld × List LoginStatement → AuthWorld
  | steps + 1, (w, next :: _) => completeLogin config input steps (next.exec config input w)
  | _, (w, _) => w

/-- The user that the latest event is a login of. -/
def AuthWorld.justLoggedIn (w : AuthWorld) : Option String :=
  match w.log with
  | .loggedIn _ _ token :: _ => some token.sub
  | _ => none

/-- The user as whom a request is authenticated, if it is not refused. -/
def AuthRequest.authenticates (config : AuthConfig) (crypto : Crypto) (w : AuthWorld) :
    AuthRequest → Option String
  | .login next input => (completeLogin config input 4 (w, [next])).justLoggedIn
  | .bearer token => (w.validateJwt token).toOption.map RequestUser.id
  | .apiKey rawKey => (w.validateApiKey crypto (some rawKey)).toOption.map RequestUser.id
  | .socket token => (w.handleConnection (some token)).toOption

def AuthRequest.isApiKey : AuthRequest → Bool
  | .apiKey _ => true
  | _ => false

/-- A login at this stage is of the account. -/
def LoginStatement.Presents (config : AuthConfig) (w : AuthWorld) (id : String) :
    LoginStatement → Prop
  | .generateNonce _ => False
  | .login dto =>
      (∃ nonce, truthyText (w.nonces.get w.now dto.stellarAddress) = some nonce ∧
        config.verifySignature dto.stellarAddress nonce dto.signature = some true) ∧
        ∃ account, w.findAddress dto.stellarAddress = some account ∧ account.id = id
  | .clearNonce dto _ | .upsertUser dto _ =>
      ∃ account, w.findAddress dto.stellarAddress = some account ∧ account.id = id
  | .registerSession _ _ token => token.sub = id

/-- The request has a good credential of the account: a signature over its nonce, a
token that verifies (and is not on the blocklist), or a live key. -/
def AuthRequest.Presents (config : AuthConfig) (crypto : Crypto) (w : AuthWorld) (id : String) :
    AuthRequest → Prop
  | .login next _ => next.Presents config w id
  | .bearer token =>
      token.sub = id ∧ w.verifies token ∧ ¬ (truthyText token.jti).any w.isRevoked
  | .apiKey rawKey =>
      rawKey ≠ "" ∧ ∃ key, w.apiKeys.findHash (crypto.sha256 rawKey).text = some key ∧
        key.userId = id ∧ ¬ (key.revokedAt.isSome && !key.inGracePeriod w.now) ∧
        ¬ key.expiresAt.any (· ≤ w.now)
  | .socket token => token.sub = id ∧ w.verifies token

variable {config : AuthConfig} {crypto : Crypto} {w : AuthWorld} {id : String}

theorem bearer_authenticates_iff (token : Jwt) :
    (AuthRequest.bearer token).authenticates config crypto w = some id ↔
      (AuthRequest.bearer token).Presents config crypto w id := by
  simp only [AuthRequest.authenticates, AuthRequest.Presents, AuthWorld.validateJwt]
  cases hverifies : w.verifies token with
  | false => simp [Except.toOption]
  | true =>
      cases hrevoked : (truthyText token.jti).any w.isRevoked with
      | true => simp [Except.toOption]
      | false => simp [Except.toOption]

theorem socket_authenticates_iff (token : Jwt) :
    (AuthRequest.socket token).authenticates config crypto w = some id ↔
      (AuthRequest.socket token).Presents config crypto w id := by
  simp only [AuthRequest.authenticates, AuthRequest.Presents, AuthWorld.handleConnection]
  cases hverifies : w.verifies token with
  | false => simp [Except.toOption]
  | true => simp [Except.toOption]

theorem apiKey_authenticates_iff {account : Account} (haccount : w.accounts.find? id = some account)
    (rawKey : String) :
    (AuthRequest.apiKey rawKey).authenticates config crypto w = some id ↔
      (AuthRequest.apiKey rawKey).Presents config crypto w id ∧ account.deactivatedAt = none := by
  have htruthy (hne : rawKey ≠ "") : truthyText (some rawKey) = some rawKey := by
    simp [truthyText, hne]
  constructor
  · intro h
    simp only [AuthRequest.authenticates, AuthWorld.validateApiKey] at h
    split at h
    · cases h
    · rename_i raw hraw
      obtain ⟨hsome, hne⟩ := Option.filter_eq_some_iff.mp hraw
      cases hsome
      split at h
      · cases h
      · rename_i key hfound
        split at h
        · cases h
        · rename_i hlive
          split at h
          · cases h
          · rename_i hunexpired
            split at h
            · cases h
            · rename_i user huser
              split at h
              · cases h
              · rename_i hactive
                have hid : user.id = id := Option.some.inj h
                have huserId : user.id = key.userId := Table.key_of_find? huser
                have hsame : user = account := by
                  rw [← huserId, hid, haccount] at huser
                  exact (Option.some.inj huser).symm
                refine ⟨⟨of_decide_eq_true hne, key, hfound, huserId.symm.trans hid, hlive,
                  hunexpired⟩, ?_⟩
                rw [← hsame]
                simpa using hactive
  · rintro ⟨⟨hne, key, hfound, huser, hlive, hunexpired⟩, hactive⟩
    have hid : account.id = id := Table.key_of_find? haccount
    simp only [AuthRequest.authenticates, AuthWorld.validateApiKey, htruthy hne, hfound]
    rw [if_neg hlive, if_neg hunexpired, huser, haccount]
    simp [hactive, hid, Except.toOption]

/-- The last two statements of a login. -/
theorem upsertUser_iff {account : Account} (haccount : w.accounts.find? id = some account)
    (input : AuthInput) (dto : LoginDto) (nonce : String) (steps : Nat) :
    (completeLogin config input (steps + 2) (w, [.upsertUser dto nonce])).justLoggedIn = some id ↔
      ∃ account, w.findAddress dto.stellarAddress = some account ∧ account.id = id := by
  have hlast (token : Jwt) (w : AuthWorld) :
      (completeLogin config input (steps + 1)
        (w, [.registerSession dto nonce token])).justLoggedIn = some token.sub := by
    cases steps <;> rfl
  rw [completeLogin]
  simp only [LoginStatement.exec]
  cases hfound : w.findAddress dto.stellarAddress with
  | some found =>
      dsimp only
      rw [hlast]
      simp [AuthConfig.sign, loginClaims]
  | none =>
      dsimp only
      split
      · rename_i htaken
        have hrefused : (completeLogin config input (steps + 1)
            (w.refuse 500 "Internal server error")).justLoggedIn = none := by
          cases steps <;> rfl
        simp [hrefused]
      · rename_i hfree
        rw [hlast]
        have hne : input.id ≠ id := by
          rintro rfl
          exact hfree (by rw [haccount]; rfl)
        simp [AuthConfig.sign, loginClaims, newAccount, hne]

theorem login_authenticates_iff {account : Account} (haccount : w.accounts.find? id = some account)
    (next : LoginStatement) (input : AuthInput) :
    (AuthRequest.login next input).authenticates config crypto w = some id ↔
      (AuthRequest.login next input).Presents config crypto w id := by
  have hcleared (dto : LoginDto) (nonce : String) (steps : Nat) :
      (completeLogin config input (steps + 3) (w, [.clearNonce dto nonce])).justLoggedIn =
          some id ↔
        ∃ account, w.findAddress dto.stellarAddress = some account ∧ account.id = id :=
    upsertUser_iff (w := ((LoginStatement.clearNonce dto nonce).exec config input w).1) haccount
      input dto nonce steps
  cases next with
  | generateNonce stellarAddress =>
      refine ⟨fun h => ?_, False.elim⟩
      cases h
  | login dto =>
      simp only [AuthRequest.authenticates, AuthRequest.Presents, LoginStatement.Presents]
      rw [completeLogin]
      simp only [LoginStatement.exec]
      cases hnonce : truthyText (w.nonces.get w.now dto.stellarAddress) with
      | none => simp [completeLogin, AuthWorld.refuse, AuthWorld.record, AuthWorld.justLoggedIn]
      | some nonce =>
          dsimp only
          split
          · rename_i hvalid
            rw [hcleared dto nonce 0]
            simp [hvalid]
          · rename_i hinvalid
            simp [completeLogin, AuthWorld.refuse, AuthWorld.record, AuthWorld.justLoggedIn,
              hinvalid]
  | clearNonce dto nonce => exact hcleared dto nonce 1
  | upsertUser dto nonce => exact upsertUser_iff haccount input dto nonce 2
  | registerSession dto nonce token => exact Option.some_inj

/-- What authenticates a request. -/
theorem authenticates_iff {account : Account} (haccount : w.accounts.find? id = some account)
    (request : AuthRequest) :
    request.authenticates config crypto w = some id ↔
      request.Presents config crypto w id ∧
        (request.isApiKey → account.deactivatedAt = none) := by
  cases request with
  | login next input =>
      rw [login_authenticates_iff haccount next input]
      simp [AuthRequest.isApiKey]
  | bearer token =>
      rw [bearer_authenticates_iff]
      simp [AuthRequest.isApiKey]
  | apiKey rawKey =>
      rw [apiKey_authenticates_iff haccount]
      simp [AuthRequest.isApiKey]
  | socket token =>
      rw [socket_authenticates_iff]
      simp [AuthRequest.isApiKey]

/-- `adminSetActive` makes the account active again. -/
theorem find?_setActive {account : Account} (haccount : w.accounts.find? id = some account)
    (input : AuthInput) :
    ((AccountStatement.setActiveUpdate id none).exec config input w).1.accounts.find? id =
      some { account with deactivatedAt := none } := by
  refine (Table.find?_modify_self w.accounts id
    (fun account => { account with deactivatedAt := none }) fun _ => rfl).trans ?_
  rw [haccount]
  rfl

end Requests

section Runs

variable (config : AuthConfig) (crypto : Crypto)

/-- In every state that is reached, a request of a deactivated account is refused
exactly if it comes with an API key, or has no good credential of the account at all;
and once the account is active again every good credential is accepted. -/
theorem deactivated_refused_iff (s : AuthPool) (actions : List AuthAction) (id : String)
    (account : Account)
    (haccount : ((auth config crypto).run actions s).shared.accounts.find? id = some account)
    (hdeactivated : account.deactivatedAt.isSome) :
    (∀ request : AuthRequest,
      request.authenticates config crypto ((auth config crypto).run actions s).shared ≠ some id ↔
        request.isApiKey ∨
          ¬ request.Presents config crypto ((auth config crypto).run actions s).shared id) ∧
    ∀ (request : AuthRequest) (input : AuthInput),
      request.authenticates config crypto ((AccountStatement.setActiveUpdate id none).exec config
          input ((auth config crypto).run actions s).shared).1 = some id ↔
        request.Presents config crypto ((AccountStatement.setActiveUpdate id none).exec config
          input ((auth config crypto).run actions s).shared).1 id := by
  refine ⟨fun request => ?_, fun request input => ?_⟩
  · have hset : account.deactivatedAt ≠ none := Option.isSome_iff_ne_none.mp hdeactivated
    rw [Ne, authenticates_iff haccount]
    by_cases hkey : request.isApiKey <;> simp [hkey, hset]
  · rw [authenticates_iff (find?_setActive haccount input)]
    exact and_iff_left fun _ => rfl

/-- The user logs in and creates a key, and is suspended; a nonce is still to be had. -/
def suspended : List AuthAction :=
  nonceAndLogin "GUSER" "s-1" ++
    [.begin (.apiKey (.create "u-1" "CI" ["read"] none)), .resume 0 (drawing "k-1" "key-one"),
      .begin (.account (.adminSetActive "u-1" false "a-1")), .resume 0 calmly, .resume 0 calmly,
      .begin (.login (.generateNonce "GUSER")), .resume 0 calmly]

def suspendedAccount : Account :=
  { newAccount "u-1" "GUSER" with deactivatedAt := some 0 }

def userToken : Jwt :=
  ⟨"u-1", some "GUSER", some .buyer, some "s-1", none, none, 0, 604800⟩

theorem suspended_key_refused :
    (AuthRequest.apiKey "key-one").authenticates demoAuthConfig demoAuthCrypto
        ((auth demoAuthConfig demoAuthCrypto).run suspended demoAuthPool).shared ≠ some "u-1" :=
  ((deactivated_refused_iff demoAuthConfig demoAuthCrypto demoAuthPool suspended "u-1"
    suspendedAccount (by decide +kernel) rfl).1 (.apiKey "key-one")).mpr (.inl rfl)

/-- The suspended user is accepted with his token, on a socket, and at a new login. -/
theorem suspended_user_accepted :
    (((auth demoAuthConfig demoAuthCrypto).run suspended demoAuthPool).shared.accounts.find?
        "u-1").bind Account.deactivatedAt = some 0 ∧
      (AuthRequest.bearer userToken).authenticates demoAuthConfig demoAuthCrypto
        ((auth demoAuthConfig demoAuthCrypto).run suspended demoAuthPool).shared = some "u-1" ∧
      (AuthRequest.socket userToken).authenticates demoAuthConfig demoAuthCrypto
        ((auth demoAuthConfig demoAuthCrypto).run suspended demoAuthPool).shared = some "u-1" ∧
      (AuthRequest.login (.login demoLogin) (drawing "s-2" "")).authenticates demoAuthConfig
        demoAuthCrypto ((auth demoAuthConfig demoAuthCrypto).run suspended demoAuthPool).shared =
        some "u-1" := by
  decide +kernel

end Runs

end ChainSettle
