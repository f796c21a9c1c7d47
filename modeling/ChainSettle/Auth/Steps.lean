import ChainSettle.Semantics.Auth

/-!
What the calls leave alone. The statements fall into groups, each with its own keys
in Redis, its own rows and its own events, so an invariant about one group has to
look at the statements of that group only.
-/

namespace ChainSettle

open Lib

section Groups

inductive AuthGroup where
  | login | apiKey | logout | account | email | phone
deriving DecidableEq

def AuthStatement.group : AuthStatement → AuthGroup
  | .login _ => .login
  | .apiKey _ => .apiKey
  | .logout _ => .logout
  | .account _ => .account
  | .email _ => .email
  | .phone _ => .phone

/-- The group of a recorded event; any call may be refused. -/
def AuthEvent.group : AuthEvent → Option AuthGroup
  | .nonceGenerated .. | .nonceUsed .. | .loggedIn .. => some .login
  | .keyCreated _ | .keyRotated .. | .keyRevoked _ => some .apiKey
  | .sessionsRevoked .. => some .logout
  | .impersonated _ | .accountUpdated _ => some .account
  | .mailSent .. | .emailVerified _ | .profileUpdated _ => some .email
  | .otpSent .. | .otpUsed .. | .phoneVerified .. => some .phone
  | .refused _ => none

/-- What a step of a group changes at most. -/
structure AuthFrame (g : AuthGroup) (w w' : AuthWorld) : Prop where
  now : w'.now = w.now
  nonces : g ≠ .login → w'.nonces = w.nonces
  sessions : g ≠ .login → g ≠ .logout → w'.sessions = w.sessions
  blocklist : g ≠ .logout → w'.blocklist = w.blocklist
  logouts : g ≠ .logout → w'.logouts = w.logouts
  apiKeys : g ≠ .apiKey → g ≠ .logout → w'.apiKeys = w.apiKeys
  verificationTokens : g ≠ .email → w'.verificationTokens = w.verificationTokens
  phoneOtps : g ≠ .phone → w'.phoneOtps = w.phoneOtps
  pendingPhones : g ≠ .phone → w'.pendingPhones = w.pendingPhones
  accounts : g = .apiKey ∨ g = .logout → w'.accounts = w.accounts
  signed : g = .apiKey ∨ g = .logout ∨ g = .phone → w'.signed = w.signed
  log : w'.log = w.log ∨
    ∃ event, w'.log = event :: w.log ∧ (event.group = none ∨ event.group = some g)

theorem AuthFrame.refl (g : AuthGroup) (w : AuthWorld) : AuthFrame g w w where
  now := rfl
  nonces _ := rfl
  sessions _ _ := rfl
  blocklist _ := rfl
  logouts _ := rfl
  apiKeys _ _ := rfl
  verificationTokens _ := rfl
  phoneOtps _ := rfl
  pendingPhones _ := rfl
  accounts _ := rfl
  signed _ := rfl
  log := .inl rfl

theorem AuthFrame.record {g : AuthGroup} {w w' : AuthWorld} (h : AuthFrame g w w')
    (hlog : w'.log = w.log) (event : AuthEvent)
    (hevent : event.group = none ∨ event.group = some g) : AuthFrame g w (w'.record event) :=
  { h with log := .inr ⟨event, congrArg _ hlog, hevent⟩ }

theorem refuse_frame {κ : Type} (g : AuthGroup) (w : AuthWorld) (status : Nat) (message : String) :
    AuthFrame g w (w.refuse status message : AuthWorld × List κ).1 :=
  (AuthFrame.refl g w).record rfl _ (.inl rfl)

variable (config : AuthConfig) (crypto : Crypto) (input : AuthInput) (w : AuthWorld)

theorem login_frame (next : LoginStatement) : AuthFrame .login w (next.exec config input w).1 := by
  cases next with
  | generateNonce stellarAddress =>
      exact { AuthFrame.refl .login w with
        nonces := fun h => absurd rfl h, log := .inr ⟨_, rfl, .inr rfl⟩ }
  | login dto =>
      simp only [LoginStatement.exec]
      split
      · exact refuse_frame ..
      · split
        · exact AuthFrame.refl ..
        · exact refuse_frame ..
  | clearNonce dto nonce =>
      exact { AuthFrame.refl .login w with
        nonces := fun h => absurd rfl h, log := .inr ⟨_, rfl, .inr rfl⟩ }
  | upsertUser dto nonce =>
      simp only [LoginStatement.exec]
      split
      · exact AuthFrame.refl ..
      · split
        · exact refuse_frame ..
        · exact { AuthFrame.refl .login w with accounts := fun h => absurd h (by decide) }
  | registerSession dto nonce token =>
      exact { AuthFrame.refl .login w with
        sessions := fun h => absurd rfl h
        signed := fun h => absurd h (by decide)
        log := .inr ⟨_, rfl, .inr rfl⟩ }

theorem apiKey_frame (next : ApiKeyStatement) :
    AuthFrame .apiKey w (next.exec crypto input w).1 := by
  have hkeys (keys : ApiKeys) (event : AuthEvent) (h : event.group = some .apiKey) :
      AuthFrame .apiKey w ({ w with apiKeys := keys }.record event) :=
    { AuthFrame.refl .apiKey w with
      apiKeys := fun h => absurd rfl h, log := .inr ⟨_, rfl, .inr h⟩ }
  cases next with
  | create userId name scopes expiresAt =>
      simp only [ApiKeyStatement.exec]
      split
      · exact refuse_frame ..
      · exact hkeys _ _ rfl
  | rotate userId id gracePeriodSeconds =>
      simp only [ApiKeyStatement.exec]
      split
      · exact refuse_frame ..
      · split
        · exact refuse_frame ..
        · exact AuthFrame.refl ..
  | rotateTransaction existing now gracePeriodEndsAt =>
      simp only [ApiKeyStatement.exec]
      split
      · exact refuse_frame ..
      · exact hkeys _ _ rfl
  | revoke userId id =>
      simp only [ApiKeyStatement.exec]
      split
      · exact refuse_frame ..
      · split
        · exact refuse_frame ..
        · exact AuthFrame.refl ..
  | revokeUpdate id now => exact hkeys _ _ rfl

theorem finish_frame_logout {w w' : AuthWorld} (h : AuthFrame .logout w w') (hlog : w'.log = w.log)
    (call : Revocation) (count : Nat) : AuthFrame .logout w (call.finish w' count).1 := by
  unfold Revocation.finish
  split
  · exact h.record hlog _ (.inr rfl)
  · split
    · exact h.record hlog _ (.inr rfl)
    · exact { h with
        logouts := fun h => absurd rfl h
        log := .inr ⟨_, congrArg _ hlog, .inr rfl⟩ }

theorem blockNext_frame {w w' : AuthWorld} (h : AuthFrame .logout w w') (hlog : w'.log = w.log)
    (call : Revocation) (jtis found : List String) (failed : Bool) :
    AuthFrame .logout w (call.blockNext w' jtis found failed).1 := by
  unfold Revocation.blockNext
  split
  · exact h
  · split
    · exact h.record hlog _ (.inl rfl)
    · exact h

/-- `finish` only adds to the records. -/
theorem finish_keeps {α : Type} (f : AuthWorld → α)
    (hf : ∀ w logouts log, f { w with logouts := logouts, log := log } = f w) (w : AuthWorld)
    (call : Revocation) (count : Nat) : f (call.finish w count).1 = f w := by
  unfold Revocation.finish
  cases call.forced with
  | none => exact hf w w.logouts _
  | some logout =>
      dsimp only
      split
      · exact hf w w.logouts _
      · exact hf w (logout :: w.logouts) _

theorem blockNext_keeps {α : Type} (f : AuthWorld → α)
    (hf : ∀ w log, f { w with log := log } = f w) (w : AuthWorld) (call : Revocation)
    (jtis found : List String) (failed : Bool) :
    f (call.blockNext w jtis found failed).1 = f w := by
  unfold Revocation.blockNext
  split
  · rfl
  · split
    · exact hf ..
    · rfl

/-- Of a forced logout only the last statement is about keys. -/
theorem apiKeys_logout {next : LogoutStatement} (h : ∀ logout, next ≠ .sweep logout) :
    (next.exec config input w).1.apiKeys = w.apiKeys := by
  have hfinish := finish_keeps AuthWorld.apiKeys fun _ _ _ => rfl
  have hnext := blockNext_keeps AuthWorld.apiKeys fun _ _ => rfl
  cases next with
  | forceLogoutUser targetUserId revokeApiKeys =>
      simp only [LogoutStatement.exec]
      split <;> rfl
  | revokeAllSessions call =>
      simp only [LogoutStatement.exec]
      split <;> split
      all_goals first | exact hfinish .. | exact hnext ..
  | block call jti jtis found failed =>
      simp only [LogoutStatement.exec]
      split
      · exact hnext ..
      · exact hnext ..
  | removeSessions call found => exact hfinish ..
  | sweep logout => exact absurd rfl (h logout)

theorem logout_frame (next : LogoutStatement) :
    AuthFrame .logout w (next.exec config input w).1 := by
  cases next with
  | forceLogoutUser targetUserId revokeApiKeys =>
      simp only [LogoutStatement.exec]
      split
      · exact refuse_frame ..
      · exact AuthFrame.refl ..
  | revokeAllSessions call =>
      simp only [LogoutStatement.exec]
      split
      · split
        · exact finish_frame_logout (AuthFrame.refl ..) rfl call 0
        · exact blockNext_frame (AuthFrame.refl ..) rfl call _ _ false
      · split
        · exact finish_frame_logout (AuthFrame.refl ..) rfl call 0
        · exact blockNext_frame (AuthFrame.refl ..) rfl call _ _ false
  | block call jti jtis found failed =>
      simp only [LogoutStatement.exec]
      split
      · exact blockNext_frame (AuthFrame.refl ..) rfl call jtis found true
      · have hblocked : AuthFrame .logout w { w with
            blocklist := w.blocklist.set jti () (ttlFrom w.now config.jwtTtlSeconds) } :=
          { AuthFrame.refl .logout w with blocklist := fun h => absurd rfl h }
        exact blockNext_frame hblocked rfl call jtis found failed
  | removeSessions call found =>
      have hremoved : AuthFrame .logout w { w with
          sessions := Function.update w.sessions call.userId
            ((w.sessions call.userId).filter (· ∉ found)) } :=
        { AuthFrame.refl .logout w with sessions := fun _ h => absurd rfl h }
      exact finish_frame_logout hremoved rfl call _
  | sweep logout =>
      exact { AuthFrame.refl .logout w with
        apiKeys := fun _ h => absurd rfl h, logouts := fun h => absurd rfl h }

theorem account_frame (next : AccountStatement) :
    AuthFrame .account w (next.exec config input w).1 := by
  have hupdate (id : String) (f : Account → Account) (hf : ∀ account, (f account).id = account.id)
      (event : AuthEvent) (h : event.group = some .account) :
      AuthFrame .account w ((w.updateAccount id f hf).record event) :=
    { AuthFrame.refl .account w with
      accounts := fun h => absurd h (by decide), log := .inr ⟨_, rfl, .inr h⟩ }
  cases next with
  | impersonateUser targetUserId adminId adminAddress =>
      simp only [AccountStatement.exec]
      split
      · exact refuse_frame ..
      · split
        · exact refuse_frame ..
        · split
          · exact refuse_frame ..
          · split
            · exact refuse_frame ..
            · exact { AuthFrame.refl .account w with
                signed := fun h => absurd h (by decide), log := .inr ⟨_, rfl, .inr rfl⟩ }
  | deactivateUser userId =>
      simp only [AccountStatement.exec]
      split
      · exact refuse_frame ..
      · split
        · exact refuse_frame ..
        · exact AuthFrame.refl ..
  | countActive userId =>
      simp only [AccountStatement.exec]
      split
      · exact refuse_frame ..
      · exact AuthFrame.refl ..
  | deactivateUpdate userId deactivatedAt => exact hupdate _ _ _ _ rfl
  | adminSetActive id active adminId =>
      simp only [AccountStatement.exec]
      split
      · exact refuse_frame ..
      · split
        · exact refuse_frame ..
        · split
          · exact (AuthFrame.refl ..).record rfl _ (.inr rfl)
          · exact AuthFrame.refl ..
  | setActiveUpdate id deactivatedAt => exact hupdate _ _ _ _ rfl
  | updateUserRole token id newRole =>
      simp only [AccountStatement.exec]
      split
      · exact refuse_frame ..
      · split
        · exact AuthFrame.refl ..
        · exact refuse_frame ..
  | readUser callerId id newRole =>
      simp only [AccountStatement.exec]
      split
      · exact refuse_frame ..
      · split
        · exact refuse_frame ..
        · exact AuthFrame.refl ..
  | updateRole callerId id newRole => exact hupdate _ _ _ _ rfl

theorem email_frame (next : EmailStatement) : AuthFrame .email w (next.exec config w).1 := by
  have hupdate (id : String) (f : Account → Account) (hf : ∀ account, (f account).id = account.id)
      (event : AuthEvent) (h : event.group = some .email) :
      AuthFrame .email w ((w.updateAccount id f hf).record event) :=
    { AuthFrame.refl .email w with
      accounts := fun h => absurd h (by decide), log := .inr ⟨_, rfl, .inr h⟩ }
  cases next with
  | updateProfile userId email =>
      simp only [EmailStatement.exec]
      split
      · exact refuse_frame ..
      · split <;> exact AuthFrame.refl ..
  | checkUnused userId email =>
      simp only [EmailStatement.exec]
      split
      · exact refuse_frame ..
      · exact AuthFrame.refl ..
  | storeToken token email profile =>
      exact { AuthFrame.refl .email w with
        verificationTokens := fun h => absurd rfl h, signed := fun h => absurd h (by decide) }
  | sendEmail token email profile => exact (AuthFrame.refl ..).record rfl _ (.inr rfl)
  | setPendingEmail userId email => exact hupdate _ _ _ _ rfl
  | resendVerificationEmail userId =>
      simp only [EmailStatement.exec]
      split
      · exact refuse_frame ..
      · split
        · exact refuse_frame ..
        · exact AuthFrame.refl ..
  | verifyEmail token =>
      simp only [EmailStatement.exec]
      split
      · split
        · exact AuthFrame.refl ..
        · exact refuse_frame ..
      · exact refuse_frame ..
  | findPending token email =>
      simp only [EmailStatement.exec]
      split
      · exact refuse_frame ..
      · split
        · exact refuse_frame ..
        · exact AuthFrame.refl ..
  | findExisting token email =>
      simp only [EmailStatement.exec]
      split
      · exact refuse_frame ..
      · exact AuthFrame.refl ..
  | setEmail token email =>
      simp only [EmailStatement.exec]
      split
      · exact refuse_frame ..
      · exact hupdate _ _ _ _ rfl
  | clearToken token =>
      exact { AuthFrame.refl .email w with verificationTokens := fun h => absurd rfl h }

theorem phone_frame (next : PhoneStatement) : AuthFrame .phone w (next.exec input w).1 := by
  cases next with
  | sendPhoneVerificationOtp userId phoneNumber =>
      simp only [PhoneStatement.exec]
      split
      · exact refuse_frame ..
      · exact AuthFrame.refl ..
  | storeOtp userId phoneNumber otp =>
      exact { AuthFrame.refl .phone w with
        phoneOtps := fun h => absurd rfl h, log := .inr ⟨_, rfl, .inr rfl⟩ }
  | storePending userId phoneNumber otp =>
      exact { AuthFrame.refl .phone w with pendingPhones := fun h => absurd rfl h }
  | verifyPhone userId otp => exact AuthFrame.refl ..
  | getPending userId otp storedOtp =>
      simp only [PhoneStatement.exec]
      split
      · exact refuse_frame ..
      · split
        · exact refuse_frame ..
        · exact AuthFrame.refl ..
  | clearOtp userId otp pendingPhone =>
      exact { AuthFrame.refl .phone w with
        phoneOtps := fun h => absurd rfl h, log := .inr ⟨_, rfl, .inr rfl⟩ }
  | clearPending userId otp pendingPhone =>
      exact { AuthFrame.refl .phone w with pendingPhones := fun h => absurd rfl h }
  | setPhone userId otp pendingPhone =>
      simp only [PhoneStatement.exec]
      split
      · exact refuse_frame ..
      · exact { AuthFrame.refl .phone w with
          accounts := fun h => absurd h (by decide), log := .inr ⟨_, rfl, .inr rfl⟩ }

variable {config crypto}

/-- A statement throws, or it is executed. -/
theorem thrown_or {P : AuthWorld × List AuthStatement → Prop} {w : AuthWorld} {thrown : Bool}
    {result : AuthWorld × List AuthStatement} (hlost : P (w, []))
    (hdone : ¬ thrown → P result) : P (if thrown then (w, []) else result) := by
  split
  · exact hlost
  · exact hdone ‹_›

/-- The same for a logout; the blocking of a session goes on with the others. -/
theorem thrown_or_logout {P : AuthWorld × List AuthStatement → Prop} (next : LogoutStatement)
    (hlost : P (w, []))
    (hdone : (∀ logout, next = .sweep logout → ¬ input.thrown) →
      P ((next.exec config input w).1, (next.exec config input w).2.map .logout)) :
    P ((AuthStatement.logout next).resume config crypto input w) := by
  cases next with
  | block call jti jtis found failed => exact hdone (by intro logout h; cases h)
  | _ => exact thrown_or hlost fun hthrown => hdone fun _ _ => hthrown

/-- A step changes its own group's part at most. -/
theorem resume_frame (call : AuthStatement) :
    AuthFrame call.group w (call.resume config crypto input w).1 := by
  have hlost (g : AuthGroup) := AuthFrame.refl g w
  cases call with
  | login next =>
      exact thrown_or (P := fun r => AuthFrame .login w r.1) (hlost _)
        fun _ => login_frame config input w next
  | apiKey next =>
      exact thrown_or (P := fun r => AuthFrame .apiKey w r.1) (hlost _)
        fun _ => apiKey_frame crypto input w next
  | logout next =>
      exact thrown_or_logout (P := fun r => AuthFrame .logout w r.1) input w next (hlost _)
        fun _ => logout_frame config input w next
  | account next =>
      exact thrown_or (P := fun r => AuthFrame .account w r.1) (hlost _)
        fun _ => account_frame config input w next
  | email next =>
      exact thrown_or (P := fun r => AuthFrame .email w r.1) (hlost _)
        fun _ => email_frame config w next
  | phone next =>
      exact thrown_or (P := fun r => AuthFrame .phone w r.1) (hlost _)
        fun _ => phone_frame input w next

/-- The statements that write an account. -/
def AuthStatement.writesAccount : AuthStatement → Bool
  | .login (.upsertUser ..) => true
  | .account (.deactivateUpdate ..) | .account (.setActiveUpdate ..)
  | .account (.updateRole ..) => true
  | .email (.setPendingEmail ..) | .email (.setEmail ..) => true
  | .phone (.setPhone ..) => true
  | _ => false

theorem accounts_resume {call : AuthStatement} (h : call.writesAccount = false) :
    (call.resume config crypto input w).1.accounts = w.accounts := by
  let Same (r : AuthWorld × List AuthStatement) : Prop := r.1.accounts = w.accounts
  cases call with
  | login next =>
      refine thrown_or (P := Same) rfl fun _ => ?_
      cases next with
      | login dto =>
          simp only [LoginStatement.exec]
          split
          · rfl
          · split <;> rfl
      | upsertUser dto nonce => cases h
      | _ => rfl
  | account next =>
      refine thrown_or (P := Same) rfl fun _ => ?_
      cases next with
      | impersonateUser targetUserId adminId adminAddress =>
          simp only [AccountStatement.exec]
          split
          · rfl
          · split
            · rfl
            · split
              · rfl
              · split <;> rfl
      | deactivateUser userId =>
          simp only [AccountStatement.exec]
          split
          · rfl
          · split <;> rfl
      | countActive userId =>
          simp only [AccountStatement.exec]
          split <;> rfl
      | adminSetActive id active adminId =>
          simp only [AccountStatement.exec]
          split
          · rfl
          · split
            · rfl
            · split <;> rfl
      | updateUserRole token id newRole =>
          simp only [AccountStatement.exec]
          split
          · rfl
          · split <;> rfl
      | readUser callerId id newRole =>
          simp only [AccountStatement.exec]
          split
          · rfl
          · split <;> rfl
      | _ => cases h
  | email next =>
      refine thrown_or (P := Same) rfl fun _ => ?_
      cases next with
      | updateProfile userId email =>
          simp only [EmailStatement.exec]
          split
          · rfl
          · split <;> rfl
      | checkUnused userId email =>
          simp only [EmailStatement.exec]
          split <;> rfl
      | resendVerificationEmail userId =>
          simp only [EmailStatement.exec]
          split
          · rfl
          · split <;> rfl
      | verifyEmail token =>
          simp only [EmailStatement.exec]
          split
          · split <;> rfl
          · rfl
      | findPending token email =>
          simp only [EmailStatement.exec]
          split
          · rfl
          · split <;> rfl
      | findExisting token email =>
          simp only [EmailStatement.exec]
          split <;> rfl
      | setPendingEmail userId email => cases h
      | setEmail token email => cases h
      | _ => rfl
  | phone next =>
      refine thrown_or (P := Same) rfl fun _ => ?_
      cases next with
      | sendPhoneVerificationOtp userId phoneNumber =>
          simp only [PhoneStatement.exec]
          split <;> rfl
      | getPending userId otp storedOtp =>
          simp only [PhoneStatement.exec]
          split
          · rfl
          · split <;> rfl
      | setPhone userId otp pendingPhone => cases h
      | _ => rfl
  | _ => exact (resume_frame input w _).accounts (by simp [AuthStatement.group])

/-- A call stays in its group. -/
theorem group_resume {call next : AuthStatement}
    (h : next ∈ (call.resume config crypto input w).2) : next.group = call.group := by
  have hmap {κ : Type} {thrown : Bool} {calls : List κ} {w' : AuthWorld} {g : AuthGroup}
      (make : κ → AuthStatement) (hmake : ∀ call, (make call).group = g)
      (h : next ∈ (if thrown then (w, []) else (w', calls.map make)).2) : next.group = g := by
    split at h
    · cases h
    · obtain ⟨call, -, rfl⟩ := List.mem_map.mp h
      exact hmake call
  cases call with
  | login _ => exact hmap .login (fun _ => rfl) h
  | apiKey _ => exact hmap .apiKey (fun _ => rfl) h
  | logout current =>
      cases current with
      | block call jti jtis found failed =>
          obtain ⟨call, -, rfl⟩ := List.mem_map.mp h
          rfl
      | _ => exact hmap .logout (fun _ => rfl) h
  | account _ => exact hmap .account (fun _ => rfl) h
  | email _ => exact hmap .email (fun _ => rfl) h
  | phone _ => exact hmap .phone (fun _ => rfl) h

/-- A step records no event of another group. -/
theorem AuthFrame.log_of_ne {g other : AuthGroup} {w w' : AuthWorld} (h : AuthFrame g w w')
    (hg : g ≠ other) :
    w'.log = w.log ∨ ∃ event, w'.log = event :: w.log ∧ event.group ≠ some other := by
  refine h.log.imp_right ?_
  rintro ⟨event, hlog, hgroup⟩
  refine ⟨event, hlog, fun hother => ?_⟩
  rcases hgroup with hnone | hsome
  · rw [hother] at hnone
    cases hnone
  · exact hg (Option.some.inj (hsome.symm.trans hother))

/-- What a list of events says about one kind of event, where a step adds others. -/
theorem AuthFrame.filterMap_log {g other : AuthGroup} {w w' : AuthWorld} (h : AuthFrame g w w')
    (hg : g ≠ other) {β : Type} {f : AuthEvent → Option β}
    (hf : ∀ event, event.group ≠ some other → f event = none) :
    w'.log.filterMap f = w.log.filterMap f := by
  rcases h.log_of_ne hg with hlog | ⟨event, hlog, hgroup⟩
  · rw [hlog]
  · rw [hlog, List.filterMap_cons_none (hf event hgroup)]

theorem AuthFrame.count_log {g other : AuthGroup} {w w' : AuthWorld} (h : AuthFrame g w w')
    {event : AuthEvent} (hevent : event.group = some other) (hg : g ≠ other) :
    w'.log.count event = w.log.count event := by
  rcases h.log_of_ne hg with hlog | ⟨recorded, hlog, hgroup⟩
  · rw [hlog]
  · rw [hlog, List.count_cons_of_ne]
    rintro rfl
    exact hgroup hevent

/-- The calls of another group have no share in what this one has. -/
theorem shares_resume {call : AuthStatement} {g : AuthGroup} (hg : call.group ≠ g)
    {share : AuthStatement → Nat} (hshare : ∀ other, other.group ≠ g → share other = 0) :
    ((call.resume config crypto input w).2.map share).sum = 0 := by
  refine List.sum_eq_zero_iff_forall_eq_nat.mpr fun count hcount => ?_
  obtain ⟨next, hnext, rfl⟩ := List.mem_map.mp hcount
  exact hshare next (by rwa [group_resume input w hnext])

end Groups

section Examples

/-- Signatures are spelled out here; the lifetimes are those of `ms`. -/
def demoAuthConfig : AuthConfig where
  jwtExpiresIn := "7d"
  impersonationExpiresIn := "15m"
  lifetime expiresIn :=
    if expiresIn = "15m" then 900 else if expiresIn = "24h" then 86400 else 604800
  verifySignature stellarAddress message signature :=
    some (signature = stellarAddress ++ " signs " ++ message)

def digestOne : HexText 64 where
  text := "9b346041bc9a49574eb2665b2ad2a0a3f9f9cce4e42f5d1f26deb8a256b5966a"
  hex := List.all_eq_true.mp (by decide)
  size := by decide

def digestTwo : HexText 64 where
  text := "c8df51469c308a59bfbd48a3e0bdd228ca922d6032035f5ef6e4ad45f473a9f3"
  hex := List.all_eq_true.mp (by decide)
  size := by decide

def digestThree : HexText 64 where
  text := "2f06bcf4e8d96d66f0b8d972e1d9351a255f82ff4cf1a12b63c8d3642206547e"
  hex := List.all_eq_true.mp (by decide)
  size := by decide

/-- The digests of the keys that the runs below create. -/
def demoAuthCrypto : Crypto where
  sha256 text :=
    if text = "key-one" then digestOne else if text = "key-two" then digestTwo else digestThree
  hmacSha256 _ _ := digestThree
  cipher _ _ _ := none
  decipher _ _ _ _ := none

def demoAccounts : Table Account.id where
  rows := [newAccount "u-1" "GUSER", { newAccount "a-1" "GADMIN" with role := .admin },
    { newAccount "a-2" "GOTHER" with role := .admin }]
  nodup := by decide

def demoAuthPool : AuthPool := freshAuth demoAccounts 0

/-- A step that draws an id (of a key, or of a session) and a key. -/
def drawing (id plaintext : String) : AuthInput where
  id := id
  jti := id
  random := "x"
  plaintext := plaintext
  otp := "123456"
  activeShipments := 0
  thrown := false

def calmly : AuthInput := drawing "k-0" "key-two"

end Examples

end ChainSettle
