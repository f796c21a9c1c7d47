import ChainSettle.Auth.Steps
import Mathlib.Data.List.Dedup

/-!
Sessions. `registerSession` adds a login's token to the user's sessions in Redis;
`revokeAllSessions` puts those it finds on the blocklist and then forgets them. So the
session of every token is either still listed, or blocked for as long as the token
lives, and the tokens of a forced logout end up blocked. Only a login's token has a
session.
-/

namespace ChainSettle

open Lib

section Signing

variable {config : AuthConfig} {w : AuthWorld}

theorem signed_login {next : LoginStatement} (input : AuthInput)
    (h : ∀ dto nonce token, next ≠ .registerSession dto nonce token) :
    (next.exec config input w).1.signed = w.signed ∧
      (next.exec config input w).1.sessions = w.sessions := by
  cases next with
  | registerSession dto nonce token => exact absurd rfl (h _ _ _)
  | _ =>
      simp only [LoginStatement.exec]
      repeat' split
      all_goals exact ⟨rfl, rfl⟩

theorem signed_account {next : AccountStatement} (input : AuthInput)
    (h : ∀ targetUserId adminId adminAddress,
      next ≠ .impersonateUser targetUserId adminId adminAddress) :
    (next.exec config input w).1.signed = w.signed := by
  cases next with
  | impersonateUser targetUserId adminId adminAddress => exact absurd rfl (h _ _ _)
  | _ =>
      simp only [AccountStatement.exec]
      repeat' split
      all_goals rfl

theorem signed_email {next : EmailStatement}
    (h : ∀ token email profile, next ≠ .storeToken token email profile) :
    (next.exec config w).1.signed = w.signed := by
  cases next with
  | storeToken token email profile => exact absurd rfl (h _ _ _)
  | _ =>
      simp only [EmailStatement.exec]
      repeat' split
      all_goals rfl

/-- The token that a statement signs. -/
def AuthStatement.Signs (config : AuthConfig) (w : AuthWorld) (token : Jwt) : AuthStatement → Prop
  | .login (.registerSession _ _ other) => other = token
  | .email (.storeToken other _ _) => other = token
  | .account (.impersonateUser _ adminId adminAddress) => ∃ target,
      token = config.sign w.now config.impersonationExpiresIn
        (impersonationClaims target adminId adminAddress)
  | _ => False

/-- Everything a step can do to the tokens. -/
theorem signed_resume (config : AuthConfig) (crypto : Crypto) (input : AuthInput) (w : AuthWorld)
    (call : AuthStatement) :
    (call.resume config crypto input w).1.signed = w.signed ∨
      ∃ token, (call.resume config crypto input w).1.signed = token :: w.signed ∧
        call.Signs config w token := by
  let Signed (r : AuthWorld × List AuthStatement) : Prop := r.1.signed = w.signed ∨
    ∃ token, r.1.signed = token :: w.signed ∧ call.Signs config w token
  have haside (hg : call.group = .apiKey ∨ call.group = .logout ∨ call.group = .phone) :
      (call.resume config crypto input w).1.signed = w.signed :=
    (resume_frame input w call).signed hg
  cases call with
  | login next =>
      refine thrown_or (P := Signed) (.inl rfl) fun _ => ?_
      cases next with
      | registerSession dto nonce token => exact .inr ⟨token, rfl, rfl⟩
      | _ => exact .inl (signed_login input (by intro _ _ _ h; cases h)).1
  | account next =>
      refine thrown_or (P := Signed) (.inl rfl) fun _ => ?_
      cases next with
      | impersonateUser targetUserId adminId adminAddress =>
          simp only [AccountStatement.exec]
          split
          · exact .inl rfl
          · split
            · exact .inl rfl
            · split
              · exact .inl rfl
              · split
                · exact .inl rfl
                · exact .inr ⟨_, rfl, _, rfl⟩
      | _ => exact .inl (signed_account input (by intro _ _ _ h; cases h))
  | email next =>
      refine thrown_or (P := Signed) (.inl rfl) fun _ => ?_
      cases next with
      | storeToken token email profile => exact .inr ⟨token, rfl, rfl⟩
      | _ => exact .inl (signed_email (by intro _ _ _ h; cases h))
  | _ => exact .inl (haside (by simp [AuthStatement.group]))

theorem token_of_registerSession {next : LoginStatement} {input : AuthInput} {dto : LoginDto}
    {nonce : String} {token : Jwt}
    (h : .registerSession dto nonce token ∈ (next.exec config input w).2) :
    ∃ account, token = config.sign w.now config.jwtExpiresIn (loginClaims account input.jti) := by
  cases next with
  | upsertUser dto nonce =>
      simp only [LoginStatement.exec] at h
      split at h
      · cases List.mem_singleton.mp h
        exact ⟨_, rfl⟩
      · split at h
        · cases h
        · cases List.mem_singleton.mp h
          exact ⟨_, rfl⟩
  | _ =>
      simp only [LoginStatement.exec] at h
      repeat' split at h
      all_goals simp [AuthWorld.refuse] at h

/-- The token of a mail names the user and the address. -/
theorem token_of_storeToken {next : EmailStatement} {token : Jwt} {email : String} {profile : Bool}
    (h : .storeToken token email profile ∈ (next.exec config w).2) :
    ∃ userId, token = config.sign w.now "24h" (mailClaims userId email) := by
  cases next with
  | checkUnused userId address =>
      simp only [EmailStatement.exec] at h
      split at h
      · cases h
      · cases List.mem_singleton.mp h
        exact ⟨userId, rfl⟩
  | resendVerificationEmail userId =>
      simp only [EmailStatement.exec] at h
      split at h
      · cases h
      · split at h
        · cases h
        · cases List.mem_singleton.mp h
          exact ⟨userId, rfl⟩
  | _ =>
      simp only [EmailStatement.exec] at h
      repeat' split at h
      all_goals simp [AuthWorld.refuse] at h

theorem jti_of_storeToken {crypto : Crypto} (input : AuthInput) {call : AuthStatement} {token : Jwt}
    {email : String} {profile : Bool}
    (h : .email (.storeToken token email profile) ∈ (call.resume config crypto input w).2) :
    token.jti = none := by
  have hgroup := group_resume input w h
  cases call with
  | email next =>
      simp only [AuthStatement.resume] at h
      split at h
      · cases h
      · obtain ⟨later, hlater, heq⟩ := List.mem_map.mp h
        cases heq
        obtain ⟨userId, rfl⟩ := token_of_storeToken hlater
        rfl
  | _ => cases hgroup

theorem count_signed_resume (config : AuthConfig) (crypto : Crypto) (input : AuthInput)
    (w : AuthWorld) (call : AuthStatement) (token : Jwt) :
    w.signed.count token ≤ (call.resume config crypto input w).1.signed.count token := by
  rcases signed_resume config crypto input w call with hsame | ⟨other, hnew, -⟩
  · rw [hsame]
  · rw [hnew]
    exact List.count_le_count_cons

end Signing

section Sessions

/-- A token with a session lives no longer than a login's. -/
def Timed (config : AuthConfig) (w : AuthWorld) (token : Jwt) : Prop :=
  token.jti.isSome → token.exp ≤ w.now / 1000 + config.lifetime config.jwtExpiresIn

/-- The session of a token is blocked for as long as the token lives. -/
def BlockedFor (w : AuthWorld) (token : Jwt) : Prop :=
  ∀ jti, token.jti = some jti → ∃ entry, w.blocklist jti = some entry ∧
    ∀ expiresAt ∈ entry.expiresAt, token.exp * 1000 ≤ expiresAt

/-- A session that some token was signed for. -/
def Known (w : AuthWorld) (jti : String) : Prop := ∃ token ∈ w.signed, token.jti = some jti

structure SessionsSound (config : AuthConfig) (w : AuthWorld) : Prop where
  timed : ∀ token ∈ w.signed, Timed config w token
  covered : ∀ token ∈ w.signed, ∀ jti, token.jti = some jti →
    jti ∈ w.sessions token.sub ∨ BlockedFor w token
  known : ∀ userId, ∀ jti ∈ w.sessions userId, Known w jti

/-- What a call of `revokeAllSessions` has found; for a forced logout these are the
sessions that were there before, but for those that were blocked already. -/
structure Found (w : AuthWorld) (call : Revocation) (found : List String) : Prop where
  known : ∀ jti ∈ found, Known w jti
  forced : ∀ logout ∈ call.forced, call.userId = logout.targetUserId ∧
    ∀ token ∈ logout.tokens, token ∈ w.signed ∧ (token.sub = call.userId →
      ∀ jti, token.jti = some jti → jti ∈ found ∨ BlockedFor w token)

/-- The sessions found are blocked, but for those left. -/
def BlockedBut (w : AuthWorld) (call : Revocation) (found left : List String) : Prop :=
  ∀ token ∈ w.signed, token.sub = call.userId → ∀ jti, token.jti = some jti → jti ∈ found →
    jti ∈ left ∨ BlockedFor w token

/-- The sessions of a forced logout are blocked. -/
def SessionsEnded (w : AuthWorld) (logout : ForceLogout) : Prop :=
  ∀ token ∈ logout.tokens, token ∈ w.signed ∧
    (token.sub = logout.targetUserId → BlockedFor w token)

def LogoutProgress (config : AuthConfig) (w : AuthWorld) : AuthStatement → Prop
  | .login (.registerSession _ _ token) => Timed config w token
  | .email (.storeToken token _ _) => token.jti = none
  | .logout (.revokeAllSessions call) =>
      ∀ logout ∈ call.forced, call.userId = logout.targetUserId ∧ call.includeCurrent ∧
        ∀ token ∈ logout.tokens, token ∈ w.signed
  | .logout (.block call jti jtis found failed) =>
      Found w call found ∧ (failed = false → BlockedBut w call found (jti :: jtis))
  | .logout (.removeSessions call found) => Found w call found ∧ BlockedBut w call found []
  | .logout (.sweep logout) => SessionsEnded w logout
  | _ => True

/-- A later state: nothing is unsigned or unblocked, and new tokens have new sessions. -/
structure Later (w w' : AuthWorld) : Prop where
  now : w.now ≤ w'.now
  signed : ∀ token ∈ w.signed, token ∈ w'.signed
  fresh : ∀ token ∈ w'.signed, token ∈ w.signed ∨ ∀ jti, token.jti = some jti → ¬ Known w jti
  blocked : ∀ token ∈ w.signed, BlockedFor w token → BlockedFor w' token

variable {config : AuthConfig} {w w' : AuthWorld}

theorem Timed.mono {token : Jwt} (h : Timed config w token) (hnow : w.now ≤ w'.now) :
    Timed config w' token := by
  intro hjti
  have hdiv : w.now / 1000 ≤ w'.now / 1000 := Nat.div_le_div_right hnow
  exact (h hjti).trans (Nat.add_le_add_right hdiv _)

theorem BlockedFor.congr {token : Jwt} (h : BlockedFor w token)
    (hblocklist : w'.blocklist = w.blocklist) : BlockedFor w' token := by
  unfold BlockedFor
  rw [hblocklist]
  exact h

/-- A blocked session is found for as long as its token lives. -/
theorem BlockedFor.isRevoked {token : Jwt} (h : BlockedFor w token) {jti : String}
    (hjti : token.jti = some jti) (hlive : w.now / 1000 < token.exp) : w.isRevoked jti = true := by
  obtain ⟨entry, hentry, hexpires⟩ := h jti hjti
  have hnow : w.now < token.exp * 1000 := (Nat.div_lt_iff_lt_mul (by decide)).mp hlive
  have hvalid : entry.expiresAt.all (w.now < ·) := by
    cases hat : entry.expiresAt with
    | none => rfl
    | some instant => exact decide_eq_true (hnow.trans_le (hexpires instant hat))
  show (w.blocklist.get w.now jti).isSome = true
  rw [Store.get, hentry]
  dsimp only
  rw [if_pos hvalid]
  rfl

theorem Later.of_same (hnow : w.now ≤ w'.now) (hsigned : w'.signed = w.signed)
    (hblocklist : w'.blocklist = w.blocklist) : Later w w' where
  now := hnow
  signed _ hmem := hsigned ▸ hmem
  fresh _ hmem := .inl (hsigned ▸ hmem)
  blocked _ _ h := h.congr hblocklist

/-- A token is signed. -/
theorem Later.of_signed {token : Jwt} (hnow : w.now ≤ w'.now)
    (hsigned : w'.signed = token :: w.signed) (hblocklist : w'.blocklist = w.blocklist)
    (hfresh : ∀ jti, token.jti = some jti → ¬ Known w jti) : Later w w' where
  now := hnow
  signed other hmem := hsigned ▸ List.mem_cons_of_mem _ hmem
  fresh other hmem := by
    rw [hsigned] at hmem
    rcases List.mem_cons.mp hmem with rfl | hmem
    · exact .inr hfresh
    · exact .inl hmem
  blocked _ _ h := h.congr hblocklist

theorem Known.later {jti : String} (h : Known w jti) (hlater : Later w w') : Known w' jti := by
  obtain ⟨token, hmem, hjti⟩ := h
  exact ⟨token, hlater.signed token hmem, hjti⟩

theorem Found.later {call : Revocation} {found : List String} (h : Found w call found)
    (hlater : Later w w') : Found w' call found := by
  refine ⟨fun jti hmem => (h.known jti hmem).later hlater, fun logout hforced => ?_⟩
  obtain ⟨huser, htokens⟩ := h.forced logout hforced
  refine ⟨huser, fun token hmem => ⟨hlater.signed token (htokens token hmem).1, ?_⟩⟩
  intro hsub jti hjti
  refine ((htokens token hmem).2 hsub jti hjti).imp_right ?_
  exact hlater.blocked token (htokens token hmem).1

theorem BlockedBut.later {call : Revocation} {found left : List String}
    (h : BlockedBut w call found left) (hfound : ∀ jti ∈ found, Known w jti)
    (hlater : Later w w') : BlockedBut w' call found left := by
  intro token hmem hsub jti hjti hin
  rcases hlater.fresh token hmem with hold | hnew
  · exact (h token hold hsub jti hjti hin).imp_right (hlater.blocked token hold)
  · exact absurd (hfound jti hin) (hnew jti hjti)

theorem SessionsEnded.later {logout : ForceLogout} (h : SessionsEnded w logout)
    (hlater : Later w w') : SessionsEnded w' logout := by
  intro token hmem
  obtain ⟨hsigned, hblocked⟩ := h token hmem
  exact ⟨hlater.signed token hsigned, fun hsub => hlater.blocked token hsigned (hblocked hsub)⟩

theorem LogoutProgress.later {call : AuthStatement} (h : LogoutProgress config w call)
    (hlater : Later w w') : LogoutProgress config w' call := by
  cases call with
  | login next =>
      cases next with
      | registerSession dto nonce token => exact Timed.mono h hlater.now
      | _ => trivial
  | email next =>
      cases next with
      | storeToken token email profile => exact h
      | _ => trivial
  | logout next =>
      cases next with
      | revokeAllSessions call =>
          intro logout hforced
          obtain ⟨huser, hall, htokens⟩ := h logout hforced
          exact ⟨huser, hall, fun token hmem => hlater.signed token (htokens token hmem)⟩
      | block call jti jtis found failed =>
          exact ⟨h.1.later hlater, fun hfailed => (h.2 hfailed).later h.1.known hlater⟩
      | removeSessions call found => exact ⟨h.1.later hlater, h.2.later h.1.known hlater⟩
      | sweep logout => exact SessionsEnded.later h hlater
      | _ => trivial
  | _ => trivial

/-- The sessions where a step is about none of them. -/
theorem SessionsSound.later (h : SessionsSound config w) (hlater : Later w w')
    (hsessions : w'.sessions = w.sessions)
    (hnew : ∀ token ∈ w'.signed, token ∈ w.signed ∨ token.jti = none) :
    SessionsSound config w' := by
  refine ⟨fun token hmem => ?_, fun token hmem jti hjti => ?_, fun userId jti hmem => ?_⟩
  · rcases hnew token hmem with hold | hnone
    · exact (h.timed token hold).mono hlater.now
    · intro hsome
      rw [hnone] at hsome
      cases hsome
  · rcases hnew token hmem with hold | hnone
    · rw [hsessions]
      exact (h.covered token hold jti hjti).imp_right (hlater.blocked token hold)
    · rw [hnone] at hjti
      cases hjti
  · rw [hsessions] at hmem
    exact (h.known userId jti hmem).later hlater

theorem Later.trans {w'' : AuthWorld} (h : Later w w') (h' : Later w' w'') : Later w w'' where
  now := h.now.trans h'.now
  signed token hmem := h'.signed token (h.signed token hmem)
  fresh token hmem := by
    rcases h'.fresh token hmem with hold | hnew
    · exact h.fresh token hold
    · exact .inr fun jti hjti hknown => hnew jti hjti (hknown.later h)
  blocked token hmem hblocked :=
    h'.blocked token (h.signed token hmem) (h.blocked token hmem hblocked)

end Sessions

section Steps

variable {config : AuthConfig} {w w' : AuthWorld}

/-- The blocklist keeps a session for as long as a login's token lives. -/
def AuthConfig.BlocksLongEnough (config : AuthConfig) : Prop :=
  config.jwtTtlSeconds = 0 ∨ config.lifetime config.jwtExpiresIn ≤ config.jwtTtlSeconds

instance : Decidable config.BlocksLongEnough := inferInstanceAs (Decidable (_ ∨ _))

structure LogoutsSound (config : AuthConfig) (w : AuthWorld) : Prop where
  sessions : SessionsSound config w
  ended : ∀ logout ∈ w.logouts, SessionsEnded w logout

/-- What a step keeps, with what it establishes of the calls it leaves behind. -/
structure Advances (config : AuthConfig) (w w' : AuthWorld) (calls : List AuthStatement) :
    Prop where
  sound : LogoutsSound config w'
  progress : ∀ next ∈ calls, LogoutProgress config w' next
  later : Later w w'

theorem LogoutsSound.later (h : LogoutsSound config w) (hlater : Later w w')
    (hsessions : w'.sessions = w.sessions)
    (hnew : ∀ token ∈ w'.signed, token ∈ w.signed ∨ token.jti = none)
    (hlogouts : w'.logouts = w.logouts) : LogoutsSound config w' := by
  refine ⟨h.sessions.later hlater hsessions hnew, fun logout hmem => ?_⟩
  exact (h.ended logout (hlogouts ▸ hmem)).later hlater

/-- An entry of the blocklist that is set now outlives every token of its session. -/
theorem exp_le_ttlFrom (hconfig : config.BlocksLongEnough) {token : Jwt} {jti : String}
    (htimed : Timed config w token) (hjti : token.jti = some jti) :
    ∀ expiresAt ∈ ttlFrom w.now config.jwtTtlSeconds, token.exp * 1000 ≤ expiresAt := by
  intro expiresAt hexpires
  unfold ttlFrom at hexpires
  split at hexpires
  · cases hexpires
  · rename_i httl
    obtain rfl := Option.mem_some_iff.mp hexpires
    have hlifetime := hconfig.resolve_left httl
    have hexp := htimed (by rw [hjti]; rfl)
    calc
      token.exp * 1000 ≤ (w.now / 1000 + config.jwtTtlSeconds) * 1000 :=
        Nat.mul_le_mul_right _ (hexp.trans (Nat.add_le_add_left hlifetime _))
      _ = w.now / 1000 * 1000 + config.jwtTtlSeconds * 1000 := Nat.add_mul ..
      _ ≤ w.now + config.jwtTtlSeconds * 1000 := Nat.add_le_add_right (Nat.div_mul_le_self ..) _

theorem blockedFor_set (hconfig : config.BlocksLongEnough) {token : Jwt}
    (htimed : Timed config w token) {jti : String} (hjti : token.jti = some jti) :
    BlockedFor { w with
      blocklist := w.blocklist.set jti () (ttlFrom w.now config.jwtTtlSeconds) } token := by
  intro other hother
  obtain rfl : jti = other := Option.some.inj (hjti.symm.trans hother)
  exact ⟨_, Store.set_self .., exp_le_ttlFrom hconfig htimed hjti⟩

/-- Another session is blocked, or the same one again. -/
theorem BlockedFor.block (hconfig : config.BlocksLongEnough) {token : Jwt}
    (htimed : Timed config w token) (h : BlockedFor w token) (jti : String) :
    BlockedFor { w with
      blocklist := w.blocklist.set jti () (ttlFrom w.now config.jwtTtlSeconds) } token := by
  by_cases hsame : token.jti = some jti
  · exact blockedFor_set hconfig htimed hsame
  · intro other hother
    obtain ⟨entry, hentry, hexpires⟩ := h other hother
    have hne : other ≠ jti := fun heq => hsame (heq ▸ hother)
    exact ⟨entry, (Store.set_of_ne _ hne _ _).trans hentry, hexpires⟩

theorem block_later (h : SessionsSound config w) (hconfig : config.BlocksLongEnough)
    (jti : String) :
    Later w { w with
      blocklist := w.blocklist.set jti () (ttlFrom w.now config.jwtTtlSeconds) } :=
  ⟨le_rfl, fun _ h => h, fun _ h => .inl h,
    fun token hmem hblocked => hblocked.block hconfig (h.timed token hmem) jti⟩

theorem finish_advances (h : LogoutsSound config w) (call : Revocation) (count : Nat)
    (hended : ∀ logout ∈ call.forced, SessionsEnded w logout) :
    Advances config w (call.finish w count).1 ((call.finish w count).2.map .logout) := by
  have hlater {w' : AuthWorld} (hnow : w'.now = w.now) (hsigned : w'.signed = w.signed)
      (hblocklist : w'.blocklist = w.blocklist) : Later w w' :=
    Later.of_same hnow.ge hsigned hblocklist
  unfold Revocation.finish
  split
  · exact ⟨h.later (hlater rfl rfl rfl) rfl (fun _ h => .inl h) rfl, List.forall_mem_nil _,
      hlater rfl rfl rfl⟩
  · rename_i logout hforced
    have hlogout := hended logout hforced
    split
    · exact ⟨h.later (hlater rfl rfl rfl) rfl (fun _ h => .inl h) rfl,
        List.forall_mem_singleton.mpr (hlogout.later (hlater rfl rfl rfl)), hlater rfl rfl rfl⟩
    · refine ⟨⟨h.sessions.later (hlater rfl rfl rfl) rfl (fun _ h => .inl h), ?_⟩,
        List.forall_mem_nil _, hlater rfl rfl rfl⟩
      exact List.forall_mem_cons.mpr ⟨hlogout.later (hlater rfl rfl rfl),
        fun other hmem => (h.ended other hmem).later (hlater rfl rfl rfl)⟩

theorem blockNext_advances (h : LogoutsSound config w) {call : Revocation}
    {jtis found : List String} {failed : Bool} (hfound : Found w call found)
    (hbut : failed = false → BlockedBut w call found jtis) :
    Advances config w (call.blockNext w jtis found failed).1
      ((call.blockNext w jtis found failed).2.map .logout) := by
  have hsame : Later w w := Later.of_same le_rfl rfl rfl
  unfold Revocation.blockNext
  cases jtis with
  | cons jti jtis =>
      exact ⟨h, List.forall_mem_singleton.mpr ⟨hfound, hbut⟩, hsame⟩
  | nil =>
      cases failed with
      | true =>
          have hlater : Later w (w.record (.refused ⟨500, "Internal server error"⟩)) :=
            Later.of_same le_rfl rfl rfl
          exact ⟨h.later hlater rfl (fun _ h => .inl h) rfl, List.forall_mem_nil _, hlater⟩
      | false => exact ⟨h, List.forall_mem_singleton.mpr ⟨hfound, hbut rfl⟩, hsame⟩

theorem Advances.trans {w₁ : AuthWorld} {calls : List AuthStatement}
    (h : Advances config w₁ w' calls) (hlater : Later w w₁) : Advances config w w' calls :=
  ⟨h.sound, h.progress, hlater.trans h.later⟩

theorem revokeAllSessions_advances (h : LogoutsSound config w) {call : Revocation}
    (input : AuthInput) (hcall : LogoutProgress config w (.logout (.revokeAllSessions call))) :
    Advances config w ((LogoutStatement.revokeAllSessions call).exec config input w).1
      (((LogoutStatement.revokeAllSessions call).exec config input w).2.map .logout) := by
  let all := (w.sessions call.userId).dedup
  let found := if call.includeCurrent then all else all.filter (· ≠ call.currentJti)
  have hsub : ∀ jti ∈ found, jti ∈ w.sessions call.userId := by
    intro jti hmem
    dsimp only [found] at hmem
    split at hmem
    · exact List.mem_dedup.mp hmem
    · exact List.mem_dedup.mp (List.mem_of_mem_filter hmem)
  have hfound : Found w call found := by
    refine ⟨fun jti hmem => h.sessions.known _ jti (hsub jti hmem), fun logout hforced => ?_⟩
    obtain ⟨huser, hall, htokens⟩ := hcall logout hforced
    refine ⟨huser, fun token hmem => ⟨htokens token hmem, fun htoken jti hjti => ?_⟩⟩
    refine (h.sessions.covered token (htokens token hmem) jti hjti).imp_left fun hsession => ?_
    dsimp only [found]
    rw [if_pos hall]
    exact List.mem_dedup.mpr (htoken ▸ hsession)
  show Advances config w (if found = [] then call.finish w 0 else
    call.blockNext w found found false).1 ((if found = [] then call.finish w 0 else
      call.blockNext w found found false).2.map .logout)
  split
  · rename_i hnone
    refine finish_advances h call 0 fun logout hforced token hmem => ?_
    obtain ⟨huser, htokens⟩ := hfound.forced logout hforced
    refine ⟨(htokens token hmem).1, fun htoken jti hjti => ?_⟩
    have hblocked := (htokens token hmem).2 (htoken.trans huser.symm) jti hjti
    rw [hnone] at hblocked
    exact hblocked.resolve_left List.not_mem_nil jti hjti
  · exact blockNext_advances h hfound fun _ token _ _ jti _ hmem => .inl hmem

theorem block_advances (h : LogoutsSound config w) (hconfig : config.BlocksLongEnough)
    (input : AuthInput) {call : Revocation} {jti : String} {jtis found : List String} {failed : Bool}
    (hcall : LogoutProgress config w (.logout (.block call jti jtis found failed))) :
    Advances config w ((LogoutStatement.block call jti jtis found failed).exec config input w).1
      (((LogoutStatement.block call jti jtis found failed).exec config input w).2.map .logout) := by
  obtain ⟨hfound, hbut⟩ := hcall
  simp only [LogoutStatement.exec]
  split
  · exact blockNext_advances h hfound fun hfalse => by cases hfalse
  · have hlater := block_later h.sessions hconfig jti
    refine (blockNext_advances (h.later hlater rfl (fun _ h => .inl h) rfl) (hfound.later hlater)
      fun hfailed token hmem hsub other hother hin => ?_).trans hlater
    rcases hbut hfailed token hmem hsub other hother hin with hleft | hblocked
    · rcases List.mem_cons.mp hleft with rfl | hleft
      · exact .inr (blockedFor_set hconfig (h.sessions.timed token hmem) hother)
      · exact .inl hleft
    · exact .inr (hlater.blocked token hmem hblocked)

/-- The sessions are forgotten once they are blocked. -/
theorem removeSessions_advances (h : LogoutsSound config w) (input : AuthInput)
    {call : Revocation} {found : List String}
    (hcall : LogoutProgress config w (.logout (.removeSessions call found))) :
    Advances config w ((LogoutStatement.removeSessions call found).exec config input w).1
      (((LogoutStatement.removeSessions call found).exec config input w).2.map .logout) := by
  obtain ⟨hfound, hbut⟩ := hcall
  let after : AuthWorld := { w with
    sessions := Function.update w.sessions call.userId
      ((w.sessions call.userId).filter (· ∉ found)) }
  have hlater : Later w after := Later.of_same le_rfl rfl rfl
  have hblocked (token : Jwt) (hmem : token ∈ w.signed) (hsub : token.sub = call.userId)
      (jti : String) (hjti : token.jti = some jti) (hin : jti ∈ found) : BlockedFor w token :=
    (hbut token hmem hsub jti hjti hin).resolve_left List.not_mem_nil
  have hsessions : SessionsSound config after := by
    refine ⟨h.sessions.timed, fun token hmem jti hjti => ?_, fun userId jti hmem => ?_⟩
    · rcases h.sessions.covered token hmem jti hjti with hsession | hdone
      · by_cases hsub : token.sub = call.userId
        · by_cases hin : jti ∈ found
          · exact .inr (hblocked token hmem hsub jti hjti hin)
          · left
            dsimp only [after]
            rw [hsub, Function.update_self]
            exact List.mem_filter.mpr ⟨hsub ▸ hsession, decide_eq_true hin⟩
        · left
          dsimp only [after]
          rw [Function.update_of_ne hsub]
          exact hsession
      · exact .inr hdone
    · refine h.sessions.known userId jti ?_
      dsimp only [after] at hmem
      by_cases huser : userId = call.userId
      · rw [huser, Function.update_self] at hmem
        exact huser ▸ List.mem_of_mem_filter hmem
      · rwa [Function.update_of_ne huser] at hmem
  have hsound : LogoutsSound config after :=
    ⟨hsessions, fun logout hmem => (h.ended logout hmem).later hlater⟩
  refine (finish_advances hsound call found.length fun logout hforced token hmem => ?_).trans hlater
  obtain ⟨huser, htokens⟩ := hfound.forced logout hforced
  obtain ⟨hsigned, hleft⟩ := htokens token hmem
  refine ⟨hsigned, fun htoken jti hjti => ?_⟩
  have hsub : token.sub = call.userId := htoken.trans huser.symm
  rcases hleft hsub jti hjti with hin | hdone
  · exact hblocked token hsigned hsub jti hjti hin jti hjti
  · exact hdone jti hjti

theorem logout_advances (h : LogoutsSound config w) (hconfig : config.BlocksLongEnough)
    (input : AuthInput) {next : LogoutStatement} (hcall : LogoutProgress config w (.logout next)) :
    Advances config w (next.exec config input w).1
      ((next.exec config input w).2.map .logout) := by
  have hsame {w' : AuthWorld} (hnow : w'.now = w.now) (hsigned : w'.signed = w.signed)
      (hblocklist : w'.blocklist = w.blocklist) : Later w w' :=
    Later.of_same hnow.ge hsigned hblocklist
  cases next with
  | forceLogoutUser targetUserId revokeApiKeys =>
      simp only [LogoutStatement.exec]
      split
      · exact ⟨h.later (hsame rfl rfl rfl) rfl (fun _ h => .inl h) rfl, List.forall_mem_nil _,
          hsame rfl rfl rfl⟩
      · refine ⟨h, List.forall_mem_singleton.mpr fun logout hforced => ?_, hsame rfl rfl rfl⟩
        obtain rfl := Option.mem_some_iff.mp hforced
        exact ⟨rfl, rfl, fun _ hmem => hmem⟩
  | revokeAllSessions call => exact revokeAllSessions_advances h input hcall
  | block call jti jtis found failed => exact block_advances h hconfig input hcall
  | removeSessions call found => exact removeSessions_advances h input hcall
  | sweep logout =>
      have hlater : Later w ((LogoutStatement.sweep logout).exec config input w).1 :=
        hsame rfl rfl rfl
      refine ⟨⟨h.sessions.later hlater rfl fun _ h => .inl h, ?_⟩, List.forall_mem_nil _, hlater⟩
      exact List.forall_mem_cons.mpr ⟨SessionsEnded.later hcall hlater,
        fun other hmem => (h.ended other hmem).later hlater⟩

/-- A session is registered under an id that `randomUUID` has not drawn before, a key
is only given a grace period while it is not revoked, and the sweep finds none of the
user's keys in a grace period. -/
def AuthStatement.LogoutsApart (w : AuthWorld) : AuthStatement → Prop
  | .login (.registerSession _ _ token) =>
      ∀ jti ∈ token.jti, ∀ other ∈ w.signed, other.jti ≠ some jti
  | .apiKey (.rotateTransaction existing _ gracePeriodEndsAt) =>
      gracePeriodEndsAt = none ∨ ∀ key ∈ w.apiKeys.find? existing.id, key.revokedAt = none
  | .logout (.sweep call) =>
      ∀ key ∈ w.apiKeys.rows, key.id ∈ call.keys → key.userId = call.targetUserId →
        key.revokedAt.isSome → key.inGracePeriod w.now = false
  | _ => True

instance (w : AuthWorld) (call : AuthStatement) : Decidable (call.LogoutsApart w) :=
  match call with
  | .login (.registerSession _ _ token) =>
      inferInstanceAs (Decidable (∀ jti ∈ token.jti, ∀ other ∈ w.signed, other.jti ≠ some jti))
  | .login (.generateNonce _) | .login (.login _) | .login (.clearNonce ..)
  | .login (.upsertUser ..) => inferInstanceAs (Decidable True)
  | .apiKey (.rotateTransaction ..) => inferInstanceAs (Decidable (_ ∨ _))
  | .apiKey (.create ..) | .apiKey (.rotate ..) | .apiKey (.revoke ..)
  | .apiKey (.revokeUpdate ..) => inferInstanceAs (Decidable True)
  | .logout (.sweep _) => inferInstanceAs (Decidable (∀ key ∈ w.apiKeys.rows, _ → _))
  | .logout (.forceLogoutUser ..) | .logout (.revokeAllSessions _) | .logout (.block ..)
  | .logout (.removeSessions ..) => inferInstanceAs (Decidable True)
  | .account _ | .email _ | .phone _ => inferInstanceAs (Decidable True)

/-- A step that signs nothing, or a token without a session. -/
theorem LogoutsSound.signs (h : LogoutsSound config w) {g : AuthGroup} (hframe : AuthFrame g w w')
    (hlogin : g ≠ .login) (hlogout : g ≠ .logout)
    (hsigned : w'.signed = w.signed ∨ ∃ token, w'.signed = token :: w.signed ∧ token.jti = none) :
    LogoutsSound config w' ∧ Later w w' := by
  have hlater : Later w w' := by
    rcases hsigned with hsame | ⟨token, hnew, hjti⟩
    · exact Later.of_same hframe.now.ge hsame (hframe.blocklist hlogout)
    · refine Later.of_signed hframe.now.ge hnew (hframe.blocklist hlogout) fun jti hsome => ?_
      rw [hjti] at hsome
      cases hsome
  refine ⟨h.later hlater (hframe.sessions hlogin hlogout) (fun token hmem => ?_)
    (hframe.logouts hlogout), hlater⟩
  rcases hsigned with hsame | ⟨other, hnew, hjti⟩
  · exact .inl (hsame ▸ hmem)
  · rw [hnew] at hmem
    rcases List.mem_cons.mp hmem with rfl | hmem
    · exact .inr hjti
    · exact .inl hmem

/-- The statements of the other groups sign tokens without a session at most. -/
theorem aside_advances (h : LogoutsSound config w) (crypto : Crypto) (input : AuthInput)
    {call : AuthStatement} (hcall : LogoutProgress config w call)
    (hlogin : call.group ≠ .login) (hlogout : call.group ≠ .logout) :
    Advances config w (call.resume config crypto input w).1
      (call.resume config crypto input w).2 := by
  have hjti {token : Jwt} (hsigns : call.Signs config w token) : token.jti = none := by
    cases call with
    | login next => exact absurd rfl hlogin
    | account next =>
        cases next with
        | impersonateUser targetUserId adminId adminAddress =>
            obtain ⟨target, rfl⟩ := hsigns
            rfl
        | _ => cases hsigns
    | email next =>
        cases next with
        | storeToken other email profile => exact hsigns ▸ hcall
        | _ => cases hsigns
    | _ => cases hsigns
  have hsigned : (call.resume config crypto input w).1.signed = w.signed ∨
      ∃ token, (call.resume config crypto input w).1.signed = token :: w.signed ∧
        token.jti = none := by
    refine (signed_resume config crypto input w call).imp_right ?_
    rintro ⟨token, hnew, hsigns⟩
    exact ⟨token, hnew, hjti hsigns⟩
  obtain ⟨hsound, hlater⟩ := h.signs (resume_frame input w call) hlogin hlogout hsigned
  refine ⟨hsound, fun next hmem => ?_, hlater⟩
  have hgroup := group_resume input w hmem
  cases next with
  | login next => exact absurd hgroup.symm hlogin
  | logout next => exact absurd hgroup.symm hlogout
  | email next =>
      cases next with
      | storeToken token email profile => exact jti_of_storeToken input hmem
      | _ => trivial
  | _ => trivial

/-- A login's token is registered and returned. -/
theorem registerSession_advances (h : LogoutsSound config w) (input : AuthInput) {dto : LoginDto}
    {nonce : String} {token : Jwt} (htimed : Timed config w token)
    (hfresh : ∀ jti ∈ token.jti, ∀ other ∈ w.signed, other.jti ≠ some jti) :
    Advances config w ((LoginStatement.registerSession dto nonce token).exec config input w).1
      [] := by
  let after := ((LoginStatement.registerSession dto nonce token).exec config input w).1
  have hlater : Later w after := by
    refine Later.of_signed le_rfl (show after.signed = token :: w.signed from rfl) rfl
      fun jti hjti hknown => ?_
    obtain ⟨other, hmem, hother⟩ := hknown
    exact hfresh jti hjti other hmem hother
  have hsessions (userId : String) : after.sessions userId = w.sessions userId ∨
      (userId = token.sub ∧ after.sessions userId = token.jti.toList ++ w.sessions userId) := by
    by_cases huser : userId = token.sub
    · subst huser
      exact .inr ⟨rfl, Function.update_self ..⟩
    · exact .inl (Function.update_of_ne huser ..)
  have hkept (userId : String) : ∀ jti ∈ w.sessions userId, jti ∈ after.sessions userId := by
    intro jti hmem
    rcases hsessions userId with hsame | ⟨-, hmore⟩
    · rwa [hsame]
    · rw [hmore]
      exact List.mem_append_right _ hmem
  refine ⟨⟨⟨?_, ?_, ?_⟩, fun logout hmem => (h.ended logout hmem).later hlater⟩,
    List.forall_mem_nil _, hlater⟩
  · exact List.forall_mem_cons.mpr ⟨htimed, h.sessions.timed⟩
  · refine List.forall_mem_cons.mpr ⟨fun jti hjti => .inl ?_, fun other hmem jti hjti => ?_⟩
    · have hself : after.sessions token.sub = token.jti.toList ++ w.sessions token.sub :=
        Function.update_self ..
      rw [hself, hjti]
      exact List.mem_cons_self ..
    · refine (h.sessions.covered other hmem jti hjti).imp (hkept _ jti) ?_
      exact hlater.blocked other hmem
  · intro userId jti hmem
    rcases hsessions userId with hsame | ⟨-, hmore⟩
    · exact (h.sessions.known userId jti (hsame ▸ hmem)).later hlater
    · rw [hmore] at hmem
      rcases List.mem_append.mp hmem with hnew | hold
      · exact ⟨token, List.mem_cons_self .., Option.mem_toList.mp hnew⟩
      · exact (h.sessions.known userId jti hold).later hlater

theorem login_advances (h : LogoutsSound config w) (input : AuthInput) {next : LoginStatement}
    (hcall : LogoutProgress config w (.login next))
    (hapart : (AuthStatement.login next).LogoutsApart w) :
    Advances config w (next.exec config input w).1 ((next.exec config input w).2.map .login) := by
  have hsame (hother : ∀ dto nonce token, next ≠ .registerSession dto nonce token) :
      Advances config w (next.exec config input w).1 ((next.exec config input w).2.map .login) := by
    have hframe := login_frame config input w next
    obtain ⟨hsigned, hsessions⟩ := signed_login input hother
    have hlater : Later w (next.exec config input w).1 :=
      Later.of_same hframe.now.ge hsigned (hframe.blocklist (by decide))
    refine ⟨h.later hlater hsessions (fun _ hmem => .inl (hsigned ▸ hmem))
      (hframe.logouts (by decide)), fun call hmem => ?_, hlater⟩
    obtain ⟨later, hin, rfl⟩ := List.mem_map.mp hmem
    cases later with
    | registerSession dto nonce token =>
        obtain ⟨account, rfl⟩ := token_of_registerSession hin
        intro _
        rw [hframe.now]
        exact le_rfl
    | _ => trivial
  cases next with
  | registerSession dto nonce token => exact registerSession_advances h input hcall hapart
  | _ => exact hsame (by intro _ _ _ h; cases h)

/-- What one step does to the sessions, the blocklist and the forced logouts. -/
theorem resume_advances (h : LogoutsSound config w) (hconfig : config.BlocksLongEnough)
    (crypto : Crypto) (input : AuthInput) {call : AuthStatement}
    (hcall : LogoutProgress config w call) (hapart : input.thrown ∨ call.LogoutsApart w) :
    Advances config w (call.resume config crypto input w).1
      (call.resume config crypto input w).2 := by
  have hlost : Advances config w w [] :=
    ⟨h, List.forall_mem_nil _, Later.of_same le_rfl rfl rfl⟩
  cases call with
  | login next =>
      exact thrown_or (P := fun r => Advances config w r.1 r.2) hlost
        fun hnot => login_advances h input hcall (hapart.resolve_left hnot)
  | logout next =>
      exact thrown_or_logout (P := fun r => Advances config w r.1 r.2) input w next hlost
        fun _ => logout_advances h hconfig input hcall
  | _ =>
      exact aside_advances h crypto input hcall (by simp [AuthStatement.group])
        (by simp [AuthStatement.group])

end Steps

end ChainSettle
