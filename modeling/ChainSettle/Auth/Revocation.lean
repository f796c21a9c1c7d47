import ChainSettle.Auth.Roles
import ChainSettle.Auth.Sessions
import ChainSettle.Lib.Timespan

/-!
How long a revocation lasts. The library that signs the tokens and `parseExpiry` both
read `JWT_EXPIRES_IN`, but `parseExpiry` knows only whole numbers without a unit or with
one of four letters, and takes seven days for anything else. A blocked session is found
revoked until its token has expired if and only if the blocklist keeps it that long.
-/

namespace ChainSettle

open Lib

section Expiry

/-- The seconds of a unit that `parseExpiry` knows. -/
def expirySeconds : List Char → Option Nat
  | [] => some 1
  | ['s'] => some 1
  | ['m'] => some 60
  | ['h'] => some 3600
  | ['d'] => some 86400
  | _ => none

/-- What `/^(\d+)([smhd]?)$/` matches of the spans. -/
def PlainSpan (span : Timespan) : Prop :=
  span.negative = false ∧ span.fraction = none ∧ span.spaces = 0 ∧
    (expirySeconds span.unit).isSome

instance (span : Timespan) : Decidable (PlainSpan span) :=
  inferInstanceAs (Decidable (_ ∧ _))

variable {span : Timespan}

theorem parseExpiry_text (span : Timespan) : parseExpiry (String.ofList span.text) =
    if span.negative ∨ span.whole = [] then 7 * 24 * 60 * 60
    else
      match expirySeconds span.rest with
      | some n => Nat.ofDigitChars 10 span.whole 0 * n
      | none => 7 * 24 * 60 * 60 := by
  unfold parseExpiry
  rw [String.toList_ofList, span.takeWhile_text]
  cases hnegative : span.negative with
  | true => rfl
  | false =>
      rw [span.dropWhile_text hnegative]
      cases hwhole : span.whole with
      | nil => rfl
      | cons c cs =>
          simp only [Bool.false_eq_true, if_false, List.isEmpty_cons, false_or, reduceCtorEq]
          have hvalue : (c :: cs).foldl (fun value digit => 10 * value + (digit.toNat - 48)) 0 =
              Nat.ofDigitChars 10 (c :: cs) 0 := rfl
          rw [hvalue]
          fun_cases expirySeconds span.rest with
          | case1 => exact (Nat.mul_one _).symm
          | case2 => exact (Nat.mul_one _).symm
          | case6 rest hnil hs hm hh hd =>
              split
              · exact absurd rfl hnil
              · exact absurd rfl hs
              · exact absurd rfl hm
              · exact absurd rfl hh
              · exact absurd rfl hd
              · rfl
          | _ => rfl

/-- Such spans have neither a fraction nor blanks. -/
theorem unit_of_expirySeconds {n : Nat} (h : expirySeconds span.rest = some n) :
    span.fraction = none ∧ span.spaces = 0 ∧ span.unit = span.rest := by
  refine (span.rest_eq_iff (fun rest hrest => ?_) fun rest hrest => ?_).mp rfl
  · rw [hrest] at h
    simp [expirySeconds] at h
  · rw [hrest] at h
    simp [expirySeconds] at h

theorem scale_of_expirySeconds {n : Nat} (h : expirySeconds span.unit = some n) :
    span.scale ≤ n * 1000 := by
  have hscale := span.unit_ms
  revert h hscale
  fun_cases expirySeconds span.unit with
  | case6 => exact fun h => nomatch h
  | _ =>
      rintro ⟨⟩ hscale
      exact (Option.some.inj hscale).ge.trans (by decide)

/-- A span that the regular expression matches lasts no longer than `parseExpiry` says. -/
theorem seconds_le_parseExpiry (h : PlainSpan span) :
    span.seconds ≤ parseExpiry (String.ofList span.text) := by
  obtain ⟨hpositive, hfraction, hspaces, hunit⟩ := h
  obtain ⟨n, hn⟩ := Option.isSome_iff_exists.mp hunit
  have hwhole : span.whole ≠ [] :=
    span.number.resolve_right (by rw [hfraction]; decide)
  have hrest : span.rest = span.unit := by
    unfold Timespan.rest
    rw [hfraction, hspaces]
    rfl
  have hparsed : parseExpiry (String.ofList span.text) = Nat.ofDigitChars 10 span.whole 0 * n := by
    rw [parseExpiry_text, if_neg (by simp [hpositive, hwhole]), hrest, hn]
  rw [hparsed, Timespan.seconds, hpositive, hfraction]
  show Nat.ofDigitChars 10 (span.whole ++ []) 0 * span.scale / (10 ^ 0 * 1000) ≤ _
  rw [List.append_nil]
  refine Nat.div_le_of_le_mul ?_
  calc
    Nat.ofDigitChars 10 span.whole 0 * span.scale ≤
        Nat.ofDigitChars 10 span.whole 0 * (n * 1000) :=
      Nat.mul_le_mul_left _ (scale_of_expirySeconds hn)
    _ = 10 ^ 0 * 1000 * (Nat.ofDigitChars 10 span.whole 0 * n) := by
      rw [Nat.pow_zero, Nat.one_mul, Nat.mul_comm n, Nat.mul_left_comm]

theorem parseExpiry_of_not_plain (h : ¬ PlainSpan span) :
    parseExpiry (String.ofList span.text) = 7 * 24 * 60 * 60 := by
  rw [parseExpiry_text]
  split
  · rfl
  · rename_i hnumber
    split
    · rename_i n hn
      obtain ⟨hfraction, hspaces, hunit⟩ := unit_of_expirySeconds hn
      refine absurd ⟨?_, hfraction, hspaces, ?_⟩ h
      · exact Bool.eq_false_iff.mpr fun hnegative => hnumber (.inl hnegative)
      · rw [hunit, hn]
        rfl
    · rfl

theorem seconds_le_parseExpiry_iff (span : Timespan) :
    span.seconds ≤ parseExpiry (String.ofList span.text) ↔
      PlainSpan span ∨ span.seconds ≤ 7 * 24 * 60 * 60 := by
  by_cases hplain : PlainSpan span
  · exact ⟨fun _ => .inl hplain, fun _ => seconds_le_parseExpiry hplain⟩
  · rw [parseExpiry_of_not_plain hplain, or_iff_right hplain]

end Expiry

section Blocklist

variable {config : AuthConfig} (crypto : Crypto) (input : AuthInput) (w : AuthWorld)

/-- Sessions are blocked one at a time, and stay blocked. -/
theorem blocklist_logout (config : AuthConfig) (next : LogoutStatement) :
    (next.exec config input w).1.blocklist = w.blocklist ∨
      ∃ jti, (next.exec config input w).1.blocklist =
        w.blocklist.set jti () (ttlFrom w.now config.jwtTtlSeconds) := by
  have hfinish := finish_keeps AuthWorld.blocklist fun _ _ _ => rfl
  have hnext := blockNext_keeps AuthWorld.blocklist fun _ _ => rfl
  cases next with
  | forceLogoutUser targetUserId revokeApiKeys =>
      left
      simp only [LogoutStatement.exec]
      split <;> rfl
  | revokeAllSessions call =>
      left
      simp only [LogoutStatement.exec]
      split <;> split
      all_goals first | exact hfinish .. | exact hnext ..
  | block call jti jtis found failed =>
      simp only [LogoutStatement.exec]
      split
      · exact .inl (hnext ..)
      · exact .inr ⟨jti, hnext ..⟩
  | removeSessions call found => exact .inl (hfinish ..)
  | sweep logout => exact .inl rfl

theorem blocked_resume (hconfig : config.BlocksLongEnough) {token : Jwt} (call : AuthStatement)
    (htimed : Timed config w token) (h : BlockedFor w token) :
    BlockedFor (call.resume config crypto input w).1 token := by
  cases call with
  | logout next =>
      refine thrown_or_logout (P := fun r => BlockedFor r.1 token) input w next h fun _ => ?_
      rcases blocklist_logout input w config next with hsame | ⟨jti, hset⟩
      · exact h.congr hsame
      · have hagain := h.block hconfig htimed jti
        exact hagain.congr hset
  | _ =>
      exact h.congr ((resume_frame input w _).blocklist (by simp [AuthStatement.group]))

/-- No step takes a session off the blocklist before its token has expired. -/
theorem blocked_step (hconfig : config.BlocksLongEnough) {token : Jwt} (s : AuthPool)
    (a : AuthAction) (h : Timed config s.shared token ∧ BlockedFor s.shared token) :
    Timed config ((auth config crypto).step s a).shared token ∧
      BlockedFor ((auth config crypto).step s a).shared token := by
  refine (auth config crypto).shared_step
    (Q := fun w => Timed config w token ∧ BlockedFor w token) a h (fun input call _ => ?_) ?_
  · exact ⟨h.1.mono (resume_frame input s.shared call).now.ge,
      blocked_resume crypto input s.shared hconfig call h.1 h.2⟩
  · exact fun milliseconds => ⟨h.1.mono (Nat.le_add_right ..), h.2.congr rfl⟩

theorem blocked_run (hconfig : config.BlocksLongEnough) {token : Jwt} {s : AuthPool}
    (h : Timed config s.shared token ∧ BlockedFor s.shared token) (actions : List AuthAction) :
    Timed config ((auth config crypto).run actions s).shared token ∧
      BlockedFor ((auth config crypto).run actions s).shared token :=
  List.foldlRecOn (motive := fun t : AuthPool => Timed config t.shared token ∧
      BlockedFor t.shared token)
    actions _ h fun t ht a _ => blocked_step crypto hconfig t a ht

end Blocklist

section Revocation

variable (config : AuthConfig) (crypto : Crypto)

/-- The action writes the session to the blocklist. -/
def Blocks (s : AuthPool) (jti : String) : AuthAction → Prop
  | .resume index input => input.thrown = false ∧ ∃ call jtis found failed,
      s.inflight[index]? = some (.logout (.block call jti jtis found failed))
  | _ => False

/-- A session that `revokeAllSessions` blocks is found revoked until every token that was
signed for it has expired. -/
def RevocationOutlives : Prop :=
  ∀ s a jti, Blocks s jti a → ∀ issuedAt ≤ s.shared.now, ∀ claims : Jwt, claims.jti = some jti →
    ∀ actions w, ((auth config crypto).run (a :: actions) s).shared = w →
      w.now / 1000 < (config.sign issuedAt config.jwtExpiresIn claims).exp →
      w.isRevoked jti = true

variable {config}

theorem timed_sign {w : AuthWorld} {issuedAt : Nat} (h : issuedAt ≤ w.now) (claims : Jwt) :
    Timed config w (config.sign issuedAt config.jwtExpiresIn claims) := by
  intro _
  exact Nat.add_le_add_right (Nat.div_le_div_right h) _

theorem blocked_of_blocks (hconfig : config.BlocksLongEnough) {s : AuthPool} {a : AuthAction}
    {jti : String} (hblocks : Blocks s jti a) {token : Jwt} (htimed : Timed config s.shared token)
    (hjti : token.jti = some jti) :
    Timed config ((auth config crypto).step s a).shared token ∧
      BlockedFor ((auth config crypto).step s a).shared token := by
  cases a with
  | resume index input =>
      obtain ⟨hdone, call, jtis, found, failed, hcall⟩ := hblocks
      have hstep : ((auth config crypto).step s (.resume index input)).shared =
          ((LogoutStatement.block call jti jtis found failed).exec config input s.shared).1 := by
        simp only [PoolSystem.step, hcall]
        rfl
      have hblocklist : ((auth config crypto).step s (.resume index input)).shared.blocklist =
          s.shared.blocklist.set jti () (ttlFrom s.shared.now config.jwtTtlSeconds) := by
        rw [hstep, LogoutStatement.exec, hdone]
        exact blockNext_keeps AuthWorld.blocklist (fun _ _ => rfl) ..
      refine ⟨htimed.mono ?_, ?_⟩
      · rw [hstep]
        exact (logout_frame config input s.shared _).now.ge
      · have hset := blockedFor_set hconfig htimed hjti
        exact hset.congr hblocklist
  | _ => cases hblocks

theorem revocationOutlives_iff : RevocationOutlives config crypto ↔ config.BlocksLongEnough := by
  constructor
  · intro h
    by_contra hshort
    obtain ⟨hpositive, hlonger⟩ := not_or.mp hshort
    -- the entry is gone as soon as its time is up, and the token lives on
    let ttl := config.jwtTtlSeconds
    let s : AuthPool := ⟨(freshAuth Table.empty 0).shared,
      [.logout (.block ⟨"u", "s", true, none⟩ "s" [] ["s"] false)]⟩
    let w : AuthWorld := { s.shared with
      now := 0 + ttl * 1000, blocklist := s.shared.blocklist.set "s" () (ttlFrom 0 ttl) }
    have hlive : w.now / 1000 < 0 / 1000 + config.lifetime config.jwtExpiresIn := by
      dsimp only [w]
      omega
    have hrevoked : w.isRevoked "s" = true :=
      h s (.resume 0 (drawing "" "")) "s" ⟨rfl, _, _, _, _, rfl⟩ 0 le_rfl
        ⟨"u", none, none, some "s", none, none, 0, 0⟩ rfl [.external (ttl * 1000)] w rfl hlive
    have hgone : (s.shared.blocklist.set "s" () (ttlFrom 0 ttl)).get w.now "s" = none := by
      rw [ttlFrom, if_neg hpositive]
      exact Store.get_set_expired _ le_rfl "s" ()
    have hfound := Option.isSome_iff_ne_none.mp hrevoked
    exact hfound hgone
  · rintro hconfig s a jti hblocks issuedAt hissued claims hjti actions w rfl hlive
    have hstart := blocked_of_blocks crypto hconfig hblocks (timed_sign hissued claims) hjti
    exact (blocked_run crypto hconfig hstart actions).2.isRevoked hjti hlive

/-- Revocation outlives the tokens if and only if the regular expression of `parseExpiry`
matches the configured span, or the span is seven days at most. -/
theorem revocation_outlives_iff (span : Timespan)
    (hvalue : config.jwtExpiresIn = String.ofList span.text)
    (hlifetime : config.lifetime config.jwtExpiresIn = span.seconds) :
    (config.lifetime config.jwtExpiresIn ≤ config.jwtTtlSeconds ∧
        RevocationOutlives config crypto) ↔
      PlainSpan span ∨ span.seconds ≤ 7 * 24 * 60 * 60 := by
  have hlonger : config.lifetime config.jwtExpiresIn ≤ config.jwtTtlSeconds ↔
      PlainSpan span ∨ span.seconds ≤ 7 * 24 * 60 * 60 := by
    rw [hlifetime, AuthConfig.jwtTtlSeconds, hvalue]
    exact seconds_le_parseExpiry_iff span
  rw [← hlonger]
  exact ⟨And.left, fun h => ⟨h, (revocationOutlives_iff crypto).mpr (.inr h)⟩⟩

/-- `7d` -/
def week : Timespan where
  negative := false
  whole := ['7']
  fraction := none
  spaces := 0
  unit := ['d']
  scale := 86400000
  whole_digits := List.all_eq_true.mp rfl
  fraction_digits := fun _ h => nomatch h
  number := .inl (by decide)
  unit_ms := rfl

theorem week_outlived :
    demoAuthConfig.lifetime demoAuthConfig.jwtExpiresIn ≤ demoAuthConfig.jwtTtlSeconds ∧
      RevocationOutlives demoAuthConfig demoAuthCrypto :=
  (revocation_outlives_iff demoAuthCrypto week rfl rfl).mpr (.inl (by decide))

/-- `2w` -/
def fortnight : Timespan where
  negative := false
  whole := ['2']
  fraction := none
  spaces := 0
  unit := ['w']
  scale := 604800000
  whole_digits := List.all_eq_true.mp rfl
  fraction_digits := fun _ h => nomatch h
  number := .inl (by decide)
  unit_ms := rfl

def fortnightConfig : AuthConfig where
  jwtExpiresIn := "2w"
  impersonationExpiresIn := "15m"
  lifetime expiresIn := if expiresIn = "2w" then 1209600 else demoAuthConfig.lifetime expiresIn
  verifySignature := demoAuthConfig.verifySignature

def fortnightToken : Jwt :=
  ⟨"u-1", some "GUSER", some .buyer, some "s-1", none, none, 0, 1209600⟩

/-- The user logs in, ends all his sessions, and waits for eight days. -/
def sessionsEnded : List AuthAction :=
  nonceAndLogin "GUSER" "s-1" ++
    .begin (.logout (.revokeAllSessions ⟨"u-1", "s-1", true, none⟩)) ::
      List.replicate 3 (.resume 0 calmly) ++
    [.external (8 * 86400000)]

/-- The blocklist forgets the session after seven days, and its token is accepted again
for another seven. -/
theorem revoked_session_returns :
    fortnightConfig.jwtExpiresIn = String.ofList fortnight.text ∧
      fortnightConfig.lifetime fortnightConfig.jwtExpiresIn = fortnight.seconds ∧
      ¬ fortnightConfig.lifetime fortnightConfig.jwtExpiresIn ≤ fortnightConfig.jwtTtlSeconds ∧
      ¬ RevocationOutlives fortnightConfig demoAuthCrypto ∧
      let w := ((auth fortnightConfig demoAuthCrypto).run sessionsEnded demoAuthPool).shared
      AuthEvent.sessionsRevoked "u-1" 1 ∈ w.log ∧ w.isRevoked "s-1" = false ∧
        (w.validateJwt fortnightToken).toOption.map RequestUser.id = some "u-1" := by
  have hshort : ¬ fortnightConfig.BlocksLongEnough := by decide
  refine ⟨rfl, rfl, fun h => hshort (.inr h), ?_, by decide +kernel⟩
  exact fun h => hshort ((revocationOutlives_iff demoAuthCrypto).mp h)

end Revocation

end ChainSettle
