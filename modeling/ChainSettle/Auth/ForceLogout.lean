import ChainSettle.Auth.ApiKeys
import ChainSettle.Auth.Deactivation
import ChainSettle.Auth.Sessions

/-!
Forced logouts. The sessions of the user are blocked, and the sweep after that revokes
his keys that are not revoked yet. But only `JwtStrategy` asks for the blocklist, and
only for a token with a session, and a key in its grace period is revoked already.
-/

namespace ChainSettle

open Lib

section Keys

variable {w w' : AuthWorld}

def Listed (w : AuthWorld) (logout : ForceLogout) : Prop :=
  ∀ id ∈ logout.keys, (w.apiKeys.find? id).isSome

/-- The user's keys of a forced logout are dead, where it was to revoke them. -/
def KeysGone (w : AuthWorld) (logout : ForceLogout) : Prop :=
  logout.revokeApiKeys → ∀ key ∈ w.apiKeys.rows, key.id ∈ logout.keys →
    key.userId = logout.targetUserId → key.dead w.now

/-- A row is a new one, or it was there before and has not come back to life. -/
def KeysFade (w w' : AuthWorld) : Prop :=
  ∀ key ∈ w'.apiKeys.rows, w.apiKeys.find? key.id = none ∨
    ∃ before ∈ w.apiKeys.rows, before.id = key.id ∧ before.userId = key.userId ∧
      (before.dead w.now → key.dead w'.now)

/-- The forced logout that a call is about. -/
def AuthStatement.forced? : AuthStatement → Option ForceLogout
  | .logout (.revokeAllSessions call) | .logout (.block call ..)
  | .logout (.removeSessions call _) => call.forced
  | .logout (.sweep call) => some call
  | _ => none

theorem Listed.kept {logout : ForceLogout} (h : Listed w logout) (hkept : KeysKept w w') :
    Listed w' logout :=
  fun id hmem => hkept id (h id hmem)

theorem KeysGone.fade {logout : ForceLogout} (h : KeysGone w logout) (hlisted : Listed w logout)
    (hfade : KeysFade w w') : KeysGone w' logout := by
  intro hrevoke key hmem hid huser
  rcases hfade key hmem with hnew | ⟨before, hbefore, hsame, howner, hdead⟩
  · have hstored := hlisted key.id hid
    rw [hnew] at hstored
    cases hstored
  · exact hdead (h hrevoke before hbefore (hsame ▸ hid) (howner.trans huser))

theorem keysFade_of_same (hkeys : w'.apiKeys = w.apiKeys) (hnow : w.now ≤ w'.now) :
    KeysFade w w' := by
  intro key hmem
  exact .inr ⟨key, hkeys ▸ hmem, rfl, rfl, fun hdead => ApiKey.dead_mono hdead hnow⟩

theorem keysFade_of_map {f : ApiKey → ApiKey} (hrows : w'.apiKeys.rows = w.apiKeys.rows.map f)
    (hid : ∀ key, (f key).id = key.id) (huser : ∀ key, (f key).userId = key.userId)
    (hdead : ∀ key ∈ w.apiKeys.rows, key.dead w.now → (f key).dead w'.now) : KeysFade w w' := by
  intro key hmem
  rw [hrows] at hmem
  obtain ⟨before, hbefore, rfl⟩ := List.mem_map.mp hmem
  exact .inr ⟨before, hbefore, (hid before).symm, (huser before).symm, hdead before hbefore⟩

theorem KeysFade.create {middle : AuthWorld} (h : KeysFade w middle) (hkept : KeysKept w middle)
    (hnow : w'.now = middle.now) {key : ApiKey}
    (hcreate : middle.apiKeys.create key = some w'.apiKeys) : KeysFade w w' := by
  obtain ⟨hrows, hfree⟩ := ApiKeys.rows_create hcreate
  intro other hmem
  rw [hrows, List.mem_append, List.mem_singleton] at hmem
  rcases hmem with hmem | rfl
  · rw [hnow]
    exact h other hmem
  · left
    by_contra hfound
    have hstored := hkept other.id (Option.isSome_iff_ne_none.mpr hfound)
    rw [hfree] at hstored
    cases hstored

theorem keysFade_update {id : String} {f : ApiKey → ApiKey}
    (hf : ∀ key, (f key).id = key.id ∧ (f key).keyHash = key.keyHash)
    (huser : ∀ key, (f key).userId = key.userId)
    (hdead : ∀ key, w.apiKeys.find? id = some key → key.dead w.now → (f key).dead w.now) :
    KeysFade w { w with apiKeys := w.apiKeys.update id f hf } := by
  refine keysFade_of_map (f := fun key => if key.id = id then f key else key) rfl ?_ ?_ ?_
  · intro key
    split
    · exact (hf key).1
    · rfl
  · intro key
    split
    · exact huser key
    · rfl
  · intro key hmem hbefore
    dsimp only
    split
    · rename_i hid
      exact hdead key (hid ▸ Table.find?_of_mem hmem) hbefore
    · exact hbefore

theorem keysFade_apiKey (crypto : Crypto) (input : AuthInput) {next : ApiKeyStatement}
    (hapart : (AuthStatement.apiKey next).LogoutsApart w) :
    KeysFade w (next.exec crypto input w).1 := by
  have hsame {w' : AuthWorld} (hkeys : w'.apiKeys = w.apiKeys) (hnow : w'.now = w.now) :
      KeysFade w w' :=
    keysFade_of_same hkeys hnow.ge
  cases next with
  | create userId name scopes expiresAt =>
      simp only [ApiKeyStatement.exec]
      split
      · exact hsame rfl rfl
      · rename_i keys hcreate
        obtain ⟨account, -, hkeys⟩ := Option.bind_eq_some_iff.mp hcreate
        have hstart : KeysFade w w := hsame rfl rfl
        have hcreated : KeysFade w { w with apiKeys := keys } :=
          hstart.create (fun _ h => h) rfl hkeys
        exact hcreated
  | rotate userId id gracePeriodSeconds =>
      simp only [ApiKeyStatement.exec]
      split
      · exact hsame rfl rfl
      · split <;> exact hsame rfl rfl
  | rotateTransaction existing now gracePeriodEndsAt =>
      simp only [ApiKeyStatement.exec]
      split
      · exact hsame rfl rfl
      · rename_i keys hcreate
        have hupdated : KeysFade w { w with
            apiKeys := w.apiKeys.update existing.id (ApiKey.rotated now gracePeriodEndsAt)
              fun _ => ⟨rfl, rfl⟩ } := by
          refine keysFade_update (f := ApiKey.rotated now gracePeriodEndsAt) _ (fun _ => rfl) ?_
          intro key hkey hdead
          rcases hapart with rfl | hlive
          · rfl
          · rw [ApiKey.dead, hlive key hkey] at hdead
            cases hdead
        have hcreated : KeysFade w { w with apiKeys := keys } := by
          refine hupdated.create (keysKept_of_map rfl fun key => ?_) rfl hcreate
          split <;> rfl
        exact hcreated
  | revoke userId id =>
      simp only [ApiKeyStatement.exec]
      split
      · exact hsame rfl rfl
      · split <;> exact hsame rfl rfl
  | revokeUpdate id now =>
      refine keysFade_update (f := ApiKey.revoked now) (fun _ => ⟨rfl, rfl⟩) (fun _ => rfl) ?_
      intro key hkey hdead
      unfold ApiKey.dead at hdead ⊢
      exact Bool.and_eq_true_iff.mpr ⟨rfl, (Bool.and_eq_true_iff.mp hdead).2⟩

theorem swept_dead (now : Nat) (key : ApiKey) : (key.swept now).dead now := rfl

theorem keysFade_logout (config : AuthConfig) (input : AuthInput) (next : LogoutStatement) :
    KeysFade w (next.exec config input w).1 := by
  cases next with
  | sweep logout =>
      let p : ApiKey → Bool := fun key => key.userId = logout.targetUserId && key.revokedAt.isNone
      refine keysFade_of_map (f := fun key => if p key then key.swept w.now else key) rfl ?_ ?_ ?_
      · intro key
        split <;> rfl
      · intro key
        split <;> rfl
      · intro key _ hdead
        split
        · exact swept_dead w.now key
        · exact hdead
  | _ =>
      exact keysFade_of_same (apiKeys_logout config input w (by intro logout h; cases h))
        (logout_frame config input w _).now.ge

theorem keysFade_resume (config : AuthConfig) (crypto : Crypto) (input : AuthInput)
    {call : AuthStatement} (hapart : input.thrown ∨ call.LogoutsApart w) :
    KeysFade w (call.resume config crypto input w).1 := by
  have hlost : KeysFade w w := keysFade_of_same rfl le_rfl
  cases call with
  | apiKey next =>
      exact thrown_or (P := fun r => KeysFade w r.1) hlost
        fun hnot => keysFade_apiKey crypto input (hapart.resolve_left hnot)
  | logout next =>
      exact thrown_or_logout (P := fun r => KeysFade w r.1) input w next hlost
        fun _ => keysFade_logout config input next
  | _ =>
      exact keysFade_of_same ((resume_frame input w _).apiKeys (by simp [AuthStatement.group])
        (by simp [AuthStatement.group])) (resume_frame input w _).now.ge

/-- A call goes on with the forced logout it began with, which lists the keys there
are at its start. -/
theorem forced_logout (config : AuthConfig) (input : AuthInput) {next later : LogoutStatement}
    (h : later ∈ (next.exec config input w).2) :
    ∀ logout ∈ (AuthStatement.logout later).forced?,
      logout ∈ (AuthStatement.logout next).forced? ∨
        logout.keys = w.apiKeys.rows.map ApiKey.id := by
  have hfinish {call : Revocation} {w' : AuthWorld} {count : Nat}
      (h : later ∈ (call.finish w' count).2) :
      ∀ logout ∈ (AuthStatement.logout later).forced?, logout ∈ call.forced := by
    intro logout hlogout
    unfold Revocation.finish at h
    split at h
    · cases h
    · rename_i forced hforced
      split at h
      · cases List.mem_singleton.mp h
        exact hforced ▸ hlogout
      · cases h
  have hblock {call : Revocation} {w' : AuthWorld} {jtis found : List String} {failed : Bool}
      (h : later ∈ (call.blockNext w' jtis found failed).2) :
      ∀ logout ∈ (AuthStatement.logout later).forced?, logout ∈ call.forced := by
    intro logout hlogout
    unfold Revocation.blockNext at h
    split at h
    · cases List.mem_singleton.mp h
      exact hlogout
    · split at h
      · cases h
      · cases List.mem_singleton.mp h
        exact hlogout
  intro logout hlogout
  cases next with
  | forceLogoutUser targetUserId revokeApiKeys =>
      simp only [LogoutStatement.exec] at h
      split at h
      · cases h
      · cases List.mem_singleton.mp h
        obtain rfl := Option.mem_some_iff.mp hlogout
        exact .inr rfl
  | revokeAllSessions call =>
      simp only [LogoutStatement.exec] at h
      split at h <;> split at h
      all_goals first | exact .inl (hfinish h logout hlogout) | exact .inl (hblock h logout hlogout)
  | block call jti jtis found failed =>
      simp only [LogoutStatement.exec] at h
      split at h
      · exact .inl (hblock h logout hlogout)
      · exact .inl (hblock h logout hlogout)
  | removeSessions call found => exact .inl (hfinish h logout hlogout)
  | sweep call => cases h

/-- A forced logout is over after its sweep, or without one. -/
theorem logouts_logout (config : AuthConfig) (input : AuthInput) (next : LogoutStatement) :
    ∀ logout ∈ (next.exec config input w).1.logouts, logout ∈ w.logouts ∨
      (logout ∈ (AuthStatement.logout next).forced? ∧
        (logout.revokeApiKeys → next = .sweep logout)) := by
  intro logout hmem
  have hfinish {call : Revocation} {w' : AuthWorld} {count : Nat}
      (h : logout ∈ (call.finish w' count).1.logouts) (hsame : w'.logouts = w.logouts) :
      logout ∈ w.logouts ∨
        (logout ∈ call.forced ∧ (logout.revokeApiKeys → next = .sweep logout)) := by
    unfold Revocation.finish at h
    split at h
    · exact .inl (hsame ▸ h)
    · rename_i forced hforced
      split at h
      · exact .inl (hsame ▸ h)
      · rename_i hkeep
        rcases List.mem_cons.mp h with rfl | h
        · exact .inr ⟨hforced, fun hrevoke => absurd hrevoke hkeep⟩
        · exact .inl (hsame ▸ h)
  have hblock {call : Revocation} {w' : AuthWorld} {jtis found : List String} {failed : Bool}
      (h : logout ∈ (call.blockNext w' jtis found failed).1.logouts)
      (hsame : w'.logouts = w.logouts) : logout ∈ w.logouts := by
    unfold Revocation.blockNext at h
    split at h
    · exact hsame ▸ h
    · split at h <;> exact hsame ▸ h
  cases next with
  | forceLogoutUser targetUserId revokeApiKeys =>
      simp only [LogoutStatement.exec] at hmem
      split at hmem <;> exact .inl hmem
  | revokeAllSessions call =>
      simp only [LogoutStatement.exec] at hmem
      split at hmem <;> split at hmem
      all_goals first | exact hfinish hmem rfl | exact .inl (hblock hmem rfl)
  | block call jti jtis found failed =>
      simp only [LogoutStatement.exec] at hmem
      split at hmem
      · exact .inl (hblock hmem rfl)
      · exact .inl (hblock hmem rfl)
  | removeSessions call found => exact hfinish hmem rfl
  | sweep call =>
      rcases List.mem_cons.mp hmem with rfl | hmem
      · exact .inr ⟨rfl, fun _ => rfl⟩
      · exact .inl hmem

/-- After the sweep the user's keys are dead. -/
theorem keysGone_sweep (config : AuthConfig) (input : AuthInput) {logout : ForceLogout}
    (hapart : (AuthStatement.logout (.sweep logout)).LogoutsApart w) :
    KeysGone ((LogoutStatement.sweep logout).exec config input w).1 logout := by
  intro _ key hmem hid huser
  obtain ⟨before, hbefore, rfl⟩ := List.mem_map.mp hmem
  split
  · exact swept_dead w.now before
  · rename_i hp
    rw [if_neg hp] at hid huser
    have hrevoked : before.revokedAt.isSome := by
      by_contra hlive
      refine hp (Bool.and_eq_true_iff.mpr ⟨decide_eq_true huser, ?_⟩)
      rw [Option.isNone_iff_eq_none]
      exact Option.not_isSome_iff_eq_none.mp hlive
    have hover := hapart before hbefore hid huser hrevoked
    show before.dead w.now
    rw [ApiKey.dead, hrevoked, hover]
    rfl

/-- The keys of the forced logouts that are over. -/
def LogoutsSwept (w : AuthWorld) : Prop :=
  ∀ logout ∈ w.logouts, Listed w logout ∧ KeysGone w logout

variable (config : AuthConfig) (crypto : Crypto)

/-- A step of a forced logout throws, which only the blocking of a session survives. -/
theorem resume_logout (input : AuthInput) (w : AuthWorld) (next : LogoutStatement) :
    (AuthStatement.logout next).resume config crypto input w = (w, []) ∨
      ((AuthStatement.logout next).resume config crypto input w =
          ((next.exec config input w).1, (next.exec config input w).2.map .logout) ∧
        ∀ logout, next = .sweep logout → ¬ input.thrown) := by
  let Result (r : AuthWorld × List AuthStatement) : Prop := r = (w, []) ∨
    (r = ((next.exec config input w).1, (next.exec config input w).2.map .logout) ∧
      ∀ logout, next = .sweep logout → ¬ input.thrown)
  exact thrown_or_logout (P := Result) input w next (.inl rfl) fun hsweep => .inr ⟨rfl, hsweep⟩

theorem logoutsSwept_resume (input : AuthInput) (h : LogoutsSwept w) {call : AuthStatement}
    (hcall : ∀ logout ∈ call.forced?, Listed w logout)
    (hapart : input.thrown ∨ call.LogoutsApart w) :
    LogoutsSwept (call.resume config crypto input w).1 := by
  have hkept := keysKept_resume crypto input config w call
  have hfade := keysFade_resume config crypto input hapart
  have hsame (hg : call.group ≠ .logout) :
      (call.resume config crypto input w).1.logouts = w.logouts :=
    (resume_frame input w call).logouts hg
  have hold : ∀ logout ∈ w.logouts, Listed (call.resume config crypto input w).1 logout ∧
      KeysGone (call.resume config crypto input w).1 logout := by
    intro logout hmem
    exact ⟨(h logout hmem).1.kept hkept, (h logout hmem).2.fade (h logout hmem).1 hfade⟩
  intro logout hmem
  cases call with
  | logout next =>
      rcases resume_logout config crypto input w next with hthrown | ⟨hdone, hsweep⟩
      · rw [hthrown] at hmem
        exact hold logout hmem
      · rw [hdone] at hmem
        rcases logouts_logout config input next logout hmem with hbefore | ⟨hforced, hnext⟩
        · exact hold logout hbefore
        · refine ⟨(hcall logout hforced).kept hkept, fun hrevoke => ?_⟩
          have hswept := hnext hrevoke
          have hthrown := hsweep logout hswept
          subst hswept
          rw [hdone]
          exact keysGone_sweep config input (hapart.resolve_left hthrown) hrevoke
  | _ =>
      rw [hsame (by simp [AuthStatement.group])] at hmem
      exact hold logout hmem

theorem listed_resume (input : AuthInput) {call : AuthStatement}
    (hcall : ∀ logout ∈ call.forced?, Listed w logout) :
    ∀ next ∈ (call.resume config crypto input w).2, ∀ logout ∈ next.forced?,
      Listed (call.resume config crypto input w).1 logout := by
  intro next hnext logout hlogout
  refine Listed.kept (w := w) ?_ (keysKept_resume crypto input config w call)
  cases call with
  | logout statement =>
      rcases resume_logout config crypto input w statement with hthrown | ⟨hdone, -⟩
      · rw [hthrown] at hnext
        cases hnext
      · rw [hdone] at hnext
        obtain ⟨later, hlater, rfl⟩ := List.mem_map.mp hnext
        rcases forced_logout config input hlater logout hlogout with hforced | hkeys
        · exact hcall logout hforced
        · intro id hmem
          rw [hkeys] at hmem
          rw [Option.isSome_iff_ne_none, ne_eq, Table.find?_eq_none_iff]
          exact not_not.mpr hmem
  | _ =>
      have hgroup := group_resume input w hnext
      cases next with
      | logout later => cases hgroup
      | _ => cases hlogout

end Keys

section Runs

variable (config : AuthConfig) (crypto : Crypto)

def LogoutsApart (s : AuthPool) : AuthAction → Prop
  | .resume index input => input.thrown ∨ ∀ call ∈ s.inflight[index]?, call.LogoutsApart s.shared
  | _ => True

instance (s : AuthPool) (a : AuthAction) : Decidable (LogoutsApart s a) :=
  match a with
  | .resume .. => inferInstanceAs (Decidable (_ ∨ _))
  | .begin _ | .crash _ | .external _ => inferInstanceAs (Decidable True)

structure LogoutInvariant (s : AuthPool) : Prop where
  sound : LogoutsSound config s.shared
  swept : LogoutsSwept s.shared
  progress : ∀ call ∈ s.inflight, LogoutProgress config s.shared call
  listed : ∀ call ∈ s.inflight, ∀ logout ∈ call.forced?, Listed s.shared logout

theorem forced_of_starts {call : AuthStatement} (h : call.starts) : call.forced? = none := by
  cases call with
  | logout next =>
      cases next with
      | forceLogoutUser targetUserId revokeApiKeys => rfl
      | revokeAllSessions call => exact Option.isNone_iff_eq_none.mp h
      | _ => cases h
  | _ => rfl

theorem progress_of_starts {w : AuthWorld} {call : AuthStatement} (h : call.starts) :
    LogoutProgress config w call := by
  cases call with
  | login next =>
      cases next with
      | registerSession dto nonce token => cases h
      | _ => trivial
  | email next =>
      cases next with
      | storeToken token email profile => cases h
      | _ => trivial
  | logout next =>
      cases next with
      | forceLogoutUser targetUserId revokeApiKeys => trivial
      | revokeAllSessions call =>
          intro logout hforced
          rw [show call.forced = none from forced_of_starts h] at hforced
          cases hforced
      | _ => cases h
  | _ => trivial

theorem logoutInvariant_step (hconfig : config.BlocksLongEnough) (s : AuthPool) (a : AuthAction)
    (h : LogoutInvariant config s) (hallowed : LogoutsApart s a) :
    LogoutInvariant config ((auth config crypto).step s a) := by
  have hkeeps := (auth config crypto).keeps_step
    (Q := fun w => LogoutsSound config w ∧ LogoutsSwept w)
    (P := fun w call => LogoutProgress config w call ∧ ∀ logout ∈ call.forced?, Listed w logout) a
    ⟨h.sound, h.swept⟩ (fun call hmem => ⟨h.progress call hmem, h.listed call hmem⟩)
    (fun call _ hstart => ⟨progress_of_starts config hstart, by
      rw [forced_of_starts hstart]
      intro logout hnone
      cases hnone⟩)
    (fun index input call haction hcall => by
      subst haction
      have hmem := List.mem_of_getElem? hcall
      have hapart := hallowed.imp_right fun hall => hall call hcall
      have hadvances := resume_advances h.sound hconfig crypto input (h.progress call hmem) hapart
      refine ⟨⟨hadvances.sound,
        logoutsSwept_resume config crypto input h.swept (h.listed call hmem) hapart⟩,
        fun next hnext => ⟨hadvances.progress next hnext,
          listed_resume config crypto input (h.listed call hmem) next hnext⟩,
        fun other hother => ?_⟩
      have hin := List.mem_of_mem_eraseIdx hother
      exact ⟨(h.progress other hin).later hadvances.later, fun logout hlogout =>
        (h.listed other hin logout hlogout).kept
          (keysKept_resume crypto input config s.shared call)⟩)
    (fun milliseconds => by
      have hnow : s.shared.now ≤ ((auth config crypto).external milliseconds s.shared).now :=
        Nat.le_add_right _ _
      have hlater := Later.of_same hnow rfl rfl
      refine ⟨⟨h.sound.later hlater rfl (fun _ h => .inl h) rfl, fun logout hmem => ?_⟩,
        fun other hmem => ⟨(h.progress other hmem).later hlater, h.listed other hmem⟩⟩
      exact ⟨(h.swept logout hmem).1,
        (h.swept logout hmem).2.fade (h.swept logout hmem).1 (keysFade_of_same rfl hnow)⟩)
  exact ⟨hkeeps.1.1, hkeeps.1.2, fun call hmem => (hkeeps.2 call hmem).1,
    fun call hmem => (hkeeps.2 call hmem).2⟩

/-- An unexpired token of an ended session is refused if and only if it has one. -/
theorem validateJwt_of_ended {w : AuthWorld} {token : Jwt} (hsigned : token ∈ w.signed)
    (hblocked : BlockedFor w token) :
    (∃ error, w.validateJwt token = .error error) ↔
      token.exp ≤ w.now / 1000 ∨ (truthyText token.jti).isSome := by
  have hrevoked (hlive : w.now / 1000 < token.exp) :
      (truthyText token.jti).any w.isRevoked = (truthyText token.jti).isSome := by
    cases hjti : truthyText token.jti with
    | none => rfl
    | some jti =>
        exact hblocked.isRevoked (Option.filter_eq_some_iff.mp hjti).1 hlive
  unfold AuthWorld.validateJwt
  by_cases hlive : w.now / 1000 < token.exp
  · have hverifies : w.verifies token = true := by
      rw [AuthWorld.verifies, decide_eq_true hsigned, decide_eq_true hlive]
      rfl
    rw [if_neg (by rw [hverifies]; decide), hrevoked hlive]
    cases (truthyText token.jti).isSome with
    | true => exact ⟨fun _ => .inr rfl, fun _ => ⟨_, if_pos rfl⟩⟩
    | false =>
        refine ⟨fun ⟨error, h⟩ => ?_, fun h => ?_⟩
        · cases h
        · rcases h with hexpired | hfalse
          · exact absurd hlive hexpired.not_gt
          · cases hfalse
  · have hverifies : w.verifies token = false := by
      rw [AuthWorld.verifies, decide_eq_false hlive, Bool.and_false]
    exact ⟨fun _ => .inl (not_lt.mp hlive), fun _ => ⟨_, if_pos hverifies⟩⟩

/-- The gateway only looks at the signature and the expiry. -/
theorem handleConnection_refuses_iff {w : AuthWorld} {token : Jwt} (hsigned : token ∈ w.signed) :
    (∃ error, w.handleConnection (some token) = .error error) ↔ token.exp ≤ w.now / 1000 := by
  have hverifies : w.verifies token = decide (w.now / 1000 < token.exp) := by
    rw [AuthWorld.verifies, decide_eq_true hsigned, Bool.true_and]
  unfold AuthWorld.handleConnection
  dsimp only
  rw [hverifies]
  by_cases hlive : w.now / 1000 < token.exp
  · rw [if_pos (decide_eq_true hlive)]
    refine ⟨fun ⟨error, h⟩ => ?_, fun hexpired => absurd hlive (not_lt.mpr hexpired)⟩
    cases h
  · rw [if_neg (by rwa [decide_eq_true_iff])]
    exact ⟨fun _ => not_lt.mp hlive, fun _ => ⟨_, rfl⟩⟩

/-- Along a run in which `randomUUID` does not repeat itself, no revoked key is given a
grace period, and no sweep comes across a key of its user in one: after a forced logout
`JwtStrategy` refuses a token that was signed for the user before if and only if it has
a session (or has expired), the gateway if and only if it has expired, and the keys
are refused where they were to be revoked. -/
theorem forced_logout_while_apart (hconfig : config.BlocksLongEnough) (accounts : Table Account.id)
    (now : Nat) (actions : List AuthAction)
    (hrun : Along (auth config crypto).step LogoutsApart (freshAuth accounts now) actions) :
    ∀ pre post, actions = pre ++ post → ∀ w,
      ((auth config crypto).run pre (freshAuth accounts now)).shared = w →
      ∀ logout ∈ w.logouts,
        (∀ token ∈ logout.tokens, token.sub = logout.targetUserId →
          ((∃ error, w.validateJwt token = .error error) ↔
            token.exp ≤ w.now / 1000 ∨ (truthyText token.jti).isSome) ∧
          ((∃ error, w.handleConnection (some token) = .error error) ↔
            token.exp ≤ w.now / 1000)) ∧
        (logout.revokeApiKeys → ∀ rawKey key,
          w.apiKeys.findHash (crypto.sha256 rawKey).text = some key → key.id ∈ logout.keys →
          key.userId = logout.targetUserId →
          ∃ error, w.validateApiKey crypto (some rawKey) = .error error) := by
  have hstart : LogoutInvariant config (freshAuth accounts now) :=
    ⟨⟨⟨List.forall_mem_nil _, List.forall_mem_nil _, fun _ => List.forall_mem_nil _⟩,
      List.forall_mem_nil _⟩, List.forall_mem_nil _, List.forall_mem_nil _, List.forall_mem_nil _⟩
  rintro pre post hsplit w rfl logout hlogout
  have hinv : LogoutInvariant config ((auth config crypto).run pre (freshAuth accounts now)) :=
    hrun.invariant (logoutInvariant_step config crypto hconfig) hstart pre post hsplit
  refine ⟨fun token hmem hsub => ?_, fun hrevoke rawKey key hfound hid huser => ?_⟩
  · obtain ⟨hsigned, hblocked⟩ := hinv.sound.ended logout hlogout token hmem
    exact ⟨validateJwt_of_ended hsigned (hblocked hsub), handleConnection_refuses_iff hsigned⟩
  · have hkey : key ∈ ((auth config crypto).run pre (freshAuth accounts now)).shared.apiKeys.rows :=
      List.mem_of_find?_eq_some hfound
    exact validate_of_dead hfound ((hinv.swept logout hlogout).2 hrevoke key hkey hid huser)

/-- The user logs in and creates a key, and an administrator impersonates him. -/
def credentialsIssued : List AuthAction :=
  nonceAndLogin "GUSER" "s-1" ++ createKeyOne ++
    [.begin (.account (.impersonateUser "u-1" "a-1" "GADMIN")), .resume 0 calmly]

/-- A forced logout that is alone in flight and finds one session. -/
def forceLogout : List AuthAction :=
  .begin (.logout (.forceLogoutUser "u-1" true)) :: List.replicate 5 (.resume 0 calmly)

def impersonationToken : Jwt :=
  ⟨"u-1", some "GUSER", some .buyer, none, none, some ("a-1", "GADMIN"), 0, 900⟩

def demoForceLogout : ForceLogout :=
  ⟨"u-1", true, [impersonationToken, userToken], ["k-1"]⟩

theorem logged_out_user_refused :
    (∃ error, ((auth demoAuthConfig demoAuthCrypto).run (credentialsIssued ++ forceLogout)
        demoAuthPool).shared.validateJwt userToken = .error error) ∧
      ∃ error, ((auth demoAuthConfig demoAuthCrypto).run (credentialsIssued ++ forceLogout)
        demoAuthPool).shared.validateApiKey demoAuthCrypto (some "key-one") = .error error := by
  have hrun : Along (auth demoAuthConfig demoAuthCrypto).step LogoutsApart demoAuthPool
      (credentialsIssued ++ forceLogout) := by
    decide +kernel
  have hlogout : demoForceLogout ∈ ((auth demoAuthConfig demoAuthCrypto).run
      (credentialsIssued ++ forceLogout) demoAuthPool).shared.logouts := by
    decide +kernel
  obtain ⟨htokens, hkeys⟩ := forced_logout_while_apart demoAuthConfig demoAuthCrypto (by decide)
    demoAccounts 0 _ hrun _ [] (List.append_nil _).symm _ rfl demoForceLogout hlogout
  refine ⟨(htokens userToken (by decide) rfl).1.mpr (.inr rfl), hkeys rfl "key-one"
    ⟨"k-1", "u-1", digestOne.text, "CI", ["read", "write"], none, some 0, none, none⟩ ?_
    (by decide) rfl⟩
  decide +kernel

/-- The key was rotated with an hour of grace before the forced logout. -/
def loggedOutInGrace : List AuthAction :=
  credentialsIssued ++
    [.begin (.apiKey (.rotate "u-1" "k-1" (some 3600))), .resume 0 calmly,
      .resume 0 (drawing "k-2" "key-two")] ++ forceLogout

/-- After the forced logout the impersonation goes on, the user's token still opens a
socket, and the key in its grace period is accepted. -/
theorem logged_out_user_accepted :
    (((auth demoAuthConfig demoAuthCrypto).run loggedOutInGrace demoAuthPool).shared.logouts.map
        fun logout => (logout.targetUserId, logout.revokeApiKeys, logout.tokens, logout.keys)) =
        [("u-1", true, [impersonationToken, userToken], ["k-1", "k-2"])] ∧
      (((auth demoAuthConfig demoAuthCrypto).run loggedOutInGrace demoAuthPool).shared.validateJwt
        impersonationToken).toOption.map RequestUser.id = some "u-1" ∧
      ((auth demoAuthConfig demoAuthCrypto).run loggedOutInGrace
        demoAuthPool).shared.handleConnection (some userToken) = .ok "u-1" ∧
      (((auth demoAuthConfig demoAuthCrypto).run loggedOutInGrace
        demoAuthPool).shared.validateApiKey demoAuthCrypto (some "key-one")).toOption.map
          RequestUser.id = some "u-1" := by
  decide +kernel

end Runs

end ChainSettle
