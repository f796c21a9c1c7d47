import ChainSettle.Auth.Steps

/-!
Login nonces. A login reads the nonce of its address, verifies the signature over
it and deletes the key, in this order and in separate statements. So two logins may
read one nonce before either deletes it, and a login may delete the nonce that was
generated after the one it read.
-/

namespace ChainSettle

open Lib

section Events

def AuthEvent.generated? (stellarAddress : String) : AuthEvent → Option String
  | .nonceGenerated address nonce => if address = stellarAddress then some nonce else none
  | _ => none

def AuthEvent.used? (stellarAddress : String) : AuthEvent → Option String
  | .nonceUsed address nonce => if address = stellarAddress then some nonce else none
  | _ => none

def AuthEvent.loggedIn? (stellarAddress : String) : AuthEvent → Option String
  | .loggedIn dto nonce _ => if dto.stellarAddress = stellarAddress then some nonce else none
  | _ => none

/-- The nonces of an address, the latest first: those that were generated, those
that were deleted by a login, and those a login succeeded with. -/
def noncesGenerated (log : List AuthEvent) (stellarAddress : String) : List String :=
  log.filterMap (AuthEvent.generated? stellarAddress)

def noncesUsed (log : List AuthEvent) (stellarAddress : String) : List String :=
  log.filterMap (AuthEvent.used? stellarAddress)

def noncesLoggedIn (log : List AuthEvent) (stellarAddress : String) : List String :=
  log.filterMap (AuthEvent.loggedIn? stellarAddress)

/-- Every login had a signature over the nonce that was the latest of its address. -/
def LoginsCurrent (config : AuthConfig) (log : List AuthEvent) : Prop :=
  ∀ later dto nonce token earlier, log = later ++ .loggedIn dto nonce token :: earlier →
    (noncesGenerated earlier dto.stellarAddress).head? = some nonce ∧
      config.verifySignature dto.stellarAddress nonce dto.signature = some true

theorem LoginsCurrent.cons {config : AuthConfig} {log : List AuthEvent}
    (h : LoginsCurrent config log) {event : AuthEvent}
    (hevent : ∀ dto nonce token, event = .loggedIn dto nonce token →
      (noncesGenerated log dto.stellarAddress).head? = some nonce ∧
        config.verifySignature dto.stellarAddress nonce dto.signature = some true) :
    LoginsCurrent config (event :: log) := by
  intro later dto nonce token earlier hsplit
  cases later with
  | nil =>
      obtain ⟨rfl, rfl⟩ := List.cons.inj hsplit
      exact hevent dto nonce token rfl
  | cons first later =>
      obtain ⟨-, hrest⟩ := List.cons.inj hsplit
      exact h later dto nonce token earlier hrest

/-- The request of a login that has read its nonce, with that nonce. -/
def AuthStatement.reads? : AuthStatement → Option (LoginDto × String)
  | .login (.clearNonce dto nonce) | .login (.upsertUser dto nonce)
  | .login (.registerSession dto nonce _) => some (dto, nonce)
  | _ => none

/-- A login about to delete the nonce of an address. -/
def AuthStatement.clears (stellarAddress : String) : AuthStatement → Bool
  | .login (.clearNonce dto _) => dto.stellarAddress = stellarAddress
  | _ => false

/-- A nonce is generated while no login of the address has read one, and deleted
while no other login of the address is about to delete it. -/
def LoginStatement.NoncesApart (s : AuthPool) (index : Nat) : LoginStatement → Prop
  | .generateNonce stellarAddress =>
      ∀ call ∈ s.inflight, ∀ read ∈ call.reads?, read.1.stellarAddress ≠ stellarAddress
  | .clearNonce dto _ =>
      ∀ call ∈ s.inflight.eraseIdx index, call.clears dto.stellarAddress = false
  | _ => True

instance (s : AuthPool) (index : Nat) (next : LoginStatement) :
    Decidable (next.NoncesApart s index) :=
  match next with
  | .generateNonce _ => inferInstanceAs (Decidable (∀ call ∈ s.inflight, _))
  | .clearNonce .. => inferInstanceAs (Decidable (∀ call ∈ s.inflight.eraseIdx index, _))
  | .login _ | .upsertUser .. | .registerSession .. => inferInstanceAs (Decidable True)

def AuthStatement.NoncesApart (s : AuthPool) (index : Nat) : AuthStatement → Prop
  | .login next => next.NoncesApart s index
  | _ => True

instance (s : AuthPool) (index : Nat) (call : AuthStatement) :
    Decidable (call.NoncesApart s index) :=
  match call with
  | .login next => inferInstanceAs (Decidable (next.NoncesApart s index))
  | .apiKey _ | .logout _ | .account _ | .email _ | .phone _ => inferInstanceAs (Decidable True)

def NoncesApart (s : AuthPool) : AuthAction → Prop
  | .resume index input => input.thrown ∨ ∀ call ∈ s.inflight[index]?, call.NoncesApart s index
  | _ => True

instance (s : AuthPool) (a : AuthAction) : Decidable (NoncesApart s a) :=
  match a with
  | .resume .. => inferInstanceAs (Decidable (_ ∨ _))
  | .begin _ | .crash _ | .external _ => inferInstanceAs (Decidable True)

end Events

section Invariant

/-- The nonce is the latest of the address, and the signature is over it. -/
def NonceCurrent (config : AuthConfig) (log : List AuthEvent) (dto : LoginDto) (nonce : String) :
    Prop :=
  (noncesGenerated log dto.stellarAddress).head? = some nonce ∧
    config.verifySignature dto.stellarAddress nonce dto.signature = some true

/-- It was deleted less often than generated. -/
def NonceUnused (log : List AuthEvent) (stellarAddress nonce : String) : Prop :=
  (noncesUsed log stellarAddress).count nonce < (noncesGenerated log stellarAddress).count nonce

structure NoncesFresh (config : AuthConfig) (w : AuthWorld) : Prop where
  used : ∀ stellarAddress nonce, (noncesUsed w.log stellarAddress).count nonce ≤
    (noncesGenerated w.log stellarAddress).count nonce
  stored : ∀ stellarAddress entry, w.nonces stellarAddress = some entry →
    (noncesGenerated w.log stellarAddress).head? = some entry.value ∧
      NonceUnused w.log stellarAddress entry.value
  current : LoginsCurrent config w.log

def ReadsCurrent (config : AuthConfig) (w : AuthWorld) : AuthStatement → Prop
  | .login (.clearNonce dto nonce) =>
      NonceCurrent config w.log dto nonce ∧ NonceUnused w.log dto.stellarAddress nonce
  | .login (.upsertUser dto nonce) | .login (.registerSession dto nonce _) =>
      NonceCurrent config w.log dto nonce
  | _ => True

variable {config : AuthConfig} {w w' : AuthWorld}

/-- Nothing is generated, used or logged in with, for an address. -/
def SameNonces (log log' : List AuthEvent) (stellarAddress : String) : Prop :=
  noncesGenerated log' stellarAddress = noncesGenerated log stellarAddress ∧
    noncesUsed log' stellarAddress = noncesUsed log stellarAddress

theorem ReadsCurrent.congr {call : AuthStatement} (h : ReadsCurrent config w call)
    (hsame : ∀ read ∈ call.reads?, SameNonces w.log w'.log read.1.stellarAddress) :
    ReadsCurrent config w' call := by
  have hkept {dto : LoginDto} {nonce : String} (hread : call.reads? = some (dto, nonce))
      (h : NonceCurrent config w.log dto nonce) : NonceCurrent config w'.log dto nonce := by
    obtain ⟨hgenerated, -⟩ := hsame _ hread
    exact ⟨hgenerated ▸ h.1, h.2⟩
  cases call with
  | login next =>
      cases next with
      | clearNonce dto nonce =>
          obtain ⟨hgenerated, hused⟩ := hsame _ rfl
          refine ⟨hkept rfl h.1, ?_⟩
          unfold NonceUnused
          rw [hgenerated, hused]
          exact h.2
      | upsertUser dto nonce => exact hkept rfl h
      | registerSession dto nonce token => exact hkept rfl h
      | _ => trivial
  | _ => trivial

/-- A step that is not about the nonces of any address. -/
theorem NoncesFresh.aside (h : NoncesFresh config w) (hnonces : w'.nonces = w.nonces)
    (hsame : ∀ stellarAddress, SameNonces w.log w'.log stellarAddress)
    (hcurrent : LoginsCurrent config w'.log) : NoncesFresh config w' := by
  refine ⟨fun stellarAddress nonce => ?_, fun stellarAddress entry hentry => ?_, hcurrent⟩
  · rw [(hsame stellarAddress).1, (hsame stellarAddress).2]
    exact h.used stellarAddress nonce
  · obtain ⟨hhead, hunused⟩ := h.stored stellarAddress entry (hnonces ▸ hentry)
    unfold NonceUnused
    rw [(hsame stellarAddress).1, (hsame stellarAddress).2]
    exact ⟨hhead, hunused⟩

/-- An event that is about no nonce. -/
theorem sameNonces_cons {event : AuthEvent} {log : List AuthEvent} {stellarAddress : String}
    (hgenerated : event.generated? stellarAddress = none)
    (hused : event.used? stellarAddress = none) : SameNonces log (event :: log) stellarAddress :=
  ⟨List.filterMap_cons_none hgenerated, List.filterMap_cons_none hused⟩

theorem sameNonces_refl (log : List AuthEvent) (stellarAddress : String) :
    SameNonces log log stellarAddress :=
  ⟨rfl, rfl⟩

theorem generated_cons_self (log : List AuthEvent) (stellarAddress nonce : String) :
    noncesGenerated (.nonceGenerated stellarAddress nonce :: log) stellarAddress =
      nonce :: noncesGenerated log stellarAddress :=
  List.filterMap_cons_some (if_pos rfl)

theorem used_cons_self (log : List AuthEvent) (stellarAddress nonce : String) :
    noncesUsed (.nonceUsed stellarAddress nonce :: log) stellarAddress =
      nonce :: noncesUsed log stellarAddress :=
  List.filterMap_cons_some (if_pos rfl)

theorem sameNonces_generated {log : List AuthEvent} {stellarAddress other : String}
    (h : other ≠ stellarAddress) (nonce : String) :
    SameNonces log (.nonceGenerated stellarAddress nonce :: log) other :=
  sameNonces_cons (if_neg (Ne.symm h)) rfl

theorem sameNonces_used {log : List AuthEvent} {stellarAddress other : String}
    (h : other ≠ stellarAddress) (nonce : String) :
    SameNonces log (.nonceUsed stellarAddress nonce :: log) other :=
  sameNonces_cons rfl (if_neg (Ne.symm h))

theorem NoncesFresh.generated (h : NoncesFresh config w) {stellarAddress nonce : String}
    {expiresAt : Option Nat} (hnonces : w'.nonces = w.nonces.set stellarAddress nonce expiresAt)
    (hlog : w'.log = .nonceGenerated stellarAddress nonce :: w.log) : NoncesFresh config w' := by
  refine ⟨fun address other => ?_, fun address entry hentry => ?_, ?_⟩
  · rw [hlog]
    by_cases haddress : address = stellarAddress
    · subst haddress
      rw [generated_cons_self]
      exact (h.used address other).trans List.count_le_count_cons
    · obtain ⟨hgenerated, hused⟩ := sameNonces_generated haddress nonce
      rw [hgenerated, hused]
      exact h.used address other
  · unfold NonceUnused
    rw [hlog]
    rw [hnonces] at hentry
    by_cases haddress : address = stellarAddress
    · subst haddress
      rw [Store.set_self] at hentry
      cases hentry
      rw [generated_cons_self, List.count_cons_self]
      exact ⟨rfl, Nat.lt_succ_of_le (h.used address nonce)⟩
    · obtain ⟨hgenerated, hused⟩ := sameNonces_generated haddress nonce
      rw [Store.set_of_ne _ haddress] at hentry
      rw [hgenerated, hused]
      exact h.stored address entry hentry
  · rw [hlog]
    exact h.current.cons fun _ _ _ hevent => nomatch hevent

theorem NoncesFresh.cleared (h : NoncesFresh config w) {stellarAddress nonce : String}
    (hunused : NonceUnused w.log stellarAddress nonce)
    (hnonces : w'.nonces = w.nonces.del stellarAddress)
    (hlog : w'.log = .nonceUsed stellarAddress nonce :: w.log) : NoncesFresh config w' := by
  refine ⟨fun address other => ?_, fun address entry hentry => ?_, ?_⟩
  · rw [hlog]
    by_cases haddress : address = stellarAddress
    · subst haddress
      rw [show noncesGenerated (.nonceUsed address nonce :: w.log) address =
        noncesGenerated w.log address from List.filterMap_cons_none rfl, used_cons_self,
        List.count_cons]
      by_cases hother : nonce = other
      · subst hother
        simpa using Nat.succ_le_of_lt hunused
      · simpa [hother] using h.used address other
    · obtain ⟨hgenerated, hused⟩ := sameNonces_used haddress nonce
      rw [hgenerated, hused]
      exact h.used address other
  · unfold NonceUnused
    rw [hlog]
    rw [hnonces] at hentry
    by_cases haddress : address = stellarAddress
    · subst haddress
      rw [Store.del_self] at hentry
      cases hentry
    · obtain ⟨hgenerated, hused⟩ := sameNonces_used haddress nonce
      rw [Store.del_of_ne _ haddress] at hentry
      rw [hgenerated, hused]
      exact h.stored address entry hentry
  · rw [hlog]
    exact h.current.cons fun _ _ _ hevent => nomatch hevent

/-- A nonce is deleted that no other call is about to delete. -/
theorem ReadsCurrent.cleared {call : AuthStatement} (h : ReadsCurrent config w call)
    {stellarAddress nonce : String} (hlog : w'.log = .nonceUsed stellarAddress nonce :: w.log)
    (hclears : call.clears stellarAddress = false) : ReadsCurrent config w' call := by
  have hkept {dto : LoginDto} {other : String} (h : NonceCurrent config w.log dto other) :
      NonceCurrent config w'.log dto other := by
    refine ⟨?_, h.2⟩
    rw [hlog, show noncesGenerated (.nonceUsed stellarAddress nonce :: w.log) dto.stellarAddress =
      noncesGenerated w.log dto.stellarAddress from List.filterMap_cons_none rfl]
    exact h.1
  cases call with
  | login next =>
      cases next with
      | clearNonce dto other =>
          refine h.congr fun read hread => ?_
          cases hread
          rw [hlog]
          exact sameNonces_used (of_decide_eq_false hclears) nonce
      | upsertUser dto other => exact hkept h
      | registerSession dto other token => exact hkept h
      | _ => trivial
  | _ => trivial

/-- The invariant after a step, with the calls it leaves behind and the others in flight. -/
def LeavesCurrent {κ : Type} (config : AuthConfig) (toCall : κ → AuthStatement)
    (others : List AuthStatement) (result : AuthWorld × List κ) : Prop :=
  NoncesFresh config result.1 ∧ (∀ next ∈ result.2, ReadsCurrent config result.1 (toCall next)) ∧
    ∀ other ∈ others, ReadsCurrent config result.1 other

theorem nonces_login {s : AuthPool} {index : Nat} {input : AuthInput}
    (h : NoncesFresh config s.shared)
    (hothers : ∀ other ∈ s.inflight.eraseIdx index, ReadsCurrent config s.shared other)
    {next : LoginStatement} (hread : ReadsCurrent config s.shared (.login next))
    (hapart : next.NoncesApart s index) :
    LeavesCurrent config .login (s.inflight.eraseIdx index)
      (next.exec config input s.shared) := by
  have hsame (event : AuthEvent) (hgenerated : ∀ address, event.generated? address = none)
      (hused : ∀ address, event.used? address = none) (address : String) :
      SameNonces s.shared.log (event :: s.shared.log) address :=
    sameNonces_cons (hgenerated address) (hused address)
  have hrefused (status : Nat) (message : String) :
      LeavesCurrent config .login (s.inflight.eraseIdx index)
        (s.shared.refuse status message) := by
    have hkept := hsame (.refused ⟨status, message⟩) (fun _ => rfl) (fun _ => rfl)
    refine ⟨h.aside rfl hkept (h.current.cons fun _ _ _ he => nomatch he), List.forall_mem_nil _,
      fun other hmem => (hothers other hmem).congr fun read _ => hkept _⟩
  cases next with
  | generateNonce stellarAddress =>
      refine ⟨h.generated rfl rfl, List.forall_mem_nil _, fun other hmem => ?_⟩
      refine (hothers other hmem).congr fun read hreads => ?_
      exact sameNonces_generated (hapart other (List.mem_of_mem_eraseIdx hmem) read hreads) _
  | login dto =>
      simp only [LoginStatement.exec]
      split
      · exact hrefused _ _
      · rename_i nonce hnonce
        split
        · rename_i hvalid
          obtain ⟨hget, -⟩ := Option.filter_eq_some_iff.mp hnonce
          obtain ⟨entry, hentry, rfl⟩ := Store.entry_of_get hget
          obtain ⟨hhead, hunused⟩ := h.stored _ entry hentry
          exact ⟨h, List.forall_mem_singleton.mpr ⟨⟨hhead, hvalid⟩, hunused⟩, hothers⟩
        · exact hrefused _ _
  | clearNonce dto nonce =>
      refine ⟨h.cleared hread.2 rfl rfl, List.forall_mem_singleton.mpr hread.1, ?_⟩
      exact fun other hmem => (hothers other hmem).cleared rfl (hapart other hmem)
  | upsertUser dto nonce =>
      simp only [LoginStatement.exec]
      split
      · exact ⟨h, List.forall_mem_singleton.mpr hread, hothers⟩
      · split
        · exact hrefused _ _
        · refine ⟨h.aside rfl (fun _ => sameNonces_refl _ _) h.current,
            List.forall_mem_singleton.mpr hread, fun other hmem => ?_⟩
          exact (hothers other hmem).congr fun _ _ => sameNonces_refl _ _
  | registerSession dto nonce token =>
      have hkept := hsame (.loggedIn dto nonce token) (fun _ => rfl) (fun _ => rfl)
      refine ⟨h.aside rfl hkept (h.current.cons fun _ _ _ he => ?_), List.forall_mem_nil _,
        fun other hmem => (hothers other hmem).congr fun read _ => hkept _⟩
      cases he
      exact hread

theorem sameNonces_frame {g : AuthGroup} (h : AuthFrame g w w') (hg : g ≠ .login)
    (stellarAddress : String) : SameNonces w.log w'.log stellarAddress := by
  constructor
  · refine h.filterMap_log hg fun event hevent => ?_
    cases event with
    | nonceGenerated address nonce => exact absurd rfl hevent
    | _ => rfl
  · refine h.filterMap_log hg fun event hevent => ?_
    cases event with
    | nonceUsed address nonce => exact absurd rfl hevent
    | _ => rfl

theorem loginsCurrent_frame {g : AuthGroup} (h : AuthFrame g w w') (hg : g ≠ .login)
    (hcurrent : LoginsCurrent config w.log) : LoginsCurrent config w'.log := by
  rcases h.log_of_ne hg with hlog | ⟨event, hlog, hevent⟩
  · rwa [hlog]
  · rw [hlog]
    refine hcurrent.cons ?_
    rintro dto nonce token rfl
    exact absurd rfl hevent

end Invariant

section Runs

variable (config : AuthConfig) (crypto : Crypto)

theorem readsCurrent_of_group {w : AuthWorld} {call : AuthStatement} (h : call.group ≠ .login) :
    ReadsCurrent config w call := by
  cases call with
  | login next => exact absurd rfl h
  | _ => trivial

theorem readsCurrent_of_starts {w : AuthWorld} {call : AuthStatement} (h : call.starts) :
    ReadsCurrent config w call := by
  cases call with
  | login next =>
      cases next with
      | generateNonce stellarAddress => trivial
      | login dto => trivial
      | _ => cases h
  | _ => trivial

structure NoncesInvariant (s : AuthPool) : Prop where
  fresh : NoncesFresh config s.shared
  reads : ∀ call ∈ s.inflight, ReadsCurrent config s.shared call

theorem nonces_resume {s : AuthPool} {index : Nat} {input : AuthInput} {call : AuthStatement}
    (h : NoncesInvariant config s) (hcall : s.inflight[index]? = some call)
    (hallowed : NoncesApart s (.resume index input)) :
    LeavesCurrent config id (s.inflight.eraseIdx index)
      (call.resume config crypto input s.shared) := by
  have hothers (other : AuthStatement) (hmem : other ∈ s.inflight.eraseIdx index) :
      ReadsCurrent config s.shared other := h.reads other (List.mem_of_mem_eraseIdx hmem)
  have haside (hg : call.group ≠ .login) :
      LeavesCurrent config id (s.inflight.eraseIdx index)
        (call.resume config crypto input s.shared) := by
    have hframe : AuthFrame call.group s.shared (call.resume config crypto input s.shared).1 :=
      resume_frame input s.shared call
    have hsame := sameNonces_frame hframe hg
    refine ⟨h.fresh.aside (hframe.nonces hg) hsame (loginsCurrent_frame hframe hg h.fresh.current),
      fun next hnext => readsCurrent_of_group config ?_,
      fun other hmem => (hothers other hmem).congr fun _ _ => hsame _⟩
    exact (group_resume input s.shared hnext).trans_ne hg
  cases call with
  | login next =>
      simp only [AuthStatement.resume]
      split
      · exact ⟨h.fresh, List.forall_mem_nil _, hothers⟩
      · rename_i hthrown
        obtain ⟨hfresh, hnew, hrest⟩ := nonces_login h.fresh hothers
          (h.reads _ (List.mem_of_getElem? hcall)) ((hallowed.resolve_left hthrown) _ hcall)
        refine ⟨hfresh, fun later hlater => ?_, hrest⟩
        obtain ⟨next', hnext', rfl⟩ := List.mem_map.mp hlater
        exact hnew next' hnext'
  | _ => exact haside (by simp [AuthStatement.group])

theorem noncesInvariant_step (s : AuthPool) (a : AuthAction) (h : NoncesInvariant config s)
    (hallowed : NoncesApart s a) : NoncesInvariant config ((auth config crypto).step s a) := by
  have hkeeps := (auth config crypto).keeps_step (Q := NoncesFresh config)
    (P := ReadsCurrent config) a h.fresh h.reads
    (fun call _ hstart => readsCurrent_of_starts config hstart)
    (fun index input call haction hcall => by
      subst haction
      exact nonces_resume config crypto h hcall hallowed)
    (fun milliseconds => ⟨h.fresh.aside rfl (fun _ => sameNonces_refl _ _) h.fresh.current,
      fun other hmem => (h.reads other hmem).congr fun _ _ => sameNonces_refl _ _⟩)
  exact ⟨hkeeps.1, hkeeps.2⟩

/-- A login that has deleted its nonce and not returned yet. -/
def AuthStatement.admitted (stellarAddress nonce : String) : AuthStatement → Nat
  | .login (.upsertUser dto other) | .login (.registerSession dto other _) =>
      if dto.stellarAddress = stellarAddress ∧ other = nonce then 1 else 0
  | _ => 0

theorem admitted_of_group {stellarAddress nonce : String} {call : AuthStatement}
    (h : call.group ≠ .login) : call.admitted stellarAddress nonce = 0 := by
  cases call with
  | login next => exact absurd rfl h
  | _ => rfl

theorem count_used (log : List AuthEvent) (address other stellarAddress nonce : String) :
    (noncesUsed (.nonceUsed address other :: log) stellarAddress).count nonce =
      (noncesUsed log stellarAddress).count nonce +
        if address = stellarAddress ∧ other = nonce then 1 else 0 := by
  by_cases haddress : address = stellarAddress
  · subst haddress
    rw [used_cons_self, List.count_cons]
    by_cases hother : other = nonce <;> simp [hother]
  · rw [(sameNonces_used (Ne.symm haddress) other).2]
    simp [haddress]

theorem count_loggedIn (log : List AuthEvent) (dto : LoginDto) (other : String) (token : Jwt)
    (stellarAddress nonce : String) :
    (noncesLoggedIn (.loggedIn dto other token :: log) stellarAddress).count nonce =
      (noncesLoggedIn log stellarAddress).count nonce +
        if dto.stellarAddress = stellarAddress ∧ other = nonce then 1 else 0 := by
  unfold noncesLoggedIn
  by_cases haddress : dto.stellarAddress = stellarAddress
  · rw [List.filterMap_cons_some (show (AuthEvent.loggedIn dto other token).loggedIn?
      stellarAddress = some other from if_pos haddress), List.count_cons]
    by_cases hother : other = nonce <;> simp [haddress, hother]
  · rw [List.filterMap_cons_none (show (AuthEvent.loggedIn dto other token).loggedIn?
      stellarAddress = none from if_neg haddress)]
    simp [haddress]

/-- A step is paid for: a login that succeeds has been admitted, and one that is
admitted has deleted its nonce. -/
def NoncePaid (stellarAddress nonce : String) (w : AuthWorld) (call : AuthStatement)
    (w' : AuthWorld) (calls : List AuthStatement) : Prop :=
  (noncesLoggedIn w'.log stellarAddress).count nonce +
      (calls.map (AuthStatement.admitted stellarAddress nonce)).sum +
      (noncesUsed w.log stellarAddress).count nonce ≤
    (noncesLoggedIn w.log stellarAddress).count nonce + call.admitted stellarAddress nonce +
      (noncesUsed w'.log stellarAddress).count nonce

theorem noncePaid_of_same {stellarAddress nonce : String} {w w' : AuthWorld} {call : AuthStatement}
    {calls : List AuthStatement}
    (hlogins : noncesLoggedIn w'.log stellarAddress = noncesLoggedIn w.log stellarAddress)
    (hused : noncesUsed w'.log stellarAddress = noncesUsed w.log stellarAddress)
    (hshare : (calls.map (AuthStatement.admitted stellarAddress nonce)).sum ≤
      call.admitted stellarAddress nonce) :
    NoncePaid stellarAddress nonce w call w' calls := by
  unfold NoncePaid
  rw [hlogins, hused]
  omega

theorem noncePaid_aside (input : AuthInput) (w : AuthWorld) {call : AuthStatement}
    (hg : call.group ≠ .login) (stellarAddress nonce : String) :
    NoncePaid stellarAddress nonce w call (call.resume config crypto input w).1
      (call.resume config crypto input w).2 := by
  have hframe : AuthFrame call.group w (call.resume config crypto input w).1 :=
    resume_frame input w call
  refine noncePaid_of_same ?_ (sameNonces_frame hframe hg stellarAddress).2 ?_
  · refine hframe.filterMap_log hg fun event hevent => ?_
    cases event with
    | loggedIn dto other token => exact absurd rfl hevent
    | _ => rfl
  · rw [shares_resume input w hg fun _ => admitted_of_group]
    exact Nat.zero_le _

theorem noncePaid_login (input : AuthInput) (w : AuthWorld) (next : LoginStatement)
    (stellarAddress nonce : String) :
    NoncePaid stellarAddress nonce w (.login next) (next.exec config input w).1
      ((next.exec config input w).2.map .login) := by
  have hrefused (status : Nat) (message : String) :
      NoncePaid stellarAddress nonce w (.login next)
        (w.refuse status message : AuthWorld × List LoginStatement).1
        ((w.refuse status message : AuthWorld × List LoginStatement).2.map .login) :=
    noncePaid_of_same (List.filterMap_cons_none rfl) (List.filterMap_cons_none rfl)
      (Nat.zero_le _)
  cases next with
  | generateNonce address =>
      exact noncePaid_of_same (List.filterMap_cons_none rfl) (List.filterMap_cons_none rfl)
        (Nat.zero_le _)
  | login dto =>
      simp only [LoginStatement.exec]
      split
      · exact hrefused _ _
      · split
        · exact noncePaid_of_same rfl rfl (Nat.le_refl 0)
        · exact hrefused _ _
  | clearNonce dto other =>
      have hlogins : noncesLoggedIn (.nonceUsed dto.stellarAddress other :: w.log) stellarAddress =
          noncesLoggedIn w.log stellarAddress := List.filterMap_cons_none rfl
      simp only [NoncePaid, LoginStatement.exec, AuthWorld.record, count_used,
        AuthStatement.admitted, List.map_cons, List.map_nil, List.sum_cons, List.sum_nil, hlogins]
      omega
  | upsertUser dto other =>
      simp only [LoginStatement.exec]
      split
      · exact noncePaid_of_same rfl rfl (Nat.le_refl _)
      · split
        · exact hrefused _ _
        · exact noncePaid_of_same rfl rfl (Nat.le_refl _)
  | registerSession dto other token =>
      have hused : noncesUsed (.loggedIn dto other token :: w.log) stellarAddress =
          noncesUsed w.log stellarAddress := List.filterMap_cons_none rfl
      simp only [NoncePaid, LoginStatement.exec, AuthWorld.record, count_loggedIn,
        AuthStatement.admitted, List.map_nil, List.sum_nil, hused]
      omega

theorem noncePaid_resume (input : AuthInput) (w : AuthWorld) (call : AuthStatement)
    (stellarAddress nonce : String) :
    NoncePaid stellarAddress nonce w call (call.resume config crypto input w).1
      (call.resume config crypto input w).2 := by
  cases call with
  | login next =>
      simp only [AuthStatement.resume]
      split
      · exact noncePaid_of_same rfl rfl (Nat.zero_le _)
      · exact noncePaid_login config input w next stellarAddress nonce
  | _ => exact noncePaid_aside config crypto input w (by simp [AuthStatement.group]) _ _

/-- Every login that succeeded, or will without another look at Redis, has deleted
its nonce. -/
def LoginsPaid (stellarAddress nonce : String) (s : AuthPool) : Prop :=
  (noncesLoggedIn s.shared.log stellarAddress).count nonce +
      (s.inflight.map (AuthStatement.admitted stellarAddress nonce)).sum ≤
    (noncesUsed s.shared.log stellarAddress).count nonce

theorem loginsPaid_step (stellarAddress nonce : String) (s : AuthPool) (a : AuthAction)
    (h : LoginsPaid stellarAddress nonce s) :
    LoginsPaid stellarAddress nonce ((auth config crypto).step s a) := by
  refine (auth config crypto).budget_step
    (fun w => (noncesLoggedIn w.log stellarAddress).count nonce)
    (fun w => (noncesUsed w.log stellarAddress).count nonce)
    (AuthStatement.admitted stellarAddress nonce) a h ?_ ?_ (fun _ => ⟨Nat.le_refl _, Nat.le_refl _⟩)
  · intro call hstarts
    cases call with
    | login next =>
        cases next with
        | upsertUser dto other => cases hstarts
        | registerSession dto other token => cases hstarts
        | _ => rfl
    | _ => rfl
  · intro index input call others _ _ _ hbefore
    have hpaid := noncePaid_resume config crypto input s.shared call stellarAddress nonce
    unfold NoncePaid at hpaid
    dsimp only [auth] at hbefore ⊢
    omega

/-- Along a run in which a nonce is generated only while no login of its address has
read one and not returned, and is deleted only while no other login is about to delete
it, logins succeed with a nonce at most as often as it was generated, and each with a
signature over the latest nonce of its address. -/
theorem nonces_single_use_while_apart (s : AuthPool) (hidle : s.inflight = [])
    (hlog : s.shared.log = []) (hnonces : ∀ stellarAddress, s.shared.nonces stellarAddress = none)
    (actions : List AuthAction)
    (hrun : Along (auth config crypto).step NoncesApart s actions) :
    ∀ pre post, actions = pre ++ post →
      (∀ stellarAddress nonce,
        (noncesLoggedIn ((auth config crypto).run pre s).shared.log stellarAddress).count nonce ≤
          (noncesGenerated ((auth config crypto).run pre s).shared.log stellarAddress).count
            nonce) ∧
      LoginsCurrent config ((auth config crypto).run pre s).shared.log := by
  have hstart : NoncesInvariant config s := by
    refine ⟨⟨fun _ _ => ?_, fun stellarAddress entry hentry => ?_, fun later _ _ _ _ hsplit => ?_⟩,
      ?_⟩
    · rw [hlog]
      exact Nat.le_refl 0
    · rw [hnonces] at hentry
      cases hentry
    · rw [hlog] at hsplit
      exact absurd hsplit.symm (List.append_ne_nil_of_right_ne_nil later (List.cons_ne_nil _ _))
    · rw [hidle]
      exact List.forall_mem_nil _
  intro pre post hsplit
  have hinv : NoncesInvariant config ((auth config crypto).run pre s) :=
    hrun.invariant (noncesInvariant_step config crypto) hstart pre post hsplit
  refine ⟨fun stellarAddress nonce => ?_, hinv.fresh.current⟩
  have hpaid : LoginsPaid stellarAddress nonce ((auth config crypto).run pre s) := by
    refine List.foldlRecOn (motive := LoginsPaid stellarAddress nonce) pre
      (auth config crypto).step ?_
      fun s hs a _ => loginsPaid_step config crypto stellarAddress nonce s a hs
    unfold LoginsPaid
    rw [hlog, hidle]
    exact Nat.le_refl 0
  exact (Nat.le_of_add_right_le hpaid).trans (hinv.fresh.used stellarAddress nonce)

def demoLogin : LoginDto :=
  ⟨"GUSER", "chainsettle:GUSER:0:x", "GUSER signs chainsettle:GUSER:0:x"⟩

def requestNonce : List AuthAction :=
  [.begin (.login (.generateNonce "GUSER")), .resume 0 calmly]

/-- The steps of a login that is alone in flight. -/
def logIn (dto : LoginDto) (jti : String) : List AuthAction :=
  .begin (.login (.login dto)) :: List.replicate 4 (.resume 0 (drawing jti ""))

theorem single_login_counted :
    noncesLoggedIn ((auth demoAuthConfig demoAuthCrypto).run
        (requestNonce ++ logIn demoLogin "s-1") demoAuthPool).shared.log "GUSER" =
        ["chainsettle:GUSER:0:x"] ∧
      (noncesLoggedIn ((auth demoAuthConfig demoAuthCrypto).run
        (requestNonce ++ logIn demoLogin "s-1") demoAuthPool).shared.log "GUSER").count
          "chainsettle:GUSER:0:x" ≤
        (noncesGenerated ((auth demoAuthConfig demoAuthCrypto).run
          (requestNonce ++ logIn demoLogin "s-1") demoAuthPool).shared.log "GUSER").count
          "chainsettle:GUSER:0:x" := by
  have hrun : Along (auth demoAuthConfig demoAuthCrypto).step NoncesApart demoAuthPool
      (requestNonce ++ logIn demoLogin "s-1") := by
    decide +kernel
  exact ⟨by decide +kernel, (nonces_single_use_while_apart demoAuthConfig demoAuthCrypto
    demoAuthPool rfl rfl (fun _ => rfl) _ hrun _ [] (List.append_nil _).symm).1 _ _⟩

/-- Two logins with one signature, the second started before the first has deleted
the nonce. -/
def replayedLogin : List AuthAction :=
  requestNonce ++
    [.begin (.login (.login demoLogin)), .begin (.login (.login demoLogin)), .resume 0 calmly,
      .resume 1 calmly] ++
    List.replicate 3 (.resume 0 (drawing "s-1" "")) ++
    List.replicate 3 (.resume 0 (drawing "s-2" ""))

/-- A new nonce is requested while a login with the old one is under way. -/
def overtakenNonce : List AuthAction :=
  requestNonce ++
    [.begin (.login (.login demoLogin)), .resume 0 calmly, .external 1000,
      .begin (.login (.generateNonce "GUSER")), .resume 1 calmly] ++
    List.replicate 3 (.resume 0 (drawing "s-1" ""))

/-- One nonce admits two logins; and a login succeeds with a nonce that is not the
latest, and deletes the latest one. -/
theorem nonce_used_twice :
    (noncesGenerated ((auth demoAuthConfig demoAuthCrypto).run replayedLogin
        demoAuthPool).shared.log "GUSER") = ["chainsettle:GUSER:0:x"] ∧
      (noncesLoggedIn ((auth demoAuthConfig demoAuthCrypto).run replayedLogin
        demoAuthPool).shared.log "GUSER") = ["chainsettle:GUSER:0:x", "chainsettle:GUSER:0:x"] ∧
      (noncesGenerated ((auth demoAuthConfig demoAuthCrypto).run overtakenNonce
        demoAuthPool).shared.log "GUSER").head? = some "chainsettle:GUSER:1000:x" ∧
      (noncesLoggedIn ((auth demoAuthConfig demoAuthCrypto).run overtakenNonce
        demoAuthPool).shared.log "GUSER") = ["chainsettle:GUSER:0:x"] ∧
      ((auth demoAuthConfig demoAuthCrypto).run overtakenNonce demoAuthPool).shared.nonces.get
        1000 "GUSER" = none := by
  decide +kernel

end Runs

end ChainSettle
