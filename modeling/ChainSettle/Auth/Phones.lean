import ChainSettle.Auth.Steps

/-!
Verified phone numbers. The code and the number it was sent to are two keys in Redis:
a request writes them one after the other, a verification reads, and later deletes,
them one after the other. A request that comes between the two reads has its number
verified with the code of another; two verifications that both have read the code
before one of them deletes it use it twice.
-/

namespace ChainSettle

open Lib

section Codes

/-- A request that has stored the code, and not yet the number. -/
def AuthStatement.storing (userId otp : String) : AuthStatement → Bool
  | .phone (.storePending user _ code) => user = userId && code = otp
  | _ => false

/-- The same for one number, or a verification that has not deleted the code yet. -/
def AuthStatement.reserved (userId phoneNumber otp : String) : AuthStatement → Nat
  | .phone (.storePending user number code) | .phone (.clearOtp user code number) =>
      if user = userId ∧ number = phoneNumber ∧ code = otp then 1 else 0
  | _ => 0

/-- A verification that has deleted the code and not stored the number yet. -/
def AuthStatement.redeeming (userId phoneNumber otp : String) : AuthStatement → Nat
  | .phone (.clearPending user code number) | .phone (.setPhone user code number) =>
      if user = userId ∧ number = phoneNumber ∧ code = otp then 1 else 0
  | _ => 0

/-- A number is stored with the code of its own request, unless the request that the
code is of will overwrite it. A number is read while the code is still the one that was
read before, while the request for it is over, and while no other verification is about
to delete it. -/
def PhoneStatement.PhonesApart (w : AuthWorld) (others : List AuthStatement) :
    PhoneStatement → Prop
  | .storePending userId _ otp => ∀ code ∈ w.phoneOtps.get w.now userId,
      code = otp ∨ ∃ other ∈ others, other.storing userId code
  | .getPending userId otp storedOtp => truthyText storedOtp = some otp →
      w.phoneOtps.get w.now userId = some otp ∧
      ∀ other ∈ others, other.storing userId otp = false ∧
        ∀ number ∈ w.pendingPhones.get w.now userId, other.reserved userId number otp = 0
  | _ => True

instance (w : AuthWorld) (others : List AuthStatement) (next : PhoneStatement) :
    Decidable (next.PhonesApart w others) :=
  match next with
  | .storePending userId _ _ =>
      inferInstanceAs (Decidable (∀ code ∈ w.phoneOtps.get w.now userId, _ ∨ _))
  | .getPending .. =>
      inferInstanceAs (Decidable (_ → _ ∧ ∀ other ∈ others, _ ∧ ∀ number ∈ _, _))
  | .sendPhoneVerificationOtp .. | .storeOtp .. | .verifyPhone .. | .clearOtp ..
  | .clearPending .. | .setPhone .. => inferInstanceAs (Decidable True)

/-- A request that is lost between its two writes leaves its code with no number, or
with its own. -/
def PhoneStatement.LostApart (w : AuthWorld) (others : List AuthStatement) : PhoneStatement → Prop
  | .storePending userId phoneNumber otp => w.phoneOtps.get w.now userId = some otp →
      ∀ number ∈ w.pendingPhones.get w.now userId,
        number = phoneNumber ∨ ∃ other ∈ others, other.storing userId otp
  | _ => True

instance (w : AuthWorld) (others : List AuthStatement) (next : PhoneStatement) :
    Decidable (next.LostApart w others) :=
  match next with
  | .storePending .. => inferInstanceAs (Decidable (_ → ∀ number ∈ _, _ ∨ _))
  | .sendPhoneVerificationOtp .. | .storeOtp .. | .verifyPhone .. | .getPending .. | .clearOtp ..
  | .clearPending .. | .setPhone .. => inferInstanceAs (Decidable True)

def AuthStatement.PhonesApart (w : AuthWorld) (others : List AuthStatement) (thrown : Bool) :
    AuthStatement → Prop
  | .phone next => if thrown then next.LostApart w others else next.PhonesApart w others
  | _ => True

instance (w : AuthWorld) (others : List AuthStatement) (thrown : Bool) (call : AuthStatement) :
    Decidable (call.PhonesApart w others thrown) :=
  match call with
  | .phone _ => inferInstanceAs (Decidable (if thrown then _ else _))
  | .login _ | .apiKey _ | .logout _ | .account _ | .email _ => inferInstanceAs (Decidable True)

/-- The code and the number that would be accepted now belong together and are not used
up, unless the request for the code is about to store its number. -/
def CodesFresh (w : AuthWorld) (calls : List AuthStatement) : Prop :=
  ∀ userId phoneNumber otp, w.phoneOtps.get w.now userId = some otp →
    w.pendingPhones.get w.now userId = some phoneNumber →
    w.log.count (.otpUsed userId phoneNumber otp) < w.log.count (.otpSent userId phoneNumber otp) ∨
      ∃ call ∈ calls, call.storing userId otp

end Codes

section Steps

variable {w w' : AuthWorld} {calls others : List AuthStatement} {call : AuthStatement}

/-- The same codes and numbers, or fewer, and as many requests. -/
theorem CodesFresh.kept (h : CodesFresh w (call :: others))
    (hotps : ∀ userId otp, w'.phoneOtps.get w'.now userId = some otp →
      w.phoneOtps.get w.now userId = some otp)
    (hpending : ∀ userId number, w'.pendingPhones.get w'.now userId = some number →
      w.pendingPhones.get w.now userId = some number)
    (hused : ∀ userId number otp, w'.phoneOtps.get w'.now userId = some otp →
      w'.log.count (.otpUsed userId number otp) = w.log.count (.otpUsed userId number otp))
    (hsent : ∀ userId number otp, w'.log.count (.otpSent userId number otp) =
      w.log.count (.otpSent userId number otp))
    (hcall : ∀ userId otp, call.storing userId otp = false) : CodesFresh w' (calls ++ others) := by
  intro userId number otp hotp hnumber
  rcases h userId number otp (hotps _ _ hotp) (hpending _ _ hnumber) with
    hlt | ⟨other, hmem, hstoring⟩
  · rw [hused userId number otp hotp, hsent]
    exact .inl hlt
  · refine .inr ⟨other, List.mem_append_right _ ?_, hstoring⟩
    rcases List.mem_cons.mp hmem with rfl | hmem
    · rw [hcall] at hstoring
      cases hstoring
    · exact hmem

theorem CodesFresh.among (h : CodesFresh w calls) {index : Nat}
    (hcall : calls[index]? = some call) : CodesFresh w (call :: calls.eraseIdx index) := by
  obtain ⟨hsplit, herase⟩ := PoolSystem.inflight_split hcall
  rw [herase]
  intro userId number otp hotp hnumber
  refine (h userId number otp hotp hnumber).imp_right ?_
  rintro ⟨other, hmem, hstoring⟩
  rw [hsplit] at hmem
  exact ⟨other, List.perm_middle.mem_iff.mp hmem, hstoring⟩

/-- A request is lost between its writes, if it is one. -/
theorem CodesFresh.lost (h : CodesFresh w (call :: others))
    (hpaid : ∀ userId number otp, call.reserved userId number otp = 1 →
      w.log.count (.otpUsed userId number otp) < w.log.count (.otpSent userId number otp))
    (hapart : call.PhonesApart w others true) : CodesFresh w others := by
  intro userId number otp hotp hnumber
  rcases h userId number otp hotp hnumber with hlt | ⟨other, hmem, hstoring⟩
  · exact .inl hlt
  · rcases List.mem_cons.mp hmem with rfl | hmem
    · unfold AuthStatement.storing at hstoring
      split at hstoring
      · rename_i user own code
        obtain ⟨huser, hcode⟩ := Bool.and_eq_true_iff.mp hstoring
        cases of_decide_eq_true huser
        cases of_decide_eq_true hcode
        rcases hapart hotp number hnumber with rfl | hother
        · exact .inl (hpaid _ _ _ (if_pos ⟨rfl, rfl, rfl⟩))
        · exact .inr hother
      · cases hstoring
    · exact .inr ⟨other, hmem, hstoring⟩

/-- Where the codes and numbers, and what is recorded about them, stay as they are. -/
theorem CodesFresh.aside (h : CodesFresh w (call :: others)) (hnow : w'.now = w.now)
    (hotps : w'.phoneOtps = w.phoneOtps) (hpending : w'.pendingPhones = w.pendingPhones)
    (hused : ∀ userId number otp, w'.log.count (.otpUsed userId number otp) =
      w.log.count (.otpUsed userId number otp))
    (hsent : ∀ userId number otp, w'.log.count (.otpSent userId number otp) =
      w.log.count (.otpSent userId number otp))
    (hcall : ∀ userId otp, call.storing userId otp = false) : CodesFresh w' (calls ++ others) := by
  refine h.kept (fun userId otp hotp => ?_) (fun userId number hnumber => ?_)
    (fun userId number otp _ => hused userId number otp) hsent hcall
  · rwa [hotps, hnow] at hotp
  · rwa [hpending, hnow] at hnumber

theorem codesFresh_storeOtp {userId phoneNumber otp : String} {input : AuthInput}
    (h : CodesFresh w (.phone (.storeOtp userId phoneNumber otp) :: others)) :
    CodesFresh ((PhoneStatement.storeOtp userId phoneNumber otp).exec input w).1
      (((PhoneStatement.storeOtp userId phoneNumber otp).exec input w).2.map .phone ++ others) := by
  intro user number code hcode hnumber
  by_cases hself : user = userId
  · subst hself
    -- the number is stored next
    refine .inr ⟨.phone (.storePending user phoneNumber otp), List.mem_cons_self .., ?_⟩
    rw [Store.eq_of_get_set hcode]
    simp [AuthStatement.storing]
  · have hbefore : w.phoneOtps.get w.now user = some code :=
      (Store.get_congr (Store.set_of_ne _ hself _ _) _).symm.trans hcode
    rcases h user number code hbefore hnumber with hlt | ⟨other, hmem, hstoring⟩
    · left
      dsimp only [PhoneStatement.exec, AuthWorld.record]
      rwa [List.count_cons_of_ne (by simp), List.count_cons_of_ne (by simp [Ne.symm hself])]
    · refine .inr ⟨other, List.mem_append_right _ ?_, hstoring⟩
      rcases List.mem_cons.mp hmem with rfl | hmem
      · cases hstoring
      · exact hmem

theorem codesFresh_storePending {userId phoneNumber otp : String} {input : AuthInput}
    (h : CodesFresh w (.phone (.storePending userId phoneNumber otp) :: others))
    (hpaid : w.log.count (.otpUsed userId phoneNumber otp) <
      w.log.count (.otpSent userId phoneNumber otp))
    (hapart : (PhoneStatement.storePending userId phoneNumber otp).PhonesApart w others) :
    CodesFresh ((PhoneStatement.storePending userId phoneNumber otp).exec input w).1 others := by
  intro user number code hcode hnumber
  by_cases hself : user = userId
  · subst hself
    cases Store.eq_of_get_set hnumber
    rcases hapart code hcode with rfl | hother
    · exact .inl hpaid
    · exact .inr hother
  · have hbefore : w.pendingPhones.get w.now user = some number :=
      (Store.get_congr (Store.set_of_ne _ hself _ _) _).symm.trans hnumber
    rcases h user number code hcode hbefore with hlt | ⟨other, hmem, hstoring⟩
    · exact .inl hlt
    · refine .inr ⟨other, ?_, hstoring⟩
      rcases List.mem_cons.mp hmem with rfl | hmem
      · simp [AuthStatement.storing, Ne.symm hself] at hstoring
      · exact hmem

theorem codesFresh_phone {next : PhoneStatement} (input : AuthInput)
    (h : CodesFresh w (.phone next :: others))
    (hpaid : ∀ userId number otp, (AuthStatement.phone next).reserved userId number otp = 1 →
      w.log.count (.otpUsed userId number otp) < w.log.count (.otpSent userId number otp))
    (hapart : next.PhonesApart w others) :
    CodesFresh (next.exec input w).1 ((next.exec input w).2.map .phone ++ others) := by
  have hrefused (hcall : ∀ userId otp, (AuthStatement.phone next).storing userId otp = false)
      (event : AuthEvent) (hused : ∀ userId number otp, event ≠ .otpUsed userId number otp)
      (hsent : ∀ userId number otp, event ≠ .otpSent userId number otp)
      (calls : List AuthStatement) (accounts : Table Account.id) :
      CodesFresh ({ w with accounts := accounts }.record event) (calls ++ others) :=
    h.aside rfl rfl rfl (fun _ _ _ => List.count_cons_of_ne (hused _ _ _))
      (fun _ _ _ => List.count_cons_of_ne (hsent _ _ _)) hcall
  have hsame (hcall : ∀ userId otp, (AuthStatement.phone next).storing userId otp = false)
      (calls : List AuthStatement) : CodesFresh w (calls ++ others) :=
    h.aside rfl rfl rfl (fun _ _ _ => rfl) (fun _ _ _ => rfl) hcall
  cases next with
  | sendPhoneVerificationOtp userId phoneNumber =>
      simp only [PhoneStatement.exec]
      split
      · exact hrefused (fun _ _ => rfl) _ (by simp) (by simp) [] w.accounts
      · exact hsame (fun _ _ => rfl) _
  | storeOtp userId phoneNumber otp => exact codesFresh_storeOtp h
  | storePending userId phoneNumber otp =>
      exact codesFresh_storePending h (hpaid _ _ _ (if_pos ⟨rfl, rfl, rfl⟩)) hapart
  | verifyPhone userId otp => exact hsame (fun _ _ => rfl) _
  | getPending userId otp storedOtp =>
      simp only [PhoneStatement.exec]
      split
      · exact hrefused (fun _ _ => rfl) _ (by simp) (by simp) [] w.accounts
      · split
        · exact hrefused (fun _ _ => rfl) _ (by simp) (by simp) [] w.accounts
        · exact hsame (fun _ _ => rfl) _
  | clearOtp userId otp pendingPhone =>
      refine h.kept (fun user code hcode => (Store.get_of_get_del hcode).2)
        (fun _ _ hnumber => hnumber) (fun user number code hcode => ?_) (fun _ _ _ => ?_)
        (fun _ _ => rfl)
      · have hother : user ≠ userId := (Store.get_of_get_del hcode).1
        exact List.count_cons_of_ne (by simp [Ne.symm hother])
      · exact List.count_cons_of_ne (by simp)
  | clearPending userId otp pendingPhone =>
      exact h.kept (fun _ _ hcode => hcode)
        (fun user number hnumber => (Store.get_of_get_del hnumber).2) (fun _ _ _ _ => rfl)
        (fun _ _ _ => rfl) (fun _ _ => rfl)
  | setPhone userId otp pendingPhone =>
      simp only [PhoneStatement.exec]
      split
      · exact hrefused (fun _ _ => rfl) _ (by simp) (by simp) [] w.accounts
      · exact hrefused (fun _ _ => rfl) _ (by simp) (by simp) [] _

/-- A step pays for the use of a code: one that is deleted was compared, and one that
is compared was sent for that number and is not used up. -/
theorem reserved_phone {next : PhoneStatement} (input : AuthInput)
    (hfresh : CodesFresh w (.phone next :: others)) (hapart : next.PhonesApart w others)
    (userId phoneNumber otp : String) {rest : Nat}
    (hrest : rest = (others.map (AuthStatement.reserved userId phoneNumber otp)).sum)
    (h : w.log.count (.otpUsed userId phoneNumber otp) +
        ((AuthStatement.phone next).reserved userId phoneNumber otp + rest) ≤
      w.log.count (.otpSent userId phoneNumber otp)) :
    (next.exec input w).1.log.count (.otpUsed userId phoneNumber otp) +
        ((((next.exec input w).2.map AuthStatement.phone).map
          (AuthStatement.reserved userId phoneNumber otp)).sum + rest) ≤
      (next.exec input w).1.log.count (.otpSent userId phoneNumber otp) := by
  have hidle : w.log.count (.otpUsed userId phoneNumber otp) + (0 + rest) ≤
      w.log.count (.otpSent userId phoneNumber otp) := by omega
  cases next with
  | sendPhoneVerificationOtp user number =>
      simp only [PhoneStatement.exec]
      split <;> exact hidle
  | storeOtp user number code =>
      simp only [PhoneStatement.exec, AuthWorld.record, AuthStatement.reserved, List.map_cons,
        List.map_nil, List.sum_cons, List.sum_nil, List.count_cons, beq_iff_eq, reduceCtorEq,
        AuthEvent.otpSent.injEq, if_false]
      omega
  | storePending user number code => exact hidle
  | verifyPhone user code => exact hidle
  | getPending user code storedOtp =>
      simp only [PhoneStatement.exec]
      split
      · exact hidle
      · rename_i hcode
        split
        · exact hidle
        · rename_i number hnumber
          by_cases hself : user = userId ∧ number = phoneNumber ∧ code = otp
          · obtain ⟨rfl, rfl, rfl⟩ := hself
            obtain ⟨hlive, hothers⟩ := hapart (not_not.mp hcode)
            have hpending := (Option.filter_eq_some_iff.mp hnumber).1
            have halone : rest = 0 := by
              refine hrest.trans (List.sum_eq_zero_iff_forall_eq_nat.mpr fun share hshare => ?_)
              obtain ⟨other, hmem, rfl⟩ := List.mem_map.mp hshare
              exact (hothers other hmem).2 number hpending
            rcases hfresh user number code hlive hpending with hlt | ⟨other, hmem, hstoring⟩
            · simp only [AuthStatement.reserved, List.map_cons, List.map_nil, List.sum_cons,
                List.sum_nil, and_self, if_true, halone]
              omega
            · rcases List.mem_cons.mp hmem with rfl | hmem
              · cases hstoring
              · rw [(hothers other hmem).1] at hstoring
                cases hstoring
          · simpa [AuthStatement.reserved, hself] using hidle
  | clearOtp user code number =>
      simp only [AuthStatement.reserved] at h
      simp only [PhoneStatement.exec, AuthWorld.record, AuthStatement.reserved, List.map_cons,
        List.map_nil, List.sum_cons, List.sum_nil, List.count_cons, beq_iff_eq, reduceCtorEq,
        AuthEvent.otpUsed.injEq, if_false]
      omega
  | clearPending user code number => exact hidle
  | setPhone user code number =>
      simp only [PhoneStatement.exec]
      split <;> exact hidle

/-- A number that is stored comes after a code that was deleted. -/
theorem redeeming_phone {next : PhoneStatement} (input : AuthInput)
    (userId phoneNumber otp : String) {rest : Nat}
    (h : w.log.count (.phoneVerified userId phoneNumber otp) +
        ((AuthStatement.phone next).redeeming userId phoneNumber otp + rest) ≤
      w.log.count (.otpUsed userId phoneNumber otp)) :
    (next.exec input w).1.log.count (.phoneVerified userId phoneNumber otp) +
        ((((next.exec input w).2.map AuthStatement.phone).map
          (AuthStatement.redeeming userId phoneNumber otp)).sum + rest) ≤
      (next.exec input w).1.log.count (.otpUsed userId phoneNumber otp) := by
  have hidle : w.log.count (.phoneVerified userId phoneNumber otp) + (0 + rest) ≤
      w.log.count (.otpUsed userId phoneNumber otp) := by omega
  cases next with
  | sendPhoneVerificationOtp user number =>
      simp only [PhoneStatement.exec]
      split <;> exact hidle
  | getPending user code storedOtp =>
      simp only [PhoneStatement.exec]
      repeat' split
      all_goals exact hidle
  | clearOtp user code number =>
      simp only [PhoneStatement.exec, AuthWorld.record, AuthStatement.redeeming, List.map_cons,
        List.map_nil, List.sum_cons, List.sum_nil, List.count_cons, beq_iff_eq, reduceCtorEq,
        AuthEvent.otpUsed.injEq, if_false]
      omega
  | clearPending user code number => exact h
  | setPhone user code number =>
      simp only [PhoneStatement.exec]
      split
      · exact hidle
      · simp only [AuthStatement.redeeming] at h
        simp only [AuthWorld.record, AuthWorld.updateAccount, List.map_nil, List.sum_nil,
          List.count_cons, beq_iff_eq, reduceCtorEq, AuthEvent.phoneVerified.injEq, if_false]
        omega
  | _ => exact hidle

end Steps

section Runs

variable (config : AuthConfig) (crypto : Crypto)

def PhonesApart (s : AuthPool) : AuthAction → Prop
  | .resume index input => ∀ call ∈ s.inflight[index]?,
      call.PhonesApart s.shared (s.inflight.eraseIdx index) input.thrown
  | .crash index => ∀ call ∈ s.inflight[index]?,
      call.PhonesApart s.shared (s.inflight.eraseIdx index) true
  | _ => True

instance (s : AuthPool) (a : AuthAction) : Decidable (PhonesApart s a) :=
  match a with
  | .resume index _ => inferInstanceAs (Decidable (∀ call ∈ s.inflight[index]?, _))
  | .crash index => inferInstanceAs (Decidable (∀ call ∈ s.inflight[index]?, _))
  | .begin _ | .external _ => inferInstanceAs (Decidable True)

structure PhoneInvariant (s : AuthPool) : Prop where
  fresh : CodesFresh s.shared s.inflight
  used : ∀ userId phoneNumber otp, s.shared.log.count (.otpUsed userId phoneNumber otp) +
    (s.inflight.map (AuthStatement.reserved userId phoneNumber otp)).sum ≤
      s.shared.log.count (.otpSent userId phoneNumber otp)
  verified : ∀ userId phoneNumber otp,
    s.shared.log.count (.phoneVerified userId phoneNumber otp) +
      (s.inflight.map (AuthStatement.redeeming userId phoneNumber otp)).sum ≤
        s.shared.log.count (.otpUsed userId phoneNumber otp)

theorem shares_of_group {call : AuthStatement} (h : call.group ≠ .phone)
    (userId phoneNumber otp : String) :
    call.storing userId otp = false ∧ call.reserved userId phoneNumber otp = 0 ∧
      call.redeeming userId phoneNumber otp = 0 := by
  cases call with
  | phone next => exact absurd rfl h
  | _ => exact ⟨rfl, rfl, rfl⟩

/-- A step of another group is not about codes. -/
theorem codesFresh_of_group {w : AuthWorld} {call : AuthStatement} {others : List AuthStatement}
    (input : AuthInput) (h : CodesFresh w (call :: others)) (hg : call.group ≠ .phone) :
    CodesFresh (call.resume config crypto input w).1
      ((call.resume config crypto input w).2 ++ others) := by
  have hframe : AuthFrame call.group w (call.resume config crypto input w).1 :=
    resume_frame input w call
  exact h.aside hframe.now (hframe.phoneOtps hg) (hframe.pendingPhones hg)
    (fun _ _ _ => hframe.count_log rfl hg) (fun _ _ _ => hframe.count_log rfl hg)
    (fun userId otp => (shares_of_group hg userId "" otp).1)

theorem codesFresh_resume {w : AuthWorld} {call : AuthStatement} {others : List AuthStatement}
    (input : AuthInput) (h : CodesFresh w (call :: others))
    (hpaid : ∀ userId number otp, call.reserved userId number otp = 1 →
      w.log.count (.otpUsed userId number otp) < w.log.count (.otpSent userId number otp))
    (hapart : call.PhonesApart w others input.thrown) :
    CodesFresh (call.resume config crypto input w).1
      ((call.resume config crypto input w).2 ++ others) := by
  cases call with
  | phone next =>
      simp only [AuthStatement.resume]
      cases hthrown : input.thrown with
      | true =>
          rw [hthrown] at hapart
          exact h.lost hpaid hapart
      | false =>
          rw [hthrown] at hapart
          exact codesFresh_phone input h hpaid hapart
  | _ => exact codesFresh_of_group config crypto input h (by simp [AuthStatement.group])

/-- What a step of another group does to a balance of phone events and calls. -/
theorem balance_of_group {w : AuthWorld} {call : AuthStatement} (input : AuthInput)
    (hg : call.group ≠ .phone) {spent budget : AuthEvent} (hspent : spent.group = some .phone)
    (hbudget : budget.group = some .phone) {share : AuthStatement → Nat}
    (hshare : ∀ other, other.group ≠ .phone → share other = 0) {rest : Nat}
    (h : w.log.count spent + (share call + rest) ≤ w.log.count budget) :
    (call.resume config crypto input w).1.log.count spent +
        (((call.resume config crypto input w).2.map share).sum + rest) ≤
      (call.resume config crypto input w).1.log.count budget := by
  have hframe : AuthFrame call.group w (call.resume config crypto input w).1 :=
    resume_frame input w call
  have hnone : ((call.resume config crypto input w).2.map share).sum = 0 :=
    shares_resume input w hg hshare
  rw [hframe.count_log hspent hg, hframe.count_log hbudget hg, hnone]
  omega

theorem reserved_resume {w : AuthWorld} {call : AuthStatement} {others : List AuthStatement}
    (input : AuthInput) (hfresh : CodesFresh w (call :: others))
    (hapart : call.PhonesApart w others input.thrown) (userId phoneNumber otp : String) {rest : Nat}
    (hrest : rest = (others.map (AuthStatement.reserved userId phoneNumber otp)).sum)
    (h : w.log.count (.otpUsed userId phoneNumber otp) +
        (call.reserved userId phoneNumber otp + rest) ≤
      w.log.count (.otpSent userId phoneNumber otp)) :
    (call.resume config crypto input w).1.log.count (.otpUsed userId phoneNumber otp) +
        (((call.resume config crypto input w).2.map
          (AuthStatement.reserved userId phoneNumber otp)).sum + rest) ≤
      (call.resume config crypto input w).1.log.count (.otpSent userId phoneNumber otp) := by
  cases call with
  | phone next =>
      simp only [AuthStatement.resume]
      cases hthrown : input.thrown with
      | true =>
          simp only [if_true, List.map_nil, List.sum_nil]
          omega
      | false =>
          rw [hthrown] at hapart
          exact reserved_phone input hfresh hapart userId phoneNumber otp hrest h
  | _ =>
      exact balance_of_group config crypto input (by simp [AuthStatement.group]) rfl rfl
        (fun other hg => (shares_of_group hg userId phoneNumber otp).2.1) h

theorem redeeming_resume {w : AuthWorld} {call : AuthStatement} (input : AuthInput)
    (userId phoneNumber otp : String) {rest : Nat}
    (h : w.log.count (.phoneVerified userId phoneNumber otp) +
        (call.redeeming userId phoneNumber otp + rest) ≤
      w.log.count (.otpUsed userId phoneNumber otp)) :
    (call.resume config crypto input w).1.log.count (.phoneVerified userId phoneNumber otp) +
        (((call.resume config crypto input w).2.map
          (AuthStatement.redeeming userId phoneNumber otp)).sum + rest) ≤
      (call.resume config crypto input w).1.log.count (.otpUsed userId phoneNumber otp) := by
  cases call with
  | phone next =>
      simp only [AuthStatement.resume]
      split
      · simp only [List.map_nil, List.sum_nil]
        omega
      · exact redeeming_phone input userId phoneNumber otp h
  | _ =>
      exact balance_of_group config crypto input (by simp [AuthStatement.group]) rfl rfl
        (fun other hg => (shares_of_group hg userId phoneNumber otp).2.2) h

theorem shares_of_starts {call : AuthStatement} (h : call.starts)
    (userId phoneNumber otp : String) :
    call.reserved userId phoneNumber otp = 0 ∧ call.redeeming userId phoneNumber otp = 0 := by
  cases call with
  | phone next =>
      cases next with
      | sendPhoneVerificationOtp user number => exact ⟨rfl, rfl⟩
      | verifyPhone user code => exact ⟨rfl, rfl⟩
      | _ => cases h
  | _ => exact ⟨rfl, rfl⟩

/-- A call that has a share in the requests for a code. -/
theorem PhoneInvariant.pays {s : AuthPool} (h : PhoneInvariant s) {call : AuthStatement}
    (hmem : call ∈ s.inflight) (userId number otp : String)
    (hshare : call.reserved userId number otp = 1) :
    s.shared.log.count (.otpUsed userId number otp) <
      s.shared.log.count (.otpSent userId number otp) := by
  have hpos : 0 < (s.inflight.map (AuthStatement.reserved userId number otp)).sum :=
    List.sum_pos_iff_exists_pos_nat.mpr ⟨_, List.mem_map_of_mem hmem, hshare ▸ Nat.one_pos⟩
  have hpaid := h.used userId number otp
  omega

theorem phoneInvariant_step (s : AuthPool) (a : AuthAction) (h : PhoneInvariant s)
    (hallowed : PhonesApart s a) : PhoneInvariant ((auth config crypto).step s a) := by
  refine ⟨?_, fun userId phoneNumber otp => ?_, fun userId phoneNumber otp => ?_⟩
  · rcases (auth config crypto).step_cases s a with ⟨call, -, -, hnext⟩ |
      ⟨index, input, call, pre, post, haction, hcall, -, herase, hnext⟩ |
      ⟨index, call, pre, post, haction, hcall, -, herase, hnext⟩ | ⟨event, -, hnext⟩ | ⟨hnext, -⟩
    · rw [hnext]
      intro userId number otp hotp hnumber
      refine (h.fresh userId number otp hotp hnumber).imp_right ?_
      rintro ⟨other, hmem, hstoring⟩
      exact ⟨other, List.mem_append_left _ hmem, hstoring⟩
    · rw [hnext]
      subst haction
      have hapart := hallowed call hcall
      rw [herase] at hapart
      have hafter := codesFresh_resume config crypto input (herase ▸ h.fresh.among hcall)
        (h.pays (List.mem_of_getElem? hcall)) hapart
      intro userId number otp hotp hnumber
      refine (hafter userId number otp hotp hnumber).imp_right ?_
      rintro ⟨other, hmem, hstoring⟩
      refine ⟨other, ?_, hstoring⟩
      simp only [List.mem_append] at hmem ⊢
      tauto
    · rw [hnext]
      subst haction
      have hapart := hallowed call hcall
      rw [herase] at hapart
      exact (herase ▸ h.fresh.among hcall).lost (h.pays (List.mem_of_getElem? hcall)) hapart
    · rw [hnext]
      intro userId number otp hotp hnumber
      exact h.fresh userId number otp (Store.get_of_later (Nat.le_add_right _ _) hotp)
        (Store.get_of_later (Nat.le_add_right _ _) hnumber)
    · rw [hnext]
      exact h.fresh
  · refine (auth config crypto).budget_step
      (fun w => w.log.count (.otpUsed userId phoneNumber otp))
      (fun w => w.log.count (.otpSent userId phoneNumber otp))
      (AuthStatement.reserved userId phoneNumber otp) a (h.used userId phoneNumber otp)
      (fun call hstart => (shares_of_starts hstart userId phoneNumber otp).1) ?_
      (fun _ => ⟨Nat.le_refl _, Nat.le_refl _⟩)
    intro index input call others haction hcall hothers hbefore
    subst haction
    exact reserved_resume config crypto input (h.fresh.among hcall) (hallowed call hcall) userId
      phoneNumber otp hothers hbefore
  · refine (auth config crypto).budget_step
      (fun w => w.log.count (.phoneVerified userId phoneNumber otp))
      (fun w => w.log.count (.otpUsed userId phoneNumber otp))
      (AuthStatement.redeeming userId phoneNumber otp) a (h.verified userId phoneNumber otp)
      (fun call hstart => (shares_of_starts hstart userId phoneNumber otp).2) ?_
      (fun _ => ⟨Nat.le_refl _, Nat.le_refl _⟩)
    intro index input call others _ _ _ hbefore
    exact redeeming_resume config crypto input userId phoneNumber otp hbefore

end Runs

end ChainSettle
