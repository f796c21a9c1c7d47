import ChainSettle.Uploads.Pinning

/-!
When new upload limits are in force. A pod asks for the limits again as soon as those in its cache
are a minute old, counted from when it had asked for them. So a minute after the last change every
pod admits files by the new limits.
-/

namespace ChainSettle

open Lib

variable (service : IpfsService)

section Past

/-- No pod has asked for its limits in the future. -/
def CachesPast (w : UploadWorld) : Prop :=
  ∀ pod limits at_, w.caches pod = some (limits, at_) → at_ ≤ w.now

def AskedPast (w : UploadWorld) : UploadCall → Prop
  | .readLimits _ _ _ start => start ≤ w.now
  | _ => True

variable {service}

theorem cached_cases {w : UploadWorld} {pod other : Nat} {limits found : IpfsUploadLimits}
    {at_ since : Nat} (h : (w.cache pod limits at_).caches other = some (found, since)) :
    (found = limits ∧ since = at_) ∨ w.caches other = some (found, since) := by
  change Function.update w.caches pod (some (limits, at_)) other = some (found, since) at h
  by_cases hother : other = pod
  · subst hother
    rw [Function.update_self] at h
    cases h
    exact .inl ⟨rfl, rfl⟩
  · rw [Function.update_of_ne hother] at h
    exact .inr h

variable (service) in
/-- The only statement that fills a cache is the one that reads the limits. -/
theorem caches_resume (input : UploadInput) (w : UploadWorld) (call : UploadCall) :
    (call.resume service input w).1.now = w.now ∧
      (call.resume service input w).1.appConfig = w.appConfig ∧
      ((call.resume service input w).1.caches = w.caches ∨
        ∃ number pod file start, call = .readLimits number pod file start ∧
          (call.resume service input w).1.caches =
            (w.cache pod (if input.dbFails then service.defaultUploadLimits
              else service.limitsOf w.appConfig) start).caches) := by
  cases call with
  | uploadFile pod file =>
      simp only [UploadCall.resume]
      cases UploadWorld.cachedLimits { w with uploads := w.uploads + 1 } pod with
      | none => exact ⟨rfl, rfl, .inl rfl⟩
      | some limits =>
          dsimp only
          obtain ⟨e, hworld⟩ := checkLimits_world service { w with uploads := w.uploads + 1 }
            w.uploads pod file limits
          rw [hworld]
          exact ⟨rfl, rfl, .inl rfl⟩
  | readLimits number pod file start =>
      simp only [UploadCall.resume]
      obtain ⟨e, hworld⟩ := checkLimits_world service (w.cache pod (if input.dbFails then
          service.defaultUploadLimits else service.limitsOf w.appConfig) start) number pod file
        (if input.dbFails then service.defaultUploadLimits else service.limitsOf w.appConfig)
      rw [hworld]
      exact ⟨rfl, rfl, .inr ⟨number, pod, file, start, rfl, rfl⟩⟩
  | dedup number pod file =>
      simp only [UploadCall.resume]
      cases input.redisError with
      | some message => exact ⟨rfl, rfl, .inl rfl⟩
      | none =>
          dsimp only
          cases truthyText (w.redis.get w.now (dedupKey (service.sha256 file.bytes))) with
          | some cid => exact ⟨rfl, rfl, .inl rfl⟩
          | none =>
              dsimp only
              split
              · exact ⟨rfl, rfl, .inl rfl⟩
              · split <;> exact ⟨rfl, rfl, .inl rfl⟩
  | post number file attempt => exact ⟨rfl, rfl, .inl rfl⟩
  | remember number file attempt cid =>
      simp only [UploadCall.resume]
      cases input.redisError <;> exact ⟨rfl, rfl, .inl rfl⟩

/-- The calls that a statement leaves behind ask now at the latest. -/
theorem askedPast_resume (input : UploadInput) (w : UploadWorld) (call : UploadCall) :
    ∀ next ∈ (call.resume service input w).2, AskedPast (call.resume service input w).1 next := by
  have hnow := (caches_resume service input w call).1
  obtain ⟨e, q, -, -, hstep, hleft⟩ := upload_resume service input w call
  rcases hleft with ⟨hnil, -⟩ | ⟨next, hone, -, hphase⟩
  · rw [hnil]
    exact List.forall_mem_nil _
  · rw [hone]
    refine List.forall_mem_singleton.mpr ?_
    cases next with
    | uploadFile pod file => trivial
    | dedup number pod file => trivial
    | post number file attempt => trivial
    | remember number file attempt cid => trivial
    | readLimits number pod file start =>
        cases call with
        | uploadFile pod' file' =>
            simp only [UploadCall.resume] at hone hnow ⊢
            cases hcached : UploadWorld.cachedLimits { w with uploads := w.uploads + 1 } pod' with
            | none =>
                rw [hcached] at hone
                obtain ⟨-, -, -, rfl⟩ := UploadCall.readLimits.inj (List.singleton_inj.mp hone)
                exact Nat.le_refl _
            | some limits =>
                rw [hcached] at hone
                dsimp only at hone
                rcases limits_cases service { w with uploads := w.uploads + 1 }
                    w.uploads pod' file' limits with ⟨err, hnext⟩ | ⟨-, hnext⟩
                · rw [hnext] at hone
                  cases hone
                · rw [hnext] at hone
                  cases hone
        | readLimits number' pod' file' start' =>
            subst hphase
            cases hstep
        | dedup number' pod' file' =>
            subst hphase
            cases hstep
        | post number' file' attempt' =>
            subst hphase
            cases hstep
        | remember number' file' attempt' cid' =>
            subst hphase
            cases hstep

theorem AskedPast.mono {w w' : UploadWorld} {call : UploadCall} (h : AskedPast w call)
    (hle : w.now ≤ w'.now) : AskedPast w' call := by
  cases call with
  | readLimits number pod file start => exact Nat.le_trans h hle
  | uploadFile pod file => trivial
  | dedup number pod file => trivial
  | post number file attempt => trivial
  | remember number file attempt cid => trivial

theorem cachesPast_step {s : UploadPool} (a : UploadAction)
    (h : CachesPast s.shared ∧ ∀ call ∈ s.inflight, AskedPast s.shared call) :
    CachesPast ((uploads service).step s a).shared ∧
      ∀ call ∈ ((uploads service).step s a).inflight,
        AskedPast ((uploads service).step s a).shared call := by
  refine (uploads service).keeps_step a h.1 h.2 ?_ ?_ ?_
  · intro call _ hstart
    cases call with
    | readLimits number pod file start => cases hstart
    | _ => trivial
  · intro index input call _ hcall
    obtain ⟨hnow, -, hcaches⟩ := caches_resume service input s.shared call
    refine ⟨fun pod limits at_ hcached => ?_, askedPast_resume input s.shared call,
      fun other hother => (h.2 other (List.mem_of_mem_eraseIdx hother)).mono (Nat.le_of_eq hnow.symm)⟩
    change (call.resume service input s.shared).1.caches pod = _ at hcached
    refine Nat.le_trans ?_ (Nat.le_of_eq hnow.symm)
    rcases hcaches with hsame | ⟨number, pod', file, start, rfl, hread⟩
    · rw [hsame] at hcached
      exact h.1 pod limits at_ hcached
    · rw [hread] at hcached
      rcases cached_cases hcached with ⟨-, rfl⟩ | hcached
      · exact h.2 _ (List.mem_of_getElem? hcall)
      · exact h.1 pod limits at_ hcached
  · intro edit
    have hle : s.shared.now ≤ (edit.apply s.shared).now := by
      cases edit with
      | elapse ms => exact Nat.le_add_right _ _
      | _ => exact Nat.le_refl _
    refine ⟨fun pod limits at_ hcached => ?_, fun other hother => (h.2 other hother).mono hle⟩
    cases edit with
    | recache pod' limits' =>
        rcases cached_cases hcached with ⟨-, rfl⟩ | hcached
        · exact Nat.le_refl _
        · exact h.1 pod limits at_ hcached
    | elapse ms => exact Nat.le_trans (h.1 pod limits at_ hcached) hle
    | upsert row => exact h.1 pod limits at_ hcached
    | checked pod' isHealthy => exact h.1 pod limits at_ hcached

theorem cachesPast_run (now : Nat) (appConfig : Option LimitsRow) (actions : List UploadAction) :
    CachesPast ((uploads service).run actions (freshUploads now appConfig)).shared := by
  refine (List.foldlRecOn actions (uploads service).step
    (motive := fun s => CachesPast s.shared ∧ ∀ call ∈ s.inflight, AskedPast s.shared call)
    ⟨?_, ?_⟩ fun _ hs a _ => cachesPast_step a hs).1
  · intro pod limits at_ hcached
    cases hcached
  · exact List.forall_mem_nil _

end Past

section Quiet

/-- The limits are not changed, and the database answers. -/
def LimitsQuiet : UploadAction → Prop
  | .external (.upsert _) | .external (.recache _ _) => False
  | .resume _ input => input.dbFails = false
  | _ => True

/-- The row has not changed since, and limits that were asked for since are those of the row. -/
structure InForce (row : Option LimitsRow) (since : Nat) (w : UploadWorld) : Prop where
  same : w.appConfig = row
  caches : ∀ pod limits at_, w.caches pod = some (limits, at_) →
    at_ ≤ since ∨ limits = service.limitsOf row

variable {service}

theorem inForce_step {row : Option LimitsRow} {since : Nat} {s : UploadPool} {a : UploadAction}
    (ha : LimitsQuiet a) (h : InForce service row since s.shared) :
    InForce service row since ((uploads service).step s a).shared := by
  by_contra hended
  rcases (uploads service).ended_by_step (Q := InForce service row since) a h hended with
    ⟨index, input, call, rfl, -, hnot⟩ | ⟨edit, rfl, hnot⟩
  · obtain ⟨-, hrow, hcaches⟩ := caches_resume service input s.shared call
    have hreads : input.dbFails = false := ha
    refine hnot ⟨hrow.trans h.same, fun pod limits at_ hcached => ?_⟩
    change (call.resume service input s.shared).1.caches pod = _ at hcached
    rcases hcaches with hsame | ⟨number, pod', file, start, -, hread⟩
    · rw [hsame] at hcached
      exact h.caches pod limits at_ hcached
    · rw [hread, hreads, if_neg Bool.false_ne_true, h.same] at hcached
      rcases cached_cases hcached with ⟨rfl, -⟩ | hcached
      · exact .inr rfl
      · exact h.caches pod limits at_ hcached
  · cases edit with
    | upsert row => exact ha
    | recache pod limits => exact ha
    | elapse ms => exact hnot ⟨h.same, h.caches⟩
    | checked pod isHealthy => exact hnot ⟨h.same, h.caches⟩

/-- The limits that a file is admitted by, a minute later. -/
theorem InForce.admitted {row : Option LimitsRow} {since : Nat} {w : UploadWorld}
    (h : InForce service row since w) (hlate : since + UPLOAD_LIMITS_CACHE_TTL_MS ≤ w.now)
    {input : UploadInput} (hreads : input.dbFails = false) {call : UploadCall} {number : Nat}
    {file : UploadFile} {limits : IpfsUploadLimits}
    (hlog : (call.resume service input w).1.log = (number, .admitted file limits) :: w.log) :
    limits = service.limitsOf row := by
  cases call with
  | uploadFile pod file' =>
      simp only [UploadCall.resume] at hlog
      cases hcached : UploadWorld.cachedLimits { w with uploads := w.uploads + 1 } pod with
      | none =>
          rw [hcached] at hlog
          cases hlog
      | some found =>
          rw [hcached] at hlog
          dsimp only at hlog
          obtain ⟨⟨limits', at_⟩, hentry, rfl⟩ := Option.map_eq_some_iff.mp hcached
          obtain ⟨hentry, hfresh⟩ := Option.filter_eq_some_iff.mp hentry
          have hage : w.now - at_ < UPLOAD_LIMITS_CACHE_TTL_MS := of_decide_eq_true hfresh
          have hcurrent : limits' = service.limitsOf row := by
            refine (h.caches pod limits' at_ hentry).resolve_left fun hle => ?_
            omega
          rcases limits_cases service { w with uploads := w.uploads + 1 } w.uploads pod
              file' limits' with ⟨err, hnext⟩ | ⟨-, hnext⟩
          · rw [hnext] at hlog
            cases hlog
          · rw [hnext] at hlog
            cases hlog
            exact hcurrent
  | readLimits number' pod file' start =>
      simp only [UploadCall.resume, hreads, Bool.false_eq_true, if_false, h.same] at hlog
      rcases limits_cases service (w.cache pod (service.limitsOf row) start) number' pod file'
          (service.limitsOf row) with ⟨err, hnext⟩ | ⟨-, hnext⟩
      · rw [hnext] at hlog
        cases hlog
      · rw [hnext] at hlog
        cases hlog
        rfl
  | dedup number' pod file' =>
      obtain ⟨e, q, hlog', -, hstep, -⟩ := upload_resume service input w
        (.dedup number' pod file')
      cases hlog'.symm.trans hlog
      cases hstep
  | post number' file' attempt =>
      obtain ⟨e, q, hlog', -, hstep, -⟩ := upload_resume service input w
        (.post number' file' attempt)
      cases hlog'.symm.trans hlog
      cases hstep
  | remember number' file' attempt cid =>
      obtain ⟨e, q, hlog', -, hstep, -⟩ := upload_resume service input w
        (.remember number' file' attempt cid)
      cases hlog'.symm.trans hlog
      cases hstep

/-- From a minute after the last change of the limits on, as long as the database answers, every
file is admitted by the limits that are stored, on whatever pod. -/
theorem limits_in_force (service : IpfsService) (now : Nat) (appConfig : Option LimitsRow)
    (early late : List UploadAction) (hquiet : ∀ a ∈ late, LimitsQuiet a) (a : UploadAction)
    (ha : LimitsQuiet a) (number : Nat) (file : UploadFile) (limits : IpfsUploadLimits) :
    let before := (uploads service).run early (freshUploads now appConfig)
    let last := (uploads service).run late before
    before.shared.now + UPLOAD_LIMITS_CACHE_TTL_MS ≤ last.shared.now →
      ((uploads service).step last a).shared.log =
        (number, .admitted file limits) :: last.shared.log →
      limits = service.limitsOf before.shared.appConfig := by
  intro before last hlate hlog
  have hbefore : InForce service before.shared.appConfig before.shared.now before.shared :=
    ⟨rfl, fun pod limits at_ hcached =>
      .inl (cachesPast_run now appConfig early pod limits at_ hcached)⟩
  have hlast : InForce service before.shared.appConfig before.shared.now last.shared :=
    List.foldlRecOn late (uploads service).step
      (motive := fun s => InForce service before.shared.appConfig before.shared.now s.shared)
      hbefore fun _ hs a hmem => inForce_step (hquiet a hmem) hs
  have hwritten : ((uploads service).step last a).shared.log ≠ last.shared.log := by
    rw [hlog]
    exact List.cons_ne_self _ _
  rcases (uploads service).ended_by_step (Q := fun w => w.log = last.shared.log) a rfl hwritten with
    ⟨index, input, call, rfl, hcall, -⟩ | ⟨edit, -, hnot⟩
  · rw [(uploads service).step_at input hcall] at hlog
    exact hlast.admitted hlate ha hlog
  · refine absurd ?_ hnot
    cases edit <;> rfl

/-- The limits are lowered, and a minute later a file is uploaded. -/
theorem lowered_limits_in_force :
    (⟨16, ["application/pdf"]⟩ : IpfsUploadLimits) =
      demoIpfs.limitsOf (some ⟨some 16, none⟩) := by
  have hquiet : ∀ a ∈ [PoolAction.begin (UploadCall.uploadFile 0 demoPdf),
      .external (UploadEdit.elapse 60000), .resume 0 demoInput], LimitsQuiet a := by
    intro a ha
    rcases List.mem_cons.mp ha with rfl | ha
    · trivial
    rcases List.mem_cons.mp ha with rfl | ha
    · trivial
    rcases List.mem_cons.mp ha with rfl | ha
    · exact rfl
    · cases ha
  exact limits_in_force demoIpfs 0 none [.external (.upsert ⟨some 16, none⟩)] _ hquiet
    (.resume 0 demoInput) rfl 0 demoPdf _ (by decide) (by rfl)

end Quiet

end ChainSettle
