import ChainSettle.Auth.Steps

/-!
The life of an API key. `rotate` and `revoke` check `revokedAt` on a row they read
first and write it by its id afterwards, and a key is accepted by its `revokedAt` and
its `gracePeriodEndsAt` together. So a rotation that overtakes a revocation gives the
key a grace period again, and two rotations of one key leave two successors.
-/

namespace ChainSettle

open Lib

section Keys

/-- Revoked, and past its grace period. -/
def ApiKey.dead (now : Nat) (key : ApiKey) : Bool :=
  key.revokedAt.isSome && !key.inGracePeriod now

theorem ApiKey.dead_mono {key : ApiKey} {now later : Nat} (h : key.dead now) (hle : now ≤ later) :
    key.dead later := by
  unfold ApiKey.dead ApiKey.inGracePeriod at h ⊢
  cases hgrace : key.gracePeriodEndsAt with
  | none => simpa [hgrace] using h
  | some instant =>
      simp only [hgrace, Option.any_some, Bool.and_eq_true, Bool.not_eq_true',
        decide_eq_false_iff_not, not_lt] at h ⊢
      exact ⟨h.1, h.2.trans hle⟩

/-- A dead key is not accepted. -/
theorem validate_of_dead {w : AuthWorld} {crypto : Crypto} {rawKey : String} {key : ApiKey}
    (hfound : w.apiKeys.findHash (crypto.sha256 rawKey).text = some key) (hdead : key.dead w.now) :
    ∃ error, w.validateApiKey crypto (some rawKey) = .error error := by
  unfold AuthWorld.validateApiKey
  split
  · exact ⟨_, rfl⟩
  · rename_i raw hraw
    have hsame : raw = rawKey := by
      obtain ⟨hsome, -⟩ := Option.filter_eq_some_iff.mp hraw
      cases hsome
      rfl
    have hrefused : (key.revokedAt.isSome && !key.inGracePeriod w.now) = true := hdead
    rw [hsame, hfound]
    exact ⟨_, if_pos hrefused⟩

/-- The keys that have ended: revoked, or rotated without a grace period. -/
def AuthEvent.ended? : AuthEvent → Option String
  | .keyRevoked id => some id
  | .keyRotated id _ none => some id
  | _ => none

def AuthWorld.ended (w : AuthWorld) : List String := w.log.filterMap AuthEvent.ended?

def ApiKeys.successors (keys : ApiKeys) (id : String) : List ApiKey :=
  keys.rows.filter fun key => key.rotatedFromId = some id

structure KeysSettled (w : AuthWorld) : Prop where
  dead : ∀ id ∈ w.ended, ∃ key, w.apiKeys.find? id = some key ∧ key.dead w.now
  /-- a key with a successor is revoked -/
  rotated : ∀ key ∈ w.apiKeys.rows, ∀ id, key.rotatedFromId = some id →
    ∃ old, w.apiKeys.find? id = some old ∧ old.revokedAt.isSome
  single : ∀ id, (w.apiKeys.successors id).length ≤ 1

/-- A rotation writes to a key that is not revoked, or without a grace period to one
that has no successor; a revocation, to a key that is in no grace period. -/
def ApiKeyStatement.KeysApart (w : AuthWorld) : ApiKeyStatement → Prop
  | .rotateTransaction existing _ gracePeriodEndsAt =>
      ∀ key ∈ w.apiKeys.find? existing.id, key.revokedAt = none ∨
        (gracePeriodEndsAt = none ∧ w.apiKeys.successors existing.id = [])
  | .revokeUpdate id _ => ∀ key ∈ w.apiKeys.find? id, key.inGracePeriod w.now = false
  | _ => True

instance (w : AuthWorld) (next : ApiKeyStatement) : Decidable (next.KeysApart w) :=
  match next with
  | .rotateTransaction existing _ _ =>
      inferInstanceAs (Decidable (∀ key ∈ w.apiKeys.find? existing.id, _))
  | .revokeUpdate id _ => inferInstanceAs (Decidable (∀ key ∈ w.apiKeys.find? id, _))
  | .create .. | .rotate .. | .revoke .. => inferInstanceAs (Decidable True)

def AuthStatement.KeysApart (w : AuthWorld) : AuthStatement → Prop
  | .apiKey next => next.KeysApart w
  | _ => True

instance (w : AuthWorld) (call : AuthStatement) : Decidable (call.KeysApart w) :=
  match call with
  | .apiKey next => inferInstanceAs (Decidable (next.KeysApart w))
  | .login _ | .logout _ | .account _ | .email _ | .phone _ => inferInstanceAs (Decidable True)

def KeysApart (s : AuthPool) : AuthAction → Prop
  | .resume index input => input.thrown ∨ ∀ call ∈ s.inflight[index]?, call.KeysApart s.shared
  | _ => True

instance (s : AuthPool) (a : AuthAction) : Decidable (KeysApart s a) :=
  match a with
  | .resume .. => inferInstanceAs (Decidable (_ ∨ _))
  | .begin _ | .crash _ | .external _ => inferInstanceAs (Decidable True)

/-- The key that a call is about to write exists. -/
def WritesStored (w : AuthWorld) : AuthStatement → Prop
  | .apiKey (.rotateTransaction existing _ _) => (w.apiKeys.find? existing.id).isSome
  | .apiKey (.revokeUpdate id _) => (w.apiKeys.find? id).isSome
  | _ => True

end Keys

section Steps

variable {w w' : AuthWorld}

/-- Rows are rewritten, none of them revived. -/
theorem KeysSettled.map (h : KeysSettled w) {f : ApiKey → ApiKey}
    (hrows : w'.apiKeys.rows = w.apiKeys.rows.map f) (hid : ∀ key, (f key).id = key.id)
    (hfrom : ∀ key, (f key).rotatedFromId = key.rotatedFromId)
    (hrevoked : ∀ key, key.revokedAt.isSome → (f key).revokedAt.isSome)
    (hdead : ∀ id ∈ w'.ended, ∀ key, w.apiKeys.find? id = some key → (f key).dead w'.now)
    (hstored : ∀ id ∈ w'.ended, (w.apiKeys.find? id).isSome) : KeysSettled w' := by
  have hfind := Table.find?_of_map hrows hid
  refine ⟨fun id hended => ?_, fun key hmem id hid' => ?_, fun id => ?_⟩
  · obtain ⟨key, hkey⟩ := Option.isSome_iff_exists.mp (hstored id hended)
    exact ⟨f key, by rw [hfind, hkey]; rfl, hdead id hended key hkey⟩
  · rw [hrows] at hmem
    obtain ⟨before, hbefore, rfl⟩ := List.mem_map.mp hmem
    obtain ⟨old, hold, holdRevoked⟩ := h.rotated before hbefore id ((hfrom before).symm.trans hid')
    exact ⟨f old, by rw [hfind, hold]; rfl, hrevoked old holdRevoked⟩
  · have hsame : w'.apiKeys.successors id = (w.apiKeys.successors id).map f := by
      unfold ApiKeys.successors
      rw [hrows, List.filter_map]
      congr 2
      funext key
      simp [hfrom]
    rw [hsame, List.length_map]
    exact h.single id

/-- One row is revoked, and stays dead if it was. -/
theorem KeysSettled.update (h : KeysSettled w) (id : String) {f : ApiKey → ApiKey}
    (hf : ∀ key, (f key).id = key.id ∧ (f key).keyHash = key.keyHash)
    (hfrom : ∀ key, (f key).rotatedFromId = key.rotatedFromId)
    (hrevoked : ∀ key, (f key).revokedAt.isSome)
    (hdead : ∀ key, w.apiKeys.find? id = some key → key.dead w.now → (f key).dead w.now) :
    KeysSettled { w with apiKeys := w.apiKeys.update id f hf } := by
  have hupdated (key : ApiKey) : (if key.id = id then f key else key) = key ∨
      key.id = id ∧ (if key.id = id then f key else key) = f key := by
    by_cases hid : key.id = id
    · exact .inr ⟨hid, if_pos hid⟩
    · exact .inl (if_neg hid)
  refine h.map (f := fun key => if key.id = id then f key else key) rfl ?_ ?_ ?_ ?_ ?_
  · intro key
    rcases hupdated key with hkey | ⟨-, hkey⟩
    · exact congrArg _ hkey
    · exact (congrArg _ hkey).trans (hf key).1
  · intro key
    rcases hupdated key with hkey | ⟨-, hkey⟩
    · exact congrArg _ hkey
    · exact (congrArg _ hkey).trans (hfrom key)
  · intro key hbefore
    rcases hupdated key with hkey | ⟨-, hkey⟩
    · rwa [hkey]
    · rw [hkey]
      exact hrevoked key
  · intro other hended key hkey
    obtain ⟨row, hrow, hrowDead⟩ := h.dead other hended
    rw [hkey] at hrow
    cases hrow
    rcases hupdated key with hkey' | ⟨hid, hkey'⟩
    · rwa [hkey']
    · rw [hkey']
      have hother : other = id := (Table.key_of_find? hkey).symm.trans hid
      exact hdead key (hother ▸ hkey) hrowDead
  · intro other hended
    obtain ⟨row, hrow, -⟩ := h.dead other hended
    exact Option.isSome_iff_exists.mpr ⟨row, hrow⟩

theorem ApiKeys.rows_create {keys keys' : ApiKeys} {key : ApiKey}
    (h : keys.create key = some keys') :
    keys'.rows = keys.rows ++ [key] ∧ keys.find? key.id = none := by
  unfold ApiKeys.create at h
  split at h
  · rename_i hfree
    cases h
    exact ⟨rfl, Table.find?_eq_none_iff.mpr hfree.1⟩
  · cases h

/-- A key is appended, as the first successor of a revoked key if it is one. -/
theorem KeysSettled.create (h : KeysSettled w) {key : ApiKey}
    (hcreate : w.apiKeys.create key = some w'.apiKeys) (hnow : w'.now = w.now)
    (hended : w'.ended = w.ended)
    (hfrom : ∀ id, key.rotatedFromId = some id →
      w.apiKeys.successors id = [] ∧ ∃ old, w.apiKeys.find? id = some old ∧ old.revokedAt.isSome) :
    KeysSettled w' := by
  obtain ⟨hrows, -⟩ := ApiKeys.rows_create hcreate
  have hfind {id : String} {old : ApiKey} (hold : w.apiKeys.find? id = some old) :
      w'.apiKeys.find? id = some old := by
    rw [Table.find?, hrows, List.find?_append, show w.apiKeys.rows.find? _ = some old from hold]
    rfl
  refine ⟨fun id hmem => ?_, fun other hmem id hid => ?_, fun id => ?_⟩
  · obtain ⟨old, hold, hdead⟩ := h.dead id (hended ▸ hmem)
    exact ⟨old, hfind hold, hnow ▸ hdead⟩
  · rw [hrows, List.mem_append, List.mem_singleton] at hmem
    rcases hmem with hmem | rfl
    · obtain ⟨old, hold, hrevoked⟩ := h.rotated other hmem id hid
      exact ⟨old, hfind hold, hrevoked⟩
    · obtain ⟨-, old, hold, hrevoked⟩ := hfrom id hid
      exact ⟨old, hfind hold, hrevoked⟩
  · have hsplit : w'.apiKeys.successors id =
        w.apiKeys.successors id ++ [key].filter fun key => key.rotatedFromId = some id := by
      unfold ApiKeys.successors
      rw [hrows, List.filter_append]
    rw [hsplit, List.filter_singleton]
    by_cases hid : key.rotatedFromId = some id
    · rw [(hfrom id hid).1]
      simp [hid]
    · simpa [hid] using h.single id

/-- A step that has nothing to do with keys. -/
theorem KeysSettled.aside (h : KeysSettled w) (hkeys : w'.apiKeys = w.apiKeys)
    (hnow : w.now ≤ w'.now) (hended : w'.ended = w.ended) : KeysSettled w' := by
  refine ⟨fun id hmem => ?_, hkeys ▸ h.rotated, hkeys ▸ h.single⟩
  obtain ⟨key, hkey, hdead⟩ := h.dead id (hended ▸ hmem)
  exact ⟨key, hkeys ▸ hkey, ApiKey.dead_mono hdead hnow⟩

variable {crypto : Crypto} {input : AuthInput}

/-- An event is recorded; a key that it ends is dead. -/
theorem KeysSettled.record (h : KeysSettled w) (event : AuthEvent)
    (hended : ∀ id, event.ended? = some id →
      ∃ key, w.apiKeys.find? id = some key ∧ key.dead w.now) : KeysSettled (w.record event) := by
  refine ⟨fun id hmem => ?_, h.rotated, h.single⟩
  rcases List.mem_filterMap.mp hmem with ⟨other, hother, hid⟩
  rcases List.mem_cons.mp hother with rfl | hother
  · exact hended id hid
  · exact h.dead id (List.mem_filterMap.mpr ⟨other, hother, hid⟩)

theorem KeysSettled.refused {κ : Type} (h : KeysSettled w) (status : Nat) (message : String) :
    KeysSettled (w.refuse status message : AuthWorld × List κ).1 :=
  h.record _ fun _ hid => nomatch hid

/-- A key that is not revoked has no successor and has not ended. -/
theorem KeysSettled.unrevoked (h : KeysSettled w) {id : String} {key : ApiKey}
    (hkey : w.apiKeys.find? id = some key) (hlive : key.revokedAt = none) :
    w.apiKeys.successors id = [] ∧ id ∉ w.ended := by
  refine ⟨List.filter_eq_nil_iff.mpr fun other hmem hfrom => ?_, fun hmem => ?_⟩
  · obtain ⟨old, hold, hrevoked⟩ := h.rotated other hmem id (of_decide_eq_true hfrom)
    rw [hkey] at hold
    cases hold
    rw [hlive] at hrevoked
    cases hrevoked
  · obtain ⟨old, hold, hdead⟩ := h.dead id hmem
    rw [hkey] at hold
    cases hold
    rw [ApiKey.dead, hlive] at hdead
    cases hdead

theorem ApiKeys.find?_update {keys : ApiKeys} {id : String} {key : ApiKey} (f : ApiKey → ApiKey)
    (hf : ∀ key, (f key).id = key.id ∧ (f key).keyHash = key.keyHash)
    (h : keys.find? id = some key) : (keys.update id f hf).find? id = some (f key) := by
  refine (Table.find?_modify_self keys.toTable id f fun key => (hf key).1).trans ?_
  rw [h]
  rfl

theorem successors_update {keys : ApiKeys} {id : String} {f : ApiKey → ApiKey}
    (hf : ∀ key, (f key).id = key.id ∧ (f key).keyHash = key.keyHash)
    (hfrom : ∀ key, (f key).rotatedFromId = key.rotatedFromId) {other : String}
    (h : keys.successors other = []) : (keys.update id f hf).successors other = [] := by
  refine List.filter_eq_nil_iff.mpr fun key hmem => ?_
  obtain ⟨before, hbefore, rfl⟩ := List.mem_map.mp hmem
  have hnot := List.filter_eq_nil_iff.mp h before hbefore
  split
  · rwa [hfrom]
  · exact hnot

theorem keysSettled_rotate (h : KeysSettled w) {existing : ApiKey} {now : Nat}
    {gracePeriodEndsAt : Option Nat} (hstored : (w.apiKeys.find? existing.id).isSome)
    (hapart : (ApiKeyStatement.rotateTransaction existing now gracePeriodEndsAt).KeysApart w) :
    KeysSettled ((ApiKeyStatement.rotateTransaction existing now gracePeriodEndsAt).exec crypto
      input w).1 := by
  obtain ⟨row, hrow⟩ := Option.isSome_iff_exists.mp hstored
  have hold : (w.apiKeys.update existing.id (ApiKey.rotated now gracePeriodEndsAt)
      fun _ => ⟨rfl, rfl⟩).find? existing.id = some (row.rotated now gracePeriodEndsAt) :=
    ApiKeys.find?_update _ _ hrow
  have hnone : w.apiKeys.successors existing.id = [] := by
    rcases hapart row hrow with hlive | ⟨-, hnone⟩
    · exact (h.unrevoked hrow hlive).1
    · exact hnone
  simp only [ApiKeyStatement.exec]
  split
  · exact h.refused _ _
  · rename_i keys hcreate
    have hupdated := h.update existing.id (f := ApiKey.rotated now gracePeriodEndsAt)
      (fun _ => ⟨rfl, rfl⟩) (fun _ => rfl) (fun _ => rfl) (fun key hkey hdead => by
        rcases hapart key hkey with hlive | ⟨rfl, -⟩
        · rw [ApiKey.dead, hlive] at hdead
          cases hdead
        · rfl)
    have hcreated : KeysSettled { w with apiKeys := keys } := by
      refine hupdated.create hcreate rfl rfl fun id hid => ?_
      cases hid
      exact ⟨successors_update (f := ApiKey.rotated now gracePeriodEndsAt) (fun _ => ⟨rfl, rfl⟩)
        (fun _ => rfl) hnone, _, hold, rfl⟩
    refine hcreated.record _ fun id hid => ?_
    -- without a grace period the old key is dead from now on
    cases gracePeriodEndsAt with
    | some instant => cases hid
    | none =>
        cases hid
        obtain ⟨hrows, -⟩ := ApiKeys.rows_create hcreate
        refine ⟨row.rotated now none, ?_, rfl⟩
        rw [Table.find?, hrows, List.find?_append,
          show (w.apiKeys.update existing.id (ApiKey.rotated now none) _).rows.find? _ = _
            from hold]
        rfl

theorem keysSettled_revoke (h : KeysSettled w) {id : String} {now : Nat}
    (hstored : (w.apiKeys.find? id).isSome)
    (hapart : (ApiKeyStatement.revokeUpdate id now).KeysApart w) :
    KeysSettled ((ApiKeyStatement.revokeUpdate id now).exec crypto input w).1 := by
  obtain ⟨row, hrow⟩ := Option.isSome_iff_exists.mp hstored
  have hgrace (key : ApiKey) (hkey : w.apiKeys.find? id = some key) :
      (key.revoked now).dead w.now := by
    have hover : (key.revoked now).inGracePeriod w.now = false := hapart key hkey
    rw [ApiKey.dead, hover]
    rfl
  have hupdated := h.update id (f := ApiKey.revoked now) (fun _ => ⟨rfl, rfl⟩)
    (fun _ => rfl) (fun _ => rfl) (fun key hkey _ => hgrace key hkey)
  refine hupdated.record _ fun other hother => ?_
  obtain rfl : id = other := Option.some.inj hother
  exact ⟨row.revoked now, ApiKeys.find?_update (ApiKey.revoked now) (fun _ => ⟨rfl, rfl⟩) hrow,
    hgrace row hrow⟩

/-- A forced logout revokes keys that are not. -/
theorem keysSettled_sweep (h : KeysSettled w) (config : AuthConfig) (input : AuthInput)
    (logout : ForceLogout) :
    KeysSettled ((LogoutStatement.sweep logout).exec config input w).1 := by
  let p : ApiKey → Bool := fun key => key.userId = logout.targetUserId && key.revokedAt.isNone
  refine h.map (f := fun key => if p key then key.swept w.now else key) rfl ?_ ?_ ?_ ?_ ?_
  · intro key
    split <;> rfl
  · intro key
    split <;> rfl
  · intro key hrevoked
    split
    · rfl
    · exact hrevoked
  · intro id hended key hkey
    obtain ⟨row, hrow, hdead⟩ := h.dead id hended
    rw [hkey] at hrow
    cases hrow
    split
    · simp [ApiKey.swept, ApiKey.dead, ApiKey.inGracePeriod]
    · exact hdead
  · intro id hended
    obtain ⟨row, hrow, -⟩ := h.dead id hended
    exact Option.isSome_iff_exists.mpr ⟨row, hrow⟩

theorem keysSettled_create (h : KeysSettled w) (userId name : String) (scopes : List String)
    (expiresAt : Option Nat) :
    KeysSettled ((ApiKeyStatement.create userId name scopes expiresAt).exec crypto input w).1 := by
  simp only [ApiKeyStatement.exec]
  split
  · exact h.refused _ _
  · rename_i keys hcreate
    obtain ⟨account, -, hkeys⟩ := Option.bind_eq_some_iff.mp hcreate
    have hcreated : KeysSettled { w with apiKeys := keys } :=
      h.create hkeys rfl rfl fun _ hid => by cases hid
    exact hcreated.record _ fun _ hid => by cases hid

/-- Statements other than these two are harmless. -/
theorem keysSettled_apiKey (h : KeysSettled w) {next : ApiKeyStatement}
    (hstored : WritesStored w (.apiKey next)) (hapart : next.KeysApart w) :
    KeysSettled (next.exec crypto input w).1 := by
  cases next with
  | create userId name scopes expiresAt => exact keysSettled_create h userId name scopes expiresAt
  | rotate userId id gracePeriodSeconds =>
      simp only [ApiKeyStatement.exec]
      split
      · exact h.refused _ _
      · split
        · exact h.refused _ _
        · exact h
  | rotateTransaction existing now gracePeriodEndsAt => exact keysSettled_rotate h hstored hapart
  | revoke userId id =>
      simp only [ApiKeyStatement.exec]
      split
      · exact h.refused _ _
      · split
        · exact h.refused _ _
        · exact h
  | revokeUpdate id now => exact keysSettled_revoke h hstored hapart

theorem ended_frame {g : AuthGroup} (h : AuthFrame g w w') (hg : g ≠ .apiKey) :
    w'.ended = w.ended := by
  refine h.filterMap_log hg fun event hevent => ?_
  cases event with
  | keyRevoked id => exact absurd rfl hevent
  | keyRotated id successor gracePeriodEndsAt => exact absurd rfl hevent
  | _ => rfl

/-- Keys are never deleted. -/
def KeysKept (w w' : AuthWorld) : Prop :=
  ∀ id, (w.apiKeys.find? id).isSome → (w'.apiKeys.find? id).isSome

theorem keysKept_of_map {f : ApiKey → ApiKey} (hrows : w'.apiKeys.rows = w.apiKeys.rows.map f)
    (hid : ∀ key, (f key).id = key.id) : KeysKept w w' := by
  intro id hstored
  rwa [Table.find?_of_map hrows hid, Option.isSome_map]

theorem keysKept_of_create {keys : ApiKeys} {key : ApiKey}
    (h : keys.create key = some w'.apiKeys) (hkeys : ∀ id, (w.apiKeys.find? id).isSome →
      (keys.find? id).isSome) : KeysKept w w' := by
  intro id hstored
  obtain ⟨hrows, -⟩ := ApiKeys.rows_create h
  obtain ⟨other, hother⟩ := Option.isSome_iff_exists.mp (hkeys id hstored)
  rw [Table.find?, hrows, List.find?_append, show keys.rows.find? _ = some other from hother]
  rfl

theorem keysKept_apiKey (crypto : Crypto) (input : AuthInput) (w : AuthWorld)
    (next : ApiKeyStatement) : KeysKept w (next.exec crypto input w).1 := by
  cases next with
  | create userId name scopes expiresAt =>
      simp only [ApiKeyStatement.exec]
      split
      · exact fun _ h => h
      · rename_i keys hcreate
        obtain ⟨account, -, hkeys⟩ := Option.bind_eq_some_iff.mp hcreate
        have hkept : KeysKept w { w with apiKeys := keys } :=
          keysKept_of_create hkeys fun _ h => h
        exact hkept
  | rotate userId id gracePeriodSeconds =>
      simp only [ApiKeyStatement.exec]
      split
      · exact fun _ h => h
      · split <;> exact fun _ h => h
  | rotateTransaction existing now gracePeriodEndsAt =>
      simp only [ApiKeyStatement.exec]
      split
      · exact fun _ h => h
      · rename_i keys hcreate
        suffices hkept : KeysKept w { w with apiKeys := keys } from hkept
        refine keysKept_of_create hcreate fun id hstored => ?_
        rw [show (w.apiKeys.update existing.id _ _).find? id = _ from
          Table.find?_of_map rfl (fun key => by split <;> rfl) id, Option.isSome_map]
        exact hstored
  | revoke userId id =>
      simp only [ApiKeyStatement.exec]
      split
      · exact fun _ h => h
      · split <;> exact fun _ h => h
  | revokeUpdate id now =>
      refine keysKept_of_map rfl fun key => ?_
      split <;> rfl

theorem keysKept_logout (config : AuthConfig) (input : AuthInput) (w : AuthWorld)
    (next : LogoutStatement) : KeysKept w (next.exec config input w).1 := by
  cases next with
  | sweep logout =>
      refine keysKept_of_map rfl fun key => ?_
      split <;> rfl
  | _ =>
      intro id hstored
      rwa [apiKeys_logout config input w (by intro logout h; cases h)]

variable (config : AuthConfig) (crypto) (input)

theorem keysKept_resume (w : AuthWorld) (call : AuthStatement) :
    KeysKept w (call.resume config crypto input w).1 := by
  let Kept (r : AuthWorld × List AuthStatement) : Prop := KeysKept w r.1
  have hlost : KeysKept w w := fun _ h => h
  have haside (hkey : call.group ≠ .apiKey) (hlogout : call.group ≠ .logout) :
      KeysKept w (call.resume config crypto input w).1 := by
    intro id hstored
    rwa [(resume_frame input w call).apiKeys hkey hlogout]
  cases call with
  | apiKey next =>
      exact thrown_or (P := Kept) hlost fun _ => keysKept_apiKey crypto input w next
  | logout next =>
      exact thrown_or_logout (P := Kept) input w next hlost
        fun _ => keysKept_logout config input w next
  | _ => exact haside (by simp [AuthStatement.group]) (by simp [AuthStatement.group])

theorem WritesStored.kept {call : AuthStatement} (h : WritesStored w call) (hkept : KeysKept w w') :
    WritesStored w' call := by
  cases call with
  | apiKey next =>
      cases next with
      | rotateTransaction existing now gracePeriodEndsAt => exact hkept _ h
      | revokeUpdate id now => exact hkept _ h
      | _ => trivial
  | _ => trivial

theorem writesStored_of_group {call : AuthStatement} (h : call.group ≠ .apiKey) :
    WritesStored w call := by
  cases call with
  | apiKey next => exact absurd rfl h
  | _ => trivial

/-- A write follows a read of its row. -/
theorem writesStored_apiKey (w : AuthWorld) (next : ApiKeyStatement) :
    ∀ call ∈ (next.exec crypto input w).2, WritesStored w (.apiKey call) := by
  cases next with
  | create userId name scopes expiresAt =>
      simp only [ApiKeyStatement.exec]
      split <;> exact List.forall_mem_nil _
  | rotate userId id gracePeriodSeconds =>
      simp only [ApiKeyStatement.exec]
      split
      · exact List.forall_mem_nil _
      · rename_i existing hfound
        split
        · exact List.forall_mem_nil _
        · obtain ⟨hfind, -⟩ := Option.filter_eq_some_iff.mp hfound
          have hid : existing.id = id := Table.key_of_find? hfind
          refine List.forall_mem_singleton.mpr ?_
          exact Option.isSome_iff_exists.mpr ⟨existing, hid ▸ hfind⟩
  | rotateTransaction existing now gracePeriodEndsAt =>
      simp only [ApiKeyStatement.exec]
      split <;> exact List.forall_mem_nil _
  | revoke userId id =>
      simp only [ApiKeyStatement.exec]
      split
      · exact List.forall_mem_nil _
      · rename_i key hfound
        split
        · exact List.forall_mem_nil _
        · obtain ⟨hfind, -⟩ := Option.filter_eq_some_iff.mp hfound
          refine List.forall_mem_singleton.mpr ?_
          exact Option.isSome_iff_exists.mpr ⟨key, hfind⟩
  | revokeUpdate id now => exact List.forall_mem_nil _

theorem writesStored_resume (w : AuthWorld) (call : AuthStatement) :
    ∀ next ∈ (call.resume config crypto input w).2,
      WritesStored (call.resume config crypto input w).1 next := by
  intro next hnext
  refine WritesStored.kept ?_ (keysKept_resume crypto input config w call)
  cases call with
  | apiKey statement =>
      simp only [AuthStatement.resume] at hnext
      split at hnext
      · cases hnext
      · obtain ⟨later, hlater, rfl⟩ := List.mem_map.mp hnext
        exact writesStored_apiKey crypto input w statement later hlater
  | _ =>
      refine writesStored_of_group ?_
      rw [group_resume input w hnext]
      simp [AuthStatement.group]

theorem keysSettled_resume (h : KeysSettled w) {call : AuthStatement}
    (hstored : WritesStored w call) (hapart : input.thrown ∨ call.KeysApart w) :
    KeysSettled (call.resume config crypto input w).1 := by
  have haside (hkey : call.group ≠ .apiKey)
      (hkeys : (call.resume config crypto input w).1.apiKeys = w.apiKeys) :
      KeysSettled (call.resume config crypto input w).1 :=
    h.aside hkeys (resume_frame input w call).now.ge (ended_frame (resume_frame input w call) hkey)
  cases call with
  | apiKey next =>
      exact thrown_or (P := fun r => KeysSettled r.1) h
        fun hthrown => keysSettled_apiKey h hstored (hapart.resolve_left hthrown)
  | logout next =>
      cases next with
      | sweep logout =>
          exact thrown_or (P := fun r => KeysSettled r.1) h
            fun _ => keysSettled_sweep h config input logout
      | _ =>
          refine haside (by simp [AuthStatement.group]) ?_
          exact thrown_or_logout (P := fun r => r.1.apiKeys = w.apiKeys) input w _ rfl
            fun _ => apiKeys_logout config input w (by intro logout h; cases h)
  | _ =>
      exact haside (by simp [AuthStatement.group]) ((resume_frame input w _).apiKeys
        (by simp [AuthStatement.group]) (by simp [AuthStatement.group]))

end Steps

section Runs

variable (config : AuthConfig) (crypto : Crypto)

structure KeysInvariant (s : AuthPool) : Prop where
  settled : KeysSettled s.shared
  stored : ∀ call ∈ s.inflight, WritesStored s.shared call

theorem writesStored_of_starts {w : AuthWorld} {call : AuthStatement} (h : call.starts) :
    WritesStored w call := by
  cases call with
  | apiKey next =>
      cases next with
      | rotateTransaction existing now gracePeriodEndsAt => cases h
      | revokeUpdate id now => cases h
      | _ => trivial
  | _ => trivial

theorem keysInvariant_step (s : AuthPool) (a : AuthAction) (h : KeysInvariant s)
    (hallowed : KeysApart s a) : KeysInvariant ((auth config crypto).step s a) := by
  have hkeeps := (auth config crypto).keeps_step (Q := KeysSettled) (P := WritesStored) a h.settled
    h.stored (fun call _ hstart => writesStored_of_starts hstart)
    (fun index input call haction hcall => by
      subst haction
      have hmem := List.mem_of_getElem? hcall
      refine ⟨keysSettled_resume crypto input config h.settled (h.stored call hmem) ?_,
        writesStored_resume crypto input config s.shared call, fun other hother => ?_⟩
      · exact hallowed.imp_right fun hall => hall call hcall
      · exact (h.stored other (List.mem_of_mem_eraseIdx hother)).kept
          (keysKept_resume crypto input config s.shared call))
    (fun milliseconds => ⟨h.settled.aside rfl (Nat.le_add_right _ _) rfl, h.stored⟩)
  exact ⟨hkeeps.1, hkeeps.2⟩

/-- Along a run in which rotations write to keys that are not revoked (or end one
that has no successor yet) and revocations to keys in no grace period, a key that was
revoked, or rotated without a grace period, is never accepted again, and no key has
two successors. -/
theorem keys_end_while_apart (s : AuthPool) (hidle : s.inflight = [])
    (hsettled : KeysSettled s.shared) (actions : List AuthAction)
    (hrun : Along (auth config crypto).step KeysApart s actions) :
    ∀ pre post, actions = pre ++ post →
      (∀ id, (.keyRevoked id ∈ ((auth config crypto).run pre s).shared.log ∨
          ∃ successor, .keyRotated id successor none ∈
            ((auth config crypto).run pre s).shared.log) →
        ∀ rawKey key, ((auth config crypto).run pre s).shared.apiKeys.findHash
            (crypto.sha256 rawKey).text = some key → key.id = id →
          ∃ error, ((auth config crypto).run pre s).shared.validateApiKey crypto (some rawKey) =
            .error error) ∧
      ∀ id, (((auth config crypto).run pre s).shared.apiKeys.successors id).length ≤ 1 := by
  have hstart : KeysInvariant s := by
    refine ⟨hsettled, ?_⟩
    rw [hidle]
    exact List.forall_mem_nil _
  intro pre post hsplit
  have hinv : KeysInvariant ((auth config crypto).run pre s) :=
    hrun.invariant (keysInvariant_step config crypto) hstart pre post hsplit
  refine ⟨fun id hended rawKey key hfound hid => ?_, hinv.settled.single⟩
  have hmem : id ∈ ((auth config crypto).run pre s).shared.ended := by
    rcases hended with hrevoked | ⟨successor, hrotated⟩
    · exact List.mem_filterMap.mpr ⟨_, hrevoked, rfl⟩
    · exact List.mem_filterMap.mpr ⟨_, hrotated, rfl⟩
  obtain ⟨row, hrow, hdead⟩ := hinv.settled.dead id hmem
  have hkey : key ∈ ((auth config crypto).run pre s).shared.apiKeys.rows :=
    List.mem_of_find?_eq_some hfound
  have hsame : row = key := by
    have hfind := Table.find?_of_mem hkey
    rw [hid] at hfind
    exact Option.some.inj (hrow.symm.trans hfind)
  exact validate_of_dead hfound (hsame ▸ hdead)

theorem freshAuth_keysSettled (accounts : Table Account.id) (now : Nat) :
    KeysSettled (freshAuth accounts now).shared :=
  ⟨List.forall_mem_nil _, List.forall_mem_nil _, fun _ => Nat.zero_le _⟩

def createKeyOne : List AuthAction :=
  [.begin (.apiKey (.create "u-1" "CI" ["read", "write"] none)),
    .resume 0 (drawing "k-1" "key-one")]

/-- The key is replaced at once. -/
def rotatedAtOnce : List AuthAction :=
  createKeyOne ++
    [.begin (.apiKey (.rotate "u-1" "k-1" none)), .resume 0 calmly,
      .resume 0 (drawing "k-2" "key-two")]

theorem rotated_key_refused :
    .keyRotated "k-1" "k-2" none ∈
        ((auth demoAuthConfig demoAuthCrypto).run rotatedAtOnce demoAuthPool).shared.log ∧
      ∃ error, ((auth demoAuthConfig demoAuthCrypto).run rotatedAtOnce
        demoAuthPool).shared.validateApiKey demoAuthCrypto (some "key-one") = .error error := by
  have hrun : Along (auth demoAuthConfig demoAuthCrypto).step KeysApart demoAuthPool
      rotatedAtOnce := by
    decide +kernel
  have hrotated : .keyRotated "k-1" "k-2" none ∈
      ((auth demoAuthConfig demoAuthCrypto).run rotatedAtOnce demoAuthPool).shared.log := by
    decide +kernel
  refine ⟨hrotated, (keys_end_while_apart demoAuthConfig demoAuthCrypto demoAuthPool rfl
    (freshAuth_keysSettled _ _) rotatedAtOnce hrun rotatedAtOnce [] (List.append_nil _).symm).1
    "k-1" (.inr ⟨"k-2", hrotated⟩) "key-one" ⟨"k-1", "u-1", digestOne.text, "CI", ["read", "write"],
      none, some 0, none, none⟩ ?_ rfl⟩
  decide +kernel

/-- A rotation reads the key, a revocation comes and goes, and the rotation goes on. -/
def overtakenRevocation : List AuthAction :=
  createKeyOne ++
    [.begin (.apiKey (.rotate "u-1" "k-1" (some 3600))), .resume 0 calmly,
      .begin (.apiKey (.revoke "u-1" "k-1")), .resume 1 calmly, .resume 1 calmly,
      .resume 0 (drawing "k-2" "key-two")]

/-- Two rotations of one key. -/
def crossedRotations : List AuthAction :=
  createKeyOne ++
    [.begin (.apiKey (.rotate "u-1" "k-1" none)), .begin (.apiKey (.rotate "u-1" "k-1" none)),
      .resume 0 calmly, .resume 1 calmly, .resume 0 (drawing "k-2" "key-two"),
      .resume 0 (drawing "k-3" "key-three")]

/-- The revoked key is accepted; and a key has two successors. -/
theorem revoked_key_revived :
    .keyRevoked "k-1" ∈
        ((auth demoAuthConfig demoAuthCrypto).run overtakenRevocation demoAuthPool).shared.log ∧
      (((auth demoAuthConfig demoAuthCrypto).run overtakenRevocation
        demoAuthPool).shared.validateApiKey demoAuthCrypto (some "key-one")).toOption.map
          RequestUser.id = some "u-1" ∧
      ((((auth demoAuthConfig demoAuthCrypto).run crossedRotations
        demoAuthPool).shared.apiKeys.successors "k-1").map ApiKey.id) = ["k-2", "k-3"] := by
  decide +kernel

end Runs

end ChainSettle
