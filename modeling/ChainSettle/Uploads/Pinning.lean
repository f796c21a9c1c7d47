import ChainSettle.Lib.Conversations
import ChainSettle.Semantics.Uploads

/-!
What is pinned, and which CIDs are returned. Nothing is posted that the limits of its upload do not
accept, and nothing more than three times. The CIDs that Redis remembers are shared by all uploads;
each of them was answered for a content with the same hash.
-/

namespace ChainSettle

open Lib

section Protocol

variable (service : IpfsService)

/-- The content is of a type that is allowed, and of the type that is declared. -/
structure Accepts (file : UploadFile) (limits : IpfsUploadLimits) : Prop where
  size : file.bytes.length ≤ limits.maxSizeBytes
  declared : file.mimeType ∈ limits.allowedMimeTypes
  content : ∃ sniffed, sniffMimeType file.bytes = some sniffed ∧
    normalizeMimeType service.text sniffed ∈
      limits.allowedMimeTypes.map (normalizeMimeType service.text) ∧
    mimeTypesMatch service.text file.mimeType sniffed

theorem accepts_of_check {service : IpfsService} {file : UploadFile} {limits : IpfsUploadLimits}
    {value : Unit} (h : service.checkUpload file limits = .ok value) :
    Accepts service file limits := by
  unfold IpfsService.checkUpload at h
  by_cases hsize : limits.maxSizeBytes < file.bytes.length
  · rw [if_pos hsize] at h
    cases h
  rw [if_neg hsize] at h
  by_cases hdeclared : file.mimeType ∈ limits.allowedMimeTypes
  · rw [if_neg (not_not.mpr hdeclared)] at h
    unfold IpfsService.assertContentMatchesType at h
    cases hsniffed : sniffMimeType file.bytes with
    | none =>
        rw [hsniffed] at h
        cases h
    | some sniffed =>
        rw [hsniffed] at h
        dsimp only at h
        by_cases hallowed : normalizeMimeType service.text sniffed ∈
            limits.allowedMimeTypes.map (normalizeMimeType service.text)
        · rw [if_neg (not_not.mpr hallowed)] at h
          by_cases hmatch : mimeTypesMatch service.text file.mimeType sniffed
          · exact ⟨Nat.le_of_not_lt hsize, hdeclared, sniffed, hsniffed, hallowed, hmatch⟩
          · rw [if_pos hmatch] at h
            cases h
        · rw [if_pos hallowed] at h
          cases h
  · rw [if_pos hdeclared] at h
    cases h

inductive UploadPhase where
  | received
  | asking (file : UploadFile)
  | looking (file : UploadFile)
  | posting (file : UploadFile) (attempt : Nat)
  | remembering (file : UploadFile) (attempt : Nat) (cid : String)
  | closed

inductive UploadStep : UploadPhase → UploadEvent → UploadPhase → Prop where
  | rejected (error : HttpError) : UploadStep .received (.rejected error) .closed
  | limitsMissed (file : UploadFile) : UploadStep .received .limitsMissed (.asking file)
  | admitted {file : UploadFile} {limits : IpfsUploadLimits} : Accepts service file limits →
      UploadStep .received (.admitted file limits) (.looking file)
  | rejectedLate (file : UploadFile) (error : HttpError) :
      UploadStep (.asking file) (.rejected error) .closed
  | admittedLate {file : UploadFile} {limits : IpfsUploadLimits} : Accepts service file limits →
      UploadStep (.asking file) (.admitted file limits) (.looking file)
  | failed (file : UploadFile) (error : HttpError) :
      UploadStep (.looking file) (.failed error) .closed
  | stubbed (file : UploadFile) (cid : String) : service.apiKey = "" →
      UploadStep (.looking file) (.stubbed cid) .closed
  | found (file : UploadFile) (cid : String) :
      UploadStep (.looking file) (.returned (service.sha256 file.bytes) cid) .closed
  | missed (file : UploadFile) : service.apiKey ≠ "" →
      UploadStep (.looking file) .missed (.posting file 1)
  | pinned (file : UploadFile) (attempt : Nat) (cid : String) :
      UploadStep (.posting file attempt) (.posted file attempt (.ok cid) none)
        (.remembering file attempt cid)
  | again (file : UploadFile) {attempt : Nat} {err : PostError} : attempt < 3 →
      err.isRejection = false →
      UploadStep (.posting file attempt) (.posted file attempt (.error err) none)
        (.posting file (attempt + 1))
  | gaveUp (file : UploadFile) (attempt : Nat) (err : PostError) (thrown : HttpError) :
      UploadStep (.posting file attempt) (.posted file attempt (.error err) (some thrown)) .closed
  | forgottenAgain (file : UploadFile) {attempt : Nat} (cid : String) : attempt < 3 →
      UploadStep (.remembering file attempt cid) (.forgotten attempt none)
        (.posting file (attempt + 1))
  | forgotten (file : UploadFile) (attempt : Nat) (cid : String) (thrown : HttpError) :
      UploadStep (.remembering file attempt cid) (.forgotten attempt (some thrown)) .closed
  | remembered (file : UploadFile) (attempt : Nat) (cid : String) :
      UploadStep (.remembering file attempt cid) (.returned (service.sha256 file.bytes) cid)
        .closed

def uploadProtocol : Protocol UploadPhase UploadEvent where
  start := .received
  step := UploadStep service
  closed p := p = .closed

def UploadCall.number : UploadCall → Option Nat
  | .uploadFile _ _ => none
  | .readLimits number _ _ _ | .dedup number _ _ | .post number _ _ | .remember number _ _ _ =>
      some number

def UploadCall.phase : UploadCall → UploadPhase
  | .uploadFile _ _ => .received
  | .readLimits _ _ file _ => .asking file
  | .dedup _ _ file => .looking file
  | .post _ file attempt => .posting file attempt
  | .remember _ file attempt cid => .remembering file attempt cid

variable {service}

variable (service) in
theorem limits_cases (w : UploadWorld) (number pod : Nat) (file : UploadFile)
    (limits : IpfsUploadLimits) :
    (∃ err, w.checkLimits service number pod file limits = (w.event number (.rejected err), [])) ∨
    (Accepts service file limits ∧ w.checkLimits service number pod file limits =
      (w.event number (.admitted file limits), [.dedup number pod file])) := by
  unfold UploadWorld.checkLimits
  cases hcheck : service.checkUpload file limits with
  | error err => exact .inl ⟨err, rfl⟩
  | ok value => exact .inr ⟨accepts_of_check hcheck, rfl⟩

variable (service) in
theorem checkLimits_world (w : UploadWorld) (number pod : Nat) (file : UploadFile)
    (limits : IpfsUploadLimits) :
    ∃ e, (w.checkLimits service number pod file limits).1 = w.event number e := by
  rcases limits_cases service w number pod file limits with ⟨err, hnext⟩ | ⟨-, hnext⟩
  · exact ⟨_, congrArg Prod.fst hnext⟩
  · exact ⟨_, congrArg Prod.fst hnext⟩

theorem tryAgain_cases (number : Nat) (file : UploadFile) (attempt : Nat) (detail : String) :
    (attempt < 3 ∧ tryAgain number file attempt detail =
      (none, [.post number file (attempt + 1)])) ∨
    ∃ thrown, tryAgain number file attempt detail = (some thrown, []) := by
  unfold tryAgain
  split
  · rename_i hlt
    exact .inl ⟨hlt, rfl⟩
  · exact .inr ⟨_, rfl⟩

variable (service) in
/-- Everything a statement can do. -/
theorem upload_resume (input : UploadInput) (w : UploadWorld) (call : UploadCall) :
    ∃ e q, (call.resume service input w).1.log =
        (call.number.getD w.uploads, e) :: w.log ∧
      (call.resume service input w).1.uploads =
        (if call.number.isNone then w.uploads + 1 else w.uploads) ∧
      UploadStep service call.phase e q ∧
      ((call.resume service input w).2 = [] ∧ q = .closed ∨
        ∃ next, (call.resume service input w).2 = [next] ∧
          next.number = some (call.number.getD w.uploads) ∧ next.phase = q) := by
  cases call with
  | uploadFile pod file =>
      simp only [UploadCall.resume]
      cases hcached : UploadWorld.cachedLimits { w with uploads := w.uploads + 1 } pod with
      | none => exact ⟨_, _, rfl, rfl, .limitsMissed file, .inr ⟨_, rfl, rfl, rfl⟩⟩
      | some limits =>
          dsimp only
          rcases limits_cases service { w with uploads := w.uploads + 1 } w.uploads pod file limits with
            ⟨err, hnext⟩ | ⟨haccepts, hnext⟩
          · rw [hnext]
            exact ⟨_, _, rfl, rfl, .rejected err, .inl ⟨rfl, rfl⟩⟩
          · rw [hnext]
            exact ⟨_, _, rfl, rfl, .admitted haccepts, .inr ⟨_, rfl, rfl, rfl⟩⟩
  | readLimits number pod file start =>
      simp only [UploadCall.resume]
      rcases limits_cases service (w.cache pod (if input.dbFails then service.defaultUploadLimits else
          service.limitsOf w.appConfig) start) number pod file (if input.dbFails then
          service.defaultUploadLimits else service.limitsOf w.appConfig) with
        ⟨err, hnext⟩ | ⟨haccepts, hnext⟩
      · rw [hnext]
        exact ⟨_, _, rfl, rfl, .rejectedLate file err, .inl ⟨rfl, rfl⟩⟩
      · rw [hnext]
        exact ⟨_, _, rfl, rfl, .admittedLate haccepts, .inr ⟨_, rfl, rfl, rfl⟩⟩
  | dedup number pod file =>
      simp only [UploadCall.resume]
      cases input.redisError with
      | some message => exact ⟨_, _, rfl, rfl, .failed file _, .inl ⟨rfl, rfl⟩⟩
      | none =>
          dsimp only
          cases truthyText (w.redis.get w.now (dedupKey (service.sha256 file.bytes))) with
          | some cid => exact ⟨_, _, rfl, rfl, .found file cid, .inl ⟨rfl, rfl⟩⟩
          | none =>
              dsimp only
              by_cases hkey : service.apiKey = ""
              · rw [if_pos hkey]
                exact ⟨_, _, rfl, rfl, .stubbed file _ hkey, .inl ⟨rfl, rfl⟩⟩
              · rw [if_neg hkey]
                cases w.isHealthy pod with
                | true => exact ⟨_, _, rfl, rfl, .missed file hkey, .inr ⟨_, rfl, rfl, rfl⟩⟩
                | false => exact ⟨_, _, rfl, rfl, .failed file _, .inl ⟨rfl, rfl⟩⟩
  | post number file attempt =>
      simp only [UploadCall.resume]
      cases input.post with
      | ok cid => exact ⟨_, _, rfl, rfl, .pinned file attempt cid, .inr ⟨_, rfl, rfl, rfl⟩⟩
      | error err =>
          dsimp only
          cases hrejection : err.isRejection with
          | true => exact ⟨_, _, rfl, rfl, .gaveUp file attempt err _, .inl ⟨rfl, rfl⟩⟩
          | false =>
              rw [if_neg Bool.false_ne_true]
              rcases tryAgain_cases number file attempt err.detail with
                ⟨hlt, hnext⟩ | ⟨thrown, hnext⟩
              · rw [hnext]
                exact ⟨_, _, rfl, rfl, .again file hlt hrejection, .inr ⟨_, rfl, rfl, rfl⟩⟩
              · rw [hnext]
                exact ⟨_, _, rfl, rfl, .gaveUp file attempt err thrown, .inl ⟨rfl, rfl⟩⟩
  | remember number file attempt cid =>
      simp only [UploadCall.resume]
      cases input.redisError with
      | none => exact ⟨_, _, rfl, rfl, .remembered file attempt cid, .inl ⟨rfl, rfl⟩⟩
      | some message =>
          dsimp only
          rcases tryAgain_cases number file attempt message with ⟨hlt, hnext⟩ | ⟨thrown, hnext⟩
          · rw [hnext]
            exact ⟨_, _, rfl, rfl, .forgottenAgain file cid hlt, .inr ⟨_, rfl, rfl, rfl⟩⟩
          · rw [hnext]
            exact ⟨_, _, rfl, rfl, .forgotten file attempt cid thrown, .inl ⟨rfl, rfl⟩⟩

variable (service) in
def uploadConversations : Conversations (uploads service) (uploadProtocol service) where
  issued := UploadWorld.uploads
  log := UploadWorld.log
  number := UploadCall.number
  phase := UploadCall.phase
  starts call h := by
    cases call with
    | uploadFile pod file => rfl
    | readLimits number pod file start => cases h
    | dedup number pod file => cases h
    | post number file attempt => cases h
    | remember number file attempt cid => cases h
  fresh call h := by
    cases call with
    | uploadFile pod file => rfl
    | readLimits number pod file start => cases h
    | dedup number pod file => cases h
    | post number file attempt => cases h
    | remember number file attempt cid => cases h
  external edit w := by cases edit <;> exact ⟨rfl, rfl⟩
  resume := upload_resume service

variable (service) in
theorem uploads_coherent (now : Nat) (appConfig : Option LimitsRow) (actions : List UploadAction) :
    (uploadConversations service).Coherent
      ((uploads service).run actions (freshUploads now appConfig)) :=
  Conversations.coherent_run (Conversations.coherent_empty rfl) actions

end Protocol

section Posts

variable {service : IpfsService}

def UploadEvent.post? : UploadEvent → Option (UploadFile × Nat)
  | .posted file attempt _ _ => some (file, attempt)
  | _ => none

/-- What has been posted, the latest first. -/
def posts (trace : List UploadEvent) : List (UploadFile × Nat) :=
  trace.filterMap UploadEvent.post?

/-- So many attempts at one file, in their order. -/
def attempts (file : UploadFile) (n : Nat) : List (UploadFile × Nat) :=
  (List.range n).reverse.map fun i => (file, i + 1)

theorem attempts_succ (file : UploadFile) (n : Nat) :
    attempts file (n + 1) = (file, n + 1) :: attempts file n := by
  rw [attempts, List.range_succ, List.reverse_append]
  rfl

def Admitted (service : IpfsService) (file : UploadFile) (trace : List UploadEvent) : Prop :=
  ∃ limits, .admitted file limits ∈ trace ∧ Accepts service file limits

theorem Admitted.cons {file : UploadFile} {trace : List UploadEvent}
    (h : Admitted service file trace) (e : UploadEvent) : Admitted service file (e :: trace) :=
  h.imp fun _ hadmitted => ⟨.tail _ hadmitted.1, hadmitted.2⟩

/-- The file has been admitted before it is posted for the first time. -/
def PostsAt (service : IpfsService) : UploadPhase → List UploadEvent → Prop
  | .received, trace => trace = []
  | .asking _, trace => posts trace = []
  | .looking file, trace => posts trace = [] ∧ Admitted service file trace
  | .posting file attempt, trace =>
      (∃ n < 3, attempt = n + 1 ∧ posts trace = attempts file n) ∧ Admitted service file trace
  | .remembering file attempt _, trace =>
      attempt ≤ 3 ∧ posts trace = attempts file attempt ∧ Admitted service file trace
  | .closed, trace =>
      posts trace = [] ∨
        ∃ file, ∃ n ≤ 3, posts trace = attempts file n ∧ Admitted service file trace

theorem postsAt_step {trace : List UploadEvent} {p q : UploadPhase} {e : UploadEvent}
    (h : PostsAt service p trace) (hstep : UploadStep service p e q) :
    PostsAt service q (e :: trace) := by
  cases hstep with
  | rejected error =>
      obtain rfl : trace = [] := h
      exact .inl rfl
  | limitsMissed file =>
      obtain rfl : trace = [] := h
      exact rfl
  | admitted haccepts =>
      obtain rfl : trace = [] := h
      exact ⟨rfl, _, .head _, haccepts⟩
  | rejectedLate file error => exact .inl h
  | admittedLate haccepts => exact ⟨h, _, .head _, haccepts⟩
  | failed file error => exact .inl h.1
  | stubbed file cid _ => exact .inl h.1
  | found file cid => exact .inl h.1
  | missed file _ => exact ⟨⟨0, by decide, rfl, h.1⟩, h.2.cons _⟩
  | pinned file attempt cid =>
      obtain ⟨⟨n, hlt, rfl, hposts⟩, hadmitted⟩ := h
      refine ⟨hlt, ?_, hadmitted.cons _⟩
      rw [attempts_succ, ← hposts]
      rfl
  | again file hlt _ =>
      obtain ⟨⟨n, -, rfl, hposts⟩, hadmitted⟩ := h
      refine ⟨⟨n + 1, hlt, rfl, ?_⟩, hadmitted.cons _⟩
      rw [attempts_succ, ← hposts]
      rfl
  | gaveUp file attempt err thrown =>
      obtain ⟨⟨n, hlt, rfl, hposts⟩, hadmitted⟩ := h
      refine .inr ⟨file, n + 1, hlt, ?_, hadmitted.cons _⟩
      rw [attempts_succ, ← hposts]
      rfl
  | forgottenAgain file cid hlt =>
      exact ⟨⟨_, hlt, rfl, h.2.1⟩, h.2.2.cons _⟩
  | forgotten file attempt cid thrown => exact .inr ⟨file, attempt, h.1, h.2.1, h.2.2.cons _⟩
  | remembered file attempt cid => exact .inr ⟨file, attempt, h.1, h.2.1, h.2.2.cons _⟩

theorem postsAt_of_path {trace : List UploadEvent} {p : UploadPhase}
    (h : (uploadProtocol service).Path trace p) : PostsAt service p trace := by
  induction h with
  | nil => exact rfl
  | cons _ hstep ih => exact postsAt_step ih hstep

/-- An upload posts one file, at most three times, after it has been admitted. -/
theorem posts_of_path {trace : List UploadEvent} {p : UploadPhase}
    (h : (uploadProtocol service).Path trace p) :
    posts trace = [] ∨
      ∃ file, ∃ n ≤ 3, posts trace = attempts file n ∧ Admitted service file trace := by
  have hat := postsAt_of_path h
  cases p with
  | received =>
      obtain rfl : trace = [] := hat
      exact .inl rfl
  | asking file => exact .inl hat
  | looking file => exact .inl hat.1
  | posting file attempt =>
      obtain ⟨⟨n, hlt, rfl, hposts⟩, hadmitted⟩ := hat
      exact .inr ⟨file, n, Nat.le_of_lt hlt, hposts, hadmitted⟩
  | remembering file attempt cid => exact .inr ⟨file, attempt, hat⟩
  | closed => exact hat

/-- Whatever is posted in an upload, its limits have accepted: its size, the type that is
declared, and the type that its content has. It is posted at most three times. -/
theorem posted_files_accepted (service : IpfsService) (now : Nat) (appConfig : Option LimitsRow)
    (actions : List UploadAction) (number : Nat) :
    let trace := traceOf number ((uploads service).run actions (freshUploads now appConfig)).shared.log
    posts trace = [] ∨ ∃ file limits, .admitted file limits ∈ trace ∧ Accepts service file limits ∧
      ∃ n ≤ 3, posts trace = attempts file n := by
  intro trace
  obtain ⟨p, hpath⟩ := (uploads_coherent service now appConfig actions).obeys number
  refine (posts_of_path hpath).imp_right ?_
  rintro ⟨file, n, hle, hposts, limits, hadmitted, haccepts⟩
  exact ⟨file, limits, hadmitted, haccepts, n, hle, hposts⟩

end Posts

section Provenance

variable (service : IpfsService)

/-- The pinning service has answered the CID for a content with the hash. -/
def Pinned (w : UploadWorld) (hash cid : String) : Prop :=
  ∃ number file attempt, (number, .posted file attempt (.ok cid) none) ∈ w.log ∧
    service.sha256 file.bytes = hash

/-- The CIDs that are remembered and those that were returned have been pinned. -/
structure Remembers (w : UploadWorld) : Prop where
  remembered : ∀ hash entry, w.redis (dedupKey hash) = some entry → Pinned service w hash entry.value
  returned : ∀ number hash cid, (number, .returned hash cid) ∈ w.log → Pinned service w hash cid

/-- A CID that is about to be remembered has been pinned. -/
def CidHeld (w : UploadWorld) : UploadCall → Prop
  | .remember _ file _ cid => Pinned service w (service.sha256 file.bytes) cid
  | _ => True

variable {service}

theorem dedupKey_injective {hash other : String} (h : dedupKey hash = dedupKey other) :
    hash = other := by
  have hlists := congrArg String.toList h
  rw [dedupKey, dedupKey, String.toList_append, String.toList_append] at hlists
  exact String.toList_inj.mp (List.append_cancel_left hlists)

theorem Pinned.mono {w w' : UploadWorld} {hash cid : String} (h : Pinned service w hash cid)
    (hlog : ∀ entry ∈ w.log, entry ∈ w'.log) : Pinned service w' hash cid := by
  obtain ⟨number, file, attempt, hmem, hhash⟩ := h
  exact ⟨number, file, attempt, hlog _ hmem, hhash⟩

theorem CidHeld.mono {w w' : UploadWorld} {call : UploadCall} (h : CidHeld service w call)
    (hlog : ∀ entry ∈ w.log, entry ∈ w'.log) : CidHeld service w' call := by
  cases call with
  | remember number file attempt cid => exact Pinned.mono h hlog
  | _ => trivial

/-- A statement that remembers nothing and returns nothing new. -/
theorem Remembers.grow {w w' : UploadWorld} (h : Remembers service w) (hredis : w'.redis = w.redis)
    {number : Nat} {e : UploadEvent} (hlog : w'.log = (number, e) :: w.log)
    (he : ∀ hash cid, e = .returned hash cid → Pinned service w hash cid) :
    Remembers service w' where
  remembered hash entry hentry := by
    rw [hredis] at hentry
    exact (h.remembered hash entry hentry).mono fun _ hmem => hlog ▸ .tail _ hmem
  returned other hash cid hmem := by
    have hgrown : ∀ entry ∈ w.log, entry ∈ w'.log := fun _ hmem => hlog ▸ .tail _ hmem
    rw [hlog] at hmem
    rcases List.mem_cons.mp hmem with heq | hmem
    · exact (he hash cid (Prod.mk.inj heq).2.symm).mono hgrown
    · exact (h.returned other hash cid hmem).mono hgrown

/-- Nor does the check of the limits. -/
theorem Remembers.checkLimits {w w' : UploadWorld} (h : Remembers service w)
    (hredis : w'.redis = w.redis) (hlog : w'.log = w.log) {number pod : Nat} {file : UploadFile}
    {limits : IpfsUploadLimits} :
    Remembers service (w'.checkLimits service number pod file limits).1 ∧
      ∀ next ∈ (w'.checkLimits service number pod file limits).2,
        CidHeld service (w'.checkLimits service number pod file limits).1 next := by
  rcases limits_cases service w' number pod file limits with ⟨err, hnext⟩ | ⟨-, hnext⟩
  · rw [hnext]
    exact ⟨h.grow hredis (congrArg _ hlog) (by rintro _ _ ⟨⟩), List.forall_mem_nil _⟩
  · rw [hnext]
    exact ⟨h.grow hredis (congrArg _ hlog) (by rintro _ _ ⟨⟩),
      List.forall_mem_singleton.mpr trivial⟩

theorem pinned_of_get {w : UploadWorld} (h : Remembers service w) {hash cid : String}
    (hget : truthyText (w.redis.get w.now (dedupKey hash)) = some cid) :
    Pinned service w hash cid := by
  obtain ⟨hfound, -⟩ := Option.filter_eq_some_iff.mp hget
  obtain ⟨entry, hentry, rfl⟩ := Store.entry_of_get hfound
  exact h.remembered hash entry hentry

/-- The calls that `tryAgain` leaves behind remember nothing. -/
theorem holding_tryAgain (w : UploadWorld) (number : Nat) (file : UploadFile) (attempt : Nat)
    (detail : String) : ∀ next ∈ (tryAgain number file attempt detail).2, CidHeld service w next := by
  rcases tryAgain_cases number file attempt detail with ⟨-, hnext⟩ | ⟨thrown, hnext⟩
  · rw [hnext]
    exact List.forall_mem_singleton.mpr trivial
  · rw [hnext]
    exact List.forall_mem_nil _

theorem remembers_resume (input : UploadInput) {w : UploadWorld} (h : Remembers service w)
    {call : UploadCall} (hcall : CidHeld service w call) :
    Remembers service (call.resume service input w).1 ∧
      ∀ next ∈ (call.resume service input w).2,
        CidHeld service (call.resume service input w).1 next := by
  cases call with
  | uploadFile pod file =>
      simp only [UploadCall.resume]
      cases UploadWorld.cachedLimits { w with uploads := w.uploads + 1 } pod with
      | none =>
          exact ⟨h.grow rfl rfl (by rintro _ _ ⟨⟩), List.forall_mem_singleton.mpr trivial⟩
      | some limits =>
          dsimp only
          refine h.checkLimits ?_ ?_ <;> rfl
  | readLimits number pod file start => refine h.checkLimits ?_ ?_ <;> rfl
  | dedup number pod file =>
      simp only [UploadCall.resume]
      cases input.redisError with
      | some message => exact ⟨h.grow rfl rfl (by rintro _ _ ⟨⟩), List.forall_mem_nil _⟩
      | none =>
          dsimp only
          cases hget : truthyText (w.redis.get w.now (dedupKey (service.sha256 file.bytes))) with
          | some cid =>
              refine ⟨h.grow rfl rfl ?_, List.forall_mem_nil _⟩
              rintro _ _ ⟨⟩
              exact pinned_of_get h hget
          | none =>
              dsimp only
              by_cases hkey : service.apiKey = ""
              · rw [if_pos hkey]
                exact ⟨h.grow rfl rfl (by rintro _ _ ⟨⟩), List.forall_mem_nil _⟩
              · rw [if_neg hkey]
                cases w.isHealthy pod with
                | true =>
                    exact ⟨h.grow rfl rfl (by rintro _ _ ⟨⟩), List.forall_mem_singleton.mpr trivial⟩
                | false => exact ⟨h.grow rfl rfl (by rintro _ _ ⟨⟩), List.forall_mem_nil _⟩
  | post number file attempt =>
      simp only [UploadCall.resume]
      cases input.post with
      | ok cid =>
          refine ⟨h.grow rfl rfl (by rintro _ _ ⟨⟩), List.forall_mem_singleton.mpr ?_⟩
          exact ⟨number, file, attempt, .head _, rfl⟩
      | error err =>
          dsimp only
          cases err.isRejection with
          | true => exact ⟨h.grow rfl rfl (by rintro _ _ ⟨⟩), List.forall_mem_nil _⟩
          | false =>
              exact ⟨h.grow rfl rfl (by rintro _ _ ⟨⟩), holding_tryAgain _ number file attempt _⟩
  | remember number file attempt cid =>
      simp only [UploadCall.resume]
      cases input.redisError with
      | some message =>
          exact ⟨h.grow rfl rfl (by rintro _ _ ⟨⟩), holding_tryAgain _ number file attempt _⟩
      | none =>
          have hpinned : Pinned service w (service.sha256 file.bytes) cid := hcall
          refine ⟨⟨fun hash entry hentry => ?_, fun other hash found hmem => ?_⟩,
            List.forall_mem_nil _⟩
          · rcases Store.entry_of_set hentry with ⟨hkey, rfl⟩ | hentry
            · rw [dedupKey_injective hkey]
              exact hpinned.mono fun _ => .tail _
            · exact (h.remembered hash entry hentry).mono fun _ => .tail _
          · rcases List.mem_cons.mp hmem with heq | hmem
            · cases heq
              exact hpinned.mono fun _ => .tail _
            · exact (h.returned other hash found hmem).mono fun _ => .tail _

theorem remembers_step {s : UploadPool} (a : UploadAction)
    (h : Remembers service s.shared ∧ ∀ call ∈ s.inflight, CidHeld service s.shared call) :
    Remembers service ((uploads service).step s a).shared ∧
      ∀ call ∈ ((uploads service).step s a).inflight,
        CidHeld service ((uploads service).step s a).shared call := by
  refine (uploads service).keeps_step a h.1 h.2 ?_ ?_ ?_
  · intro call _ hstart
    cases call with
    | remember number file attempt cid => cases hstart
    | _ => trivial
  · intro index input call _ hcall
    obtain ⟨hshared, hnew⟩ := remembers_resume input h.1 (h.2 call (List.mem_of_getElem? hcall))
    refine ⟨hshared, hnew, fun other hother => ?_⟩
    obtain ⟨e, q, hlog, -⟩ := upload_resume service input s.shared call
    refine (h.2 other (List.mem_of_mem_eraseIdx hother)).mono fun entry hentry => ?_
    change entry ∈ (call.resume service input s.shared).1.log
    rw [hlog]
    exact .tail _ hentry
  · intro edit
    have hsame : (edit.apply s.shared).redis = s.shared.redis ∧
        (edit.apply s.shared).log = s.shared.log := by
      cases edit <;> exact ⟨rfl, rfl⟩
    have hgrown : ∀ entry ∈ s.shared.log, entry ∈ (edit.apply s.shared).log := by
      rw [hsame.2]
      exact fun _ hentry => hentry
    refine ⟨⟨fun hash entry hentry => ?_, fun number hash cid hmem => ?_⟩, fun other hother => ?_⟩
    · exact (h.1.remembered hash entry (hsame.1 ▸ hentry)).mono hgrown
    · exact (h.1.returned number hash cid (hsame.2 ▸ hmem)).mono hgrown
    · exact (h.2 other hother).mono hgrown

theorem remembers_fresh (now : Nat) (appConfig : Option LimitsRow) :
    Remembers service (freshUploads now appConfig).shared where
  remembered hash entry hentry := by cases hentry
  returned number hash cid hmem := by cases hmem

theorem remembers_run (now : Nat) (appConfig : Option LimitsRow) (actions : List UploadAction) :
    Remembers service ((uploads service).run actions (freshUploads now appConfig)).shared :=
  (List.foldlRecOn actions (uploads service).step
    (motive := fun s => Remembers service s.shared ∧
      ∀ call ∈ s.inflight, CidHeld service s.shared call)
    ⟨remembers_fresh now appConfig, fun _ hcall => absurd hcall List.not_mem_nil⟩
    fun _ hs a _ => remembers_step a hs).1

theorem mem_traceOf {i : Nat} {e : UploadEvent} {log : List (Nat × UploadEvent)}
    (h : (i, e) ∈ log) : e ∈ traceOf i log :=
  List.mem_filterMap.mpr ⟨(i, e), h, if_pos rfl⟩

/-- A CID that is returned for a content was answered by the pinning service for a content with
the same hash, in this upload or another one, and that content had been accepted. -/
theorem returned_cid_pinned (service : IpfsService) (now : Nat) (appConfig : Option LimitsRow)
    (actions : List UploadAction) (number : Nat) (hash cid : String) :
    let last := (uploads service).run actions (freshUploads now appConfig)
    (number, .returned hash cid) ∈ last.shared.log →
      ∃ pinning file attempt limits,
        (pinning, .posted file attempt (.ok cid) none) ∈ last.shared.log ∧
        (pinning, .admitted file limits) ∈ last.shared.log ∧
        service.sha256 file.bytes = hash ∧ Accepts service file limits := by
  intro last hreturned
  obtain ⟨pinning, file, attempt, hposted, hhash⟩ :=
    (remembers_run now appConfig actions).returned number hash cid hreturned
  have hmem : (file, attempt) ∈ posts (traceOf pinning last.shared.log) :=
    List.mem_filterMap.mpr ⟨_, mem_traceOf hposted, rfl⟩
  obtain ⟨p, hpath⟩ := (uploads_coherent service now appConfig actions).obeys pinning
  rcases posts_of_path hpath with hnone | ⟨other, n, -, hposts, limits, hadmitted, haccepts⟩
  · rw [show posts (traceOf pinning last.shared.log) = [] from hnone] at hmem
    cases hmem
  · rw [show posts (traceOf pinning last.shared.log) = attempts other n from hposts] at hmem
    obtain ⟨i, -, heq⟩ := List.mem_map.mp hmem
    obtain rfl : other = file := (Prod.mk.inj heq).1
    obtain ⟨entry, hentry, hsome⟩ := List.mem_filterMap.mp hadmitted
    split at hsome
    · rename_i hnumber
      obtain ⟨first, second⟩ := entry
      cases hsome
      obtain rfl : first = pinning := hnumber
      exact ⟨first, other, attempt, limits, hposted, hentry, hhash, haccepts⟩
    · cases hsome

end Provenance

section Demo

def demoIpfs : IpfsService where
  apiKey := "key"
  defaultUploadLimits := ⟨1024, ["application/pdf"]⟩
  dedupTtlDays := 30
  text := CaseMapping.ascii
  sha256 _ := "e3b0"

/-- `%PDF-` -/
def demoPdf : UploadFile := ⟨[0x25, 0x50, 0x44, 0x46, 0x2d], "a.pdf", "application/pdf"⟩

def demoInput : UploadInput := ⟨false, none, .ok "bafy"⟩

def demoUpload : List UploadAction :=
  [.external (.checked 0 true), .begin (.uploadFile 0 demoPdf), .resume 0 demoInput,
    .resume 0 demoInput, .resume 0 demoInput, .resume 0 demoInput, .resume 0 demoInput]

/-- The upload misses Redis, is posted once and returned. -/
theorem demo_cid_pinned :
    let last := (uploads demoIpfs).run demoUpload (freshUploads 0 none)
    ∃ pinning file attempt limits,
      (pinning, .posted file attempt (.ok "bafy") none) ∈ last.shared.log ∧
      (pinning, .admitted file limits) ∈ last.shared.log ∧
      demoIpfs.sha256 file.bytes = "e3b0" ∧ Accepts demoIpfs file limits :=
  returned_cid_pinned demoIpfs 0 none demoUpload 0 "e3b0" "bafy" (List.Mem.head _)

end Demo

end ChainSettle
