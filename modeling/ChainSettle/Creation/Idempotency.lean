import ChainSettle.Archive.Immutable

/-!
`POST /shipments` with an `Idempotency-Key`. The controller looks the key up in
Redis, creates the shipment on a miss, and stores the response for a day; these
are three statements, and any number of requests are in flight. The key in Redis
is made from the user that `JwtStrategy` returns.

`respond` is the response to a creation, a function of the request and the
database it leaves. Every response is recorded with the shipment its request
created, if any, and the second it was sent in.

What an `Idempotency-Key` guarantees. A response to a creation is stored for a
day after the creation, so a request that comes in between repeats it; two
requests that both miss create twice. The proof follows the last creation under
the key: its response is what Redis holds, and while another request is past its
look-up that response has expired.
-/

namespace ChainSettle

open Lib Lib.Eff

section Authentication

/-- The claims of a verified token. -/
structure JwtPayload where
  sub : String
  stellarAddress : String
  role : UserRole
  jti : Option String
deriving DecidableEq

structure AuthenticatedUser where
  id : String
  stellarAddress : String
  role : UserRole
  /-- the raw subject of the token -/
  sub : Option String
  jti : Option String
deriving DecidableEq

/-- What `JwtStrategy.validate` returns for a token that is not revoked. -/
def JwtStrategy.validate (payload : JwtPayload) : AuthenticatedUser where
  id := payload.sub
  stellarAddress := payload.stellarAddress
  role := payload.role
  sub := none
  jti := payload.jti

end Authentication

structure CreateRequest where
  payload : JwtPayload
  dto : CreateShipmentDto
  idempotencyKey : Option String

/-- `idempotency:${user.sub}:${idempotencyKey}`, where there is a key. -/
def CreateRequest.cacheKey (request : CreateRequest) : Option String :=
  (truthyText request.idempotencyKey).map fun idempotencyKey =>
    "idempotency:" ++ (JwtStrategy.validate request.payload).sub.getD "undefined" ++ ":" ++
      idempotencyKey

/-- In seconds. -/
def idempotencyTtl : Nat := 86400

structure CachedResponse where
  statusCode : Nat
  body : String
  expiresAt : Nat
deriving DecidableEq

/-- A response, with the shipment that its request has created. -/
structure CreateResponse where
  request : CreateRequest
  body : String
  created : Option String
  at_ : Nat

structure CreateWorld where
  db : Db
  /-- in seconds -/
  now : Nat
  redis : String → Option CachedResponse
  responses : List CreateResponse

/-- `get` of a key that may have expired. -/
def CreateWorld.getJson (w : CreateWorld) (key : String) : Option CachedResponse :=
  (w.redis key).filter fun cached => w.now < cached.expiresAt

def CreateWorld.respond (w : CreateWorld) (request : CreateRequest) (body : String)
    (created : Option String) : CreateWorld :=
  { w with responses := ⟨request, body, created, w.now⟩ :: w.responses }

/-- A request suspended before the statement its constructor names. -/
inductive CreateCall where
  | getJson (request : CreateRequest)
  | create (request : CreateRequest) (cacheKey : String)
  | setJson (request : CreateRequest) (cacheKey body : String)

def CreateCall.starts : CreateCall → Bool
  | .getJson _ => true
  | _ => false

/-- The inputs of a statement. -/
structure CreateInput where
  env : Env
  redisDown : Bool

/-- The buyer himself, or an administrator. -/
def CreateRequest.Allowed (request : CreateRequest) : Prop :=
  let user := JwtStrategy.validate request.payload
  user.role = .admin ∨ request.dto.buyerAddress = user.stellarAddress

instance (request : CreateRequest) : Decidable request.Allowed :=
  inferInstanceAs (Decidable (_ ∨ _))

/-- A rejection ends the request without a response that counts. -/
def CreateCall.resume (services : Services) (respond : CreateShipmentDto → Db → String)
    (input : CreateInput) (w : CreateWorld) : CreateCall → CreateWorld × Option CreateCall
  | .getJson request =>
      -- "buyerAddress must match the authenticated user"
      if ¬ request.Allowed then (w, none)
      else match request.cacheKey with
        | none =>
            match exec (ShipmentsService.create services input.env request.dto) w.db with
            | (.ok _, next) =>
                ({ w with db := next }.respond request (respond request.dto next)
                  (some request.dto.shipmentId), none)
            | (.error _, next) => ({ w with db := next }, none)
        | some cacheKey =>
            if input.redisDown then (w, none)
            else match w.getJson cacheKey with
              | some cached => (w.respond request cached.body none, none)
              | none => (w, some (.create request cacheKey))
  | .create request cacheKey =>
      match exec (ShipmentsService.create services input.env request.dto) w.db with
      | (.ok _, next) =>
          ({ w with db := next }, some (.setJson request cacheKey (respond request.dto next)))
      | (.error _, next) => ({ w with db := next }, none)
  | .setJson request cacheKey body =>
      if input.redisDown then (w, none)
      else
        ({ w with
          redis := Function.update w.redis cacheKey
            (some ⟨201, body, w.now + idempotencyTtl⟩) }.respond request body
              (some request.dto.shipmentId), none)

/-- Requests in flight; between two statements time may pass. -/
def posting (services : Services) (respond : CreateShipmentDto → Db → String) :
    CallSystem CreateWorld CreateCall CreateInput Nat where
  starts := CreateCall.starts
  resume input w call := call.resume services respond input w
  external seconds w := { w with now := w.now + seconds }

abbrev Posting := Calls CreateWorld CreateCall

abbrev PostAction := CallAction CreateCall CreateInput Nat

def Posting.idle (db : Db) : Posting := ⟨⟨db, 0, fun _ => none, []⟩, fun _ => none⟩

section Keys

/-- The key of a request, `undefined` and the empty string being none. -/
def CreateRequest.key (request : CreateRequest) : Option String :=
  truthyText request.idempotencyKey

/-- Where the responses under a key are stored. -/
def redisKey (key : String) : String := "idempotency:" ++ "undefined" ++ ":" ++ key

theorem cacheKey_eq (request : CreateRequest) : request.cacheKey = request.key.map redisKey := rfl

theorem redisKey_injective : Function.Injective redisKey := by
  intro a b h
  have hchars := congrArg String.toList h
  simp only [redisKey, String.toList_append] at hchars
  exact String.toList_injective (List.append_cancel_left hchars)

theorem key_of_cacheKey {request : CreateRequest} {key : String}
    (h : request.cacheKey = some (redisKey key)) : request.key = some key := by
  rw [cacheKey_eq] at h
  obtain ⟨other, hother, hsame⟩ := Option.map_eq_some_iff.mp h
  rw [hother, redisKey_injective hsame]

end Keys

/-- A request under the key that has created a shipment. -/
def CreateResponse.Creates (key : String) (response : CreateResponse) : Prop :=
  response.request.key = some key ∧ response.created.isSome

instance (key : String) (response : CreateResponse) : Decidable (response.Creates key) :=
  inferInstanceAs (Decidable (_ ∧ _))

/-- A response under the key within a day after a creation repeats it. -/
def Repeats (key : String) (later earlier : CreateResponse) : Prop :=
  later.request.key = some key → earlier.Creates key → later.at_ < earlier.at_ + idempotencyTtl →
    later.body = earlier.body ∧ later.created = none

/-- The request is past its look-up. -/
def CreateCall.cacheKey? : CreateCall → Option String
  | .getJson _ => none
  | .create _ cacheKey => some cacheKey
  | .setJson _ cacheKey _ => some cacheKey

def CreateCall.Keyed : CreateCall → Prop
  | .getJson _ => True
  | .create request cacheKey => request.cacheKey = some cacheKey
  | .setJson request cacheKey _ => request.cacheKey = some cacheKey

/-- No request looks the key up while another one that has missed is not over. -/
def OneAtATime (key : String) (s : Posting) : PostAction → Prop
  | .resume slot _ => ∀ request, s.pending slot = some (.getJson request) →
      request.key = some key → ∀ other call, s.pending other = some call →
        call.cacheKey? ≠ some (redisKey key)
  | _ => True

/-- The newest creation under the key. -/
def lastCreation (key : String) (responses : List CreateResponse) : Option CreateResponse :=
  responses.find? fun response => response.Creates key

theorem creates_of_lastCreation {key : String} {responses : List CreateResponse}
    {last : CreateResponse} (h : lastCreation key responses = some last) : last.Creates key := by
  simpa using List.find?_some h

/-- The first of the elements that meet a condition is before every other one. -/
theorem pairwise_find? {α : Type} {R : α → α → Prop} {p : α → Bool} {xs : List α} {first x : α}
    (h : xs.Pairwise R) (hfirst : xs.find? p = some first) (hx : x ∈ xs) (hp : p x) :
    first = x ∨ R first x := by
  induction xs with
  | nil => cases hx
  | cons y rest ih =>
      obtain ⟨hhead, hrest⟩ := List.pairwise_cons.mp h
      rw [List.find?_cons] at hfirst
      split at hfirst
      · cases hfirst
        rcases List.mem_cons.mp hx with rfl | hmem
        · exact .inl rfl
        · exact .inr (hhead x hmem)
      · rename_i hy
        rcases List.mem_cons.mp hx with rfl | hmem
        · rw [hp] at hy
          cases hy
        · exact ih hrest hfirst hmem

/-- What holds of a key whose requests come one at a time. -/
structure Replaying (key : String) (s : Posting) : Prop where
  past : ∀ response ∈ s.shared.responses, response.at_ ≤ s.shared.now
  keyed : ∀ slot call, s.pending slot = some call → call.Keyed
  alone : ∀ slot other call call', s.pending slot = some call → s.pending other = some call' →
    call.cacheKey? = some (redisKey key) → call'.cacheKey? = some (redisKey key) → slot = other
  stored : ∀ last, lastCreation key s.shared.responses = some last →
    s.shared.redis (redisKey key) = some ⟨201, last.body, last.at_ + idempotencyTtl⟩
  missed : ∀ slot call, s.pending slot = some call → call.cacheKey? = some (redisKey key) →
    ∀ response ∈ s.shared.responses, response.Creates key →
      response.at_ + idempotencyTtl ≤ s.shared.now
  repeating : s.shared.responses.Pairwise (Repeats key)

/-- Everything that resuming a request can do. -/
inductive PostResumed (w : CreateWorld) : CreateCall → CreateWorld → Option CreateCall → Prop where
  | ended (call : CreateCall) (db : Db) : PostResumed w call { w with db := db } none
  | unkeyed {request : CreateRequest} (hkey : request.cacheKey = none) (db : Db) (body : String)
      (created : Option String) :
      PostResumed w (.getJson request) ({ w with db := db }.respond request body created) none
  | hit {request : CreateRequest} {cacheKey : String} {cached : CachedResponse}
      (hkey : request.cacheKey = some cacheKey) (hcached : w.getJson cacheKey = some cached) :
      PostResumed w (.getJson request) (w.respond request cached.body none) none
  | miss {request : CreateRequest} {cacheKey : String}
      (hkey : request.cacheKey = some cacheKey) (hcached : w.getJson cacheKey = none) :
      PostResumed w (.getJson request) w (some (.create request cacheKey))
  | created (request : CreateRequest) (cacheKey body : String) (db : Db) :
      PostResumed w (.create request cacheKey) { w with db := db }
        (some (.setJson request cacheKey body))
  | stored (request : CreateRequest) (cacheKey body : String) :
      PostResumed w (.setJson request cacheKey body)
        ({ w with
          redis := Function.update w.redis cacheKey
            (some ⟨201, body, w.now + idempotencyTtl⟩) }.respond request body
              (some request.dto.shipmentId)) none

theorem postResumed (services : Services) (respond : CreateShipmentDto → Db → String)
    (input : CreateInput) (w : CreateWorld) (call : CreateCall) :
    PostResumed w call (call.resume services respond input w).1
      (call.resume services respond input w).2 := by
  cases call with
  | getJson request =>
      unfold CreateCall.resume
      dsimp only
      split
      · exact .ended _ w.db
      · split
        · rename_i hkey
          split
          · exact .unkeyed hkey _ _ _
          · exact .ended _ _
        · rename_i cacheKey hkey
          split
          · exact .ended _ w.db
          · split
            · rename_i cached hcached
              exact .hit hkey hcached
            · rename_i hcached
              exact .miss hkey hcached
  | create request cacheKey =>
      unfold CreateCall.resume
      dsimp only
      split
      · exact .created request cacheKey _ _
      · exact .ended _ _
  | setJson request cacheKey body =>
      unfold CreateCall.resume
      dsimp only
      split
      · exact .ended _ w.db
      · exact .stored request cacheKey body

section Step

variable {key : String} {w : CreateWorld} {pending : Nat → Option CreateCall} {slot : Nat}

theorem Replaying.ended (h : Replaying key ⟨w, pending⟩) :
    Replaying key ⟨w, Function.update pending slot none⟩ := by
  have hold {other : Nat} {call : CreateCall}
      (hcall : Function.update pending slot none other = some call) : pending other = some call := by
    obtain ⟨-, hnone⟩ | ⟨-, hpending⟩ := pending_update hcall
    · cases hnone
    · exact hpending
  exact ⟨h.past, fun other call hcall => h.keyed other call (hold hcall),
    fun other other' call call' hcall hcall' => h.alone other other' call call' (hold hcall)
      (hold hcall'), h.stored, fun other call hcall => h.missed other call (hold hcall),
    h.repeating⟩

theorem Replaying.withDb (h : Replaying key ⟨w, pending⟩) (db : Db) :
    Replaying key ⟨{ w with db := db }, pending⟩ :=
  ⟨h.past, h.keyed, h.alone, h.stored, h.missed, h.repeating⟩

/-- A response that creates nothing under the key, and repeats where it has to. -/
theorem Replaying.respond (h : Replaying key ⟨w, pending⟩) {request : CreateRequest}
    {body : String} {created : Option String}
    (hother : request.key = some key → created = none)
    (hrepeats : request.key = some key → ∀ response ∈ w.responses, response.Creates key →
      w.now < response.at_ + idempotencyTtl → body = response.body) :
    Replaying key ⟨w.respond request body created, pending⟩ := by
  have hnot : ¬ CreateResponse.Creates key ⟨request, body, created, w.now⟩ := by
    rintro ⟨hkey, hcreated⟩
    rw [hother hkey] at hcreated
    cases hcreated
  have hlast : lastCreation key (w.respond request body created).responses =
      lastCreation key w.responses :=
    List.find?_cons_of_neg (by simpa using hnot)
  refine ⟨?_, h.keyed, h.alone, ?_, ?_, ?_⟩
  · intro response hresponse
    rcases List.mem_cons.mp hresponse with rfl | hold
    · exact le_refl w.now
    · exact h.past response hold
  · intro last hfound
    exact h.stored last (hlast.symm.trans hfound)
  · intro other call hcall hkey response hresponse hcreates
    rcases List.mem_cons.mp hresponse with rfl | hold
    · exact absurd hcreates hnot
    · exact h.missed other call hcall hkey response hold hcreates
  · refine List.pairwise_cons.mpr ⟨fun earlier hearlier hkey hcreates hrecent => ?_, h.repeating⟩
    exact ⟨hrepeats hkey earlier hearlier hcreates hrecent, hother hkey⟩

/-- Within a day of a creation Redis holds its response. -/
theorem Replaying.getJson (h : Replaying key ⟨w, pending⟩) {response : CreateResponse}
    (hresponse : response ∈ w.responses) (hcreates : response.Creates key)
    (hrecent : w.now < response.at_ + idempotencyTtl) :
    w.getJson (redisKey key) = some ⟨201, response.body, response.at_ + idempotencyTtl⟩ := by
  obtain ⟨last, hlast⟩ : ∃ last, lastCreation key w.responses = some last := by
    apply Option.isSome_iff_exists.mp
    rw [lastCreation, List.find?_isSome]
    exact ⟨response, hresponse, decide_eq_true hcreates⟩
  have hsame : last = response := by
    rcases pairwise_find? h.repeating hlast hresponse (decide_eq_true hcreates) with hsame | hrepeats
    · exact hsame
    · -- a newer creation would have repeated this one
      have hmem := List.mem_of_find?_eq_some hlast
      have hnewer := creates_of_lastCreation hlast
      have hnone := (hrepeats hnewer.1 hcreates ((h.past last hmem).trans_lt hrecent)).2
      have hsome := hnewer.2
      rw [hnone] at hsome
      cases hsome
  have hstored := h.stored last hlast
  rw [hsame] at hstored
  rw [CreateWorld.getJson, hstored]
  exact Option.filter_some_pos (by simpa using hrecent)

theorem replaying_miss (h : Replaying key ⟨w, pending⟩) {request : CreateRequest}
    {cacheKey : String} (hkey : request.cacheKey = some cacheKey)
    (hmiss : w.getJson cacheKey = none)
    (hfree : cacheKey = redisKey key → ∀ other call, pending other = some call →
      call.cacheKey? ≠ some (redisKey key)) :
    Replaying key ⟨w, Function.update pending slot (some (.create request cacheKey))⟩ := by
  refine ⟨h.past, ?_, ?_, h.stored, ?_, h.repeating⟩
  · intro other call hcall
    obtain ⟨-, hmine⟩ | ⟨-, hother⟩ := pending_update hcall
    · cases hmine
      exact hkey
    · exact h.keyed other call hother
  · intro first second call call' hcall hcall' hk hk'
    obtain ⟨rfl, hmine⟩ | ⟨-, hother⟩ := pending_update hcall
    · cases hmine
      obtain ⟨rfl, -⟩ | ⟨-, hother'⟩ := pending_update hcall'
      · rfl
      · exact absurd hk' (hfree (Option.some.inj hk) second call' hother')
    · obtain ⟨-, hmine'⟩ | ⟨-, hother'⟩ := pending_update hcall'
      · cases hmine'
        exact absurd hk (hfree (Option.some.inj hk') first call hother)
      · exact h.alone first second call call' hother hother' hk hk'
  · intro other call hcall hk response hresponse hcreates
    obtain ⟨-, hmine⟩ | ⟨-, hother⟩ := pending_update hcall
    · cases hmine
      by_contra hrecent
      cases Option.some.inj hk
      have hhit := h.getJson hresponse hcreates (not_le.mp hrecent)
      cases hmiss.symm.trans hhit
    · exact h.missed other call hother hk response hresponse hcreates

theorem replaying_created (h : Replaying key ⟨w, pending⟩) {request : CreateRequest}
    {cacheKey body : String} (hcall : pending slot = some (.create request cacheKey)) :
    Replaying key ⟨w, Function.update pending slot (some (.setJson request cacheKey body))⟩ := by
  -- the request stays past its look-up
  have hold {other : Nat} {call : CreateCall}
      (hother : Function.update pending slot (some (.setJson request cacheKey body)) other =
        some call) :
      ∃ call', pending other = some call' ∧ call'.cacheKey? = call.cacheKey? ∧
        (call'.Keyed → call.Keyed) := by
    obtain ⟨rfl, hmine⟩ | ⟨-, hpending⟩ := pending_update hother
    · cases hmine
      exact ⟨_, hcall, rfl, fun hkeyed => hkeyed⟩
    · exact ⟨call, hpending, rfl, fun hkeyed => hkeyed⟩
  refine ⟨h.past, ?_, ?_, h.stored, ?_, h.repeating⟩
  · intro other call hother
    obtain ⟨call', hpending, -, hkeyed⟩ := hold hother
    exact hkeyed (h.keyed other call' hpending)
  · intro first second call call' hfirst hsecond hk hk'
    obtain ⟨_, hfirst, hsame, -⟩ := hold hfirst
    obtain ⟨_, hsecond, hsame', -⟩ := hold hsecond
    exact h.alone first second _ _ hfirst hsecond (hsame.trans hk) (hsame'.trans hk')
  · intro other call hother hk
    obtain ⟨_, hpending, hsame, -⟩ := hold hother
    exact h.missed other _ hpending (hsame.trans hk)

theorem replaying_stored (h : Replaying key ⟨w, pending⟩) {request : CreateRequest}
    {cacheKey body : String} (hcall : pending slot = some (.setJson request cacheKey body)) :
    Replaying key ⟨{ w with
      redis := Function.update w.redis cacheKey (some ⟨201, body, w.now + idempotencyTtl⟩) }.respond
        request body (some request.dto.shipmentId), Function.update pending slot none⟩ := by
  have hkeyed : request.cacheKey = some cacheKey := h.keyed slot _ hcall
  by_cases hkey : cacheKey = redisKey key
  · subst hkey
    have hmine : request.key = some key := key_of_cacheKey hkeyed
    have hcreates :
        CreateResponse.Creates key ⟨request, body, some request.dto.shipmentId, w.now⟩ :=
      ⟨hmine, rfl⟩
    have hended : Replaying key ⟨w, Function.update pending slot none⟩ := h.ended
    refine ⟨?_, hended.keyed, hended.alone, ?_, ?_, ?_⟩
    · intro response hresponse
      rcases List.mem_cons.mp hresponse with rfl | hold
      · exact le_refl w.now
      · exact h.past response hold
    · intro last hlast
      have hnewest : lastCreation key
          (⟨request, body, some request.dto.shipmentId, w.now⟩ :: w.responses) =
            some ⟨request, body, some request.dto.shipmentId, w.now⟩ :=
        List.find?_cons_of_pos (by simpa using hcreates)
      cases hnewest.symm.trans hlast
      exact Function.update_self ..
    · intro other call hother hk
      obtain ⟨-, hnone⟩ | ⟨hne, hpending⟩ := pending_update hother
      · cases hnone
      · exact absurd (h.alone other slot call _ hpending hcall hk rfl) hne
    · refine List.pairwise_cons.mpr ⟨fun earlier hearlier _ hearlierCreates hrecent => ?_,
        h.repeating⟩
      have hexpired := h.missed slot _ hcall rfl earlier hearlier hearlierCreates
      exact absurd hrecent (not_lt.mpr hexpired)
  · have hother : request.key ≠ some key := by
      intro hmine
      rw [cacheKey_eq, hmine] at hkeyed
      exact hkey (Option.some.inj hkeyed).symm
    have hredis : Replaying key ⟨{ w with
        redis := Function.update w.redis cacheKey
          (some ⟨201, body, w.now + idempotencyTtl⟩) }, pending⟩ := by
      refine ⟨h.past, h.keyed, h.alone, fun last hlast => ?_, h.missed, h.repeating⟩
      exact (Function.update_of_ne (Ne.symm hkey) ..).trans (h.stored last hlast)
    exact (hredis.respond (fun hmine => absurd hmine hother)
      (fun hmine => absurd hmine hother)).ended

theorem replaying_resume (h : Replaying key ⟨w, pending⟩) {call : CreateCall} {next : CreateWorld}
    {rest : Option CreateCall} (hcall : pending slot = some call)
    (hresumed : PostResumed w call next rest)
    (hfree : ∀ request, call = .getJson request → request.key = some key →
      ∀ other call, pending other = some call → call.cacheKey? ≠ some (redisKey key)) :
    Replaying key ⟨next, Function.update pending slot rest⟩ := by
  cases hresumed with
  | ended call db => exact (h.withDb db).ended
  | @unkeyed request hkey db body created =>
      have hother : request.key ≠ some key := by
        intro hmine
        rw [cacheKey_eq, hmine] at hkey
        cases hkey
      exact ((h.withDb db).respond (fun hmine => absurd hmine hother)
        (fun hmine => absurd hmine hother)).ended
  | @hit request cacheKey cached hkey hcached =>
      refine (h.respond (fun _ => rfl) fun hmine response hresponse hcreates hrecent => ?_).ended
      have hhit := h.getJson hresponse hcreates hrecent
      rw [cacheKey_eq, hmine] at hkey
      cases hkey
      exact congrArg CachedResponse.body (Option.some.inj (hcached.symm.trans hhit))
  | miss hkey hcached =>
      refine replaying_miss h hkey hcached fun hmine => ?_
      subst hmine
      exact hfree _ rfl (key_of_cacheKey hkey)
  | created request cacheKey body db => exact replaying_created (h.withDb db) hcall
  | stored request cacheKey body => exact replaying_stored h hcall

theorem replaying_begin (h : Replaying key ⟨w, pending⟩) {call : CreateCall}
    (hstarts : call.starts = true) :
    Replaying key ⟨w, Function.update pending slot (some call)⟩ := by
  have hkey : call.cacheKey? = none := by
    cases call with
    | getJson => rfl
    | create | setJson => cases hstarts
  have hold {other : Nat} {call' : CreateCall} {cacheKey : String}
      (hcall : Function.update pending slot (some call) other = some call')
      (hk : call'.cacheKey? = some cacheKey) : pending other = some call' := by
    obtain ⟨-, hmine⟩ | ⟨-, hother⟩ := pending_update hcall
    · cases hmine
      cases hkey.symm.trans hk
    · exact hother
  refine ⟨h.past, fun other call' hcall => ?_, ?_, h.stored, ?_, h.repeating⟩
  · cases hk : call'.cacheKey? with
    | none =>
        cases call' with
        | getJson => trivial
        | create | setJson => cases hk
    | some cacheKey => exact h.keyed other call' (hold hcall hk)
  · intro first second call₁ call₂ hfirst hsecond hk hk'
    exact h.alone first second call₁ call₂ (hold hfirst hk) (hold hsecond hk') hk hk'
  · intro other call' hcall hk
    exact h.missed other call' (hold hcall hk) hk

theorem replaying_wait (h : Replaying key ⟨w, pending⟩) (seconds : Nat) :
    Replaying key ⟨{ w with now := w.now + seconds }, pending⟩ :=
  ⟨fun response hresponse => (h.past response hresponse).trans (Nat.le_add_right _ _), h.keyed,
    h.alone, h.stored, fun slot call hcall hk response hresponse hcreates =>
      (h.missed slot call hcall hk response hresponse hcreates).trans (Nat.le_add_right _ _),
    h.repeating⟩

theorem replaying_step {services : Services} {respond : CreateShipmentDto → Db → String}
    {s t : Posting} {a : PostAction} (hallowed : OneAtATime key s a)
    (hstep : (posting services respond).step s a = some t) (h : Replaying key s) :
    Replaying key t := by
  obtain ⟨slot, call, rfl, hstarts, -, rfl⟩ | ⟨slot, input, call, rfl, hcall, rfl⟩ |
    ⟨seconds, rfl, rfl⟩ := (posting services respond).step_cases hstep
  · exact replaying_begin h hstarts
  · refine replaying_resume h hcall (postResumed services respond input s.shared call) ?_
    intro request hrequest
    exact hallowed request (hrequest ▸ hcall)
  · exact replaying_wait h seconds

end Step

/-- Where the requests under a key come one at a time, whatever is answered within a day after a
creation is its response, and creates nothing. -/
theorem creation_repeated (services : Services) (respond : CreateShipmentDto → Db → String)
    (key : String) (db : Db) (s : Posting)
    (hrun : StepsAlong (posting services respond).step (OneAtATime key) (Posting.idle db) s) :
    s.shared.responses.Pairwise (Repeats key) := by
  have hstart : Replaying key (Posting.idle db) :=
    ⟨fun _ h => (nomatch h), fun _ _ h => (nomatch h), fun _ _ _ _ h => (nomatch h),
      fun _ h => (nomatch h), fun _ _ h => (nomatch h), .nil⟩
  have hreplaying : Replaying key s :=
    hrun.invariant (fun _ _ _ hallowed hstep h => replaying_step hallowed hstep h) hstart
  exact hreplaying.repeating

/-- The response names the shipment. -/
def nameShipment (dto : CreateShipmentDto) (_ : Db) : String := dto.shipmentId

def buyerPayload : JwtPayload := ⟨"u-1", "GBUYER", .buyer, none⟩

def buyerRequest (shipmentId : String) : CreateRequest :=
  ⟨buyerPayload, requestFor shipmentId, some "retry-1"⟩

/-- Another user, with a shipment of his own and the same key. -/
def otherRequest : CreateRequest where
  payload := ⟨"u-2", "GSUPPLIER", .buyer, none⟩
  dto := { requestFor "SHIP-3" with
    buyerAddress := "GSUPPLIER"
    supplierAddress := some "GBUYER"
    buyer_nonempty := by decide }
  idempotencyKey := some "retry-1"

def available : CreateInput := ⟨.calm 1, false⟩

/-- A request from its look-up to its response, where it misses. -/
def postRun (slot : Nat) (request : CreateRequest) : List PostAction :=
  [.begin slot (.getJson request), .resume slot available, .resume slot available,
    .resume slot available]

/-- The buyer sends his request again an hour later. -/
theorem retry_repeats_creation :
    ∃ s : Posting,
      s.shared.responses.map (fun r => (r.body, r.created)) =
        [("SHIP-2", none), ("SHIP-2", some "SHIP-2")] ∧
      s.shared.responses.Pairwise (Repeats "retry-1") := by
  refine ⟨_, ?_, creation_repeated openServices nameShipment "retry-1" registeredDb.hot _
    (.tail (.tail (.tail (.tail (.tail (.tail (.tail (.refl _)
      (a := .begin 0 (.getJson (buyerRequest "SHIP-2"))) trivial rfl)
      (a := .resume 0 available) ?_ rfl) (a := .resume 0 available) ?_ rfl)
      (a := .resume 0 available) ?_ rfl) (a := .external 3600) trivial rfl)
      (a := .begin 0 (.getJson (buyerRequest "SHIP-2"))) trivial rfl)
      (a := .resume 0 available) ?_ rfl)⟩
  · decide +kernel
  · rintro request - - (_ | other) call hcall
    · cases hcall
      exact nofun
    · cases hcall
  · rintro request hrequest
    cases hrequest
  · rintro request hrequest
    cases hrequest
  · rintro request - - (_ | other) call hcall
    · cases hcall
      exact nofun
    · cases hcall

/-- The responses of one user. -/
def CreateWorld.bodiesOf (w : CreateWorld) (user : String) : List String :=
  (w.responses.filter fun r => r.request.payload.sub = user).map CreateResponse.body

/-- Two requests of one user under one key that overlap. -/
def overlappingPosts : List PostAction :=
  [.begin 0 (.getJson (buyerRequest "SHIP-2")), .begin 1 (.getJson (buyerRequest "SHIP-3")),
    .resume 0 available, .resume 1 available, .resume 0 available, .resume 1 available,
    .resume 0 available, .resume 1 available]

/-- The other user alone gets his own shipment, and after the buyer the buyer's;
and the overlapping requests of one user create two shipments. -/
theorem key_neither_isolates_nor_serializes :
    let run (actions : List PostAction) :=
      actions.foldlM (posting openServices nameShipment).step (Posting.idle registeredDb.hot)
    (run (postRun 0 otherRequest)).map (·.shared.bodiesOf "u-2") = some ["SHIP-3"] ∧
      (run (postRun 1 (buyerRequest "SHIP-2") ++ (postRun 0 otherRequest).take 2)).map
        (·.shared.bodiesOf "u-2") = some ["SHIP-2"] ∧
      (run overlappingPosts).map (·.shared.responses.map CreateResponse.created) =
        some [some "SHIP-3", some "SHIP-2"] := by
  decide +kernel

end ChainSettle
