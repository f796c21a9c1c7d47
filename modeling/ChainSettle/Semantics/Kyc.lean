import ChainSettle.Semantics.Creation
import ChainSettle.Semantics.Webhooks

/-!
Identity verification. A case begins with `initiateVerification`, and it is
decided by the provider's webhook or by an administrator; `withdraw` and the
daily expiry job end it. Every operation reads a user's row and writes it in a
later statement, so all of them overlap freely.

Audit entries and notifications are left out: `AuditLogService.record` never
throws, and a notification that throws in the expiry job ends it like a crash
before its next write. `grants` and `reverts` record what happened: when users
were verified, and which verifications the expiry job took back.
-/

namespace ChainSettle

open Lib

section Rows

/-- The columns about identity verification, with those the gates read. -/
structure KycUser extends User where
  id : String
  kycReference : Option String
  kycSubmittedAt : Option Nat
  kycVerifiedAt : Option Nat
  kycReminder30dSentAt : Option Nat
  kycReminder7dSentAt : Option Nat
deriving DecidableEq

structure KycService where
  webhookSecret : String
  validityDays : Nat
deriving DecidableEq

/-- The enumeration's spelling. -/
def KycStatus.name : KycStatus → String
  | .unverified => "UNVERIFIED"
  | .pending => "PENDING"
  | .verified => "VERIFIED"
  | .rejected => "REJECTED"

/-- What the provider may report. -/
inductive KycResult where
  | verified | rejected | pending
deriving DecidableEq

def KycResult.status : KycResult → KycStatus
  | .verified => .verified
  | .rejected => .rejected
  | .pending => .pending

structure KycWebhookDto where
  reference : String
  stellarAddress : String
  status : KycResult
deriving DecidableEq

def KycWebhookDto.stringify (dto : KycWebhookDto) : String :=
  Json.stringify (.obj [("reference", .str dto.reference),
    ("stellarAddress", .str dto.stellarAddress), ("status", .str dto.status.status.name)])

/-- The `where` of its lookup. -/
def KycWebhookDto.finds (dto : KycWebhookDto) (user : KycUser) : Bool :=
  decide (user.kycReference = some dto.reference) ||
    decide (user.stellarAddress = dto.stellarAddress)

/-- In milliseconds. -/
def DAY_MS : Nat := 24 * 60 * 60 * 1000

def KycService.expiresAt (service : KycService) (verifiedAt : Nat) : Nat :=
  verifiedAt + service.validityDays * DAY_MS

inductive KycReminder where
  | days30 | days7
deriving DecidableEq

def KycReminder.days : KycReminder → Nat
  | .days30 => 30
  | .days7 => 7

def KycReminder.sentAt : KycReminder → KycUser → Option Nat
  | .days30 => KycUser.kycReminder30dSentAt
  | .days7 => KycUser.kycReminder7dSentAt

/-- The users that a pass reminds. -/
def KycReminder.selects (reminder : KycReminder) (now : Nat) (user : KycUser) : Bool :=
  decide (user.kycStatus = .verified) && (reminder.sentAt user).isNone &&
    user.kycExpiresAt.any fun expiresAt =>
      decide (now < expiresAt) && decide (expiresAt ≤ now + reminder.days * DAY_MS)

/-- The users whose verification has lapsed. -/
def KycUser.lapsed (now : Nat) (user : KycUser) : Bool :=
  decide (user.kycStatus = .verified) && user.kycExpiresAt.any (· ≤ now)

end Rows

section Updates

def KycUser.initiated (reference : String) (submittedAt : Nat) (user : KycUser) : KycUser :=
  { user with
    kycStatus := .pending, kycReference := some reference, kycSubmittedAt := some submittedAt }

/-- The provider's result; a verification sets the dates and clears the reminders. -/
def KycUser.reported (service : KycService) (dto : KycWebhookDto) (verifiedAt : Nat)
    (user : KycUser) : KycUser :=
  let user := { user with kycStatus := dto.status.status, kycReference := some dto.reference }
  if dto.status = .verified then
    { user with
      kycVerifiedAt := some verifiedAt
      kycExpiresAt := some (service.expiresAt verifiedAt)
      kycReminder30dSentAt := none
      kycReminder7dSentAt := none }
  else user

def KycUser.withdrawn (user : KycUser) : KycUser :=
  { user with kycStatus := .unverified, kycReference := none }

/-- A decision writes the status alone. -/
def KycUser.decided (decision : KycStatus) (user : KycUser) : KycUser :=
  { user with kycStatus := decision }

def KycUser.reminded (reminder : KycReminder) (now : Nat) (user : KycUser) : KycUser :=
  match reminder with
  | .days30 => { user with kycReminder30dSentAt := some now }
  | .days7 => { user with kycReminder7dSentAt := some now }

def KycUser.expired (user : KycUser) : KycUser := { user with kycStatus := .unverified }

@[simp] theorem KycUser.reported_id (service : KycService) (dto : KycWebhookDto) (verifiedAt : Nat)
    (user : KycUser) : (user.reported service dto verifiedAt).id = user.id := by
  unfold KycUser.reported
  dsimp only
  split <;> rfl

@[simp] theorem KycUser.reminded_id (reminder : KycReminder) (now : Nat) (user : KycUser) :
    (user.reminded reminder now).id = user.id := by
  cases reminder <;> rfl

end Updates

section Calls

/-- The database statements before which a call can be suspended. -/
inductive KycStatement where
  | initiateVerification (userId : String)
  | initiateUpdate (userId reference : String) (submittedAt : Nat)
  | handleWebhook (dto : KycWebhookDto) (signature : Option String)
  | webhookUpdate (user : KycUser) (dto : KycWebhookDto) (verifiedAt : Nat)
  | withdraw (userId id : String)
  | withdrawUpdate (userId : String)
  | decide (userId : String) (decision : KycStatus)
  | decideUpdate (userId : String) (decision : KycStatus)
  /-- the expiry job -/
  | run
  | remindFind (reminder : KycReminder) (passes : List KycReminder) (now : Nat)
  | remindUpdate (reminder : KycReminder) (user : KycUser) (users : List KycUser)
      (passes : List KycReminder) (now : Nat)
  | expireLapsed
  /-- the selected users, each with the number of verifications until then -/
  | expireUpdate (user : KycUser × Nat) (users : List (KycUser × Nat))

inductive KycReply where
  | initiated (reference : String)
  /-- "KYC status updated" -/
  | updated
  /-- "KYC submission withdrawn" -/
  | withdrawn
  | decided (userId : String) (decision : KycStatus)
deriving DecidableEq

/-- A verification that the expiry job took back, with the number of verifications
of the user when it selected him and when it wrote his row. -/
structure KycRevert where
  userId : String
  selected : Nat
  written : Nat
deriving DecidableEq

structure KycWorld where
  users : Table KycUser.id
  /-- in milliseconds -/
  now : Nat
  /-- user and instant, the latest first -/
  grants : List (String × Nat)
  reverts : List KycRevert
  responses : List (Except HttpError KycReply)

/-- The inputs of a step: `randomUUID`, the order of the rows, and whether the
database throws. -/
structure KycInput where
  uuid : String
  scan : Scan KycUser
  thrown : Bool

namespace KycWorld

variable (w : KycWorld)

def respond (response : Except HttpError KycReply) : KycWorld :=
  { w with responses := response :: w.responses }

def fail (status : Nat) (message : String) : KycWorld × List KycStatement :=
  (w.respond (.error ⟨status, message⟩), [])

def grantsOf (userId : String) : List Nat :=
  (w.grants.filter fun grant => grant.1 = userId).map Prod.snd

def grant (userId : String) (instant : Nat) : KycWorld :=
  { w with grants := (userId, instant) :: w.grants }

def update (id : String) (f : KycUser → KycUser) (hf : ∀ user, (f user).id = user.id) : KycWorld :=
  { w with users := w.users.modify id f hf }

end KycWorld

/-- The next statement of the expiry job. -/
def remindNext (reminder : KycReminder) (users : List KycUser) (passes : List KycReminder)
    (now : Nat) : KycStatement :=
  match users, passes with
  | user :: users, passes => .remindUpdate reminder user users passes now
  | [], reminder :: passes => .remindFind reminder passes now
  | [], [] => .expireLapsed

def expireNext : List (KycUser × Nat) → List KycStatement
  | [] => []
  | user :: users => [.expireUpdate user users]

variable (crypto : Crypto) (service : KycService)

/-- The signature of a webhook, when a secret is configured. -/
def KycService.accepts (dto : KycWebhookDto) (signature : Option String) : Bool :=
  service.webhookSecret = "" ||
    truthyText signature == some (crypto.hmacSha256 service.webhookSecret dto.stringify).text

def KycStatement.exec (input : KycInput) (w : KycWorld) : KycStatement → KycWorld × List KycStatement
  | .initiateVerification userId =>
      match w.users.find? userId with
      | none => w.fail 404 "User not found"
      | some _ => (w, [.initiateUpdate userId input.uuid w.now])
  | .initiateUpdate userId reference submittedAt =>
      ((w.update userId (KycUser.initiated reference submittedAt) fun _ => rfl).respond
        (.ok (.initiated reference)), [])
  | .handleWebhook dto signature =>
      if service.accepts crypto dto signature then
        match input.scan.findFirst w.users.rows dto.finds with
        | none =>
            w.fail 404 ("No user found for reference \"" ++ dto.reference ++ "\" / address \"" ++
              dto.stellarAddress ++ "\"")
        | some user => (w, [.webhookUpdate user dto w.now])
      else w.fail 401 "Invalid KYC webhook signature"
  | .webhookUpdate user dto verifiedAt =>
      let w := w.update user.id (KycUser.reported service dto verifiedAt)
        (KycUser.reported_id _ _ _)
      ((if dto.status = .verified then w.grant user.id verifiedAt else w).respond (.ok .updated), [])
  | .withdraw userId id =>
      match w.users.find? userId with
      | none => w.fail 404 "User not found"
      | some user =>
          if truthyText user.kycReference ≠ some id then
            w.fail 404 ("No KYC submission found with id \"" ++ id ++ "\"")
          else if user.kycStatus = .verified ∨ user.kycStatus = .rejected then
            w.fail 409
              "This KYC submission has already been decided and can no longer be withdrawn"
          else (w, [.withdrawUpdate userId])
  | .withdrawUpdate userId =>
      ((w.update userId KycUser.withdrawn fun _ => rfl).respond (.ok .withdrawn), [])
  | .decide userId decision =>
      match w.users.find? userId with
      | none => w.fail 404 "User not found"
      | some user =>
          if user.kycStatus ≠ .pending then
            w.fail 409 ("KYC case is " ++ user.kycStatus.name ++
              ", only PENDING cases can be reviewed")
          else (w, [.decideUpdate userId decision])
  | .decideUpdate userId decision =>
      -- a conditional `updateMany`
      if (w.users.find? userId).any fun user => user.kycStatus = .pending then
        let w := w.update userId (KycUser.decided decision) fun _ => rfl
        ((if decision = .verified then w.grant userId w.now else w).respond
          (.ok (.decided userId decision)), [])
      else w.fail 409 "KYC case was already reviewed"
  | .run =>
      let users := input.scan.findMany w.users.rows (KycReminder.selects .days30 w.now)
      (w, [remindNext .days30 users [.days7] w.now])
  | .remindFind reminder passes now =>
      let users := input.scan.findMany w.users.rows (reminder.selects now)
      (w, [remindNext reminder users passes now])
  | .remindUpdate reminder user users passes now =>
      (w.update user.id (KycUser.reminded reminder now) (KycUser.reminded_id _ _),
        [remindNext reminder users passes now])
  | .expireLapsed =>
      let users := input.scan.findMany w.users.rows (KycUser.lapsed w.now)
      (w, expireNext (users.map fun user => (user, (w.grantsOf user.id).length)))
  | .expireUpdate (user, selected) users =>
      ({ w.update user.id KycUser.expired fun _ => rfl with
        reverts := ⟨user.id, selected, (w.grantsOf user.id).length⟩ :: w.reverts },
        expireNext users)

/-- A statement that throws ends its call. -/
def KycStatement.resume (input : KycInput) (w : KycWorld) (next : KycStatement) :
    KycWorld × List KycStatement :=
  if input.thrown then (w, []) else next.exec crypto service input w

def KycStatement.starts : KycStatement → Bool
  | .initiateVerification _ | .handleWebhook .. | .withdraw .. | .run => true
  | .decide _ decision => decision = .verified || decision = .rejected
  | _ => false

def kyc : PoolSystem KycWorld KycStatement KycInput Nat where
  starts := KycStatement.starts
  resume input w next := next.resume crypto service input w
  external milliseconds w := { w with now := w.now + milliseconds }

end Calls

abbrev KycPool := Pool KycWorld KycStatement

abbrev KycAction := PoolAction KycStatement KycInput Nat

end ChainSettle
