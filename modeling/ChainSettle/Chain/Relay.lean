import ChainSettle.Lib.Conversations
import ChainSettle.Semantics.Database

/-!
The relay of signed transactions. A submission is checked, sent to the RPC with retries, answered,
and then polled for until its final status can be pushed to the user, or polling is given up. The
RPC may answer anything, and any number of submissions are under way; each of them is suspended
before its next statement, and may be lost with its process.

`RelayStep` is what a submission does as seen from outside, and the results are about it.
-/

namespace ChainSettle

open Lib

section Sdk

structure RelayCaller where
  id : String
  stellarAddress : String
deriving DecidableEq

/-- `Transaction` -/
structure SignedTransaction where
  source : String
  hash : String
  signatures : List String
deriving DecidableEq

inductive Envelope where
  | transaction (tx : SignedTransaction)
  | feeBump (innerTransaction : SignedTransaction)
deriving DecidableEq

def Envelope.inner : Envelope → SignedTransaction
  | .transaction tx => tx
  | .feeBump innerTransaction => innerTransaction

/-- The Stellar SDK; `none` is an exception. -/
structure StellarSdk (κ : Type) where
  networkPassphrase : String
  fromXDR : String → String → Option Envelope
  fromPublicKey : String → Option κ
  verify : κ → String → String → Option Bool

inductive SendStatus where
  | pending | duplicate | tryAgainLater | error
deriving DecidableEq

structure SendResponse where
  status : SendStatus
  hash : String
  /-- in base 64 -/
  errorResult : Option String
deriving DecidableEq

inductive TransactionStatus where
  | success (ledger : Nat)
  | failed (resultXdr : Option String) (ledger : Nat)
  | notFound
deriving DecidableEq

/-- What the RPC answers, or the message of what the call throws. -/
structure RpcReplies where
  send : Except String SendResponse
  get : Except String TransactionStatus

/-- The event `chain:tx`, with the user it is pushed to. -/
structure TxPush where
  userId : String
  hash : String
  status : String
  resultXdr : Option String
  ledger : Option Nat
deriving DecidableEq

end Sdk

section Statements

def MAX_SEND_RETRIES : Nat := 3

def MAX_POLLS : Nat := 30

def retryDelayMs (attempt : Nat) : Nat := 500 * 2 ^ attempt

variable {κ : Type} (sdk : StellarSdk κ)

/-- A signature whose check throws is not valid. -/
def StellarSdk.hasValidSignature (tx : SignedTransaction) (address : String) : Option Bool :=
  (sdk.fromPublicKey address).map fun keypair =>
    tx.signatures.any fun sig => sdk.verify keypair tx.hash sig = some true

/-- What `submit` checks before it sends anything. -/
def StellarSdk.decodeSigned (signedXdr : String) (caller : RelayCaller) :
    Except HttpError Envelope :=
  match sdk.fromXDR signedXdr sdk.networkPassphrase with
  | none => .error ⟨400, "signedXdr is not a valid transaction envelope"⟩
  | some tx =>
      if tx.inner.source ≠ caller.stellarAddress then
        .error ⟨403, "Transaction source account must be the caller"⟩
      else
        match sdk.hasValidSignature tx.inner caller.stellarAddress with
        | none => .error ⟨500, "Internal server error"⟩
        | some false =>
            .error ⟨400, "Transaction is not signed by the caller for this network " ++
              "(network passphrase mismatch?)"⟩
        | some true => .ok tx

/-- The last answer that `sendWithRetry` returns is the first that is not to be tried again. -/
def SendResponse.retried (response : SendResponse) (attempt : Nat) : Bool :=
  response.status = .tryAgainLater && attempt < MAX_SEND_RETRIES

def failedPush (userId : String) (response : SendResponse) : TxPush :=
  ⟨userId, response.hash, "FAILED", response.errorResult, none⟩

/-- The push that ends the polling, if there is one. -/
def finalPush (userId hash : String) : Except String TransactionStatus → Option TxPush
  | .ok (.success ledger) => some ⟨userId, hash, "SUCCESS", none, some ledger⟩
  | .ok (.failed resultXdr ledger) => some ⟨userId, hash, "FAILED", resultXdr, some ledger⟩
  | .ok .notFound => none
  | .error _ => none

def timeoutPush (userId hash : String) : TxPush := ⟨userId, hash, "TIMEOUT", none, none⟩

/-- What a statement does. -/
inductive RelayEvent where
  | rejected (error : HttpError)
  | accepted (caller : RelayCaller) (tx : Envelope)
  /-- a call of the pool's proxy, which may try several endpoints -/
  | sent (tx : Envelope) (attempt : Nat)
  | retried (reply : Except String SendResponse) (sleepMs : Nat)
  | gaveUp (error : HttpError)
  /-- the RPC has refused the transaction: the push, and the answer `FAILED` -/
  | refused (response : SendResponse) (push : TxPush)
  /-- the request is answered -/
  | tracked (response : SendResponse)
  | polled (reply : Except String TransactionStatus) (push : Option TxPush)

/-- The number is that of the submission. -/
inductive RelayCall where
  | submit (signedXdr : String) (caller : RelayCaller)
  | sendTransaction (number : Nat) (caller : RelayCaller) (tx : Envelope) (attempt : Nat)
  | sendReply (number : Nat) (caller : RelayCaller) (tx : Envelope) (attempt : Nat)
  | getTransaction (number : Nat) (userId hash : String) (i : Nat)

structure RelayWorld where
  submissions : Nat
  log : List (Nat × RelayEvent)

def RelayWorld.push (w : RelayWorld) (number : Nat) (e : RelayEvent) : RelayWorld :=
  { w with log := (number, e) :: w.log }

def RelayCall.resume (replies : RpcReplies) (w : RelayWorld) :
    RelayCall → RelayWorld × List RelayCall
  | .submit signedXdr caller =>
      let number := w.submissions
      let w := { w with submissions := number + 1 }
      match sdk.decodeSigned signedXdr caller with
      | .error err => (w.push number (.rejected err), [])
      | .ok tx => (w.push number (.accepted caller tx), [.sendTransaction number caller tx 0])
  | .sendTransaction number caller tx attempt =>
      (w.push number (.sent tx attempt), [.sendReply number caller tx attempt])
  | .sendReply number caller tx attempt =>
      let again := (w.push number (.retried replies.send (retryDelayMs attempt)),
        [RelayCall.sendTransaction number caller tx (attempt + 1)])
      match replies.send with
      | .error message =>
          if MAX_SEND_RETRIES ≤ attempt then
            (w.push number (.gaveUp ⟨502, "RPC submit failed: " ++ message⟩), [])
          else again
      | .ok response =>
          if response.retried attempt then again
          else if response.status = .error then
            (w.push number (.refused response (failedPush caller.id response)), [])
          else
            (w.push number (.tracked response), [.getTransaction number caller.id response.hash 0])
  | .getTransaction number userId hash i =>
      match finalPush userId hash replies.get with
      | some push => (w.push number (.polled replies.get (some push)), [])
      | none =>
          if i + 1 < MAX_POLLS then
            (w.push number (.polled replies.get none), [.getTransaction number userId hash (i + 1)])
          else (w.push number (.polled replies.get (some (timeoutPush userId hash))), [])

def relay : PoolSystem RelayWorld RelayCall RpcReplies Unit where
  starts call := match call with
    | .submit _ _ => true
    | _ => false
  resume replies w call := call.resume sdk replies w
  external _ w := w

abbrev RelayAction := PoolAction RelayCall RpcReplies Unit

def idleRelay : Pool RelayWorld RelayCall := ⟨⟨0, []⟩, []⟩

end Statements

section Protocol

variable {κ : Type} (sdk : StellarSdk κ)

/-- The caller is the source of the transaction and has signed it. -/
def SignedByCaller (caller : RelayCaller) (tx : Envelope) : Prop :=
  tx.inner.source = caller.stellarAddress ∧
    ∃ keypair, sdk.fromPublicKey caller.stellarAddress = some keypair ∧
      ∃ sig ∈ tx.inner.signatures, sdk.verify keypair tx.inner.hash sig = some true

inductive RelayPhase where
  | received
  | sending (caller : RelayCaller) (tx : Envelope) (attempt : Nat)
  | awaiting (caller : RelayCaller) (tx : Envelope) (attempt : Nat)
  | tracking (userId hash : String) (polls : Nat)
  | closed

/-- Nothing came back, or the wish to be asked again. -/
def Transient : Except String SendResponse → Prop
  | .error _ => True
  | .ok response => response.status = .tryAgainLater

inductive RelayStep : RelayPhase → RelayEvent → RelayPhase → Prop where
  | rejected (error : HttpError) : RelayStep .received (.rejected error) .closed
  | accepted {caller : RelayCaller} {tx : Envelope} : SignedByCaller sdk caller tx →
      RelayStep .received (.accepted caller tx) (.sending caller tx 0)
  | sent (caller : RelayCaller) (tx : Envelope) (attempt : Nat) :
      RelayStep (.sending caller tx attempt) (.sent tx attempt) (.awaiting caller tx attempt)
  | retried (caller : RelayCaller) (tx : Envelope) {attempt : Nat}
      {reply : Except String SendResponse} : attempt < 3 → Transient reply →
      RelayStep (.awaiting caller tx attempt) (.retried reply (500 * 2 ^ attempt))
        (.sending caller tx (attempt + 1))
  | gaveUp (caller : RelayCaller) (tx : Envelope) {attempt : Nat} (error : HttpError) :
      3 ≤ attempt → RelayStep (.awaiting caller tx attempt) (.gaveUp error) .closed
  | refused (caller : RelayCaller) (tx : Envelope) (attempt : Nat) {response : SendResponse} :
      response.status = .error →
      RelayStep (.awaiting caller tx attempt) (.refused response (failedPush caller.id response))
        .closed
  | tracked (caller : RelayCaller) (tx : Envelope) (attempt : Nat) {response : SendResponse} :
      response.status ≠ .error →
      RelayStep (.awaiting caller tx attempt) (.tracked response)
        (.tracking caller.id response.hash 0)
  | pending {userId hash : String} {polls : Nat} {reply : Except String TransactionStatus} :
      finalPush userId hash reply = none → polls + 1 < 30 →
      RelayStep (.tracking userId hash polls) (.polled reply none)
        (.tracking userId hash (polls + 1))
  | final {userId hash : String} {polls : Nat} {reply : Except String TransactionStatus}
      {push : TxPush} : finalPush userId hash reply = some push →
      RelayStep (.tracking userId hash polls) (.polled reply (some push)) .closed
  | timeout {userId hash : String} {polls : Nat} {reply : Except String TransactionStatus} :
      finalPush userId hash reply = none → 30 ≤ polls + 1 →
      RelayStep (.tracking userId hash polls) (.polled reply (some (timeoutPush userId hash)))
        .closed

def relayProtocol : Protocol RelayPhase RelayEvent where
  start := .received
  step := RelayStep sdk
  closed p := p = .closed

def RelayCall.number : RelayCall → Option Nat
  | .submit _ _ => none
  | .sendTransaction number _ _ _ | .sendReply number _ _ _ => some number
  | .getTransaction number _ _ _ => some number

def RelayCall.phase : RelayCall → RelayPhase
  | .submit _ _ => .received
  | .sendTransaction _ caller tx attempt => .sending caller tx attempt
  | .sendReply _ caller tx attempt => .awaiting caller tx attempt
  | .getTransaction _ userId hash i => .tracking userId hash i

variable {sdk}

/-- What is let through is signed by the caller. -/
theorem signed_of_decodeSigned {signedXdr : String} {caller : RelayCaller} {tx : Envelope}
    (h : sdk.decodeSigned signedXdr caller = .ok tx) : SignedByCaller sdk caller tx := by
  unfold StellarSdk.decodeSigned at h
  cases hxdr : sdk.fromXDR signedXdr sdk.networkPassphrase with
  | none =>
      rw [hxdr] at h
      cases h
  | some found =>
      rw [hxdr] at h
      dsimp only at h
      by_cases hsource : found.inner.source = caller.stellarAddress
      · rw [if_neg (not_not.mpr hsource)] at h
        unfold StellarSdk.hasValidSignature at h
        cases hkey : sdk.fromPublicKey caller.stellarAddress with
        | none =>
            rw [hkey] at h
            cases h
        | some keypair =>
            rw [hkey, Option.map_some] at h
            cases hany : found.inner.signatures.any fun sig =>
                decide (sdk.verify keypair found.inner.hash sig = some true) with
            | false =>
                rw [hany] at h
                cases h
            | true =>
                rw [hany] at h
                cases h
                obtain ⟨sig, hsig, hvalid⟩ := List.any_eq_true.mp hany
                exact ⟨hsource, keypair, hkey, sig, hsig, of_decide_eq_true hvalid⟩
      · rw [if_pos hsource] at h
        cases h

/-- Every statement is a step of the protocol. -/
theorem relay_resume (replies : RpcReplies) (w : RelayWorld) (call : RelayCall) :
    ∃ e q, (call.resume sdk replies w).1.log =
        (call.number.getD w.submissions, e) :: w.log ∧
      (call.resume sdk replies w).1.submissions =
        (if call.number.isNone then w.submissions + 1 else w.submissions) ∧
      RelayStep sdk call.phase e q ∧
      ((call.resume sdk replies w).2 = [] ∧ q = .closed ∨
        ∃ next, (call.resume sdk replies w).2 = [next] ∧
          next.number = some (call.number.getD w.submissions) ∧ next.phase = q) := by
  cases call with
  | submit signedXdr caller =>
      simp only [RelayCall.resume]
      cases hdecode : sdk.decodeSigned signedXdr caller with
      | error err => exact ⟨_, _, rfl, rfl, .rejected err, .inl ⟨rfl, rfl⟩⟩
      | ok tx =>
          exact ⟨_, _, rfl, rfl, .accepted (signed_of_decodeSigned hdecode),
            .inr ⟨_, rfl, rfl, rfl⟩⟩
  | sendTransaction number caller tx attempt =>
      exact ⟨_, _, rfl, rfl, .sent caller tx attempt, .inr ⟨_, rfl, rfl, rfl⟩⟩
  | sendReply number caller tx attempt =>
      simp only [RelayCall.resume]
      cases hreply : replies.send with
      | error message =>
          dsimp only
          by_cases hlast : MAX_SEND_RETRIES ≤ attempt
          · rw [if_pos hlast]
            exact ⟨_, _, rfl, rfl, .gaveUp caller tx _ hlast, .inl ⟨rfl, rfl⟩⟩
          · rw [if_neg hlast]
            exact ⟨_, _, rfl, rfl, .retried caller tx (Nat.lt_of_not_le hlast) trivial,
              .inr ⟨_, rfl, rfl, rfl⟩⟩
      | ok response =>
          dsimp only
          cases hretried : response.retried attempt with
          | true =>
              rw [if_pos rfl]
              obtain ⟨hstatus, hlt⟩ := Bool.and_eq_true_iff.mp hretried
              exact ⟨_, _, rfl, rfl, .retried caller tx (of_decide_eq_true hlt)
                (of_decide_eq_true hstatus : response.status = .tryAgainLater),
                .inr ⟨_, rfl, rfl, rfl⟩⟩
          | false =>
              rw [if_neg Bool.false_ne_true]
              by_cases hstatus : response.status = .error
              · rw [if_pos hstatus]
                exact ⟨_, _, rfl, rfl, .refused caller tx attempt hstatus, .inl ⟨rfl, rfl⟩⟩
              · rw [if_neg hstatus]
                exact ⟨_, _, rfl, rfl, .tracked caller tx attempt hstatus,
                  .inr ⟨_, rfl, rfl, rfl⟩⟩
  | getTransaction number userId hash i =>
      simp only [RelayCall.resume]
      cases hfinal : finalPush userId hash replies.get with
      | some push => exact ⟨_, _, rfl, rfl, .final hfinal, .inl ⟨rfl, rfl⟩⟩
      | none =>
          dsimp only
          by_cases hmore : i + 1 < MAX_POLLS
          · rw [if_pos hmore]
            exact ⟨_, _, rfl, rfl, .pending hfinal hmore, .inr ⟨_, rfl, rfl, rfl⟩⟩
          · rw [if_neg hmore]
            exact ⟨_, _, rfl, rfl, .timeout hfinal (Nat.le_of_not_lt hmore), .inl ⟨rfl, rfl⟩⟩

variable (sdk) in
def relayConversations : Conversations (relay sdk) (relayProtocol sdk) where
  issued := RelayWorld.submissions
  log := RelayWorld.log
  number := RelayCall.number
  phase := RelayCall.phase
  starts call h := by
    cases call with
    | submit signedXdr caller => rfl
    | sendTransaction number caller tx attempt => cases h
    | sendReply number caller tx attempt => cases h
    | getTransaction number userId hash i => cases h
  fresh call h := by
    cases call with
    | submit signedXdr caller => rfl
    | sendTransaction number caller tx attempt => cases h
    | sendReply number caller tx attempt => cases h
    | getTransaction number userId hash i => cases h
  external _ _ := ⟨rfl, rfl⟩
  resume := relay_resume

end Protocol

section Traces

variable {κ : Type} {sdk : StellarSdk κ}

def RelayEvent.push? : RelayEvent → Option TxPush
  | .refused _ push => some push
  | .polled _ push => push
  | _ => none

def RelayEvent.poll? : RelayEvent → Option (Except String TransactionStatus)
  | .polled reply _ => some reply
  | _ => none

def RelayEvent.send? : RelayEvent → Option Nat
  | .sent _ attempt => some attempt
  | _ => none

def RelayEvent.sleepMs : RelayEvent → Nat
  | .retried _ sleepMs => sleepMs
  | _ => 0

def pushes (trace : List RelayEvent) : List TxPush := trace.filterMap RelayEvent.push?

def polls (trace : List RelayEvent) : List (Except String TransactionStatus) :=
  trace.filterMap RelayEvent.poll?

/-- The attempts at sending, the latest first. -/
def sends (trace : List RelayEvent) : List Nat := trace.filterMap RelayEvent.send?

def slept (trace : List RelayEvent) : Nat := (trace.map RelayEvent.sleepMs).sum

variable (sdk) in
/-- What must have happened before an attempt: its transaction was let through, and one that is sent
again failed for the moment just before. -/
structure MaySend (tx : Envelope) (attempt : Nat) (trace : List RelayEvent) : Prop where
  signed : ∃ caller, .accepted caller tx ∈ trace ∧ SignedByCaller sdk caller tx
  again : attempt ≠ 0 → ∃ reply sleepMs earlier,
    trace = .retried reply sleepMs :: earlier ∧ Transient reply

variable (sdk) in
/-- The attempts are numbered from 0, and the pauses between them have doubled. -/
def SendsAt : RelayPhase → List RelayEvent → Prop
  | .received, trace => trace = []
  | .sending _ tx attempt, trace =>
      attempt ≤ 3 ∧ MaySend sdk tx attempt trace ∧ sends trace = (List.range attempt).reverse ∧
        slept trace + 500 = 500 * 2 ^ attempt
  | .awaiting _ tx attempt, trace =>
      attempt ≤ 3 ∧ (∃ caller, .accepted caller tx ∈ trace ∧ SignedByCaller sdk caller tx) ∧
        sends trace = (List.range (attempt + 1)).reverse ∧ slept trace + 500 = 500 * 2 ^ attempt
  | .tracking _ _ _, trace | .closed, trace =>
      (∃ n ≤ 4, sends trace = (List.range n).reverse) ∧ slept trace ≤ 3500

theorem sendsAt_settled {caller : RelayCaller} {tx : Envelope} {attempt : Nat}
    {trace : List RelayEvent} (h : SendsAt sdk (.awaiting caller tx attempt) trace) {e : RelayEvent}
    (hsend : e.send? = none) (hsleep : e.sleepMs = 0) :
    (∃ n ≤ 4, sends (e :: trace) = (List.range n).reverse) ∧ slept (e :: trace) ≤ 3500 := by
  obtain ⟨hle, -, hsends, hslept⟩ := h
  have hpow : 2 ^ attempt ≤ 2 ^ 3 := Nat.pow_le_pow_right (by decide) hle
  refine ⟨⟨attempt + 1, by omega, ?_⟩, ?_⟩
  · rw [sends, List.filterMap_cons_none hsend]
    exact hsends
  · rw [slept, List.map_cons, List.sum_cons, hsleep]
    rw [slept] at hslept
    omega

theorem sendsAt_step {trace : List RelayEvent} {p q : RelayPhase} {e : RelayEvent}
    (h : SendsAt sdk p trace) (hstep : RelayStep sdk p e q) : SendsAt sdk q (e :: trace) := by
  cases hstep with
  | rejected error =>
      obtain rfl : trace = [] := h
      exact ⟨⟨0, by decide, rfl⟩, Nat.zero_le _⟩
  | accepted hsigned =>
      obtain rfl : trace = [] := h
      exact ⟨by decide, ⟨⟨_, .head _, hsigned⟩, fun hne => absurd rfl hne⟩, rfl, rfl⟩
  | sent caller tx attempt =>
      obtain ⟨hle, ⟨⟨caller, haccepted, hsigned⟩, -⟩, hsends, hslept⟩ := h
      refine ⟨hle, ⟨caller, .tail _ haccepted, hsigned⟩, ?_, ?_⟩
      · rw [List.range_succ, List.reverse_append, ← hsends]
        rfl
      · simpa [slept, RelayEvent.sleepMs] using hslept
  | retried caller tx hlt htransient =>
      obtain ⟨-, ⟨caller, haccepted, hsigned⟩, hsends, hslept⟩ := h
      refine ⟨hlt, ⟨⟨caller, .tail _ haccepted, hsigned⟩, fun _ => ⟨_, _, _, rfl, htransient⟩⟩,
        hsends, ?_⟩
      rw [slept] at hslept ⊢
      rw [List.map_cons, List.sum_cons, RelayEvent.sleepMs, Nat.pow_succ]
      omega
  | gaveUp caller tx error _ => exact sendsAt_settled h rfl rfl
  | refused caller tx attempt _ => exact sendsAt_settled h rfl rfl
  | tracked caller tx attempt _ => exact sendsAt_settled h rfl rfl
  | pending _ _ => exact ⟨h.1, by simpa [slept, RelayEvent.sleepMs] using h.2⟩
  | final _ => exact ⟨h.1, by simpa [slept, RelayEvent.sleepMs] using h.2⟩
  | timeout _ _ => exact ⟨h.1, by simpa [slept, RelayEvent.sleepMs] using h.2⟩

theorem sendsAt_of_path {trace : List RelayEvent} {p : RelayPhase}
    (h : (relayProtocol sdk).Path trace p) : SendsAt sdk p trace := by
  induction h with
  | nil => exact rfl
  | cons _ hstep ih => exact sendsAt_step ih hstep

/-- Only what the caller has signed is sent, and only what failed for the moment is sent again. -/
theorem maySend_of_path {trace : List RelayEvent} {p : RelayPhase}
    (h : (relayProtocol sdk).Path trace p) {later earlier : List RelayEvent} {tx : Envelope}
    {attempt : Nat} (hsplit : trace = later ++ .sent tx attempt :: earlier) :
    MaySend sdk tx attempt earlier := by
  induction h generalizing later with
  | nil => simp at hsplit
  | cons hpath hstep ih =>
      cases later with
      | nil =>
          obtain ⟨rfl, rfl⟩ := List.cons.inj hsplit
          cases hstep with
          | sent caller tx attempt => exact (sendsAt_of_path hpath).2.1
      | cons first later => exact ih (List.cons.inj hsplit).2

theorem transient_of_path {trace : List RelayEvent} {p : RelayPhase}
    (h : (relayProtocol sdk).Path trace p) {reply : Except String SendResponse} {sleepMs : Nat}
    (hretried : .retried reply sleepMs ∈ trace) : Transient reply := by
  induction h with
  | nil => cases hretried
  | cons _ hstep ih =>
      rcases List.mem_cons.mp hretried with rfl | hmem
      · cases hstep with
        | retried _ _ _ htransient => exact htransient
      · exact ih hmem

/-- What a push is worth: it is for the user whose transaction it is about, and it says what the
RPC has last answered, or that thirty answers have been of no use. -/
inductive Warranted (trace : List RelayEvent) : TxPush → Prop where
  | refused {caller : RelayCaller} {tx : Envelope} {response : SendResponse} {push : TxPush} :
      .accepted caller tx ∈ trace → .refused response push ∈ trace → response.status = .error →
      push = ⟨caller.id, response.hash, "FAILED", response.errorResult, none⟩ →
      Warranted trace push
  | success {caller : RelayCaller} {tx : Envelope} {response : SendResponse} {ledger : Nat} :
      .accepted caller tx ∈ trace → .tracked response ∈ trace →
      (polls trace).head? = some (.ok (.success ledger)) →
      Warranted trace ⟨caller.id, response.hash, "SUCCESS", none, some ledger⟩
  | failed {caller : RelayCaller} {tx : Envelope} {response : SendResponse}
      {resultXdr : Option String} {ledger : Nat} :
      .accepted caller tx ∈ trace → .tracked response ∈ trace →
      (polls trace).head? = some (.ok (.failed resultXdr ledger)) →
      Warranted trace ⟨caller.id, response.hash, "FAILED", resultXdr, some ledger⟩
  | timeout {caller : RelayCaller} {tx : Envelope} {response : SendResponse} :
      .accepted caller tx ∈ trace → .tracked response ∈ trace → (polls trace).length = 30 →
      (∀ reply ∈ polls trace, reply = .ok .notFound ∨ ∃ message, reply = .error message) →
      Warranted trace ⟨caller.id, response.hash, "TIMEOUT", none, none⟩

/-- Nothing is pushed before the end. -/
def PushesAt : RelayPhase → List RelayEvent → Prop
  | .received, trace => trace = []
  | .sending caller tx _, trace | .awaiting caller tx _, trace =>
      pushes trace = [] ∧ polls trace = [] ∧ .accepted caller tx ∈ trace ∧
        ∀ response, .tracked response ∉ trace
  | .tracking userId hash i, trace =>
      pushes trace = [] ∧ (polls trace).length = i ∧ i < 30 ∧
        (∀ reply ∈ polls trace, reply = .ok .notFound ∨ ∃ message, reply = .error message) ∧
        ∃ caller tx response, .accepted caller tx ∈ trace ∧ .tracked response ∈ trace ∧
          userId = caller.id ∧ hash = response.hash
  | .closed, trace =>
      (pushes trace).length ≤ 1 ∧ (∀ push ∈ pushes trace, Warranted trace push) ∧
        ∀ response, .tracked response ∈ trace → (pushes trace).length = 1

theorem no_answer_of_finalPush {userId hash : String} {reply : Except String TransactionStatus}
    (h : finalPush userId hash reply = none) :
    reply = .ok .notFound ∨ ∃ message, reply = .error message := by
  cases reply with
  | error message => exact .inr ⟨message, rfl⟩
  | ok status =>
      cases status with
      | success ledger => cases h
      | failed resultXdr ledger => cases h
      | notFound => exact .inl rfl

theorem pushesAt_final {userId hash : String} {i : Nat} {trace : List RelayEvent}
    (h : PushesAt (.tracking userId hash i) trace) {reply : Except String TransactionStatus}
    {push : TxPush} (hwarranted : Warranted (.polled reply (some push) :: trace) push) :
    PushesAt .closed (.polled reply (some push) :: trace) := by
  have hone : pushes (.polled reply (some push) :: trace) = [push] :=
    congrArg (push :: ·) h.1
  refine ⟨?_, ?_, fun _ _ => ?_⟩
  · rw [hone, List.length_singleton]
  · rw [hone]
    exact List.forall_mem_singleton.mpr hwarranted
  · rw [hone, List.length_singleton]

theorem pushesAt_step {trace : List RelayEvent} {p q : RelayPhase} {e : RelayEvent}
    (h : PushesAt p trace) (hstep : RelayStep sdk p e q) : PushesAt q (e :: trace) := by
  cases hstep with
  | rejected error =>
      obtain rfl : trace = [] := h
      exact ⟨Nat.zero_le _, List.forall_mem_nil _, fun response hmem => by simp at hmem⟩
  | accepted hsigned =>
      obtain rfl : trace = [] := h
      exact ⟨rfl, rfl, .head _, fun response hmem => by simp at hmem⟩
  | sent caller tx attempt =>
      exact ⟨h.1, h.2.1, .tail _ h.2.2.1, fun response hmem => by simp [h.2.2.2] at hmem⟩
  | retried caller tx _ _ =>
      exact ⟨h.1, h.2.1, .tail _ h.2.2.1, fun response hmem => by simp [h.2.2.2] at hmem⟩
  | gaveUp caller tx error _ =>
      have hnone : pushes (.gaveUp error :: trace) = [] := h.1
      refine ⟨?_, ?_, fun response hmem => by simp [h.2.2.2] at hmem⟩
      · rw [hnone]
        exact Nat.zero_le _
      · rw [hnone]
        exact List.forall_mem_nil _
  | @refused caller tx attempt response hstatus =>
      have hone : pushes (.refused response (failedPush caller.id response) :: trace) =
          [failedPush caller.id response] := congrArg (_ :: ·) h.1
      refine ⟨?_, ?_, fun other hmem => by simp [h.2.2.2] at hmem⟩
      · rw [hone, List.length_singleton]
      · rw [hone]
        refine List.forall_mem_singleton.mpr ?_
        exact .refused (.tail _ h.2.2.1) (.head _) hstatus rfl
  | tracked caller tx attempt _ =>
      obtain ⟨hpushes, hpolls, haccepted, -⟩ := h
      refine ⟨hpushes, ?_, by decide, ?_, caller, tx, _, .tail _ haccepted, .head _, rfl, rfl⟩
      · exact congrArg List.length hpolls
      · intro reply hreply
        exact absurd (hpolls ▸ hreply : reply ∈ []) List.not_mem_nil
  | @pending userId hash i reply hfinal hmore =>
      obtain ⟨hpushes, hpolls, -, hnone, caller, tx, response, haccepted, htracked, huser, hhash⟩ :=
        h
      refine ⟨hpushes, congrArg (· + 1) hpolls, hmore, ?_, caller, tx, response,
        .tail _ haccepted, .tail _ htracked, huser, hhash⟩
      exact List.forall_mem_cons.mpr ⟨no_answer_of_finalPush hfinal, hnone⟩
  | @final userId hash i reply push hfinal =>
      refine pushesAt_final h ?_
      obtain ⟨-, -, -, -, caller, tx, response, haccepted, htracked, rfl, rfl⟩ := h
      cases reply with
      | error message => cases hfinal
      | ok status =>
          cases status with
          | notFound => cases hfinal
          | success ledger =>
              cases hfinal
              exact .success (.tail _ haccepted) (.tail _ htracked) rfl
          | failed resultXdr ledger =>
              cases hfinal
              exact .failed (.tail _ haccepted) (.tail _ htracked) rfl
  | @timeout userId hash i reply hfinal hlast =>
      refine pushesAt_final h ?_
      obtain ⟨-, hpolls, hlt, hnone, caller, tx, response, haccepted, htracked, rfl, rfl⟩ := h
      refine .timeout (.tail _ haccepted) (.tail _ htracked) ?_ ?_
      · have hlength : (polls (.polled reply (some (timeoutPush caller.id response.hash)) ::
            trace)).length = i + 1 := congrArg (· + 1) hpolls
        omega
      · exact List.forall_mem_cons.mpr ⟨no_answer_of_finalPush hfinal, hnone⟩

theorem pushesAt_of_path {trace : List RelayEvent} {p : RelayPhase}
    (h : (relayProtocol sdk).Path trace p) : PushesAt p trace := by
  induction h with
  | nil => exact rfl
  | cons _ hstep ih => exact pushesAt_step ih hstep

/-- In every phase at most one push, and a warranted one. -/
theorem pushed_of_path {trace : List RelayEvent} {p : RelayPhase}
    (h : (relayProtocol sdk).Path trace p) :
    (pushes trace).length ≤ 1 ∧ ∀ push ∈ pushes trace, Warranted trace push := by
  have hat := pushesAt_of_path h
  cases p with
  | received =>
      obtain rfl : trace = [] := hat
      exact ⟨Nat.zero_le _, List.forall_mem_nil _⟩
  | sending caller tx attempt =>
      rw [hat.1]
      exact ⟨Nat.zero_le _, List.forall_mem_nil _⟩
  | awaiting caller tx attempt =>
      rw [hat.1]
      exact ⟨Nat.zero_le _, List.forall_mem_nil _⟩
  | tracking userId hash i =>
      rw [hat.1]
      exact ⟨Nat.zero_le _, List.forall_mem_nil _⟩
  | closed => exact ⟨hat.1, hat.2.1⟩

end Traces

section Runs

variable {κ : Type}

theorem relay_coherent (sdk : StellarSdk κ) (actions : List RelayAction) :
    (relayConversations sdk).Coherent ((relay sdk).run actions idleRelay) :=
  Conversations.coherent_run (Conversations.coherent_empty rfl) actions

/-- A submission is sent at most four times, with pauses of three and a half seconds in all: each
time what its caller has signed, and again only just after an answer that asks for it or none. -/
theorem sends_bounded (sdk : StellarSdk κ) (actions : List RelayAction) (number : Nat) :
    let trace := traceOf number ((relay sdk).run actions idleRelay).shared.log
    (∃ n ≤ 4, sends trace = (List.range n).reverse) ∧ slept trace ≤ 3500 ∧
      (∀ reply sleepMs, .retried reply sleepMs ∈ trace → Transient reply) ∧
      ∀ later tx attempt earlier, trace = later ++ .sent tx attempt :: earlier →
        MaySend sdk tx attempt earlier := by
  intro trace
  obtain ⟨p, hpath⟩ := (relay_coherent sdk actions).obeys number
  have hat : SendsAt sdk p trace := sendsAt_of_path hpath
  have hbounds : (∃ n ≤ 4, sends trace = (List.range n).reverse) ∧ slept trace ≤ 3500 := by
    cases p with
    | received =>
        rw [show trace = [] from hat]
        exact ⟨⟨0, by decide, rfl⟩, by decide⟩
    | sending caller tx attempt =>
        obtain ⟨hle, -, hsends, hslept⟩ := hat
        have hpow : 2 ^ attempt ≤ 2 ^ 3 := Nat.pow_le_pow_right (by decide) hle
        exact ⟨⟨attempt, by omega, hsends⟩, by omega⟩
    | awaiting caller tx attempt =>
        obtain ⟨hle, -, hsends, hslept⟩ := hat
        have hpow : 2 ^ attempt ≤ 2 ^ 3 := Nat.pow_le_pow_right (by decide) hle
        exact ⟨⟨attempt + 1, by omega, hsends⟩, by omega⟩
    | tracking userId hash i => exact hat
    | closed => exact hat
  exact ⟨hbounds.1, hbounds.2, fun reply sleepMs => transient_of_path hpath,
    fun later tx attempt earlier => maySend_of_path hpath⟩

/-- At most one final status is pushed for a submission, to its user, and it is what the RPC has
answered. Where no process is lost, one is pushed for every submission that was answered, as soon
as it is not polled for any more. -/
theorem one_final_status (sdk : StellarSdk κ) (actions : List RelayAction) (number : Nat) :
    let last := (relay sdk).run actions idleRelay
    let trace := traceOf number last.shared.log
    (pushes trace).length ≤ 1 ∧ (∀ push ∈ pushes trace, Warranted trace push) ∧
      ((∀ a ∈ actions, ∀ index, a ≠ .crash index) → ∀ response, .tracked response ∈ trace →
        (∃ call ∈ last.inflight, call.number = some number) ∨ (pushes trace).length = 1) := by
  intro last trace
  have hcoherent := relay_coherent sdk actions
  obtain ⟨p, hpath⟩ := hcoherent.obeys number
  refine ⟨(pushed_of_path hpath).1, (pushed_of_path hpath).2, fun hcrash response htracked => ?_⟩
  have hserved := Conversations.served_run
    (Conversations.coherent_empty (C := relayConversations sdk) (s := idleRelay.shared) rfl)
    (fun i hi => absurd hi (Nat.not_lt_zero i)) hcrash
  have hissued : number < (relayConversations sdk).issued last.shared := by
    by_contra hnot
    have hnil : trace = [] := hcoherent.silent number (Nat.le_of_not_lt hnot)
    rw [hnil] at htracked
    cases htracked
  refine (hserved number hissued).imp_right ?_
  rintro ⟨q, hclosed, rfl⟩
  exact (pushesAt_of_path hclosed).2.2 response htracked

end Runs

end ChainSettle
