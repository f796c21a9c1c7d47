import ChainSettle.Lib.Answer
import ChainSettle.Lib.Bisect
import ChainSettle.Lib.Text
import Mathlib.Data.Int.ConditionallyCompleteOrder
import Mathlib.Data.Prod.Lex
import Mathlib.Logic.Function.Basic
import Mathlib.Order.ConditionallyCompleteLattice.Basic
import Mathlib.Order.WithBot

/-!
The pool of RPC endpoints and the search for the oldest ledger that the RPC still has. The endpoints
of a pool are objects that are told apart by identity, so the health of all of them is a function of
the object. A call through the proxy ranks them once and tries one after the other.

The retention search finds the first ledger that the RPC has, as far back as it looks. A search that
is cut off reports a ledger that was served, or the latest one.

A call through the pool goes along the ranking of its start: endpoints that fail over are left behind
one after the other, and the first one that settles the call ends it.
-/

namespace ChainSettle

open Lib

section Errors

/-- A status that is no number counts as none. -/
inductive StatusField where
  | number (status : Int)
  | other
deriving DecidableEq

/-- What is read of anything that a client throws. -/
structure RpcError where
  message : Option String
  code : Option String
  status : Option StatusField
  /-- `err.response.status` -/
  responseStatus : Option StatusField
  /-- `String(err)` -/
  text : String
deriving DecidableEq

/-- Network/5xx errors trigger failover; 4xx-style application errors do not. -/
def isFailoverError (err : RpcError) : Bool :=
  match err.responseStatus.or err.status with
  | some (.number status) => status ≥ 500 || status = 429
  | _ =>
      ["ECONNREFUSED", "ECONNRESET", "ETIMEDOUT", "ENOTFOUND", "EAI_AGAIN", "ECONNABORTED"].contains
        (err.code.getD "") ||
      ["network", "timeout", "socket hang up"].any fun part =>
        includes (err.message.getD "").toLower part

end Errors

section Pool

structure Endpoint where
  url : String
  healthy : Bool
  latencyMs : Option Int
  latestLedger : Option Int
  failures : Nat
  openUntil : Int
  lastError : Option String
deriving DecidableEq

/-- A pool without endpoints cannot be built, and each URL gets an endpoint of its own. -/
structure RpcPool (ι : Type) where
  endpoints : List ι
  nonempty : endpoints ≠ []
  nodup : endpoints.Nodup
  failureThreshold : Int
  cooldownMs : Int

variable {ι β : Type} [DecidableEq ι]

def Endpoint.isOpen (now : Int) (ep : Endpoint) : Bool := ep.openUntil > now

def Endpoint.isUp (now : Int) (ep : Endpoint) : Bool := ep.healthy && !ep.isOpen now

/-- `ep.latestLedger ?? 0` -/
def Endpoint.ledger (ep : Endpoint) : Int := ep.latestLedger.getD 0

/-- `(a ?? Infinity) - (b ?? Infinity)` up to its size. `Infinity - Infinity` is not a number, which
a comparison takes as 0. -/
def compareLatency : Option Int → Option Int → Int
  | some a, some b => a - b
  | some _, none => -1
  | none, some _ => 1
  | none, none => 0

def compareEndpoints (a b : Endpoint) : Int :=
  let byLedger := b.ledger - a.ledger
  if byLedger ≠ 0 then byLedger else compareLatency a.latencyMs b.latencyMs

namespace RpcPool

/-- The constructor, with endpoints told apart by their place; `buildProxy` throws for no URLs. -/
def ofUrls (urls : List String) (failureThreshold cooldownMs : Option Int) :
    Option (RpcPool (Fin urls.length)) :=
  if h : urls = [] then none
  else some {
    endpoints := List.finRange urls.length
    nonempty := by simpa using h
    nodup := List.nodup_finRange _
    failureThreshold := failureThreshold.getD 3
    cooldownMs := cooldownMs.getD 30000 }

variable (pool : RpcPool ι)

/-- Healthy endpoints first (highest ledger, then lowest latency), then the rest in config order. -/
def ranked (now : Int) (health : ι → Endpoint) : List ι :=
  let up := pool.endpoints.filter fun ep => (health ep).isUp now
  let down := pool.endpoints.filter fun ep => ep ∉ up
  up.insertionSort (fun a b => compareEndpoints (health a) (health b) ≤ 0) ++ down

def recordFailure (now : Int) (err : RpcError) (ep : Endpoint) : Endpoint :=
  let failed := { ep with
    failures := ep.failures + 1
    lastError := some (err.message.getD err.text) }
  if pool.failureThreshold ≤ failed.failures then
    { failed with
      healthy := false
      openUntil := now + pool.cooldownMs }
  else failed

/-- What comes of a call: its result or what it throws, the health of the endpoints, and the
endpoints that were asked, in order. -/
structure Call (ι β : Type) where
  result : Except (Option RpcError) β
  health : ι → Endpoint
  tried : List ι

/-- Endpoint by endpoint; `clock ep` is the time when the failure of `ep` is recorded. -/
def tryEndpoints (clock : ι → Int) (outcome : ι → Except RpcError β) :
    List ι → Option RpcError → (ι → Endpoint) → Call ι β
  | [], lastErr, health => ⟨.error lastErr, health, []⟩
  | ep :: rest, _, health =>
      match outcome ep with
      | .ok result =>
          ⟨.ok result, Function.update health ep { health ep with failures := 0 }, [ep]⟩
      | .error err =>
          if isFailoverError err then
            let call := tryEndpoints clock outcome rest (some err)
              (Function.update health ep (pool.recordFailure (clock ep) err (health ep)))
            { call with tried := ep :: call.tried }
          else ⟨.error (some err), health, [ep]⟩

/-- A method call on `proxy`. -/
def proxyCall (now : Int) (clock : ι → Int) (outcome : ι → Except RpcError β)
    (health : ι → Endpoint) : Call ι β :=
  pool.tryEndpoints clock outcome (pool.ranked now health) none health

end RpcPool

end Pool

namespace StellarService

/-- The errors after which the lower bound moves up. -/
def isTooOld (err : RpcError) : Bool :=
  let msg := (err.message.getD "").toLower
  includes msg "startledger" || includes msg "not found"

def probeVerdict : Except RpcError Unit → Verdict
  | .ok _ => .accepted
  | .error err => if isTooOld err then .rejected else .aborted

/-- The answer and the ledgers that were probed. `getEvents` answers the probe after so many others;
`latest` is none if the latest ledger cannot be read. -/
def getOldestAvailableLedger (latest : Option Int) (getEvents : Nat → Int → Except RpcError Unit) :
    Int × List Int :=
  match latest with
  | none => (1, [])
  | some latest =>
      bisect (fun count startLedger => probeVerdict (getEvents count startLedger)) 0
        (max 1 (latest - 400000)) (latest - 1) latest

end StellarService

section Retention

open StellarService

/-- The RPC serves exactly the ledgers from `oldest` on and says of the others that they are too
old. -/
structure Retains (getEvents : Nat → Int → Except RpcError Unit) (oldest : Int) : Prop where
  serves : ∀ count startLedger, oldest ≤ startLedger → getEvents count startLedger = .ok ()
  refuses : ∀ count startLedger, startLedger < oldest →
    ∃ err, getEvents count startLedger = .error err ∧ isTooOld err

theorem Retains.probeVerdict_of_le {getEvents : Nat → Int → Except RpcError Unit} {oldest : Int}
    (h : Retains getEvents oldest) (count : Nat) (startLedger : Int) (hle : oldest ≤ startLedger) :
    probeVerdict (getEvents count startLedger) = .accepted := by
  rw [h.serves count startLedger hle]
  rfl

theorem Retains.probeVerdict_of_lt {getEvents : Nat → Int → Except RpcError Unit} {oldest : Int}
    (h : Retains getEvents oldest) (count : Nat) (startLedger : Int) (hlt : startLedger < oldest) :
    probeVerdict (getEvents count startLedger) = .rejected := by
  obtain ⟨err, herr, hold⟩ := h.refuses count startLedger hlt
  rw [herr]
  exact if_pos hold

theorem probeVerdict_eq_accepted {answer : Except RpcError Unit}
    (h : probeVerdict answer = .accepted) : answer = .ok () := by
  cases answer with
  | ok => rfl
  | error err =>
      simp only [probeVerdict] at h
      split at h
      · cases h
      · cases h

/-- Exact if the RPC has a retention floor, and in any case a ledger that was served during the
search or the latest one. -/
theorem retention_search_exact (latest : Int) (getEvents : Nat → Int → Except RpcError Unit) :
    ((getOldestAvailableLedger (some latest) getEvents).1 = latest ∨
      ∃ k, (getOldestAvailableLedger (some latest) getEvents).2[k]? =
          some (getOldestAvailableLedger (some latest) getEvents).1 ∧
        getEvents k (getOldestAvailableLedger (some latest) getEvents).1 = .ok ()) ∧
    ∀ oldest, Retains getEvents oldest →
      (getOldestAvailableLedger (some latest) getEvents).1 =
        if max oldest (max 1 (latest - 400000)) ≤ latest - 1 then
          max oldest (max 1 (latest - 400000))
        else latest := by
  constructor
  · rcases @bisect_found (fun count startLedger => probeVerdict (getEvents count startLedger))
      0 (max 1 (latest - 400000)) (latest - 1) latest with hlatest | ⟨k, hprobe, hserved⟩
    · exact .inl hlatest
    · rw [Nat.zero_add] at hserved
      exact .inr ⟨k, hprobe, probeVerdict_eq_accepted hserved⟩
  · intro oldest hretains
    have hfirst := bisect_first hretains.probeVerdict_of_le hretains.probeVerdict_of_lt 0
      (max 1 (latest - 400000)) (latest - 1)
    rw [Int.sub_add_cancel] at hfirst
    rw [getOldestAvailableLedger, hfirst]
    split
    · exact min_eq_left (by omega)
    · exact min_eq_right (by omega)

def startLedgerError : RpcError where
  message := some "startLedger must be within the ledger range"
  code := none
  status := none
  responseStatus := none
  text := "Error"

def floorEvents (floor : Int) (_ : Nat) (startLedger : Int) : Except RpcError Unit :=
  if floor ≤ startLedger then .ok () else .error startLedgerError

theorem floorEvents_retains (floor : Int) : Retains (floorEvents floor) floor where
  serves _ _ h := if_pos h
  refuses _ _ h := ⟨startLedgerError, if_neg (Int.not_le.mpr h), by decide +kernel⟩

theorem floor_found :
    (getOldestAvailableLedger (some 1000000) (floorEvents 700000)).1 = 700000 :=
  ((retention_search_exact 1000000 (floorEvents 700000)).2 700000
    (floorEvents_retains 700000)).trans (by decide)

end Retention

variable {ι β : Type}

section Ranking

/-- A latency that is not known is infinite. -/
def Endpoint.latency (ep : Endpoint) : WithTop Int := ep.latencyMs

/-- Higher ledger, then lower latency, then configuration order. -/
def Precedes (health : ι → Endpoint) (config : List ι) (a b : ι) : Prop :=
  (health b).ledger < (health a).ledger ∨ (health a).ledger = (health b).ledger ∧
    ((health a).latency < (health b).latency ∨ (health a).latency = (health b).latency ∧
      List.Sublist [a, b] config)

/-- The order of a comparison as one value. -/
def Endpoint.rank (ep : Endpoint) : Int ×ₗ WithTop Int := toLex (-ep.ledger, ep.latency)

theorem compareLatency_nonpos_iff (a b : Endpoint) :
    compareLatency a.latencyMs b.latencyMs ≤ 0 ↔ a.latency ≤ b.latency := by
  unfold Endpoint.latency
  cases a.latencyMs with
  | none =>
      cases b.latencyMs with
      | none => exact iff_of_true (le_refl 0) (le_refl (⊤ : WithTop Int))
      | some b =>
          exact iff_of_false (by decide : ¬ (1 : Int) ≤ 0) (not_le.mpr (WithTop.coe_lt_top b))
  | some a =>
      cases b.latencyMs with
      | none => exact iff_of_true (by decide : (-1 : Int) ≤ 0) (le_top (a := (a : WithTop Int)))
      | some b =>
          have hcoe : (a : WithTop Int) ≤ b ↔ a ≤ b := WithTop.coe_le_coe
          exact (show a - b ≤ 0 ↔ a ≤ b by omega).trans hcoe.symm

theorem compareEndpoints_nonpos_iff (a b : Endpoint) :
    compareEndpoints a b ≤ 0 ↔ a.rank ≤ b.rank := by
  have hlatency := compareLatency_nonpos_iff a b
  rw [Endpoint.rank, Endpoint.rank, Prod.Lex.toLex_le_toLex]
  simp only [compareEndpoints]
  split
  · constructor
    · intro hle
      left
      omega
    · rintro (hlt | ⟨heq, -⟩)
      · omega
      · omega
  · constructor
    · intro hle
      exact .inr ⟨by omega, hlatency.mp hle⟩
    · rintro (hlt | ⟨-, hle⟩)
      · omega
      · exact hlatency.mpr hle

theorem precedes_of_beforeIn {health : ι → Endpoint} {order config : List ι} {a b : ι}
    (hsub : List.Sublist order config) (h : BeforeIn (fun ep => (health ep).rank) order a b) :
    Precedes health config a b := by
  rcases h with hlt | ⟨heq, horder⟩
  · rcases Prod.Lex.toLex_lt_toLex.mp hlt with hlt | ⟨heq, hlt⟩
    · exact .inl (Int.neg_lt_neg_iff.mp hlt)
    · exact .inr ⟨Int.neg_inj.mp heq, .inl hlt⟩
  · obtain ⟨hledger, hlatency⟩ := Prod.mk.inj (toLex_inj.mp heq)
    exact .inr ⟨Int.neg_inj.mp hledger, .inr ⟨hlatency, horder.trans hsub⟩⟩

namespace RpcPool

variable [DecidableEq ι] (pool : RpcPool ι) (now : Int) (health : ι → Endpoint)

/-- The endpoints that are up, ranked, and the others in configuration order. -/
theorem ranked_eq : ∃ up,
    pool.ranked now health = up ++ pool.endpoints.filter (fun ep => !(health ep).isUp now) ∧
      up.Perm (pool.endpoints.filter fun ep => (health ep).isUp now) ∧
      up.Pairwise (Precedes health pool.endpoints) := by
  have hdown : (pool.endpoints.filter fun ep =>
        decide (ep ∉ pool.endpoints.filter fun ep => (health ep).isUp now)) =
      pool.endpoints.filter fun ep => !(health ep).isUp now := by
    refine List.filter_congr fun ep hep => ?_
    simp [List.mem_filter, hep]
  refine ⟨_, congrArg _ hdown, List.perm_insertionSort _ _, ?_⟩
  have hsorted := insertionSort_beforeIn
    (fun a b => compareEndpoints_nonpos_iff (health a) (health b))
    (pool.nodup.filter fun ep => (health ep).isUp now)
  exact hsorted.imp fun h => precedes_of_beforeIn List.filter_sublist h

theorem ranked_perm : (pool.ranked now health).Perm pool.endpoints := by
  obtain ⟨up, hranked, hup, -⟩ := pool.ranked_eq now health
  rw [hranked]
  exact (hup.append_right _).trans (List.filter_append_perm _ _)

end RpcPool

end Ranking

section Call

/-- An endpoint after a failure that the next one is tried for. -/
def Endpoint.failedWith (pool : RpcPool ι) (now : Int) (err : RpcError) (ep : Endpoint) : Endpoint :=
  { ep with
    failures := ep.failures + 1
    lastError := some (err.message.getD err.text)
    healthy := if pool.failureThreshold ≤ ep.failures + 1 then false else ep.healthy
    openUntil := if pool.failureThreshold ≤ ep.failures + 1 then now + pool.cooldownMs
      else ep.openUntil }

theorem recordFailure_eq (pool : RpcPool ι) (now : Int) (err : RpcError) (ep : Endpoint) :
    pool.recordFailure now err ep = ep.failedWith pool now err := by
  unfold RpcPool.recordFailure Endpoint.failedWith
  by_cases hthreshold : pool.failureThreshold ≤ ep.failures + 1
  · simp [hthreshold]
  · simp [hthreshold]

variable (pool : RpcPool ι) (clock : ι → Int) (outcome : ι → Except RpcError β)
  (health : ι → Endpoint)

/-- A call that left the endpoints `failed` behind and was settled by the first of `rest`, if there
is one. -/
structure FailsOver (failed rest : List ι) (call : RpcPool.Call ι β) : Prop where
  tried : call.tried = failed ++ rest.take 1
  failures : ∀ ep ∈ failed, ∃ err, outcome ep = .error err ∧ isFailoverError err = true ∧
    call.health ep = (health ep).failedWith pool (clock ep) err
  settled : ∀ ep ∈ rest.head?,
    (∃ result, outcome ep = .ok result ∧ call.result = .ok result ∧
      call.health ep = { health ep with failures := 0 }) ∨
    ∃ err, outcome ep = .error err ∧ isFailoverError err = false ∧
      call.result = .error (some err) ∧ call.health ep = health ep
  exhausted : rest = [] → ∀ ep ∈ failed.getLast?, ∀ err, outcome ep = .error err →
    call.result = .error (some err)
  others : ∀ ep, ep ∉ failed → ep ∉ rest.head? → call.health ep = health ep

variable {pool clock outcome health}

theorem failsOver_of_settled {ep : ι} {rest : List ι} {call : RpcPool.Call ι β}
    (htried : call.tried = [ep])
    (hsettled : (∃ result, outcome ep = .ok result ∧ call.result = .ok result ∧
        call.health ep = { health ep with failures := 0 }) ∨
      ∃ err, outcome ep = .error err ∧ isFailoverError err = false ∧
        call.result = .error (some err) ∧ call.health ep = health ep)
    (hothers : ∀ other, other ≠ ep → call.health other = health other) :
    FailsOver pool clock outcome health [] (ep :: rest) call where
  tried := htried
  failures := by simp
  settled other hother := by
    obtain rfl : ep = other := Option.some.inj hother
    exact hsettled
  exhausted h := by cases h
  others other _ hne := hothers other fun heq => hne (heq ▸ rfl)

/-- Behind an endpoint that fails over, the call is a call along the rest. -/
theorem FailsOver.cons {ep : ι} {err : RpcError} {order failed rest : List ι}
    {later : ι → Endpoint} {call : RpcPool.Call ι β}
    (h : FailsOver pool clock outcome later failed rest call) (horder : order = failed ++ rest)
    (hfresh : ep ∉ order) (houtcome : outcome ep = .error err)
    (hfailover : isFailoverError err = true)
    (hlast : order = [] → call.result = .error (some err))
    (hep : later ep = (health ep).failedWith pool (clock ep) err)
    (hlater : ∀ other, other ≠ ep → later other = health other) :
    FailsOver pool clock outcome health (ep :: failed) rest { call with tried := ep :: call.tried } := by
  have hmem {other : ι} (hother : other ∈ failed ∨ other ∈ rest.head?) : other ≠ ep := by
    rintro rfl
    refine hfresh (horder ▸ List.mem_append.mpr (hother.imp_right fun hhead => ?_))
    exact List.mem_of_mem_head? hhead
  constructor
  case tried => exact congrArg (ep :: ·) h.tried
  case failures =>
    intro other hother
    by_cases hsame : other = ep
    · rw [hsame]
      refine ⟨err, houtcome, hfailover, ?_⟩
      have hnot : ep ∉ failed ∧ ep ∉ rest.head? :=
        ⟨fun hin => hmem (.inl hin) rfl, fun hin => hmem (.inr hin) rfl⟩
      exact (h.others ep hnot.1 hnot.2).trans hep
    · have hfailed := (List.mem_cons.mp hother).resolve_left hsame
      obtain ⟨err', houtcome', hfailover', hstate⟩ := h.failures other hfailed
      exact ⟨err', houtcome', hfailover', hstate.trans (by rw [hlater other hsame])⟩
  case settled =>
    intro other hother
    have hsettled := h.settled other hother
    rwa [hlater other (hmem (.inr hother))] at hsettled
  case exhausted =>
    intro hrest other hother err' houtcome'
    cases failed with
    | nil =>
        obtain rfl : ep = other := Option.some.inj hother
        rw [houtcome] at houtcome'
        rw [← Except.error.inj houtcome']
        exact hlast (by rw [horder, hrest]; rfl)
    | cons first failed =>
        rw [List.getLast?_cons_cons] at hother
        exact h.exhausted hrest other hother err' houtcome'
  case others =>
    intro other hfailed hhead
    rw [List.mem_cons, not_or] at hfailed
    exact (h.others other hfailed.2 hhead).trans (hlater other hfailed.1)

variable (pool clock outcome)

theorem tryEndpoints_failsOver [DecidableEq ι] {order : List ι} (hnodup : order.Nodup)
    (lastErr : Option RpcError) (health : ι → Endpoint) :
    ∃ failed rest, order = failed ++ rest ∧ FailsOver pool clock outcome health failed rest
      (pool.tryEndpoints clock outcome order lastErr health) := by
  induction order generalizing lastErr health with
  | nil =>
      refine ⟨[], [], rfl, ?_⟩
      constructor <;> simp [RpcPool.tryEndpoints]
  | cons ep order ih =>
      obtain ⟨hfresh, hnodup⟩ := List.nodup_cons.mp hnodup
      cases houtcome : outcome ep with
      | ok result =>
          refine ⟨[], ep :: order, rfl, ?_⟩
          rw [RpcPool.tryEndpoints, houtcome]
          refine failsOver_of_settled rfl (.inl ⟨result, houtcome, rfl, ?_⟩) fun other hne => ?_
          · exact Function.update_self ..
          · exact Function.update_of_ne hne ..
      | error err =>
          by_cases hfailover : isFailoverError err = true
          · obtain ⟨failed, rest, horder, hcall⟩ := ih hnodup (some err)
              (Function.update health ep (pool.recordFailure (clock ep) err (health ep)))
            refine ⟨ep :: failed, rest, congrArg (ep :: ·) horder, ?_⟩
            rw [RpcPool.tryEndpoints, houtcome]
            simp only [hfailover, if_true]
            refine hcall.cons horder hfresh houtcome hfailover ?_ ?_ fun other hne => ?_
            · intro hnil
              rw [hnil]
              rfl
            · rw [Function.update_self, recordFailure_eq]
            · exact Function.update_of_ne hne ..
          · refine ⟨[], ep :: order, rfl, ?_⟩
            rw [RpcPool.tryEndpoints, houtcome]
            simp only [hfailover]
            exact failsOver_of_settled rfl
              (.inr ⟨err, houtcome, Bool.eq_false_of_not_eq_true hfailover, rfl, rfl⟩)
              fun other _ => rfl

end Call

/-- A call tries the endpoints along the ranking of its start, until one settles it. -/
theorem failover_in_order [DecidableEq ι] (pool : RpcPool ι) (now : Int) (clock : ι → Int)
    (outcome : ι → Except RpcError β) (health : ι → Endpoint) :
    (pool.ranked now health).Perm pool.endpoints ∧
    (∃ up, pool.ranked now health =
        up ++ pool.endpoints.filter (fun ep => !(health ep).isUp now) ∧
      up.Perm (pool.endpoints.filter fun ep => (health ep).isUp now) ∧
      up.Pairwise (Precedes health pool.endpoints)) ∧
    ∃ failed rest, pool.ranked now health = failed ++ rest ∧
      FailsOver pool clock outcome health failed rest (pool.proxyCall now clock outcome health) ∧
      (rest = [] → failed ≠ []) := by
  have hperm := pool.ranked_perm now health
  refine ⟨hperm, pool.ranked_eq now health, ?_⟩
  obtain ⟨failed, rest, horder, hcall⟩ :=
    tryEndpoints_failsOver pool clock outcome (hperm.nodup_iff.mpr pool.nodup) none health
  refine ⟨failed, rest, horder, hcall, ?_⟩
  rintro rfl rfl
  rw [horder] at hperm
  exact pool.nonempty hperm.nil_eq.symm

def twoEndpoints : RpcPool (Fin 2) :=
  (RpcPool.ofUrls ["https://rpc-1.example", "https://rpc-2.example"] none none).get rfl

/-- The first endpoint refuses connections. -/
def refusedFirst (ep : Fin 2) : Except RpcError Nat :=
  if ep = 0 then .error ⟨none, some "ECONNREFUSED", none, none, "Error"⟩ else .ok 7

/-- The call fails over to the second endpoint. -/
theorem refused_first_fails_over :
    let health (_ : Fin 2) : Endpoint := ⟨"", true, none, none, 0, 0, none⟩
    let call := twoEndpoints.proxyCall 0 (fun _ => 0) refusedFirst health
    call.tried = [0, 1] ∧ call.result.toOption = some 7 ∧
      ∃ failed rest, twoEndpoints.ranked 0 health = failed ++ rest ∧
        FailsOver twoEndpoints (fun _ => 0) refusedFirst health failed rest call ∧
        (rest = [] → failed ≠ []) :=
  ⟨by decide, by decide, (failover_in_order twoEndpoints 0 (fun _ => 0) refusedFirst _).2.2⟩

end ChainSettle
