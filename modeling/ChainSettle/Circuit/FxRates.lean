import ChainSettle.Lib.Store
import ChainSettle.Semantics.CircuitBreaker
import ChainSettle.Semantics.Values

/-!
Exchange rates. They are fetched on a schedule, by every pod through a circuit breaker of its own,
and written to Redis twice: with an expiry, and as the last known copy without one. Requests read the
first and fall back on the second, which they mark as stale. Any number of fetches and reads are
under way, each of them suspended before its next statement.

A rate that is served was answered by the provider for its key, and one that is not marked as stale
was cached less than the time to live before it was read. Once the last known copy of a rate is
written the rate is never unknown again.

The rates are of any type, with a test for those that are finite and positive.
-/

namespace ChainSettle

open Lib

section Statements

variable {ρ : Type}

structure FxRate (ρ : Type) where
  rate : ρ
  asOf : Nat
  stale : Bool
deriving DecidableEq

/-- The keys of the last known copies end in `:last`, which no cache key does: symbols and
currencies are in upper case. -/
inductive RateKey where
  | fresh (cacheKey : String)
  | lastKnown (cacheKey : String)
deriving DecidableEq

structure FxRateService (ρ : Type) where
  cacheTtlSeconds : Nat
  apiUrl : Option String
  staleAfterMs : Nat
  text : CaseMapping
  /-- `Number.isFinite(rate) && rate > 0` -/
  isValid : ρ → Bool

namespace FxRateService

variable (service : FxRateService ρ)

def cacheKey (symbol : String) : String := "fx:rate:" ++ service.text.toUpperCase symbol

def fiatCacheKey (currency : String) : String := "fx:fiat:" ++ service.text.toUpperCase currency

end FxRateService

inductive FxEvent (ρ : Type) where
  /-- the provider has answered with a valid rate -/
  | fetched (cacheKey : String) (rate : ρ) (asOf : Nat)
  | cached (cacheKey : String) (value : FxRate ρ) (time : Nat)
  | kept (cacheKey : String) (value : FxRate ρ)
  /-- what a request is served, with the time at which Redis was read -/
  | served (pod : Nat) (cacheKey : String) (value : FxRate ρ) (readAt : Nat)
  | unknown (pod : Nat) (cacheKey : String)
  /-- Redis has failed, which also counts as an unknown rate -/
  | readFailed (pod : Nat) (cacheKey : String)

structure FxWorld (ρ : Type) where
  now : Nat
  redis : Store RateKey (FxRate ρ)
  breakers : Nat → CircuitBreaker
  /-- the latest first -/
  log : List (FxEvent ρ)

/-- What a rate is fetched for. -/
structure RateTarget where
  cacheKey : String
  label : String
deriving DecidableEq

inductive FxCall (ρ : Type) where
  | refreshRate (pod : Nat) (symbol : String)
  | refreshOneFiatRate (pod : Nat) (currency : String)
  /-- inside the breaker -/
  | fetching (pod : Nat) (target : RateTarget) (call : BreakerCall)
  | setFresh (cacheKey : String) (value : FxRate ρ)
  | setLastKnown (cacheKey : String) (value : FxRate ρ)
  | getUsdRate (pod : Nat) (symbol : String)
  | getFiatRate (pod : Nat) (currency : String)
  /-- the fresh entry was found -/
  | isOpen (pod : Nat) (cacheKey : String) (value : FxRate ρ) (readAt : Nat)
  | readLastKnown (pod : Nat) (cacheKey : String)

/-- What the provider answers: an error, or a rate with the text of its payload. And whether Redis
fails. -/
structure FxInput (ρ : Type) where
  response : Except String (ρ × String)
  redisFails : Bool

variable (service : FxRateService ρ)

namespace FxWorld

variable (w : FxWorld ρ)

def event (e : FxEvent ρ) : FxWorld ρ := { w with log := e :: w.log }

/-- The breaker of a pod, as `BreakerCall.resume` takes it. -/
def breakerOf (pod : Nat) : BreakerWorld := ⟨w.breakers pod, w.now, []⟩

def setBreaker (pod : Nat) (breaker : CircuitBreaker) : FxWorld ρ :=
  { w with breakers := Function.update w.breakers pod breaker }

/-- `fetchRate` up to the request. -/
def fetchRate (pod : Nat) (target : RateTarget) : FxWorld ρ × List (FxCall ρ) :=
  let (after, calls) := BreakerCall.exec.resume none (w.breakerOf pod)
  (w.setBreaker pod after.breaker, calls.map (.fetching pod target))

def readCachedRate (input : FxInput ρ) (pod : Nat) (cacheKey : String) :
    FxWorld ρ × List (FxCall ρ) :=
  if input.redisFails then (w.event (.readFailed pod cacheKey), [])
  else
    match w.redis.get w.now (.fresh cacheKey) with
    | some value => (w, [.isOpen pod cacheKey value w.now])
    | none => (w, [.readLastKnown pod cacheKey])

end FxWorld

/-- What the wrapped request comes to. -/
def FxInput.result (input : FxInput ρ) (label : String) : Except String ρ :=
  match input.response with
  | .error message => .error message
  | .ok (rate, payload) =>
      if service.isValid rate then .ok rate
      else .error (s!"Invalid rate payload for {label}: " ++ payload)

def FxCall.resume (input : FxInput ρ) (w : FxWorld ρ) : FxCall ρ → FxWorld ρ × List (FxCall ρ)
  | .refreshRate pod symbol => w.fetchRate pod ⟨service.cacheKey symbol, symbol⟩
  | .refreshOneFiatRate pod currency =>
      w.fetchRate pod ⟨service.fiatCacheKey currency, "USD→" ++ currency⟩
  | .fetching pod target call =>
      match input.result service target.label with
      | .error message =>
          (w.setBreaker pod (call.resume (some message) (w.breakerOf pod)).1.breaker, [])
      | .ok rate =>
          let value : FxRate ρ := ⟨rate, w.now, false⟩
          ((w.setBreaker pod (call.resume none (w.breakerOf pod)).1.breaker).event
              (.fetched target.cacheKey rate w.now),
            [.setFresh target.cacheKey value, .setLastKnown target.cacheKey value])
  | .setFresh cacheKey value =>
      if input.redisFails then (w, [])
      else
        let expiresAt :=
          if service.cacheTtlSeconds = 0 then none else some (w.now + service.cacheTtlSeconds * 1000)
        (({ w with redis := w.redis.set (.fresh cacheKey) value expiresAt }).event
          (.cached cacheKey value w.now), [])
  | .setLastKnown cacheKey value =>
      if input.redisFails then (w, [])
      else
        (({ w with redis := w.redis.set (.lastKnown cacheKey) value none }).event
          (.kept cacheKey value), [])
  | .getUsdRate pod symbol => w.readCachedRate input pod (service.cacheKey symbol)
  | .getFiatRate pod currency => w.readCachedRate input pod (service.fiatCacheKey currency)
  | .isOpen pod cacheKey value readAt =>
      let breaker := w.breakers pod
      let value := if breaker.isOpen w.now then { value with stale := true } else value
      ((w.setBreaker pod (breaker.maybeHalfOpen w.now)).event (.served pod cacheKey value readAt), [])
  | .readLastKnown pod cacheKey =>
      if input.redisFails then (w.event (.readFailed pod cacheKey), [])
      else
        match w.redis.get w.now (.lastKnown cacheKey) with
        | some value => (w.event (.served pod cacheKey { value with stale := true } w.now), [])
        | none => (w.event (.unknown pod cacheKey), [])

/-- The fetches that begin have a provider, and the rate of the dollar is not looked up. -/
def fxRates : PoolSystem (FxWorld ρ) (FxCall ρ) (FxInput ρ) Nat where
  starts call := match call with
    | .refreshRate _ _ => service.apiUrl.isSome
    | .refreshOneFiatRate _ currency => service.apiUrl.isSome && currency ≠ "USD"
    | .getUsdRate _ _ => true
    | .getFiatRate _ currency => service.text.toUpperCase currency ≠ "USD"
    | _ => false
  resume input w call := call.resume service input w
  external ms w := { w with now := w.now + ms }

abbrev FxPool (ρ : Type) := Pool (FxWorld ρ) (FxCall ρ)

abbrev FxAction (ρ : Type) := PoolAction (FxCall ρ) (FxInput ρ) Nat

def freshRates (now : Nat) (options : CircuitBreakerOptions) : FxPool ρ where
  shared := ⟨now, Store.empty, fun _ => .new "fx-provider" options, []⟩
  inflight := []

structure FxRateEntry (ρ : Type) where
  rate : Option ρ
  updatedAt : Option Nat
  source : Option String
  stale : Bool
deriving DecidableEq

/-- What the public endpoints make of a rate. -/
def FxRateService.toEntry (now : Nat) (raw : Option (FxRate ρ)) : FxRateEntry ρ where
  rate := raw.map FxRate.rate
  updatedAt := raw.map FxRate.asOf
  source := service.apiUrl
  stale := raw.all fun value => value.stale || service.staleAfterMs < now - value.asOf

end Statements

section Provenance

variable {ρ : Type}

/-- The provider has answered the value for the key. -/
def FetchedFor (log : List (FxEvent ρ)) (cacheKey : String) (value : FxRate ρ) : Prop :=
  .fetched cacheKey value.rate value.asOf ∈ log

variable (service : FxRateService ρ)

/-- The value was cached for the key, and still was at that time. -/
def CachedAt (log : List (FxEvent ρ)) (cacheKey : String) (value : FxRate ρ) (time : Nat) : Prop :=
  ∃ since, .cached cacheKey value since ∈ log ∧ since ≤ time ∧
    (service.cacheTtlSeconds ≠ 0 → time < since + service.cacheTtlSeconds * 1000)

/-- Where an entry of Redis comes from. -/
def StoredRate (w : FxWorld ρ) : RateKey → Entry (FxRate ρ) → Prop
  | .fresh cacheKey, entry => entry.value.stale = false ∧ FetchedFor w.log cacheKey entry.value ∧
      ∃ since, .cached cacheKey entry.value since ∈ w.log ∧ since ≤ w.now ∧ entry.expiresAt =
        if service.cacheTtlSeconds = 0 then none else some (since + service.cacheTtlSeconds * 1000)
  | .lastKnown cacheKey, entry => FetchedFor w.log cacheKey entry.value ∧ entry.expiresAt = none

/-- Where a rate that is served comes from. -/
def ServedRate (log : List (FxEvent ρ)) (cacheKey : String) (value : FxRate ρ) (readAt : Nat) :
    Prop :=
  FetchedFor log cacheKey value ∧
    (value.stale = false → CachedAt service log cacheKey value readAt)

/-- No rate is unknown that was kept before. -/
def NeverForgotten : List (FxEvent ρ) → Prop
  | [] => True
  | e :: before => (∀ pod cacheKey, e = .unknown pod cacheKey →
      ∀ value, .kept cacheKey value ∉ before) ∧ NeverForgotten before

structure RatesSound (w : FxWorld ρ) : Prop where
  valid : ∀ cacheKey rate asOf, .fetched cacheKey rate asOf ∈ w.log → service.isValid rate
  stored : ∀ key entry, w.redis key = some entry → StoredRate service w key entry
  served : ∀ pod cacheKey value readAt, .served pod cacheKey value readAt ∈ w.log →
    ServedRate service w.log cacheKey value readAt
  known : ∀ cacheKey value, .kept cacheKey value ∈ w.log →
    ∃ entry, w.redis (.lastKnown cacheKey) = some entry ∧ entry.expiresAt = none
  remembered : NeverForgotten w.log

/-- The values that a call has come by. -/
def HoldsRate (w : FxWorld ρ) : FxCall ρ → Prop
  | .setFresh cacheKey value => value.stale = false ∧ FetchedFor w.log cacheKey value
  | .setLastKnown cacheKey value => FetchedFor w.log cacheKey value
  | .isOpen _ cacheKey value readAt =>
      FetchedFor w.log cacheKey value ∧ CachedAt service w.log cacheKey value readAt
  | _ => True

variable {service}

theorem FetchedFor.mono {log log' : List (FxEvent ρ)} {cacheKey : String} {value : FxRate ρ}
    (h : FetchedFor log cacheKey value) (hlog : log ⊆ log') : FetchedFor log' cacheKey value :=
  hlog h

theorem CachedAt.mono {log log' : List (FxEvent ρ)} {cacheKey : String} {value : FxRate ρ}
    {time : Nat} (h : CachedAt service log cacheKey value time) (hlog : log ⊆ log') :
    CachedAt service log' cacheKey value time := by
  obtain ⟨since, hcached, hsince⟩ := h
  exact ⟨since, hlog hcached, hsince⟩

theorem ServedRate.mono {log log' : List (FxEvent ρ)} {cacheKey : String} {value : FxRate ρ}
    {readAt : Nat} (h : ServedRate service log cacheKey value readAt) (hlog : log ⊆ log') :
    ServedRate service log' cacheKey value readAt :=
  ⟨h.1.mono hlog, fun hfresh => (h.2 hfresh).mono hlog⟩

theorem StoredRate.mono {w w' : FxWorld ρ} {key : RateKey} {entry : Entry (FxRate ρ)}
    (h : StoredRate service w key entry) (hlog : w.log ⊆ w'.log) (hnow : w.now ≤ w'.now) :
    StoredRate service w' key entry := by
  cases key with
  | fresh cacheKey =>
      obtain ⟨hstale, hfetched, since, hcached, hsince, hexpires⟩ := h
      exact ⟨hstale, hlog hfetched, since, hlog hcached, Nat.le_trans hsince hnow, hexpires⟩
  | lastKnown cacheKey => exact ⟨hlog h.1, h.2⟩

theorem HoldsRate.mono {w w' : FxWorld ρ} {call : FxCall ρ} (h : HoldsRate service w call)
    (hlog : w.log ⊆ w'.log) : HoldsRate service w' call := by
  cases call with
  | setFresh cacheKey value => exact ⟨h.1, hlog h.2⟩
  | setLastKnown cacheKey value => exact hlog h
  | isOpen pod cacheKey value readAt => exact ⟨hlog h.1, h.2.mono hlog⟩
  | _ => trivial

variable {w : FxWorld ρ}

/-- An event that leaves Redis alone. -/
theorem RatesSound.event (h : RatesSound service w) (e : FxEvent ρ)
    (hvalid : ∀ cacheKey rate asOf, e = .fetched cacheKey rate asOf → service.isValid rate)
    (hserved : ∀ pod cacheKey value readAt, e = .served pod cacheKey value readAt →
      ServedRate service w.log cacheKey value readAt)
    (hkept : ∀ cacheKey value, e ≠ .kept cacheKey value)
    (hunknown : ∀ pod cacheKey, e = .unknown pod cacheKey → ∀ value, .kept cacheKey value ∉ w.log) :
    RatesSound service (w.event e) where
  valid cacheKey rate asOf hmem := by
    rcases List.mem_cons.mp hmem with hsame | hmem
    · exact hvalid cacheKey rate asOf hsame.symm
    · exact h.valid cacheKey rate asOf hmem
  stored key entry hentry :=
    (h.stored key entry hentry).mono (List.subset_cons_self _ _) (Nat.le_refl _)
  served pod cacheKey value readAt hmem := by
    have hserved : ServedRate service w.log cacheKey value readAt := by
      rcases List.mem_cons.mp hmem with hsame | hmem
      · exact hserved pod cacheKey value readAt hsame.symm
      · exact h.served pod cacheKey value readAt hmem
    exact hserved.mono (List.subset_cons_self _ _)
  known cacheKey value hmem := by
    rcases List.mem_cons.mp hmem with hsame | hmem
    · exact absurd hsame.symm (hkept cacheKey value)
    · exact h.known cacheKey value hmem
  remembered := ⟨hunknown, h.remembered⟩

theorem RatesSound.readFailed (h : RatesSound service w) (pod : Nat) (cacheKey : String) :
    RatesSound service (w.event (.readFailed pod cacheKey)) := by
  refine h.event _ ?_ ?_ ?_ ?_
  · rintro other rate asOf ⟨⟩
  · rintro pod' other value readAt ⟨⟩
  · rintro other value ⟨⟩
  · rintro pod' other ⟨⟩

theorem RatesSound.serve (h : RatesSound service w) (pod : Nat) {cacheKey : String}
    {value : FxRate ρ} {readAt : Nat} (hserved : ServedRate service w.log cacheKey value readAt) :
    RatesSound service (w.event (.served pod cacheKey value readAt)) := by
  refine h.event _ ?_ ?_ ?_ ?_
  · rintro other rate asOf ⟨⟩
  · rintro pod' other found at_ ⟨⟩
    exact hserved
  · rintro other found ⟨⟩
  · rintro pod' other ⟨⟩

theorem RatesSound.setBreaker (h : RatesSound service w) (pod : Nat) (breaker : CircuitBreaker) :
    RatesSound service (w.setBreaker pod breaker) :=
  ⟨h.valid, h.stored, h.served, h.known, h.remembered⟩

/-- Redis takes a value that was fetched. -/
theorem RatesSound.setFresh (h : RatesSound service w) {cacheKey : String} {value : FxRate ρ}
    (hstale : value.stale = false) (hfetched : FetchedFor w.log cacheKey value) :
    let expiresAt :=
      if service.cacheTtlSeconds = 0 then none else some (w.now + service.cacheTtlSeconds * 1000)
    RatesSound service (({ w with redis := w.redis.set (.fresh cacheKey) value expiresAt }).event
      (.cached cacheKey value w.now)) := by
  intro expiresAt
  refine ⟨fun other rate asOf hmem => ?_, fun key entry hentry => ?_,
    fun pod other found readAt hmem => ?_, fun other found hmem => ?_, ⟨?_, h.remembered⟩⟩
  · exact h.valid other rate asOf (List.mem_of_ne_of_mem (by rintro ⟨⟩) hmem)
  · rcases Store.entry_of_set hentry with ⟨rfl, rfl⟩ | hentry
    · exact ⟨hstale, List.mem_cons_of_mem _ hfetched, w.now, List.mem_cons_self, Nat.le_refl _, rfl⟩
    · exact (h.stored key entry hentry).mono (List.subset_cons_self _ _) (Nat.le_refl _)
  · exact (h.served pod other found readAt (List.mem_of_ne_of_mem (by rintro ⟨⟩) hmem)).mono
      (List.subset_cons_self _ _)
  · obtain ⟨entry, hentry, hexpires⟩ := h.known other found
      (List.mem_of_ne_of_mem (by rintro ⟨⟩) hmem)
    have hne : RateKey.lastKnown other ≠ .fresh cacheKey := by rintro ⟨⟩
    exact ⟨entry, (Store.set_of_ne w.redis hne value expiresAt).trans hentry, hexpires⟩
  · rintro pod other ⟨⟩

theorem RatesSound.setLastKnown (h : RatesSound service w) {cacheKey : String} {value : FxRate ρ}
    (hfetched : FetchedFor w.log cacheKey value) :
    RatesSound service (({ w with redis := w.redis.set (.lastKnown cacheKey) value none }).event
      (.kept cacheKey value)) := by
  refine ⟨fun other rate asOf hmem => ?_, fun key entry hentry => ?_,
    fun pod other found readAt hmem => ?_, fun other found hmem => ?_, ⟨?_, h.remembered⟩⟩
  · exact h.valid other rate asOf (List.mem_of_ne_of_mem (by rintro ⟨⟩) hmem)
  · rcases Store.entry_of_set hentry with ⟨rfl, rfl⟩ | hentry
    · exact ⟨List.mem_cons_of_mem _ hfetched, rfl⟩
    · exact (h.stored key entry hentry).mono (List.subset_cons_self _ _) (Nat.le_refl _)
  · exact (h.served pod other found readAt (List.mem_of_ne_of_mem (by rintro ⟨⟩) hmem)).mono
      (List.subset_cons_self _ _)
  · by_cases hsame : other = cacheKey
    · subst hsame
      exact ⟨⟨value, none⟩, Store.set_self .., rfl⟩
    · have hbefore : .kept other found ∈ w.log := by
        refine List.mem_of_ne_of_mem ?_ hmem
        rintro ⟨⟩
        exact hsame rfl
      obtain ⟨entry, hentry, hexpires⟩ := h.known other found hbefore
      have hne : RateKey.lastKnown other ≠ .lastKnown cacheKey := by
        rintro ⟨⟩
        exact hsame rfl
      exact ⟨entry, (Store.set_of_ne w.redis hne value none).trans hentry, hexpires⟩
  · rintro pod other ⟨⟩

end Provenance

section Runs

variable {ρ : Type} {service : FxRateService ρ} {w : FxWorld ρ}

/-- What the cache holds is fresh when it is found. -/
theorem cachedAt_of_get (h : RatesSound service w) {cacheKey : String} {value : FxRate ρ}
    (hget : w.redis.get w.now (.fresh cacheKey) = some value) :
    FetchedFor w.log cacheKey value ∧ CachedAt service w.log cacheKey value w.now := by
  unfold Store.get at hget
  split at hget
  · cases hget
  · rename_i entry hentry
    split at hget
    · rename_i hvalid
      obtain ⟨-, hfetched, since, hcached, hsince, hexpires⟩ := h.stored _ entry hentry
      cases hget
      refine ⟨hfetched, since, hcached, hsince, fun httl => ?_⟩
      rw [hexpires, if_neg httl] at hvalid
      exact of_decide_eq_true hvalid
    · cases hget

/-- A key that is not found was never kept. -/
theorem not_kept_of_get (h : RatesSound service w) {cacheKey : String}
    (hget : w.redis.get w.now (.lastKnown cacheKey) = none) (value : FxRate ρ) :
    .kept cacheKey value ∉ w.log := by
  intro hkept
  obtain ⟨entry, hentry, hexpires⟩ := h.known cacheKey value hkept
  rw [Store.get, hentry] at hget
  dsimp only at hget
  rw [hexpires] at hget
  cases hget

/-- A fetch that begins waits for the provider, if the breaker lets it. -/
theorem fetchRate_sound (h : RatesSound service w) (pod : Nat) (target : RateTarget) :
    RatesSound service (w.fetchRate pod target).1 ∧
      w.log ⊆ (w.fetchRate pod target).1.log ∧
      ∀ next ∈ (w.fetchRate pod target).2, HoldsRate service (w.fetchRate pod target).1 next := by
  refine ⟨h.setBreaker _ _, List.Subset.refl _, fun next hnext => ?_⟩
  obtain ⟨call, -, rfl⟩ := List.mem_map.mp hnext
  trivial

theorem readCachedRate_sound (h : RatesSound service w) (input : FxInput ρ) (pod : Nat)
    (cacheKey : String) :
    RatesSound service (w.readCachedRate input pod cacheKey).1 ∧
      w.log ⊆ (w.readCachedRate input pod cacheKey).1.log ∧
      ∀ next ∈ (w.readCachedRate input pod cacheKey).2,
        HoldsRate service (w.readCachedRate input pod cacheKey).1 next := by
  unfold FxWorld.readCachedRate
  split
  · exact ⟨h.readFailed pod cacheKey, List.subset_cons_self _ _, List.forall_mem_nil _⟩
  · cases hget : w.redis.get w.now (.fresh cacheKey) with
    | none => exact ⟨h, List.Subset.refl _, List.forall_mem_singleton.mpr trivial⟩
    | some value =>
        exact ⟨h, List.Subset.refl _, List.forall_mem_singleton.mpr (cachedAt_of_get h hget)⟩

/-- Every statement keeps the log sound, and what it leaves behind holds rates that were fetched. -/
theorem rates_resume (input : FxInput ρ) (h : RatesSound service w) {call : FxCall ρ}
    (hcall : HoldsRate service w call) :
    RatesSound service (call.resume service input w).1 ∧
      w.log ⊆ (call.resume service input w).1.log ∧
      ∀ next ∈ (call.resume service input w).2,
        HoldsRate service (call.resume service input w).1 next := by
  cases call with
  | refreshRate pod symbol => exact fetchRate_sound h pod _
  | refreshOneFiatRate pod currency => exact fetchRate_sound h pod _
  | getUsdRate pod symbol => exact readCachedRate_sound h input pod _
  | getFiatRate pod currency => exact readCachedRate_sound h input pod _
  | fetching pod target call =>
      simp only [FxCall.resume]
      cases hresult : input.result service target.label with
      | error message =>
          exact ⟨h.setBreaker _ _, List.Subset.refl _, List.forall_mem_nil _⟩
      | ok rate =>
          have hvalid : service.isValid rate := by
            unfold FxInput.result at hresult
            split at hresult
            · cases hresult
            · split at hresult
              · rename_i hvalid
                cases hresult
                exact hvalid
              · cases hresult
          refine ⟨(h.setBreaker _ _).event _ ?_ ?_ ?_ ?_, List.subset_cons_self _ _, ?_⟩
          · rintro other found asOf ⟨⟩
            exact hvalid
          · rintro pod' other value readAt ⟨⟩
          · rintro other value ⟨⟩
          · rintro pod' other ⟨⟩
          · refine List.forall_mem_cons.mpr ⟨⟨rfl, List.mem_cons_self⟩, ?_⟩
            exact List.forall_mem_singleton.mpr List.mem_cons_self
  | setFresh cacheKey value =>
      simp only [FxCall.resume]
      split
      · exact ⟨h, List.Subset.refl _, List.forall_mem_nil _⟩
      · exact ⟨h.setFresh hcall.1 hcall.2, List.subset_cons_self _ _, List.forall_mem_nil _⟩
  | setLastKnown cacheKey value =>
      simp only [FxCall.resume]
      split
      · exact ⟨h, List.Subset.refl _, List.forall_mem_nil _⟩
      · exact ⟨h.setLastKnown hcall, List.subset_cons_self _ _, List.forall_mem_nil _⟩
  | isOpen pod cacheKey value readAt =>
      obtain ⟨hfetched, hcached⟩ := hcall
      simp only [FxCall.resume]
      refine ⟨(h.setBreaker _ _).serve pod ?_, List.subset_cons_self _ _, List.forall_mem_nil _⟩
      split
      · exact ⟨hfetched, by rintro ⟨⟩⟩
      · exact ⟨hfetched, fun _ => hcached⟩
  | readLastKnown pod cacheKey =>
      simp only [FxCall.resume]
      split
      · exact ⟨h.readFailed pod cacheKey, List.subset_cons_self _ _, List.forall_mem_nil _⟩
      · cases hget : w.redis.get w.now (.lastKnown cacheKey) with
        | none =>
            refine ⟨h.event _ ?_ ?_ ?_ ?_, List.subset_cons_self _ _, List.forall_mem_nil _⟩
            · rintro other rate asOf ⟨⟩
            · rintro pod' other value readAt ⟨⟩
            · rintro other value ⟨⟩
            · rintro pod' other hunknown
              cases hunknown
              exact not_kept_of_get h hget
        | some value =>
            obtain ⟨entry, hentry, rfl⟩ := Store.entry_of_get hget
            have hserved : ServedRate service w.log cacheKey { entry.value with stale := true } w.now :=
              ⟨(h.stored _ entry hentry).1, by rintro ⟨⟩⟩
            exact ⟨h.serve pod hserved, List.subset_cons_self _ _, List.forall_mem_nil _⟩

theorem rates_step {s : FxPool ρ} (a : FxAction ρ)
    (h : RatesSound service s.shared ∧ ∀ call ∈ s.inflight, HoldsRate service s.shared call) :
    RatesSound service ((fxRates service).step s a).shared ∧
      ∀ call ∈ ((fxRates service).step s a).inflight,
        HoldsRate service ((fxRates service).step s a).shared call := by
  refine (fxRates service).keeps_step a h.1 h.2 ?_ ?_ ?_
  · intro call _ hstart
    cases call with
    | setFresh cacheKey value => cases hstart
    | setLastKnown cacheKey value => cases hstart
    | isOpen pod cacheKey value readAt => cases hstart
    | _ => trivial
  · intro index input call _ hcall
    obtain ⟨hafter, hlog, hnext⟩ := rates_resume input h.1 (h.2 call (List.mem_of_getElem? hcall))
    exact ⟨hafter, hnext, fun other hother => (h.2 other (List.mem_of_mem_eraseIdx hother)).mono hlog⟩
  · intro ms
    refine ⟨⟨h.1.valid, fun key entry hentry => ?_, h.1.served, h.1.known, h.1.remembered⟩,
      fun other hother => (h.2 other hother).mono (List.Subset.refl _)⟩
    exact (h.1.stored key entry hentry).mono (List.Subset.refl _) (Nat.le_add_right _ _)

theorem ratesSound_run (service : FxRateService ρ) (now : Nat) (options : CircuitBreakerOptions)
    (actions : List (FxAction ρ)) :
    RatesSound service ((fxRates service).run actions (freshRates now options)).shared := by
  refine (List.foldlRecOn actions (fxRates service).step
    (motive := fun s => RatesSound service s.shared ∧
      ∀ call ∈ s.inflight, HoldsRate service s.shared call)
    ⟨⟨?_, ?_, ?_, ?_, ?_⟩, ?_⟩ fun _ hs a _ => rates_step a hs).1
  · rintro cacheKey rate asOf ⟨⟩
  · rintro key entry ⟨⟩
  · rintro pod cacheKey value readAt ⟨⟩
  · rintro cacheKey value ⟨⟩
  · trivial
  · exact List.forall_mem_nil _

/-- A rate that is served was answered by the provider for its key, as of the time it says, and is
valid. If it is not marked as stale, it had been cached less than the time to live before it was
read; and when an entry shows it as fresh, that answer is no older than `FX_STALE_AFTER_MINUTES`. -/
theorem served_rate_fetched (service : FxRateService ρ) (now : Nat)
    (options : CircuitBreakerOptions) (actions : List (FxAction ρ)) (pod : Nat) (cacheKey : String)
    (value : FxRate ρ) (readAt : Nat) :
    let log := ((fxRates service).run actions (freshRates now options)).shared.log
    .served pod cacheKey value readAt ∈ log →
      .fetched cacheKey value.rate value.asOf ∈ log ∧ service.isValid value.rate ∧
        (value.stale = false → CachedAt service log cacheKey value readAt) ∧
        ∀ time, (service.toEntry time (some value)).stale = false →
          time ≤ value.asOf + service.staleAfterMs := by
  intro log hserved
  have hsound := ratesSound_run service now options actions
  obtain ⟨hfetched, hfresh⟩ := hsound.served pod cacheKey value readAt hserved
  refine ⟨hfetched, hsound.valid cacheKey _ _ hfetched, hfresh, fun time hstale => ?_⟩
  have hage : ¬ service.staleAfterMs < time - value.asOf :=
    of_decide_eq_false (Bool.or_eq_false_iff.mp hstale).2
  omega

def demoRates : FxRateService Nat where
  cacheTtlSeconds := 300
  apiUrl := some "https://api.fx.test/rates"
  staleAfterMs := 600000
  text := .ascii
  isValid rate := 0 < rate

def demoFxInput : FxInput Nat := ⟨.ok (3, "{}"), false⟩

/-- A rate is fetched and kept, and read after a second and after ten minutes. -/
def demoFetch : List (FxAction Nat) :=
  [.begin (.refreshRate 0 "xlm"), .resume 0 demoFxInput, .resume 0 demoFxInput,
    .resume 0 demoFxInput, .resume 0 demoFxInput, .external 1000, .begin (.getUsdRate 1 "XLM"),
    .resume 0 demoFxInput, .resume 0 demoFxInput, .external 599000, .begin (.getUsdRate 1 "XLM"),
    .resume 0 demoFxInput, .resume 0 demoFxInput]

theorem demo_rate_fetched :
    let log := ((fxRates demoRates).run demoFetch (freshRates 5 ⟨5, 60000⟩)).shared.log
    (.served 1 "fx:rate:XLM" ⟨3, 5, false⟩ 1005 ∈ log ∧
      CachedAt demoRates log "fx:rate:XLM" ⟨3, 5, false⟩ 1005) ∧
    .served 1 "fx:rate:XLM" ⟨3, 5, true⟩ 600005 ∈ log ∧ .fetched "fx:rate:XLM" 3 5 ∈ log ∧
      demoRates.isValid 3 ∧ ∀ time,
        (demoRates.toEntry time (some ⟨3, 5, true⟩)).stale = false → time ≤ 5 + 600000 := by
  have hfresh := served_rate_fetched demoRates 5 ⟨5, 60000⟩ demoFetch 1 "fx:rate:XLM"
    ⟨3, 5, false⟩ 1005 (.tail _ (.head _))
  have hstale := served_rate_fetched demoRates 5 ⟨5, 60000⟩ demoFetch 1 "fx:rate:XLM"
    ⟨3, 5, true⟩ 600005 (.head _)
  exact ⟨⟨.tail _ (.head _), hfresh.2.2.1 rfl⟩, .head _, hstale.1, hstale.2.1, hstale.2.2.2⟩

/-- Once the last known copy of a rate is written, no request finds the rate unknown. -/
theorem kept_rate_known (service : FxRateService ρ) (now : Nat) (options : CircuitBreakerOptions)
    (actions : List (FxAction ρ)) (cacheKey : String) (value : FxRate ρ)
    (after before : List (FxEvent ρ)) :
    ((fxRates service).run actions (freshRates now options)).shared.log =
        after ++ .kept cacheKey value :: before →
      ∀ pod, .unknown pod cacheKey ∉ after := by
  intro hlog pod hunknown
  have hremembered := (ratesSound_run service now options actions).remembered
  obtain ⟨later, earlier, rfl⟩ := List.append_of_mem hunknown
  rw [hlog, List.append_assoc] at hremembered
  clear hlog hunknown
  induction later with
  | nil => exact hremembered.1 pod cacheKey rfl value (by simp)
  | cons e rest ih => exact ih hremembered.2

theorem demo_rate_known :
    ((fxRates demoRates).run demoFetch (freshRates 5 ⟨5, 60000⟩)).shared.log.length = 5 ∧
      ∀ pod, .unknown pod "fx:rate:XLM" ∉ [(.served 1 "fx:rate:XLM" ⟨3, 5, true⟩ 600005 : FxEvent Nat),
        .served 1 "fx:rate:XLM" ⟨3, 5, false⟩ 1005] :=
  ⟨rfl, kept_rate_known demoRates 5 ⟨5, 60000⟩ demoFetch "fx:rate:XLM" ⟨3, 5, false⟩ _
    [.cached "fx:rate:XLM" ⟨3, 5, false⟩ 5, .fetched "fx:rate:XLM" 3 5] rfl⟩

end Runs

end ChainSettle
