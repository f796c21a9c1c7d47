import ChainSettle.Webhooks.Verification

/-!
The headers of the four send paths. `retryDelivery` builds its headers with
`buildDeliveryHeaders`, which decrypts the endpoint's custom headers; the first
attempt, the automatic retries and the test pings send the signature headers
alone. What an endpoint's owner has configured is therefore lost on all of them.
-/

namespace ChainSettle

open Lib

section RoundTrip

/-- What `createDecipheriv` makes of `createCipheriv`, and base64 texts. -/
structure Crypto.RoundTrips (crypto : Crypto) : Prop where
  decipher : ∀ {key iv value tag ciphertext}, crypto.cipher key iv value = some (tag, ciphertext) →
    crypto.decipher key iv tag ciphertext = some value
  base64 : ∀ {key iv value tag ciphertext}, crypto.cipher key iv value = some (tag, ciphertext) →
    ':' ∉ tag.toList ∧ ':' ∉ ciphertext.toList

variable {crypto : Crypto}

theorem decryptHeaderValue_encrypted (hcrypto : crypto.RoundTrips) {value key iv encrypted : String}
    (hiv : ':' ∉ iv.toList) (h : encryptHeaderValue crypto value key iv = some encrypted) :
    decryptHeaderValue crypto encrypted key = some value := by
  obtain ⟨⟨tag, ciphertext⟩, hcipher, rfl⟩ := Option.map_eq_some_iff.mp h
  obtain ⟨htag, hciphertext⟩ := hcrypto.base64 hcipher
  have hparts : ((iv ++ ":" ++ tag ++ ":" ++ ciphertext).toList.splitOn ':').map String.ofList =
      [iv, tag, ciphertext] := by
    have htext : (iv ++ ":" ++ tag ++ ":" ++ ciphertext).toList =
        iv.toList ++ ':' :: (tag.toList ++ ':' :: ciphertext.toList) := by
      simp
    rw [htext, List.splitOn_append_cons_self, List.splitOn_append_cons_self,
      List.splitOn_eq_singleton hiv, List.splitOn_eq_singleton htag,
      List.splitOn_eq_singleton hciphertext]
    simp
  unfold decryptHeaderValue
  rw [hparts]
  exact hcrypto.decipher hcipher

theorem decryptHeaders_encryptHeaders (hcrypto : crypto.RoundTrips) {key : String}
    {iv : String → String} (hiv : ∀ name, ':' ∉ (iv name).toList)
    {headers stored : List (String × String)}
    (h : encryptHeaders crypto headers key iv = some stored) :
    decryptHeaders crypto (some stored) key = headers := by
  unfold encryptHeaders at h
  induction headers generalizing stored with
  | nil =>
      cases h
      rfl
  | cons header rest ih =>
      rw [List.mapM_cons] at h
      obtain ⟨first, hfirst, hrest⟩ := Option.bind_eq_some_iff.mp h
      obtain ⟨others, hothers, hstored⟩ := Option.bind_eq_some_iff.mp hrest
      cases hstored
      obtain ⟨encrypted, hencrypted, rfl⟩ := Option.map_eq_some_iff.mp hfirst
      have hvalue := decryptHeaderValue_encrypted hcrypto (hiv header.1) hencrypted
      have htail := ih hothers
      simp only [decryptHeaders, Option.getD_some, List.filterMap_cons, hvalue,
        Option.map_some] at htail ⊢
      rw [htail]

/-- What is stored for a header set decrypts to it. -/
theorem decryptHeaders_stored (hcrypto : crypto.RoundTrips) {input : WebhookInput}
    (hiv : ∀ name, ':' ∉ (input.iv name).toList) {headers stored : Option (List (String × String))}
    (h : storedHeaders crypto input headers = some stored) :
    decryptHeaders crypto stored input.service.encryptionKey = headers.getD [] := by
  unfold storedHeaders at h
  split at h
  · cases h
    rfl
  · obtain ⟨encrypted, hencrypted, rfl⟩ := Option.map_eq_some_iff.mp h
    exact decryptHeaders_encryptHeaders hcrypto hiv hencrypted

end RoundTrip

section Names

theorem not_reserved_of_validateEntries {total : Nat} {headers : List (String × String)}
    (h : validateEntries total headers = none) :
    ∀ header ∈ headers, isReservedHeader header.1 = false := by
  induction headers generalizing total with
  | nil => exact List.forall_mem_nil _
  | cons header rest ih =>
      unfold validateEntries at h
      split at h
      · cases h
      · split at h
        · cases h
        · rename_i hreserved
          dsimp only at h
          split at h
          · cases h
          · exact List.forall_mem_cons.mpr ⟨Bool.eq_false_iff.mpr hreserved, ih h⟩

theorem not_reserved_of_validateHeaders {headers : List (String × String)}
    (h : validateHeaders headers = none) :
    ∀ header ∈ headers, isReservedHeader header.1 = false := by
  unfold validateHeaders at h
  split at h
  · cases h
  · exact not_reserved_of_validateEntries h

/-- The service's own headers all have reserved names. -/
theorem signatureHeaders_reserved (ts : Nat) (signature signatureV2 : String) :
    ∀ header ∈ signatureHeaders ts signature signatureV2, isReservedHeader header.1 := by
  intro header hmem
  simp only [signatureHeaders, List.mem_cons, List.not_mem_nil, or_false] at hmem
  obtain rfl | rfl | rfl | rfl := hmem
  all_goals dsimp only
  all_goals decide

theorem isReservedHeader_congr {name other : String} (h : lowerCase name = lowerCase other) :
    isReservedHeader name = isReservedHeader other := by
  unfold isReservedHeader
  rw [h]

end Names

section Maps

theorem headerOf_append (headers more : List (String × String)) (name : String) :
    headerOf (headers ++ more) name = (headerOf more name).or (headerOf headers name) := by
  unfold headerOf
  rw [List.reverse_append, List.find?_append, Option.map_or]

theorem headerOf_eq_none_iff {headers : List (String × String)} {name : String} :
    headerOf headers name = none ↔ ∀ header ∈ headers, lowerCase header.1 ≠ lowerCase name := by
  unfold headerOf
  rw [Option.map_eq_none_iff, List.find?_eq_none]
  simp

/-- Two sets of headers agree but for the request id. -/
def SameHeaders (headers other : List (String × String)) : Prop :=
  ∀ name, lowerCase name ≠ lowerCase "X-Request-ID" → headerOf headers name = headerOf other name

/-- Custom headers in front of the service's own are missed by a receiver, unless
there are none. -/
theorem sameHeaders_custom_iff {custom : List (String × String)}
    (hcustom : ∀ header ∈ custom, isReservedHeader header.1 = false) (ts : Nat)
    (signature signatureV2 : String) (requestId : Option String) :
    SameHeaders (signatureHeaders ts signature signatureV2)
        (custom ++ signatureHeaders ts signature signatureV2 ++
          requestId.toList.map fun value => ("X-Request-ID", value)) ↔
      ∀ header ∈ custom, lowerCase header.1 = lowerCase "X-Request-ID" := by
  have hid (name : String) (hname : lowerCase name ≠ lowerCase "X-Request-ID") :
      headerOf (requestId.toList.map fun value => ("X-Request-ID", value)) name = none := by
    rw [headerOf_eq_none_iff]
    intro header hmem
    obtain ⟨value, -, rfl⟩ := List.mem_map.mp hmem
    exact Ne.symm hname
  constructor
  · intro h header hmem
    by_contra hname
    have hnone : headerOf (signatureHeaders ts signature signatureV2) header.1 = none := by
      rw [headerOf_eq_none_iff]
      intro own hown hsame
      have hreserved := signatureHeaders_reserved ts signature signatureV2 own hown
      rw [isReservedHeader_congr hsame, hcustom header hmem] at hreserved
      cases hreserved
    have hsame := h header.1 hname
    rw [headerOf_append, hid _ hname, Option.none_or, headerOf_append, hnone, Option.none_or] at hsame
    exact headerOf_eq_none_iff.mp hsame.symm header hmem rfl
  · intro h name hname
    have hnone : headerOf custom name = none := by
      rw [headerOf_eq_none_iff]
      intro header hmem hsame
      exact hname (hsame.symm.trans (h header hmem))
    rw [headerOf_append, hid _ hname, Option.none_or, headerOf_append, hnone, Option.or_none]

end Maps

section Senders

variable {crypto : Crypto}

/-- The statements after which a request is signed: by `deliverOnce` for every
endpoint of an event, by `executeRetry` for every delivery that is due, by
`sendTestPing` for every endpoint of a user, and by `retryDelivery`. -/
inductive WebhookStatement.Signs : WebhookStatement → Prop
  | deliverOnce (eventType : String) (payload : Json) : Signs (.dispatch eventType payload)
  | executeRetry : Signs .processRetryQueue
  | sendTestPing (userId : String) : Signs (.bulkTest userId)
  | retryDelivery (endpoint : WebhookEndpoint) (deliveryId : String) :
      Signs (.retryRow endpoint deliveryId)

def WebhookStatement.isManual : WebhookStatement → Bool
  | .retryRow .. => true
  | _ => false

theorem request_of_proceed {a : DeliveryAttempt} {ep : WebhookEndpoint} {request : WebhookRequest}
    (hep : a.proceed.endpoint? = some ep) (hrequest : a.proceed.request? = some request) :
    a.endpoint = ep ∧ a.request = request := by
  unfold DeliveryAttempt.proceed at hep hrequest
  split at hep <;> rename_i hlimit
  · rw [if_pos hlimit] at hrequest
    exact ⟨Option.some.inj hep, Option.some.inj hrequest⟩
  · rw [if_neg hlimit] at hrequest
    exact ⟨Option.some.inj hep, Option.some.inj hrequest⟩

/-- What the four paths sign. -/
theorem signed_request {input : WebhookInput} {w : WebhookWorld} {next : WebhookStatement}
    (hsigns : next.Signs) {call : WebhookCall} (hcall : call ∈ (next.exec crypto input w).2)
    {ep : WebhookEndpoint} (hep : call.endpoint? = some ep) {request : WebhookRequest}
    (hrequest : call.request? = some request) :
    ∃ check : PayloadCheck, request =
      if next.isManual then manualRequest crypto input ep check w.now
      else signedRequest crypto ep check w.now := by
  cases hsigns with
  | deliverOnce eventType payload =>
      obtain ⟨row, -, rfl⟩ := List.mem_map.mp hcall
      cases hep
      cases hrequest
      exact ⟨_, rfl⟩
  | executeRetry =>
      obtain ⟨delivery, -, hfound⟩ := List.mem_filterMap.mp hcall
      obtain ⟨row, -, rfl⟩ := Option.map_eq_some_iff.mp hfound
      cases hep
      cases hrequest
      exact ⟨_, rfl⟩
  | sendTestPing userId =>
      obtain ⟨row, -, rfl⟩ := List.mem_map.mp hcall
      cases hep
      cases hrequest
      exact ⟨_, rfl⟩
  | retryDelivery endpoint deliveryId =>
      simp only [WebhookStatement.exec] at hcall
      split at hcall
      · cases hcall
      · rw [List.mem_singleton.mp hcall] at hep hrequest
        obtain ⟨rfl, rfl⟩ := request_of_proceed hep hrequest
        exact ⟨_, rfl⟩

/-- For an endpoint with any accepted custom headers, whatever a path signs has
the headers that `retryDelivery` sends with the same body at the same time,
exactly if the path is `retryDelivery` or there is no custom header (but for a
request id). -/
theorem send_paths_agree_iff (hcrypto : crypto.RoundTrips) {stored : WebhookInput}
    (hiv : ∀ name, ':' ∉ (stored.iv name).toList)
    {headers encrypted : Option (List (String × String))}
    (haccepted : headers.bind validateHeaders = none)
    (hstored : storedHeaders crypto stored headers = some encrypted) {ep : WebhookEndpoint}
    (hep : ep.headers = encrypted) {input : WebhookInput}
    (hkey : input.service.encryptionKey = stored.service.encryptionKey) {w : WebhookWorld}
    {next : WebhookStatement} (hsigns : next.Signs) {call : WebhookCall}
    (hcall : call ∈ (next.exec crypto input w).2) (hendpoint : call.endpoint? = some ep)
    {request : WebhookRequest} (hrequest : call.request? = some request) (bytes : Nat)
    (exceedsLimit : Bool) :
    SameHeaders request.headers
        (manualRequest crypto input ep ⟨request.body, bytes, exceedsLimit⟩ w.now).headers ↔
      next.isManual ∨
        ∀ header ∈ headers.getD [], lowerCase header.1 = lowerCase "X-Request-ID" := by
  have hdecrypted : decryptHeaders crypto ep.headers input.service.encryptionKey =
      headers.getD [] := by
    rw [hep, hkey]
    exact decryptHeaders_stored hcrypto hiv hstored
  have hcustom : ∀ header ∈ headers.getD [], isReservedHeader header.1 = false := by
    cases headers with
    | none => exact List.forall_mem_nil _
    | some headers => exact not_reserved_of_validateHeaders haccepted
  obtain ⟨check, rfl⟩ := signed_request hsigns hcall hendpoint hrequest
  cases hmanual : next.isManual with
  | true => exact iff_of_true (fun _ _ => rfl) (.inl rfl)
  | false =>
      simp only [Bool.false_eq_true, ↓reduceIte, false_or, signedRequest, manualRequest,
        buildDeliveryHeaders, hdecrypted]
      exact sameHeaders_custom_iff hcustom _ _ _ _

end Senders

section Demonstration

/-- AES-256-GCM on the one value below. -/
def headerCrypto : Crypto :=
  { demoCrypto with
    cipher := fun key iv value =>
      if key = "webhook-headers-encryption-key-1" ∧ iv = "AAAAAAAAAAAAAAAA" ∧
          value = "Bearer token" then
        some ("GRS1TDD3G7CERwnsBAIv5A==", "tQXgoomfNOx0d9Gq")
      else none
    decipher := fun key iv tag ciphertext =>
      if key = "webhook-headers-encryption-key-1" ∧ iv = "AAAAAAAAAAAAAAAA" ∧
          tag = "GRS1TDD3G7CERwnsBAIv5A==" ∧ ciphertext = "tQXgoomfNOx0d9Gq" then
        some "Bearer token"
      else none }

theorem headerCrypto_roundTrips : headerCrypto.RoundTrips := by
  constructor
  · intro key iv value tag ciphertext h
    simp only [headerCrypto] at h ⊢
    split at h
    · rename_i hinput
      cases h
      rw [if_pos ⟨hinput.1, hinput.2.1, rfl, rfl⟩, hinput.2.2]
    · cases h
  · intro key iv value tag ciphertext h
    simp only [headerCrypto] at h
    split at h
    · cases h
      decide
    · cases h

def authorization : Option (List (String × String)) := some [("Authorization", "Bearer token")]

def authorizedEndpoint : WebhookEndpoint :=
  { demoEndpoint with
    headers := some
      [("Authorization", "AAAAAAAAAAAAAAAA:GRS1TDD3G7CERwnsBAIv5A==:tQXgoomfNOx0d9Gq")] }

/-- A delivery to the endpoint has failed, and its next attempt is due. -/
def authorizedWorld : WebhookWorld where
  endpoints := ⟨[authorizedEndpoint], by simp⟩
  deliveries := ⟨[{ newDelivery "d-1" authorizedEndpoint "PROOF_SUBMITTED" (.obj []) 0 with
    nextRetryAt := some 0 }], by simp⟩
  now := 0
  posts := []
  responses := []

def signedCalls (next : WebhookStatement) : List WebhookCall :=
  (next.exec headerCrypto (answering 200) authorizedWorld).2

theorem event_lacks_header :
    (signedCalls (.dispatch "PROOF_SUBMITTED" (.obj []))).length = 1 ∧
      ∀ call ∈ signedCalls (.dispatch "PROOF_SUBMITTED" (.obj [])),
        call.endpoint? = some authorizedEndpoint → ∀ request, call.request? = some request →
          ¬ SameHeaders request.headers (manualRequest headerCrypto (answering 200)
            authorizedEndpoint ⟨request.body, 0, false⟩ 0).headers := by
  refine ⟨by decide +kernel, fun call hcall hendpoint request hrequest hsame => ?_⟩
  have hiv : ':' ∉ "AAAAAAAAAAAAAAAA".toList := by decide
  have haccepted : authorization.bind validateHeaders = none := by decide +kernel
  have hstored : storedHeaders headerCrypto (answering 200) authorization =
      some authorizedEndpoint.headers := by decide +kernel
  have hcondition := (send_paths_agree_iff headerCrypto_roundTrips (fun _ => hiv) haccepted hstored
    rfl rfl (.deliverOnce _ _) hcall hendpoint hrequest 0 false).mp hsame
  revert hcondition
  decide +kernel

/-- `Authorization` on the requests that a statement signs. -/
def authorizations (next : WebhookStatement) : List (Option String) :=
  ((signedCalls next).filterMap WebhookCall.request?).map
    fun request => headerOf request.headers "Authorization"

/-- A receiver that requires the header refuses all but the manual retry. -/
theorem automatic_paths_drop_header :
    validateHeaders [("Authorization", "Bearer token")] = none ∧
      storedHeaders headerCrypto (answering 200) authorization =
        some authorizedEndpoint.headers ∧
      authorizations (.dispatch "PROOF_SUBMITTED" (.obj [])) = [none] ∧
      authorizations .processRetryQueue = [none] ∧ authorizations (.bulkTest "u-1") = [none] ∧
      authorizations (.retryRow authorizedEndpoint "d-1") = [some "Bearer token"] := by
  decide +kernel

end Demonstration

end ChainSettle
