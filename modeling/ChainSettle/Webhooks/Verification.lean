import ChainSettle.Semantics.Numerals
import ChainSettle.Webhooks.Retry
import Mathlib.Logic.Equiv.Basic

/-!
What a receiver can verify. The documentation gives receivers a check, `verifyV2`,
to be made with the plaintext secret that `register` and `rotateSecret` return.
The service keeps only the SHA-256 digest of the secret and signs with that
digest as the key. The check therefore succeeds only where the digest is the
secret.
-/

namespace ChainSettle

open Lib

section Numbers

/-- `Number(text)`, where it is an integer. -/
def integerOfText (text : String) : Option Int :=
  let cs := jsTrim text.toList
  if cs.isEmpty then some 0
  else match parseRadix cs with
    | some n => some n
    | none =>
        match cs with
        | '-' :: rest => (parseDecimal rest).map fun n => -(n : Int)
        | '+' :: rest => (parseDecimal rest).map fun n => (n : Int)
        | rest => (parseDecimal rest).map fun n => (n : Int)

theorem integerOfText_toString (n : Nat) : integerOfText (toString n) = some (n : Int) := by
  have hdigits : ∀ c ∈ Nat.toDigits 10 n, c.isDigit :=
    fun c hc => Nat.isDigit_of_mem_toDigits (by decide) (by decide) hc
  have hne : Nat.toDigits 10 n ≠ [] := Nat.toDigits_ne_nil
  have hlist : (toString n).toList = Nat.toDigits 10 n := Nat.toList_repr
  unfold integerOfText
  rw [hlist, jsTrim_of_digits hdigits]
  simp only [List.isEmpty_iff, hne, if_false, parseRadix_of_digits hdigits]
  split
  · rename_i heq
    rw [heq] at hdigits
    simp [Char.isDigit] at hdigits
  · rename_i heq
    rw [heq] at hdigits
    simp [Char.isDigit] at hdigits
  · rw [parseDecimal_of_digits hne hdigits, Nat.ofDigitChars_ten_toDigits]
    rfl

end Numbers

section Receiver

/-- In seconds. -/
def TOLERANCE_SECONDS : Nat := 300

/-- The groups of `/^t=(\d+),v1=([a-f0-9]\x7b64\x7d)$/`. -/
def matchSignatureV2 (header : String) : Option (String × String) :=
  match header.toList with
  | 't' :: '=' :: rest =>
      let digits := rest.takeWhile Char.isDigit
      match rest.dropWhile Char.isDigit with
      | ',' :: 'v' :: '1' :: '=' :: digest =>
          if digits ≠ [] ∧ digest.length = 64 ∧ digest.all isHex then
            some (String.ofList digits, String.ofList digest)
          else none
      | _ => none
  | _ => none

/-- The check that the documentation recommends, at a time in milliseconds. -/
def verifyV2 (crypto : Crypto) (now : Nat) (rawBody : String)
    (timestampHeader signatureV2Header : Option String) (secret : String) : Bool :=
  match truthyText timestampHeader, truthyText signatureV2Header with
  | some timestamp, some signature =>
      match integerOfText timestamp, matchSignatureV2 signature with
      | some ts, some (signedAt, digest) =>
          decide (((nowUnixSeconds now : Int) - ts).natAbs ≤ TOLERANCE_SECONDS) &&
            decide (signedAt = timestamp) &&
            decide ((crypto.hmacSha256 secret (toString ts ++ "." ++ rawBody)).text = digest)
      | _, _ => false
  | _, _ => false

/-- Header names are not case-sensitive, and a later header replaces an earlier one. -/
def headerOf (headers : List (String × String)) (name : String) : Option String :=
  (headers.reverse.find? fun header => lowerCase header.1 = lowerCase name).map Prod.snd

def receiverAccepts (crypto : Crypto) (now : Nat) (request : WebhookRequest) (secret : String) :
    Bool :=
  verifyV2 crypto now request.body (headerOf request.headers "X-ChainSettle-Timestamp")
    (headerOf request.headers "X-ChainSettle-Signature-V2") secret

theorem matchSignatureV2_signed (ts : Nat) (digest : HexText 64) :
    matchSignatureV2 ("t=" ++ toString ts ++ ",v1=" ++ digest.text) =
      some (toString ts, digest.text) := by
  have hdigits : ∀ c ∈ (toString ts).toList, c.isDigit := by
    intro c hc
    rw [Nat.toString_eq_repr, Nat.toList_repr] at hc
    exact Nat.isDigit_of_mem_toDigits (by decide) (by decide) hc
  have hne : (toString ts).toList ≠ [] := by
    rw [Nat.toString_eq_repr, Nat.toList_repr]
    exact Nat.toDigits_ne_nil
  have hlist : ("t=" ++ toString ts ++ ",v1=" ++ digest.text).toList =
      't' :: '=' :: ((toString ts).toList ++ ',' :: 'v' :: '1' :: '=' :: digest.text.toList) := by
    simp
  have htake : ((toString ts).toList ++ ',' :: 'v' :: '1' :: '=' :: digest.text.toList).takeWhile
      Char.isDigit = (toString ts).toList := by
    rw [List.takeWhile_append_of_pos hdigits]
    simp
  have hdrop : ((toString ts).toList ++ ',' :: 'v' :: '1' :: '=' :: digest.text.toList).dropWhile
      Char.isDigit = ',' :: 'v' :: '1' :: '=' :: digest.text.toList := by
    rw [List.dropWhile_append_of_pos hdigits]
    rfl
  unfold matchSignatureV2
  simp only [hlist, htake, hdrop]
  rw [if_pos ⟨hne, digest.size, List.all_eq_true.mpr digest.hex⟩, String.ofList_toList,
    String.ofList_toList]

/-- The request carries the two headers of the current scheme. -/
structure WebhookRequest.SignedWith (crypto : Crypto) (request : WebhookRequest) (secret : String)
    (signedAt : Nat) : Prop where
  timestamp : headerOf request.headers "X-ChainSettle-Timestamp" =
    some (toString (nowUnixSeconds signedAt))
  signature : headerOf request.headers "X-ChainSettle-Signature-V2" =
    some (signBodyV2 crypto secret (nowUnixSeconds signedAt) request.body)

/-- Within the tolerance the check compares two digests of the same text. -/
theorem receiverAccepts_iff {crypto : Crypto} {request : WebhookRequest} {key : String}
    {signedAt now : Nat} (hsigned : request.SignedWith crypto key signedAt)
    (hnow : ((nowUnixSeconds now : Int) - nowUnixSeconds signedAt).natAbs ≤ TOLERANCE_SECONDS)
    (secret : String) :
    receiverAccepts crypto now request secret ↔
      crypto.hmacSha256 secret (toString (nowUnixSeconds signedAt) ++ "." ++ request.body) =
        crypto.hmacSha256 key (toString (nowUnixSeconds signedAt) ++ "." ++ request.body) := by
  have htruthy (text : String) (hne : text ≠ "") : truthyText (some text) = some text := by
    simp [truthyText, hne]
  have htime : toString (nowUnixSeconds signedAt) ≠ "" := Nat.repr_ne_empty
  have hheader : signBodyV2 crypto key (nowUnixSeconds signedAt) request.body ≠ "" := by
    intro hempty
    have hchars := congrArg String.toList hempty
    simp [signBodyV2] at hchars
  unfold receiverAccepts verifyV2
  rw [hsigned.timestamp, hsigned.signature, htruthy _ htime, htruthy _ hheader]
  simp only [integerOfText_toString, signBodyV2, matchSignatureV2_signed, Bool.and_eq_true,
    decide_eq_true_eq, and_true, hnow, true_and]
  exact ⟨HexText.ext_text, congrArg HexText.text⟩

end Receiver

section Senders

variable (crypto : Crypto)

/-- The headers of the current scheme, behind any others and before one more. -/
theorem signedWith_headers {request : WebhookRequest} {secret : String} {now : Nat}
    (custom : List (String × String)) (requestId : Option String) {signature : String}
    (h : request.headers = custom ++
      signatureHeaders (nowUnixSeconds now) signature
        (signBodyV2 crypto secret (nowUnixSeconds now) request.body) ++
      requestId.toList.map fun value => ("X-Request-ID", value)) :
    request.SignedWith crypto secret now := by
  have hid (name : String) (hname : lowerCase "X-Request-ID" ≠ lowerCase name) :
      (requestId.toList.map fun value => ("X-Request-ID", value)).reverse.find? (fun header =>
        decide (lowerCase header.1 = lowerCase name)) = none := by
    cases requestId with
    | none => rfl
    | some value => simp [hname]
  have hsignature : lowerCase "X-ChainSettle-Signature" ≠ lowerCase "X-ChainSettle-Timestamp" := by
    decide
  have hcurrent : lowerCase "X-ChainSettle-Signature-V2" ≠ lowerCase "X-ChainSettle-Timestamp" := by
    decide
  constructor
  · simp only [headerOf, h, List.reverse_append, List.find?_append]
    rw [hid _ (by decide)]
    simp [signatureHeaders, hsignature, hcurrent]
  · simp only [headerOf, h, List.reverse_append, List.find?_append]
    rw [hid _ (by decide)]
    simp [signatureHeaders]

theorem signedRequest_signedWith (ep : WebhookEndpoint) (check : PayloadCheck) (now : Nat) :
    (signedRequest crypto ep check now).SignedWith crypto ep.secret now :=
  signedWith_headers crypto [] none rfl

/-- The owner's own headers come before the signatures. -/
theorem manualRequest_signedWith (input : WebhookInput) (ep : WebhookEndpoint)
    (check : PayloadCheck) (now : Nat) :
    (manualRequest crypto input ep check now).SignedWith crypto ep.secret now :=
  signedWith_headers crypto _ (truthyText input.requestId) rfl

/-- The endpoint holds the digest of a secret, and its owner has been given one. -/
structure WebhookWorld.Issued (w : WebhookWorld) (ep : WebhookEndpoint) : Prop where
  digest : ∃ issued : HexText 64, ep.secret = (crypto.sha256 issued.text).text
  returned : (w.returned ep.id).isSome

/-- The endpoint a call has read. -/
def WebhookCall.endpoint? : WebhookCall → Option WebhookEndpoint
  | .statement (.deliverOnce ep _ _ _ _) | .statement (.retryRow ep _)
  | .statement (.executeRetry ep _ _ _) | .ping ep _ => some ep
  | .statement (.skip a) | .statement (.handleFailure a _) | .post a | .answer a =>
      some a.endpoint
  | _ => none

/-- The request it has signed for it. -/
def WebhookCall.request? : WebhookCall → Option WebhookRequest
  | .statement (.deliverOnce _ _ _ _ request) | .statement (.executeRetry _ _ _ request)
  | .ping _ request => some request
  | .statement (.skip a) | .statement (.handleFailure a _) | .post a | .answer a =>
      some a.request
  | _ => none

structure WebhookCall.Faithful (w : WebhookWorld) (call : WebhookCall) : Prop where
  issued : ∀ ep ∈ call.endpoint?, w.Issued crypto ep
  signed : ∀ ep ∈ call.endpoint?, ∀ request ∈ call.request?, ∃ signedAt,
    request.SignedWith crypto ep.secret signedAt

/-- What a request on the wire is known to be. -/
structure WebhookPost.Faithful (post : WebhookPost) : Prop where
  digest : ∃ issued : HexText 64, post.endpoint.secret = (crypto.sha256 issued.text).text
  returned : post.returned.isSome
  signed : ∃ signedAt, post.request.SignedWith crypto post.endpoint.secret signedAt

structure FaithfulPool (s : WebhookPool) : Prop where
  endpoints : ∀ ep ∈ s.shared.endpoints.rows, s.shared.Issued crypto ep
  calls : ∀ call ∈ s.inflight, call.Faithful crypto s.shared
  posts : ∀ post ∈ s.shared.posts, post.Faithful crypto

variable {crypto}

theorem returned_mono {w w' : WebhookWorld} {new : List (Except Exn WebhookReply)}
    (h : w'.responses = new ++ w.responses) {id : String} (hreturned : (w.returned id).isSome) :
    (w'.returned id).isSome := by
  unfold WebhookWorld.returned at hreturned ⊢
  rw [h, List.findSome?_append, Option.isSome_or, hreturned, Bool.or_true]

theorem WebhookWorld.Issued.mono {w w' : WebhookWorld} {ep : WebhookEndpoint}
    (h : w.Issued crypto ep) {new : List (Except Exn WebhookReply)}
    (hresponses : w'.responses = new ++ w.responses) : w'.Issued crypto ep :=
  ⟨h.digest, returned_mono hresponses h.returned⟩

theorem WebhookWorld.Issued.frame {w w' : WebhookWorld} {ep : WebhookEndpoint}
    (h : w.Issued crypto ep) (hresponses : w'.responses = w.responses) : w'.Issued crypto ep :=
  h.mono (hresponses.trans (List.nil_append _).symm)

theorem WebhookCall.Faithful.mono {w w' : WebhookWorld} {call : WebhookCall}
    (h : call.Faithful crypto w) {new : List (Except Exn WebhookReply)}
    (hresponses : w'.responses = new ++ w.responses) : call.Faithful crypto w' :=
  ⟨fun ep hep => (h.issued ep hep).mono hresponses, h.signed⟩

theorem WebhookCall.Faithful.frame {w w' : WebhookWorld} {call : WebhookCall}
    (h : call.Faithful crypto w) (hresponses : w'.responses = w.responses) :
    call.Faithful crypto w' :=
  h.mono (hresponses.trans (List.nil_append _).symm)

theorem faithful_of_endpoint? {call : WebhookCall} (h : call.endpoint? = none) (w : WebhookWorld) :
    call.Faithful crypto w := by
  constructor
  · intro ep hep
    rw [h] at hep
    cases hep
  · intro ep hep
    rw [h] at hep
    cases hep

theorem faithful_proceed {w : WebhookWorld} {a : DeliveryAttempt}
    (hissued : w.Issued crypto a.endpoint)
    (hsigned : ∃ signedAt, a.request.SignedWith crypto a.endpoint.secret signedAt) :
    a.proceed.Faithful crypto w := by
  unfold DeliveryAttempt.proceed
  split <;> exact ⟨by rintro ep ⟨⟩; exact hissued, by rintro ep ⟨⟩ request ⟨⟩; exact hsigned⟩

/-- What a statement may do. -/
structure FaithfulStep (crypto : Crypto) (w w' : WebhookWorld) (calls : List WebhookCall) :
    Prop where
  grows : ∃ new, w'.responses = new ++ w.responses
  posts : w'.posts = w.posts
  endpoints : ∀ ep ∈ w'.endpoints.rows, w'.Issued crypto ep
  calls : ∀ call ∈ calls, call.Faithful crypto w'

/-- A statement that leaves the endpoints alone. -/
theorem faithfulStep_of_endpoints {w w' : WebhookWorld} {calls : List WebhookCall}
    (h : ∀ ep ∈ w.endpoints.rows, w.Issued crypto ep) (hendpoints : w'.endpoints = w.endpoints)
    (hposts : w'.posts = w.posts) (hgrows : ∃ new, w'.responses = new ++ w.responses)
    (hcalls : ∀ call ∈ calls, call.Faithful crypto w') : FaithfulStep crypto w w' calls := by
  refine ⟨hgrows, hposts, fun ep hep => ?_, hcalls⟩
  obtain ⟨new, hnew⟩ := hgrows
  rw [hendpoints] at hep
  exact (h ep hep).mono hnew

/-- An update of an endpoint keeps its digest or writes another one. -/
theorem issued_modify {w w' : WebhookWorld} {id : String} {f : WebhookEndpoint → WebhookEndpoint}
    (hf : ∀ ep, (f ep).id = ep.id) (h : ∀ ep ∈ w.endpoints.rows, w.Issued crypto ep)
    (hendpoints : w'.endpoints = w.endpoints.modify id f hf)
    (hgrows : ∃ new, w'.responses = new ++ w.responses)
    (hdigest : ∀ ep, w.Issued crypto ep →
      ∃ issued : HexText 64, (f ep).secret = (crypto.sha256 issued.text).text) :
    ∀ ep ∈ w'.endpoints.rows, w'.Issued crypto ep := by
  intro ep hep
  obtain ⟨new, hnew⟩ := hgrows
  rw [hendpoints] at hep
  obtain ⟨old, hold, rfl⟩ := List.mem_map.mp hep
  have hissued := h old hold
  split
  · refine ⟨hdigest old hissued, ?_⟩
    rw [hf]
    exact returned_mono hnew hissued.returned
  · exact hissued.mono hnew

theorem finish_faithful {w : WebhookWorld} (a : DeliveryAttempt) (data : DeliveryData)
    (h : ∀ ep ∈ w.endpoints.rows, w.Issued crypto ep) :
    FaithfulStep crypto w (a.finish w data).1 (a.finish w data).2 := by
  unfold DeliveryAttempt.finish
  dsimp only
  split
  · exact faithfulStep_of_endpoints h rfl rfl ⟨[_], rfl⟩ (List.forall_mem_nil _)
  · exact faithfulStep_of_endpoints h rfl rfl ⟨[], rfl⟩ (List.forall_mem_nil _)

theorem exec_faithful (input : WebhookInput) (w : WebhookWorld) (next : WebhookStatement)
    (h : ∀ ep ∈ w.endpoints.rows, w.Issued crypto ep)
    (hcall : (WebhookCall.statement next).Faithful crypto w) :
    FaithfulStep crypto w (next.exec crypto input w).1 (next.exec crypto input w).2 := by
  have hreply (response : Except Exn WebhookReply) : FaithfulStep crypto w (w.respond response) [] :=
    faithfulStep_of_endpoints h rfl rfl ⟨[response], rfl⟩ (List.forall_mem_nil _)
  have hgo {calls : List WebhookCall} (hcalls : ∀ call ∈ calls, call.Faithful crypto w) :
      FaithfulStep crypto w w calls :=
    faithfulStep_of_endpoints h rfl rfl ⟨[], rfl⟩ hcalls
  cases next with
  | register userId dto =>
      simp only [WebhookStatement.exec]
      split
      · exact hreply _
      · exact hreply _
      · split
        · exact hreply _
        · rename_i hfree
          have hkey := Table.find?_eq_none_iff.mp (Option.not_isSome_iff_eq_none.mp hfree)
          refine ⟨⟨[_], rfl⟩, rfl, fun ep hep => ?_, (List.forall_mem_nil _)⟩
          change ep ∈ (w.endpoints.insert _).rows at hep
          rw [Table.rows_insert hkey] at hep
          rcases List.mem_append.mp hep with hold | hnew
          · refine (h ep hold).mono
              (?_ : _ = [Except.ok (WebhookReply.registered input.id input.plaintext)] ++ w.responses)
            rfl
          · rw [List.mem_singleton.mp hnew]
            exact ⟨⟨input.plaintext, rfl⟩, by simp [WebhookWorld.returned, WebhookWorld.respond]⟩
  | update userId id dto =>
      simp only [WebhookStatement.exec]
      split
      · exact hreply _
      · split
        · exact hreply _
        · exact hreply _
        · exact hgo (by simpa using faithful_of_endpoint? rfl w)
  | updateRow id dto headers =>
      refine ⟨⟨[_], rfl⟩, rfl, ?_, (List.forall_mem_nil _)⟩
      exact issued_modify (f := dto.apply headers) (fun _ => rfl) h rfl ⟨[_], rfl⟩
        fun ep hissued => hissued.digest
  | rotateSecret id userId =>
      simp only [WebhookStatement.exec]
      split
      · exact hreply _
      · split
        · exact hreply _
        · exact hgo (by simpa using faithful_of_endpoint? rfl w)
  | rotateRow id plaintext =>
      refine ⟨⟨[], rfl⟩, rfl, ?_, by
        simpa [WebhookStatement.exec] using faithful_of_endpoint? rfl _⟩
      exact issued_modify (f := fun ep => { ep with secret := (crypto.sha256 plaintext.text).text })
        (fun _ => rfl) h rfl ⟨[], rfl⟩ fun ep _ => ⟨plaintext, rfl⟩
  | rotateRecord id plaintext => exact hreply _
  | dispatch eventType payload =>
      refine hgo fun call hmem => ?_
      obtain ⟨ep, hep, rfl⟩ := List.mem_map.mp hmem
      have hissued := h ep (List.mem_filter.mp hep).1
      refine ⟨by rintro _ ⟨⟩; exact hissued, ?_⟩
      rintro _ ⟨⟩ _ ⟨⟩
      exact ⟨w.now, signedRequest_signedWith crypto ep _ w.now⟩
  | deliverOnce ep eventType payload check request =>
      simp only [WebhookStatement.exec]
      split
      · exact hgo (List.forall_mem_nil _)
      · refine faithfulStep_of_endpoints h rfl rfl ⟨[], rfl⟩ ?_
        intro call hmem
        rw [List.mem_singleton.mp hmem]
        exact faithful_proceed ((hcall.issued ep rfl).frame rfl)
          (hcall.signed ep rfl request rfl)
  | retryDelivery endpointId deliveryId userId =>
      simp only [WebhookStatement.exec]
      split
      · exact hreply _
      · rename_i endpoint hfound
        refine hgo fun call hmem => ?_
        rw [List.mem_singleton.mp hmem]
        refine ⟨?_, by rintro _ ⟨⟩ _ ⟨⟩⟩
        rintro _ ⟨⟩
        exact h endpoint (List.mem_of_find?_eq_some hfound)
  | retryRow endpoint deliveryId =>
      simp only [WebhookStatement.exec]
      split
      · exact hreply _
      · refine hgo fun call hmem => ?_
        rw [List.mem_singleton.mp hmem]
        exact faithful_proceed (hcall.issued endpoint rfl)
          ⟨w.now, manualRequest_signedWith crypto input endpoint _ w.now⟩
  | replayFailedDeliveries endpointId from_ to_ =>
      simp only [WebhookStatement.exec]
      split
      · exact hreply _
      · exact hgo (by simpa using faithful_of_endpoint? rfl w)
  | replayRows endpoint from_ to_ =>
      refine hgo fun call hmem => ?_
      obtain ⟨row, -, rfl⟩ := List.mem_map.mp hmem
      exact faithful_of_endpoint? rfl w
  | bulkTest userId =>
      refine hgo fun call hmem => ?_
      obtain ⟨ep, hep, rfl⟩ := List.mem_map.mp hmem
      have hissued := h ep (List.mem_filter.mp hep).1
      refine ⟨by rintro _ ⟨⟩; exact hissued, ?_⟩
      rintro _ ⟨⟩ _ ⟨⟩
      exact ⟨w.now, signedRequest_signedWith crypto ep _ w.now⟩
  | processRetryQueue =>
      refine hgo fun call hmem => ?_
      obtain ⟨delivery, -, hep⟩ := List.mem_filterMap.mp hmem
      obtain ⟨ep, hfound, rfl⟩ := Option.map_eq_some_iff.mp hep
      have hissued := h ep (Table.mem_of_find? hfound)
      refine ⟨by rintro _ ⟨⟩; exact hissued, ?_⟩
      rintro _ ⟨⟩ _ ⟨⟩
      exact ⟨w.now, signedRequest_signedWith crypto ep _ w.now⟩
  | executeRetry ep delivery check request =>
      refine faithfulStep_of_endpoints h rfl rfl ⟨[], rfl⟩ ?_
      intro call hmem
      rw [List.mem_singleton.mp hmem]
      exact faithful_proceed ((hcall.issued ep rfl).frame rfl)
        (hcall.signed ep rfl request rfl)
  | skip a => exact finish_faithful a _ h
  | handleFailure a err => exact finish_faithful a _ h

theorem endpoint?_of_starts {call : WebhookCall} (h : call.starts) : call.endpoint? = none := by
  cases call with
  | statement next =>
      cases next <;> first | rfl | exact absurd h (by simp [WebhookCall.starts])
  | post a => exact absurd h (by simp [WebhookCall.starts])
  | answer a => exact absurd h (by simp [WebhookCall.starts])
  | ping ep request => exact absurd h (by simp [WebhookCall.starts])

theorem faithful_send {w : WebhookWorld} {ep : WebhookEndpoint} {request : WebhookRequest}
    (attempt : Option (SendPath × String)) (hissued : w.Issued crypto ep)
    (hsigned : ∃ signedAt, request.SignedWith crypto ep.secret signedAt)
    (hposts : ∀ post ∈ w.posts, post.Faithful crypto) :
    ∀ post ∈ (w.send attempt ep request).posts, post.Faithful crypto :=
  List.forall_mem_cons.mpr ⟨⟨hissued.digest, hissued.returned, hsigned⟩, hposts⟩

theorem resume_faithful (input : WebhookInput) (w : WebhookWorld) (call : WebhookCall)
    (h : ∀ ep ∈ w.endpoints.rows, w.Issued crypto ep) (hcall : call.Faithful crypto w)
    (hposts : ∀ post ∈ w.posts, post.Faithful crypto) :
    (∃ new, (call.resume crypto input w).1.responses = new ++ w.responses) ∧
      (∀ ep ∈ (call.resume crypto input w).1.endpoints.rows,
        (call.resume crypto input w).1.Issued crypto ep) ∧
      (∀ next ∈ (call.resume crypto input w).2,
        next.Faithful crypto (call.resume crypto input w).1) ∧
      ∀ post ∈ (call.resume crypto input w).1.posts, post.Faithful crypto := by
  have hstatement {w' : WebhookWorld} {calls : List WebhookCall}
      (hstep : FaithfulStep crypto w w' calls) :
      (∃ new, w'.responses = new ++ w.responses) ∧
        (∀ ep ∈ w'.endpoints.rows, w'.Issued crypto ep) ∧
        (∀ next ∈ calls, next.Faithful crypto w') ∧ ∀ post ∈ w'.posts, post.Faithful crypto :=
    ⟨hstep.grows, hstep.endpoints, hstep.calls, hstep.posts ▸ hposts⟩
  have hcaught (a : DeliveryAttempt) (err : DeliveryError) {w' : WebhookWorld}
      (hanswer : (WebhookCall.answer a).Faithful crypto w)
      (hendpoints : w'.endpoints = w.endpoints) (hsent : w'.posts = w.posts)
      (hresponses : w'.responses = w.responses) :
      FaithfulStep crypto w (a.caught w' err).1 (a.caught w' err).2 := by
    have hgrows : ∃ new, w'.responses = new ++ w.responses := ⟨[], hresponses⟩
    by_cases hpath : a.path = .manual
    · rw [caught_of_manual hpath]
      refine faithfulStep_of_endpoints h hendpoints hsent hgrows fun next hmem => ?_
      rw [List.mem_singleton.mp hmem]
      exact WebhookCall.Faithful.frame ⟨hanswer.issued, hanswer.signed⟩ hresponses
    · rw [caught_of_automatic hpath]
      exact faithfulStep_of_endpoints h hendpoints hsent hgrows (List.forall_mem_nil _)
  cases call with
  | statement next =>
      simp only [WebhookCall.resume]
      split
      · exact hstatement
          (faithfulStep_of_endpoints h rfl rfl ⟨[], rfl⟩ (List.forall_mem_nil _))
      · exact hstatement (exec_faithful input w next h hcall)
  | post a =>
      refine ⟨⟨[], rfl⟩, fun ep hep => (h ep hep).frame rfl, fun next hmem => ?_, ?_⟩
      · rw [List.mem_singleton.mp hmem]
        exact WebhookCall.Faithful.frame ⟨hcall.issued, hcall.signed⟩ rfl
      · exact faithful_send _ (hcall.issued a.endpoint rfl)
          (hcall.signed a.endpoint rfl a.request rfl) hposts
  | answer a =>
      simp only [WebhookCall.resume]
      split
      · exact hstatement (hcaught a _ hcall rfl rfl rfl)
      · exact hstatement (hcaught a _ hcall rfl rfl rfl)
      · exact hstatement (hcaught a _ hcall rfl rfl rfl)
  | ping ep request =>
      refine ⟨⟨[], rfl⟩, fun ep hep => (h ep hep).frame rfl, List.forall_mem_nil _, ?_⟩
      exact faithful_send _ (hcall.issued ep rfl) (hcall.signed ep rfl request rfl) hposts

theorem faithful_step (s : WebhookPool) (a : WebhookAction) (h : FaithfulPool crypto s) :
    FaithfulPool crypto ((webhooks crypto).step s a) := by
  have hresume (input : WebhookInput) (call : WebhookCall) (hmem : call ∈ s.inflight) :=
    resume_faithful input s.shared call h.endpoints (h.calls call hmem) h.posts
  refine ⟨?_, ?_, ?_⟩
  · refine (webhooks crypto).shared_step
      (Q := fun w => ∀ ep ∈ w.endpoints.rows, w.Issued crypto ep) a h.endpoints ?_ ?_
    · exact fun input call hmem => (hresume input call hmem).2.1
    · exact fun _ ep hep => (h.endpoints ep hep).frame rfl
  · refine (webhooks crypto).calls_step (P := fun w call => call.Faithful crypto w) a h.calls
      ?_ ?_ ?_
    · exact fun call hstarts => faithful_of_endpoint? (endpoint?_of_starts hstarts) s.shared
    · intro input call hmem
      obtain ⟨⟨new, hgrows⟩, -, hcalls, -⟩ := hresume input call hmem
      exact ⟨hcalls, fun other hother => hother.mono hgrows⟩
    · exact fun _ other hother => hother.frame rfl
  · refine (webhooks crypto).shared_step
      (Q := fun w => ∀ post ∈ w.posts, post.Faithful crypto) a h.posts ?_ ?_
    · exact fun input call hmem => (hresume input call hmem).2.2.2
    · exact fun _ => h.posts

end Senders

section Runs

/-- HMAC as a function without collisions: for every message, different keys of
this length give different digests. -/
def Crypto.CollisionFree (crypto : Crypto) : Prop :=
  ∀ (message : String) (key other : HexText 64),
    crypto.hmacSha256 key.text message = crypto.hmacSha256 other.text message → key = other

/-- In every history of the service and for every request it sends, by whatever
path: the owner has a secret, and within the tolerance the documented check with
this secret accepts the request exactly if the secret is the SHA-256 digest that
the endpoint held when the request was signed. -/
theorem deliveries_verify_iff (crypto : Crypto) (hcollision : crypto.CollisionFree) (start : Nat)
    (actions : List WebhookAction) :
    ∀ post ∈ ((webhooks crypto).run actions (freshPool Table.empty start)).shared.posts,
      ∃ (secret issued : HexText 64) (signedAt : Nat), post.returned = some secret ∧
        post.endpoint.secret = (crypto.sha256 issued.text).text ∧
        headerOf post.request.headers "X-ChainSettle-Timestamp" =
          some (toString (nowUnixSeconds signedAt)) ∧
        ∀ now, ((nowUnixSeconds now : Int) - nowUnixSeconds signedAt).natAbs ≤ TOLERANCE_SECONDS →
          (receiverAccepts crypto now post.request secret.text ↔
            secret = crypto.sha256 issued.text) := by
  have hfaithful : FaithfulPool crypto ((webhooks crypto).run actions (freshPool Table.empty start)) :=
    List.foldlRecOn actions _
      ⟨List.forall_mem_nil _, List.forall_mem_nil _, List.forall_mem_nil _⟩
      fun s hs a _ => faithful_step s a hs
  intro post hpost
  obtain ⟨⟨issued, hdigest⟩, hreturned, signedAt, hsigned⟩ := hfaithful.posts post hpost
  obtain ⟨secret, hsecret⟩ := Option.isSome_iff_exists.mp hreturned
  refine ⟨secret, issued, signedAt, hsecret, hdigest, hsigned.timestamp, fun now hnow => ?_⟩
  rw [receiverAccepts_iff hsigned hnow, hdigest]
  exact ⟨hcollision _ _ _, fun hsame => by rw [hsame]⟩

end Runs

section Demonstration

def eventBody : String :=
  buildBody "PROOF_SUBMITTED" (.obj [("shipmentId", .str "SHIP-1")]) 0

/-- The SHA-256 digest of `demoPlaintext`. -/
def demoDigest : HexText 64 where
  text := "67ef9de3b81d374fd9cb2d95844f2db27236cdedb89a36f68d9f18c0091b6cf2"
  hex := List.all_eq_true.mp (by decide)
  size := by decide

/-- HMAC-SHA256 of the event with the digest as the key, -/
def legacySignature : HexText 64 where
  text := "9672acfc9f72790e8f858eea2b64a0f4d44e47b53f38bdb608ba94c145aaa31a"
  hex := List.all_eq_true.mp (by decide)
  size := by decide

/-- of the timestamp and the event with the digest as the key, -/
def sentSignature : HexText 64 where
  text := "05fb10b556868c20d7796effc876fe1ecdb857bbaae3bf86a17448f015ce2346"
  hex := List.all_eq_true.mp (by decide)
  size := by decide

/-- and of the same with the plaintext as the key. -/
def expectedSignature : HexText 64 where
  text := "860eef6c5b96711f736c0010dcb532f6ca7ef231a0e3eb91b6da0c4b04f3da6b"
  hex := List.all_eq_true.mp (by decide)
  size := by decide

/-- A key and its digest change places, so that no digest is taken twice. -/
def realDigests (message : String) : Equiv.Perm (HexText 64) :=
  if message = eventBody then Equiv.swap demoDigest legacySignature
  else if message = "0." ++ eventBody then
    (Equiv.swap demoDigest sentSignature).trans (Equiv.swap demoPlaintext expectedSignature)
  else Equiv.refl _

def HexText.ofText (text : String) : Option (HexText 64) :=
  if h : text.toList.all isHex ∧ text.toList.length = 64 then
    some ⟨text, List.all_eq_true.mp h.1, h.2⟩
  else none

theorem HexText.ofText_text (key : HexText 64) : HexText.ofText key.text = some key := by
  unfold HexText.ofText
  rw [dif_pos ⟨List.all_eq_true.mpr key.hex, key.size⟩]

/-- The real values of the two functions on the event below. -/
def demoCrypto : Crypto where
  sha256 text := if text = demoPlaintext.text then demoDigest else demoPlaintext
  hmacSha256 key message := ((HexText.ofText key).map (realDigests message)).getD demoPlaintext
  cipher _ _ _ := none
  decipher _ _ _ _ := none

theorem demoCrypto_collisionFree : demoCrypto.CollisionFree := by
  intro message key other h
  simp only [demoCrypto, HexText.ofText_text, Option.map_some, Option.getD_some] at h
  exact (realDigests message).injective h

/-- The owner registers an endpoint, and an event is sent to it. -/
def registeredRun : List WebhookAction :=
  [.begin (.statement (.register "u-1"
      ⟨"https://receiver.example/hook", ["PROOF_SUBMITTED"], none⟩)),
    .resume 0 { answering 200 with id := "ep-1" }] ++ firstRequest

def registeredPosts : List WebhookPost :=
  ((webhooks demoCrypto).run registeredRun (freshPool Table.empty 0)).shared.posts

theorem event_judged_by_digest :
    registeredPosts.length = 1 ∧ ∀ post ∈ registeredPosts,
      ∃ (secret issued : HexText 64) (signedAt : Nat), post.returned = some secret ∧
        post.endpoint.secret = (demoCrypto.sha256 issued.text).text ∧
        headerOf post.request.headers "X-ChainSettle-Timestamp" =
          some (toString (nowUnixSeconds signedAt)) ∧
        ∀ now, ((nowUnixSeconds now : Int) - nowUnixSeconds signedAt).natAbs ≤ TOLERANCE_SECONDS →
          (receiverAccepts demoCrypto now post.request secret.text ↔
            secret = demoCrypto.sha256 issued.text) := by
  refine ⟨by decide +kernel, ?_⟩
  exact deliveries_verify_iff demoCrypto demoCrypto_collisionFree 0 registeredRun

/-- The receiver rejects the event in the second it was signed in. -/
theorem registered_owner_rejects_event :
    registeredPosts.length = 1 ∧ ∀ post ∈ registeredPosts, post.returned = some demoPlaintext ∧
      receiverAccepts demoCrypto 0 post.request demoPlaintext.text = false := by
  decide +kernel

end Demonstration

end ChainSettle
