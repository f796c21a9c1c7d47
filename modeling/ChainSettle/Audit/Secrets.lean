import ChainSettle.Semantics.AuditLog

/-!
What an audit entry tells of the secrets in a request body. The interceptor redacts the fields of
the body itself; a secret that is further down is recorded. Masking replaces the secrets at every
depth, so two bodies differ in secrets alone if they are masked to the same.
-/

namespace ChainSettle

open AuditLogInterceptor

namespace Json

/-- An induction with all items of an array, and all values of an object. -/
@[elab_as_elim] theorem induct {motive : Json → Prop} (null : motive .null)
    (bool : ∀ b, motive (.bool b)) (num : ∀ n, motive (.num n)) (str : ∀ s, motive (.str s))
    (arr : ∀ items, (∀ v ∈ items, motive v) → motive (.arr items))
    (obj : ∀ fields, (∀ f ∈ fields, motive f.2) → motive (.obj fields)) (v : Json) : motive v :=
  match v with
  | .null => null
  | .bool b => bool b
  | .num n => num n
  | .str s => str s
  | .arr items => arr items fun v _ => induct null bool num str arr obj v
  | .obj fields => obj fields fun f _ => induct null bool num str arr obj f.2
termination_by sizeOf v
decreasing_by
  · have := List.sizeOf_lt_of_mem ‹_ ∈ items›
    simp only [Json.arr.sizeOf_spec]
    omega
  · have := List.sizeOf_lt_of_mem ‹_ ∈ fields›
    obtain ⟨key, value⟩ := f
    simp only [Json.obj.sizeOf_spec, Prod.mk.sizeOf_spec] at this ⊢
    omega

mutual

/-- The value with what is under a sensitive key replaced. -/
def mask : Json → Json
  | .arr items => .arr (maskItems items)
  | .obj fields => .obj (maskFields fields)
  | v => v

def maskItems : List Json → List Json
  | [] => []
  | v :: rest => mask v :: maskItems rest

def maskFields : List (String × Json) → List (String × Json)
  | [] => []
  | (key, v) :: rest =>
      (key, if key ∈ sensitiveFields then .null else mask v) :: maskFields rest

end

mutual

/-- A sensitive key somewhere. -/
def hasSecret : Json → Bool
  | .arr items => itemsHaveSecret items
  | .obj fields => fieldsHaveSecret fields
  | _ => false

def itemsHaveSecret : List Json → Bool
  | [] => false
  | v :: rest => hasSecret v || itemsHaveSecret rest

def fieldsHaveSecret : List (String × Json) → Bool
  | [] => false
  | (key, v) :: rest => decide (key ∈ sensitiveFields) || hasSecret v || fieldsHaveSecret rest

end

theorem maskItems_eq (items : List Json) : maskItems items = items.map mask := by
  induction items with
  | nil => rfl
  | cons v rest ih => rw [maskItems, ih, List.map_cons]

/-- A field with its value masked. -/
def maskField (f : String × Json) : String × Json :=
  (f.1, if f.1 ∈ sensitiveFields then .null else mask f.2)

theorem maskFields_eq (fields : List (String × Json)) : maskFields fields = fields.map maskField := by
  induction fields with
  | nil => rfl
  | cons f rest ih =>
      rw [maskFields, ih, List.map_cons]
      rfl

theorem itemsHaveSecret_iff (items : List Json) :
    itemsHaveSecret items = true ↔ ∃ v ∈ items, hasSecret v = true := by
  induction items with
  | nil => simp [itemsHaveSecret]
  | cons v rest ih => simp [itemsHaveSecret, ih]

theorem fieldsHaveSecret_iff (fields : List (String × Json)) : fieldsHaveSecret fields = true ↔
    ∃ f ∈ fields, f.1 ∈ sensitiveFields ∨ hasSecret f.2 = true := by
  induction fields with
  | nil => simp [fieldsHaveSecret]
  | cons f rest ih => simp [fieldsHaveSecret, ih, or_assoc]

/-- Masking leaves the keys. -/
theorem hasSecret_mask (v : Json) : hasSecret (mask v) = hasSecret v := by
  induction v using induct with
  | arr items ih =>
      rw [Bool.eq_iff_iff, mask, hasSecret, hasSecret, maskItems_eq, itemsHaveSecret_iff,
        itemsHaveSecret_iff]
      simp only [List.mem_map, exists_exists_and_eq_and]
      exact exists_congr fun v => and_congr_right fun hv => by rw [ih v hv]
  | obj fields ih =>
      rw [Bool.eq_iff_iff, mask, hasSecret, hasSecret, maskFields_eq, fieldsHaveSecret_iff,
        fieldsHaveSecret_iff]
      simp only [List.mem_map, exists_exists_and_eq_and]
      refine exists_congr fun f => and_congr_right fun hf => ?_
      unfold maskField
      by_cases hkey : f.1 ∈ sensitiveFields
      · simp [hkey]
      · simp [hkey, ih f hf]
  | _ => rfl

theorem mask_eq_self {v : Json} (h : hasSecret v = false) : mask v = v := by
  induction v using induct with
  | arr items ih =>
      have hclean : ∀ v ∈ items, hasSecret v = false := fun v hv =>
        Bool.eq_false_iff.mpr fun hsecret => by
          rw [hasSecret, (itemsHaveSecret_iff items).mpr ⟨v, hv, hsecret⟩] at h
          cases h
      rw [mask, maskItems_eq, List.map_congr_left fun v hv => ih v hv (hclean v hv), List.map_id']
  | obj fields ih =>
      have hclean : ∀ f ∈ fields, ¬ (f.1 ∈ sensitiveFields ∨ hasSecret f.2 = true) :=
        fun f hf hsecret => by
          rw [hasSecret, (fieldsHaveSecret_iff fields).mpr ⟨f, hf, hsecret⟩] at h
          cases h
      have hself : ∀ f ∈ fields, maskField f = f := fun f hf => by
        obtain ⟨hkey, hvalue⟩ := not_or.mp (hclean f hf)
        unfold maskField
        rw [if_neg hkey, ih f hf (Bool.eq_false_iff.mpr hvalue)]
      rw [mask, maskFields_eq, List.map_congr_left hself, List.map_id']
  | _ => rfl

/-- A value without secrets is told apart from every other by its mask. -/
theorem eq_of_mask_eq {v other : Json} (h : hasSecret v = false) (hmask : mask other = mask v) :
    other = v := by
  have hother : hasSecret other = false := by rw [← hasSecret_mask, hmask, hasSecret_mask, h]
  rw [← mask_eq_self hother, hmask, mask_eq_self h]

/-- Some value that is not the given one. -/
theorem exists_other (v : Json) : ∃ other : Json, other ≠ v := by
  by_cases hnull : v = .null
  · exact ⟨.bool true, by rw [hnull]; simp⟩
  · exact ⟨.null, fun heq => hnull heq.symm⟩

/-- A secret can be another one. -/
theorem exists_same_mask {v : Json} (h : hasSecret v = true) :
    ∃ other, mask other = mask v ∧ other ≠ v := by
  induction v using induct with
  | arr items ih =>
      obtain ⟨v, hv, hsecret⟩ := (itemsHaveSecret_iff items).mp h
      obtain ⟨other, hmask, hne⟩ := ih v hv hsecret
      obtain ⟨before, after, rfl⟩ := List.append_of_mem hv
      refine ⟨.arr (before ++ other :: after), ?_, fun heq => ?_⟩
      · simp only [mask, maskItems_eq, List.map_append, List.map_cons, hmask]
      · have hitems := List.append_cancel_left (Json.arr.inj heq)
        exact hne (List.cons.inj hitems).1
  | obj fields ih =>
      obtain ⟨⟨key, v⟩, hf, hsecret⟩ := (fieldsHaveSecret_iff fields).mp h
      obtain ⟨other, hmask, hne⟩ : ∃ other, maskField (key, other) = maskField (key, v) ∧
          other ≠ v := by
        by_cases hkey : key ∈ sensitiveFields
        · obtain ⟨other, hne⟩ := exists_other v
          exact ⟨other, by simp [maskField, hkey], hne⟩
        · obtain ⟨other, hmask, hne⟩ := ih (key, v) hf (hsecret.resolve_left hkey)
          exact ⟨other, by simp only [maskField, hmask], hne⟩
      obtain ⟨before, after, rfl⟩ := List.append_of_mem hf
      refine ⟨.obj (before ++ (key, other) :: after), ?_, fun heq => ?_⟩
      · simp only [mask, maskFields_eq, List.map_append, List.map_cons, hmask]
      · have hfields := List.append_cancel_left (Json.obj.inj heq)
        exact hne (Prod.mk.inj (List.cons.inj hfields).1).2
  | _ => cases h

end Json

section Sanitizing

/-- A sensitive key below a field of the body that is not redacted itself. -/
def nestedSecret : Json → Bool
  | .obj fields => fields.any fun f => f.1 ∉ sensitiveFields && f.2.hasSecret
  | .arr items => items.any Json.hasSecret
  | _ => false

theorem map_eq_of_map_eq {α β γ : Type} {f : α → β} {g : α → γ} {xs ys : List α}
    (hmap : ys.map f = xs.map f) (h : ∀ x ∈ xs, ∀ y, f y = f x → g y = g x) :
    ys.map g = xs.map g := by
  induction xs generalizing ys with
  | nil => rw [List.map_eq_nil_iff.mp hmap]
  | cons x xs ih =>
      cases ys with
      | nil => cases hmap
      | cons y ys =>
          obtain ⟨hhead, htail⟩ := List.cons.inj hmap
          rw [List.map_cons, List.map_cons, h x (.head _) y hhead,
            ih htail fun x hx => h x (.tail _ hx)]

/-- A field as it is recorded. -/
def sanitizeField (f : String × Json) : String × Json :=
  if f.1 ∈ sensitiveFields then (f.1, .str "[REDACTED]") else f

theorem sanitizeField_eq {f g : String × Json}
    (hclean : f.1 ∉ sensitiveFields → f.2.hasSecret = false)
    (hmask : Json.maskField g = Json.maskField f) : sanitizeField g = sanitizeField f := by
  obtain ⟨hname, hvalue⟩ := Prod.mk.inj hmask
  unfold sanitizeField
  rw [hname] at hvalue ⊢
  split
  · rfl
  · rename_i hkey
    rw [if_neg hkey, if_neg hkey] at hvalue
    exact Prod.ext hname (Json.eq_of_mask_eq (hclean hkey) hvalue)

theorem sanitizeBody_eq {body other : Json} (hclean : nestedSecret body = false)
    (hmask : other.mask = body.mask) : sanitizeBody other = sanitizeBody body := by
  cases body with
  | obj fields =>
      cases other with
      | obj others =>
          rw [Json.mask, Json.mask, Json.maskFields_eq, Json.maskFields_eq] at hmask
          refine congrArg Json.obj (map_eq_of_map_eq (Json.obj.inj hmask) fun f hf g hg => ?_)
          refine sanitizeField_eq (fun hkey => ?_) hg
          have hfield := List.any_eq_false.mp hclean f hf
          simpa [hkey] using hfield
      | _ => cases hmask
  | arr items =>
      cases other with
      | arr others =>
          rw [Json.mask, Json.mask, Json.maskItems_eq, Json.maskItems_eq] at hmask
          have hitems := map_eq_of_map_eq (g := id) (Json.arr.inj hmask) fun v hv w hw =>
            Json.eq_of_mask_eq (Bool.eq_false_iff.mpr (List.any_eq_false.mp hclean v hv)) hw
          rw [List.map_id, List.map_id] at hitems
          rw [hitems]
      | _ => cases hmask
  | _ =>
      cases other with
      | arr => cases hmask
      | obj => cases hmask
      | _ => exact congrArg sanitizeBody hmask

theorem exists_sanitizeBody_ne {body : Json} (h : nestedSecret body = true) :
    ∃ other, other.mask = body.mask ∧ sanitizeBody other ≠ sanitizeBody body := by
  cases body with
  | obj fields =>
      obtain ⟨⟨key, v⟩, hf, hsecret⟩ := List.any_eq_true.mp h
      obtain ⟨hkey, hsecret⟩ := (Bool.and_eq_true ..).mp hsecret
      have hkey := of_decide_eq_true hkey
      obtain ⟨other, hmask, hne⟩ := Json.exists_same_mask hsecret
      obtain ⟨before, after, rfl⟩ := List.append_of_mem hf
      refine ⟨.obj (before ++ (key, other) :: after), ?_, fun heq => ?_⟩
      · simp only [Json.mask, Json.maskFields_eq, List.map_append, List.map_cons, Json.maskField,
          hmask]
      · simp only [sanitizeBody, List.map_append, List.map_cons, if_neg hkey] at heq
        have hfields := List.append_cancel_left (Json.obj.inj heq)
        exact hne (Prod.mk.inj (List.cons.inj hfields).1).2
  | arr items =>
      obtain ⟨v, hv, hsecret⟩ := List.any_eq_true.mp h
      obtain ⟨other, hmask, hne⟩ := Json.exists_same_mask hsecret
      obtain ⟨before, after, rfl⟩ := List.append_of_mem hv
      refine ⟨.arr (before ++ other :: after), ?_, fun heq => ?_⟩
      · simp only [Json.mask, Json.maskItems_eq, List.map_append, List.map_cons, hmask]
      · have hvalues := congrArg (List.map Prod.snd) (Json.obj.inj heq)
        rw [List.map_map, List.map_map] at hvalues
        have hitems : before ++ other :: after = before ++ v :: after := by
          simpa [Function.comp_def] using hvalues
        exact hne (List.cons.inj (List.append_cancel_left hitems)).1
  | _ => cases h

end Sanitizing

section Entries

/-- The body in the metadata of an entry. -/
def loggedBody (body : Option Json) : Option Json := (body.filter Json.truthy).map sanitizeBody

/-- The handler has answered with a status that is recorded. -/
def Succeeds (response : Except HttpError Nat) : Prop :=
  ∃ statusCode, response = .ok statusCode ∧ 200 ≤ statusCode ∧ statusCode < 300

variable {text : CaseMapping} {request : ApiRequest} {response : Except HttpError Nat}

theorem intercept_eq_iff (hmutation : isMutation request.method = true) (hresponse : Succeeds response)
    (body : Option Json) :
    intercept text { request with body := body } response = intercept text request response ↔
      loggedBody body = loggedBody request.body := by
  obtain ⟨statusCode, rfl, hstatus⟩ := hresponse
  simp only [intercept, hmutation, hstatus]
  simp [loggedBody, getClientIp]

theorem intercept_of_not_succeeds (hresponse : ¬ Succeeds response) :
    intercept text request response = none := by
  cases response with
  | error => simp [intercept]
  | ok statusCode =>
      have hstatus : ¬ (200 ≤ statusCode ∧ statusCode < 300) := fun hrange =>
        hresponse ⟨statusCode, rfl, hrange⟩
      simp [intercept, hstatus]

theorem truthy_mask (v : Json) : v.mask.truthy = v.truthy := by
  cases v <;> rfl

theorem truthy_of_nestedSecret {body : Json} (h : nestedSecret body = true) : body.truthy = true := by
  cases body with
  | obj | arr => rfl
  | _ => cases h

theorem loggedBody_eq {body other : Option Json} (hclean : body.any nestedSecret = false)
    (hmask : other.map Json.mask = body.map Json.mask) : loggedBody other = loggedBody body := by
  cases body with
  | none =>
      rw [Option.map_eq_none_iff.mp hmask]
  | some body =>
      obtain ⟨other, rfl, hsame⟩ := Option.map_eq_some_iff.mp hmask
      have htruthy : other.truthy = body.truthy := by
        rw [← truthy_mask other, hsame, truthy_mask]
      simp only [loggedBody, Option.filter_some, htruthy]
      split
      · exact congrArg some (sanitizeBody_eq hclean hsame)
      · rfl

/-- The entry of a mutation is the same whatever the secrets in the body are, exactly if none of
them is below a field that is not redacted, or nothing is recorded. -/
theorem secrets_unrecorded_iff (text : CaseMapping) (request : ApiRequest)
    (response : Except HttpError Nat) (hmutation : isMutation request.method = true) :
    (∀ body : Option Json, body.map Json.mask = request.body.map Json.mask →
        intercept text { request with body := body } response =
          intercept text request response) ↔
      ¬ Succeeds response ∨ request.body.any nestedSecret = false := by
  constructor
  · intro hsame
    by_contra hcondition
    obtain ⟨hresponse, hnested⟩ := not_or.mp hcondition
    have hresponse := not_not.mp hresponse
    cases hbody : request.body with
    | none =>
        rw [hbody] at hnested
        exact hnested rfl
    | some body =>
        rw [hbody] at hnested hsame
        have hsecret : nestedSecret body = true := (Bool.not_eq_false _).mp hnested
        obtain ⟨other, hmask, hne⟩ := exists_sanitizeBody_ne hsecret
        have hentry := (intercept_eq_iff hmutation hresponse (some other)).mp
          (hsame (some other) (congrArg some hmask))
        have htruthy := truthy_of_nestedSecret hsecret
        have hother : other.truthy = true := by rw [← truthy_mask, hmask, truthy_mask, htruthy]
        rw [hbody] at hentry
        simp only [loggedBody, Option.filter_some, htruthy, hother] at hentry
        exact hne (Option.some.inj hentry)
  · rintro (hresponse | hclean) body hmask
    · rw [intercept_of_not_succeeds hresponse, intercept_of_not_succeeds hresponse]
    · by_cases hresponse : Succeeds response
      · exact (intercept_eq_iff hmutation hresponse body).mpr (loggedBody_eq hclean hmask)
      · rw [intercept_of_not_succeeds hresponse, intercept_of_not_succeeds hresponse]

end Entries

section Examples

/-- A request that creates something, without authentication. -/
def postRequest (body : Json) : ApiRequest where
  method := .post
  path := "/api/v1/organizations"
  body := some body
  forwardedFor := none
  realIp := none
  remoteAddress := some "127.0.0.1"
  user := none

def loginBody (password : String) : Json :=
  .obj [("name", .str "ACME"), ("password", .str password)]

def credentialsBody (password : String) : Json :=
  .obj [("name", .str "ACME"), ("credentials", .obj [("password", .str password)])]

theorem login_password_unrecorded :
    (loginBody "one").hasSecret = true ∧
      ∀ body : Option Json, body.map Json.mask = some (loginBody "one").mask →
        intercept .ascii { postRequest (loginBody "one") with body := body } (.ok 201) =
          intercept .ascii (postRequest (loginBody "one")) (.ok 201) :=
  ⟨by decide, (secrets_unrecorded_iff .ascii (postRequest (loginBody "one")) (.ok 201) rfl).mpr
    (.inr (by decide))⟩

def recordedText (request : ApiRequest) : Option String :=
  (intercept .ascii request (.ok 201)).bind fun entry => entry.metadata.requestBody.map Json.stringify

/-- A password one level down is written to the log. -/
theorem nested_password_recorded :
    (credentialsBody "one").mask = (credentialsBody "two").mask ∧
      intercept .ascii (postRequest (credentialsBody "one")) (.ok 201) ≠
        intercept .ascii (postRequest (credentialsBody "two")) (.ok 201) := by
  refine ⟨rfl, fun hsame => ?_⟩
  have htexts : recordedText (postRequest (credentialsBody "one")) =
      recordedText (postRequest (credentialsBody "two")) := by
    unfold recordedText
    rw [hsame]
  exact absurd htexts (by decide +kernel)

end Examples

end ChainSettle
