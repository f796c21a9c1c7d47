import ChainSettle.Semantics.Etag

/-!
What the tag operations do: everything that `addTag` and `removeTag` can leave
behind, and everything that resuming `replaceTags` can do.
-/

namespace ChainSettle

open Lib Lib.Eff

section Checks

variable (env : Env) (s : Versioned) (id buyerAddress : String)

theorem exec_versionedCall (call : DbCall) :
    exec (versionedCall env call) s =
      if env.fails call then (.error (.unavailable call), s) else (.ok (), s) := by
  unfold versionedCall
  split <;> rfl

theorem readOnly_versionedCall (call : DbCall) :
    ReadOnly (versionedCall env call) s fun _ => env.fails call = false := by
  unfold ReadOnly
  rw [exec_versionedCall]
  cases hcall : env.fails call with
  | true => exact .inl ⟨_, rfl⟩
  | false => exact .inr ⟨(), rfl, rfl⟩

theorem readOnly_ifMatchRead (ifMatch : Option String) :
    ReadOnly (ifMatchRead env ifMatch) s fun _ => True := by
  unfold ifMatchRead
  split
  · obtain herr | ⟨_, hok, -⟩ := readOnly_versionedCall env s .shipmentRead
    · exact .inl herr
    · exact .inr ⟨_, hok, trivial⟩
  · exact readOnly_pure trivial

/-- The buyer of an active shipment may change its tags. -/
structure MayTag : Prop where
  available : env.fails .shipmentRead = false
  buyer : ∃ shipment, s.db.shipments.find? id = some shipment ∧
    shipment.buyerAddress = buyerAddress ∧ shipment.status = .active

theorem readOnly_tagChecks :
    ReadOnly (tagChecks env id buyerAddress) s
      fun tags => tags = s.tags id ∧ MayTag env s id buyerAddress := by
  unfold tagChecks
  refine readOnly_bind (readOnly_versionedCall env s _) fun _ hcall => ?_
  refine readOnly_bind (readOnly_get s) fun _ hs => ?_
  subst hs
  split
  · exact readOnly_throw _ _ _
  · rename_i shipment hfound
    refine readOnly_guard fun hbuyer => readOnly_guard fun hactive => ?_
    exact readOnly_pure
      ⟨rfl, hcall, shipment, hfound, not_not.mp hbuyer, not_not.mp hactive⟩

variable (tag : String)

theorem exec_addTag_cases (at_ : Nat) :
    (∃ err, exec (addTag env id buyerAddress tag at_) s = (.error err, s)) ∨
      MayTag env s id buyerAddress ∧
        exec (addTag env id buyerAddress tag at_) s =
          (.ok (), s.updateTags id (s.tags id ++ [tag]) at_) := by
  unfold addTag
  rw [exec_bind]
  obtain ⟨err, herr⟩ | ⟨tags, hok, -, hmay⟩ := readOnly_tagChecks env s id buyerAddress
  · rw [herr]
    exact .inl ⟨err, rfl⟩
  · rw [hok]
    dsimp only
    split
    · exact .inl ⟨_, rfl⟩
    · rw [exec_bind, exec_versionedCall]
      cases env.fails .shipmentWrite with
      | true => exact .inl ⟨_, rfl⟩
      | false => exact .inr ⟨hmay, rfl⟩

theorem after_addTag_cases (at_ : Nat) :
    after (addTag env id buyerAddress tag at_) s = s ∨
      after (addTag env id buyerAddress tag at_) s = s.updateTags id (s.tags id ++ [tag]) at_ := by
  unfold after
  obtain ⟨err, herr⟩ | ⟨-, hok⟩ := exec_addTag_cases env s id buyerAddress tag at_
  · exact .inl (congrArg Prod.snd herr)
  · exact .inr (congrArg Prod.snd hok)

/-- `removeTag` passes all its checks. -/
structure RemovesTag : Prop where
  may : MayTag env s id buyerAddress
  write : env.fails .shipmentWrite = false
  tagged : tag ∈ s.tags id

theorem exec_removeTag_cases :
    (∃ err, exec (removeTag env id buyerAddress tag) s = (.error err, s)) ∨
      RemovesTag env s id buyerAddress tag ∧
        exec (removeTag env id buyerAddress tag) s =
          (.ok (), s.setTags id ((s.tags id).filter (· ≠ tag))) := by
  unfold removeTag
  rw [exec_bind]
  obtain ⟨err, herr⟩ | ⟨tags, hok, rfl, hmay⟩ := readOnly_tagChecks env s id buyerAddress
  · rw [herr]
    exact .inl ⟨err, rfl⟩
  · rw [hok]
    dsimp only
    split
    · exact .inl ⟨_, rfl⟩
    · rename_i htagged
      rw [exec_bind, exec_versionedCall]
      cases hcall : env.fails .shipmentWrite with
      | true => exact .inl ⟨_, rfl⟩
      | false => exact .inr ⟨⟨hmay, hcall, not_not.mp htagged⟩, rfl⟩

theorem after_removeTag_cases :
    after (removeTag env id buyerAddress tag) s = s ∨
      RemovesTag env s id buyerAddress tag ∧
        after (removeTag env id buyerAddress tag) s =
          s.setTags id ((s.tags id).filter (· ≠ tag)) := by
  unfold after
  obtain ⟨err, herr⟩ | ⟨hremoves, hok⟩ := exec_removeTag_cases env s id buyerAddress tag
  · exact .inl (congrArg Prod.snd herr)
  · exact .inr ⟨hremoves, congrArg Prod.snd hok⟩

end Checks

/-- Everything that resuming `replaceTags` can do: the state and the rest of the
call after its statement. -/
inductive TagsResumed (config : TagsConfig) (input : TagsInput) (s : Versioned) :
    TagsCall → Versioned → Option TagsCall → Prop where
  | ended (call : TagsCall) : TagsResumed config input s call s none
  | found (request : TagsRequest) :
      TagsResumed config input s (.findUnique request) s
        (some (.assertIfMatch request (s.updatedAt request.id)))
  | checked {request : TagsRequest} {updatedAt : Nat} {tags : List String}
      (hmatch : assertIfMatch config input.read request.id request.ifMatch = .ok ()) :
      TagsResumed config input s (.assertIfMatch request updatedAt) s
        (some (.conditionalUpdate request updatedAt tags))
  | updated {request : TagsRequest} {updatedAt : Nat} {tags : List String}
      (hpinned : (truthyText request.ifMatch).isSome → s.updatedAt request.id = updatedAt) :
      TagsResumed config input s (.conditionalUpdate request updatedAt tags)
        (s.updateTags request.id tags input.at_) none

section Resume

variable (config : TagsConfig) (input : TagsInput) (s : Versioned)

/-- A statement that only reads ends the call or takes it on. -/
theorem tagsResumed_of_readOnly {call : TagsCall}
    (h : ReadOnly (call.statement config input) s fun rest =>
      TagsResumed config input s call s rest) :
    TagsResumed config input s call (resume (call.statement config input) s).1
      (resume (call.statement config input) s).2 := by
  rcases h.resume_cases with hended | ⟨rest, hrest, hresumed⟩
  · rw [hended]
    exact .ended call
  · rw [hrest]
    exact hresumed

theorem tagsResumed_update (request : TagsRequest) (updatedAt : Nat) (tags : List String) :
    TagsResumed config input s (.conditionalUpdate request updatedAt tags)
      (resume ((TagsCall.conditionalUpdate request updatedAt tags).statement config input) s).1
      (resume ((TagsCall.conditionalUpdate request updatedAt tags).statement config input) s).2 := by
  unfold TagsCall.statement conditionalUpdate resume
  dsimp only
  rw [exec_bind, exec_bind, exec_versionedCall]
  cases input.env.fails .shipmentWrite with
  | true => exact .ended _
  | false =>
      simp only [Bool.false_eq_true, ↓reduceIte, exec_bind, exec_get]
      cases hmatch : truthyText request.ifMatch with
      | none =>
          cases hfound : (s.db.shipments.find? request.id).isNone with
          | true =>
              simp only [↓reduceIte, exec_bind, exec_throw]
              exact .ended _
          | false =>
              simp only [Bool.false_eq_true, ↓reduceIte, exec_modify, exec_pure]
              exact .updated (by simp [hmatch])
      | some ifMatch =>
          by_cases hrefused : (s.db.shipments.find? request.id).isNone ∨
              s.updatedAt request.id ≠ updatedAt
          · simp only [hrefused, ↓reduceIte, exec_bind, exec_throw]
            exact .ended _
          · simp only [hrefused, ↓reduceIte, exec_modify, exec_pure]
            exact .updated fun _ => not_not.mp (not_or.mp hrefused).2

theorem tagsResumed (call : TagsCall) :
    TagsResumed config input s call (resume (call.statement config input) s).1
      (resume (call.statement config input) s).2 := by
  cases call with
  | findUnique request =>
      apply tagsResumed_of_readOnly
      refine readOnly_bind (readOnly_versionedCall _ s _) fun _ _ => ?_
      refine readOnly_bind (readOnly_get s) fun _ hs => ?_
      subst hs
      split
      · exact readOnly_throw _ _ _
      · exact readOnly_pure (.found request)
  | assertIfMatch request updatedAt =>
      apply tagsResumed_of_readOnly
      refine readOnly_bind (readOnly_ifMatchRead _ s _) fun _ _ => ?_
      split
      · exact readOnly_throw _ _ _
      · rename_i hmatch
        split
        · exact readOnly_throw _ _ _
        · exact readOnly_pure (.checked hmatch)
  | conditionalUpdate request updatedAt tags =>
      exact tagsResumed_update config input s request updatedAt tags

/-- `replaceTags` run to its end stores one list of tags, or leaves everything
alone. -/
theorem complete_replaceTags_cases (steps : Nat) (request : TagsRequest) :
    complete (TagsCall.statement config input) steps (.findUnique request) s = s ∨
      ∃ tags, complete (TagsCall.statement config input) steps (.findUnique request) s =
        s.updateTags request.id tags input.at_ := by
  have hresumed (call : TagsCall) (mid next : Versioned) (rest : Option TagsCall)
      (hresume : resume (call.statement config input) mid = (next, rest)) :
      TagsResumed config input mid call next rest := by
    have hall := tagsResumed config input mid call
    rwa [hresume] at hall
  -- until the update the state is the one of the start
  refine complete_rule
    (P := fun call mid => mid = s ∧ (call = .findUnique request ∨
      (∃ u, call = .assertIfMatch request u) ∨ ∃ u tags, call = .conditionalUpdate request u tags))
    (Q := fun next => next = s ∨ ∃ tags, next = s.updateTags request.id tags input.at_)
    (fun _ _ hmid => .inl hmid.1) (fun call mid next hmid hresume => ?_)
    (fun call mid next rest hmid hresume => ?_) steps ⟨rfl, .inl rfl⟩
  · obtain ⟨rfl, hcall⟩ := hmid
    cases hresumed _ _ _ _ hresume with
    | ended => exact .inl rfl
    | @updated request' u tags hpinned =>
        rcases hcall with h | ⟨u, h⟩ | ⟨u, tags, h⟩
        · cases h
        · cases h
        · cases h
          exact .inr ⟨_, rfl⟩
  · obtain ⟨rfl, hcall⟩ := hmid
    cases hresumed _ _ _ _ hresume with
    | found request' =>
        rcases hcall with h | ⟨u, h⟩ | ⟨u, tags, h⟩
        · cases h
          exact ⟨rfl, .inr (.inl ⟨_, rfl⟩)⟩
        · cases h
        · cases h
    | checked hmatch =>
        rcases hcall with h | ⟨u, h⟩ | ⟨u, tags, h⟩
        · cases h
        · cases h
          exact ⟨rfl, .inr (.inr ⟨_, _, rfl⟩)⟩
        · cases h

end Resume

end ChainSettle
