import ChainSettle.Etag.Soundness

/-!
Updates under `If-Match`. `replaceTags` reads the row on the primary, evaluates
the precondition on the read client, and pins its update to the `updatedAt` it has
read. The two reads need not show the same row: where the replica is behind, a
stale validator passes there, while the update is pinned to what the primary has
by then.

The argument has two halves. A stamp that is given up does not come back, so a
row that still has the stamp of an earlier state was not written in between
(`Steady`). And a call that is allowed to write holds the stamp its client saw
(`TagsCall.Matches`), as long as the replica showed it the row it had read.
-/

namespace ChainSettle

open Lib Lib.Eff

section Precondition

variable {sha1 : HexDigest} {id : String}

theorem not_isJsSpace_quote : isJsSpace '"' = false := by decide

/-- A validator has no white space around it. -/
theorem normalize_etag (hash : List Char) :
    normalize ('W' :: '/' :: '"' :: (hash ++ ['"'])) = '"' :: (hash ++ ['"']) := by
  have htrim : jsTrim ('W' :: '/' :: '"' :: (hash ++ ['"'])) =
      'W' :: '/' :: '"' :: (hash ++ ['"']) := by
    have hfirst : isJsSpace 'W' = false := by decide
    simp [jsTrim, hfirst, not_isJsSpace_quote]
  simp [normalize, htrim]

theorem toList_shipmentEtag (sha1 : HexDigest) (id : String) (updatedAt : Nat)
    (milestoneUpdatedAt : Option Nat) :
    ∃ text, shipmentEtag sha1 id updatedAt milestoneUpdatedAt =
        "W/\"" ++ sha1.digest text ++ "\"" ∧
      (shipmentEtag sha1 id updatedAt milestoneUpdatedAt).toList =
        'W' :: '/' :: '"' :: ((sha1.digest text).toList ++ ['"']) := by
  refine ⟨_, rfl, ?_⟩
  simp only [shipmentEtag, String.toList_append, List.append_assoc]
  rfl

theorem not_mem_etag {hash : List Char} (h : ∀ c ∈ hash, isHex c) :
    ',' ∉ 'W' :: '/' :: '"' :: (hash ++ ['"']) := by
  intro hmem
  simp only [List.mem_cons, List.mem_append] at hmem
  rcases hmem with hw | hslash | hquote | hhash | hend
  · exact absurd hw (by decide)
  · exact absurd hslash (by decide)
  · exact absurd hquote (by decide)
  · exact absurd (h _ hhash) (by decide)
  · exact absurd hend (by decide)

/-- A validator satisfies the precondition only against itself. -/
theorem ifMatchSatisfied_etag {a b : Nat} {x y : Option Nat}
    (h : ifMatchSatisfied (shipmentEtag sha1 id a x) (shipmentEtag sha1 id b y)) :
    a = b ∧ x = y := by
  obtain ⟨text, hquoted, hchars⟩ := toList_shipmentEtag sha1 id a x
  obtain ⟨text', hquoted', hchars'⟩ := toList_shipmentEtag sha1 id b y
  unfold ifMatchSatisfied at h
  rw [hchars, hchars', List.splitOn_eq_singleton (not_mem_etag (sha1.hex text))] at h
  simp only [List.map_cons, List.map_nil, List.any_cons, List.any_nil, Bool.or_false,
    normalize_etag, Bool.or_eq_true, decide_eq_true_eq] at h
  rcases h with hstar | hsame
  · simp at hstar
  · have hhash := List.append_cancel_right (List.cons.inj hsame).2
    have hetag : shipmentEtag sha1 id a x = shipmentEtag sha1 id b y := by
      rw [hquoted, hquoted', String.toList_injective hhash]
    exact shipmentEtag_inj hetag

theorem shipmentEtag_ne_empty (a : Nat) (x : Option Nat) : shipmentEtag sha1 id a x ≠ "" := by
  intro hempty
  obtain ⟨text, -, hchars⟩ := toList_shipmentEtag sha1 id a x
  rw [hempty] at hchars
  cases hchars

/-- A validator that passes on the read client has the stamps of the row there. -/
theorem updatedAt_of_assertIfMatch {config : TagsConfig} {read : Versioned} {a : Nat}
    {x : Option Nat}
    (h : assertIfMatch config read id (some (shipmentEtag config.sha1 id a x)) = .ok ()) :
    a = read.updatedAt id := by
  have htruthy : truthyText (some (shipmentEtag config.sha1 id a x)) =
      some (shipmentEtag config.sha1 id a x) :=
    Option.filter_some_pos (by simpa using shipmentEtag_ne_empty a x)
  unfold assertIfMatch at h
  rw [htruthy] at h
  cases hetag : getDetailEtag config.sha1 read id with
  | error err => simp [hetag, bind, Except.bind] at h
  | ok currentEtag =>
      simp only [hetag, bind, Except.bind] at h
      split at h
      · rename_i hsatisfied
        rw [getDetailEtag_ok hetag] at hsatisfied
        exact (ifMatchSatisfied_etag hsatisfied).1
      · cases h

end Precondition

section History

variable {id : String}

/-- The row is the same in both states and was not written between them. -/
def SameRow (id : String) (s t : Versioned) : Prop :=
  t.columns id = s.columns id ∧ t.updatedAt id = s.updatedAt id

/-- The state after `past` keeps the row, or gives it a stamp that it never had. -/
def Bumps (id : String) (past : List Versioned) (next : Versioned) : Prop :=
  (∀ now ∈ past.head?, SameRow id now next) ∨ ∀ old ∈ past, old.updatedAt id ≠ next.updatedAt id

/-- Every writer of the history bumps the stamp. -/
def Steady (id : String) : List Versioned → Prop
  | [] => True
  | next :: past => Bumps id past next ∧ Steady id past

theorem bumps_same {now : Versioned} {past : List Versioned} : Bumps id (now :: past) now :=
  .inl fun _ hnow => Option.some.inj hnow ▸ ⟨rfl, rfl⟩

theorem bumps_updateTags {now : Versioned} {past : List Versioned} {shipmentId : String}
    {tags : List String} {at_ : Nat}
    (h : ∀ old ∈ now :: past, old.updatedAt shipmentId ≠ at_) :
    Bumps id (now :: past) (now.updateTags shipmentId tags at_) := by
  by_cases hid : id = shipmentId
  · subst hid
    refine .inr fun old hold => ?_
    simp only [Versioned.updateTags, Function.update_self]
    exact h old hold
  · refine .inl fun s hs => ?_
    obtain rfl : now = s := Option.some.inj hs
    refine ⟨?_, ?_⟩
    · simp only [Versioned.columns, Versioned.updateTags, Versioned.setTags,
        Function.update_of_ne hid]
    · simp only [Versioned.updateTags, Function.update_of_ne hid]

/-- A row that has the stamp of an earlier state was not written since. -/
theorem Steady.sameRow {later earlier : List Versioned} {source : Versioned}
    (h : Steady id (later ++ source :: earlier))
    (hstamp : ∀ now ∈ (later ++ source :: earlier).head?,
      now.updatedAt id = source.updatedAt id) :
    ∀ s ∈ later, SameRow id source s := by
  induction later with
  | nil => simp
  | cons next later ih =>
      have hnext : next.updatedAt id = source.updatedAt id := hstamp next rfl
      have hkept : ∀ now ∈ (later ++ source :: earlier).head?, SameRow id now next := by
        rcases h.1 with hkept | hnew
        · exact hkept
        · -- the stamp of `source` is not a new one
          exact absurd hnext.symm (hnew source (by simp))
      have hrest := ih h.2 fun now hnow => (hkept now hnow).2.symm.trans hnext
      intro s hs
      rcases List.mem_cons.mp hs with rfl | hlater
      · cases later with
        | nil => exact hkept source rfl
        | cons now later =>
            have hnow := hrest now (.head _)
            have hlast := hkept now rfl
            exact ⟨hlast.1.trans hnow.1, hlast.2.trans hnow.2⟩
      · exact hrest s hlater

end History

def TagsCall.id : TagsCall → String
  | .findUnique request => request.id
  | .assertIfMatch request _ => request.id
  | .conditionalUpdate request _ _ => request.id

/-- The replica shows a state the primary was in, and every write of a row gives
it a stamp that it never had. -/
def Admissible (w : Tagging) : TaggingAction → Prop
  | .begin _ _ => True
  | .resume slot input => input.read ∈ w.shared.history ∧
      ∀ call, w.pending slot = some call → ∀ old ∈ w.shared.history,
        old.updatedAt call.id ≠ input.at_
  | .external next => ∀ id, Bumps id w.shared.history next

/-- A precondition passes only on the row that the call has read. -/
def CaughtUp (config : TagsConfig) (w : Tagging) : TaggingAction → Prop
  | .resume slot input => ∀ request updatedAt,
      w.pending slot = some (.assertIfMatch request updatedAt) →
        assertIfMatch config input.read request.id request.ifMatch = .ok () →
          input.read.updatedAt request.id = updatedAt
  | _ => True

/-- A call whose update would succeed finds the row as it was in every state that
its validator can have come from. -/
def NoLostUpdate (config : TagsConfig) (w : Tagging) : Prop :=
  ∀ slot request updatedAt tags input,
    w.pending slot = some (.conditionalUpdate request updatedAt tags) →
    Succeeds ((TagsCall.conditionalUpdate request updatedAt tags).statement config input)
      w.shared.now →
    ∀ later source earlier etag, w.shared.history = later ++ source :: earlier →
      getDetailEtag config.sha1 source request.id = .ok etag → request.ifMatch = some etag →
        ∀ s ∈ later, SameRow request.id source s

section Run

variable {config : TagsConfig} {w : Tagging}

/-- The stamp in the validator is the one the update is pinned to. -/
def TagsCall.Matches (config : TagsConfig) : TagsCall → Prop
  | .conditionalUpdate request updatedAt _ => ∀ a x,
      request.ifMatch = some (shipmentEtag config.sha1 request.id a x) → a = updatedAt
  | _ => True

structure Guarded (config : TagsConfig) (w : Tagging) : Prop where
  steady : ∀ id, Steady id w.shared.history
  matching : ∀ slot call, w.pending slot = some call → call.Matches config

theorem matches_of_starts {call : TagsCall} (h : call.starts = true) : call.Matches config := by
  cases call with
  | findUnique request => trivial
  | assertIfMatch request updatedAt => cases h
  | conditionalUpdate request updatedAt tags => cases h

/-- What one statement of a call adds to the history. -/
theorem bumps_resumed {input : TagsInput} {now next : Versioned} {past : List Versioned}
    {call : TagsCall} {rest : Option TagsCall} (h : TagsResumed config input now call next rest)
    (hnew : ∀ old ∈ now :: past, old.updatedAt call.id ≠ input.at_) (id : String) :
    Bumps id (now :: past) next := by
  cases h with
  | ended => exact bumps_same
  | found => exact bumps_same
  | checked => exact bumps_same
  | updated => exact bumps_updateTags hnew

theorem matches_resumed {input : TagsInput} {s next : Versioned} {call rest : TagsCall}
    (h : TagsResumed config input s call next (some rest))
    (hcaught : ∀ request updatedAt, call = .assertIfMatch request updatedAt →
      assertIfMatch config input.read request.id request.ifMatch = .ok () →
        input.read.updatedAt request.id = updatedAt) :
    rest.Matches config := by
  cases h with
  | found request => trivial
  | @checked request updatedAt tags hmatch =>
      intro a x hetag
      have hread := hcaught request updatedAt rfl hmatch
      rw [hetag] at hmatch
      exact (updatedAt_of_assertIfMatch hmatch).trans hread

theorem guarded_step {t : Tagging} {a : TaggingAction} (hadmissible : Admissible w a)
    (hcaught : CaughtUp config w a) (hstep : (tagging config).step w a = some t)
    (h : Guarded config w) : Guarded config t := by
  obtain ⟨slot, call, rfl, hstarts, -, rfl⟩ | ⟨slot, input, call, rfl, hcall, rfl⟩ |
    ⟨next, rfl, rfl⟩ := (tagging config).step_cases hstep
  · refine ⟨h.steady, fun other pending hpending => ?_⟩
    obtain ⟨-, hsame⟩ | ⟨-, hother⟩ := pending_update hpending
    · obtain rfl : call = pending := Option.some.inj hsame
      exact matches_of_starts hstarts
    · exact h.matching other pending hother
  · have hresumed := tagsResumed config input w.shared.now call
    refine ⟨fun id => ⟨?_, h.steady id⟩, fun other pending hpending => ?_⟩
    · exact bumps_resumed hresumed (hadmissible.2 call hcall) id
    · obtain ⟨-, hrest⟩ | ⟨-, hother⟩ := pending_update hpending
      · have hmine : (resume (call.statement config input) w.shared.now).2 = some pending := hrest
        rw [hmine] at hresumed
        refine matches_resumed hresumed fun request updatedAt hassert => ?_
        exact hcaught request updatedAt (hassert ▸ hcall)
      · exact h.matching other pending hother
  · exact ⟨fun id => ⟨hadmissible id, h.steady id⟩, h.matching⟩

/-- An update under a precondition succeeds only on the stamp it is pinned to. -/
theorem pinned_of_succeeds {input : TagsInput} {request : TagsRequest} {updatedAt : Nat}
    {tags : List String} {s : Versioned}
    (h : Succeeds ((TagsCall.conditionalUpdate request updatedAt tags).statement config input) s)
    (hmatch : (truthyText request.ifMatch).isSome) : s.updatedAt request.id = updatedAt := by
  obtain ⟨value, hvalue⟩ := h
  obtain ⟨ifMatch, hifMatch⟩ := Option.isSome_iff_exists.mp hmatch
  by_contra hmoved
  unfold TagsCall.statement conditionalUpdate at hvalue
  dsimp only at hvalue
  rw [exec_bind, exec_bind, exec_versionedCall, hifMatch] at hvalue
  cases hcall : input.env.fails .shipmentWrite with
  | true => simp [hcall] at hvalue
  | false => simp [hcall, exec_bind, hmoved] at hvalue

theorem Guarded.noLostUpdate (h : Guarded config w) : NoLostUpdate config w := by
  intro slot request updatedAt tags input hcall hsucceeds later source earlier etag hhistory
    hsource hifMatch
  have hetag := getDetailEtag_ok hsource
  rw [hetag] at hifMatch
  have htruthy : (truthyText request.ifMatch).isSome := by
    rw [hifMatch, truthyText, Option.filter_some_pos
      (by simpa using shipmentEtag_ne_empty _ _)]
    rfl
  have hpinned := pinned_of_succeeds hsucceeds htruthy
  have hseen : source.updatedAt request.id = updatedAt :=
    h.matching slot _ hcall _ _ hifMatch
  have hsteady := h.steady request.id
  rw [hhistory] at hsteady
  refine hsteady.sameRow fun now hnow => ?_
  rw [← hhistory] at hnow
  obtain rfl : w.shared.now = now := Option.some.inj hnow
  exact hpinned.trans hseen.symm

/-- In every interleaving in which no precondition passes on a row that is behind
the one the call has read, no update is lost. -/
theorem no_lost_update (config : TagsConfig) (s : Versioned) (w : Tagging)
    (hrun : StepsAlong (tagging config).step
      (fun w a => Admissible w a ∧ CaughtUp config w a) (Tagging.idle s) w) :
    NoLostUpdate config w := by
  have hstart : Guarded config (Tagging.idle s) :=
    ⟨fun _ => ⟨.inl (fun _ h => nomatch h), trivial⟩, fun _ _ h => nomatch h⟩
  have hguarded : Guarded config w := by
    refine hrun.invariant (fun _ _ _ hallowed hstep h => ?_) hstart
    exact guarded_step hallowed.1 hallowed.2 hstep h
  exact hguarded.noLostUpdate

end Run

/-- A client that has seen the tag `fragile` replaces the tags. -/
def replaceRequest : TagsRequest where
  id := "SHIP-1"
  tags := some (.arr [.str "cold"])
  ifMatch := some "W/\"7cafcac061c4325a70cac384090317752ba33212\""

/-- Another writer has stored other tags meanwhile. -/
def retaggedState : Versioned := taggedState.updateTags "SHIP-1" ["urgent"] 5

/-- The primary as it is, and the read client on the given state. -/
def TagsInput.reading (read : Versioned) (at_ : Nat) : TagsInput := ⟨.calm at_, read, at_⟩

/-- Without a replica the client's call stands before its update. -/
theorem update_on_read_row :
    ∃ w : Tagging, w.pending 0 = some (.conditionalUpdate replaceRequest 1 ["cold"]) ∧
      NoLostUpdate demoConfig w := by
  refine ⟨_, ?_, no_lost_update demoConfig taggedState _ (.tail (.tail (.tail (.refl _)
    (a := .begin 0 (.findUnique replaceRequest)) ⟨trivial, trivial⟩ rfl)
    (a := .resume 0 (.reading taggedState 6)) ⟨⟨.head _, ?_⟩, ?_⟩ rfl)
    (a := .resume 0 (.reading taggedState 7)) ⟨⟨.head _, ?_⟩, ?_⟩ rfl)⟩
  · rfl
  · rintro call hcall
    cases hcall
    decide
  · rintro request updatedAt hcall
    cases hcall
  · rintro call hcall
    cases hcall
    decide
  · rintro request updatedAt hcall _
    cases hcall
    rfl

/-- The replica still shows the tags that the client has seen. -/
theorem lagging_replica_loses_update :
    ∃ w : Tagging, StepsAlong (tagging demoConfig).step Admissible (Tagging.idle taggedState) w ∧
      ¬ NoLostUpdate demoConfig w := by
  have hother : ∀ id, Bumps id [taggedState] retaggedState :=
    fun id => bumps_updateTags (by decide)
  refine ⟨_, .tail (.tail (.tail (.tail (.refl _)
    (a := .external retaggedState) hother rfl)
    (a := .begin 0 (.findUnique replaceRequest)) trivial rfl)
    (a := .resume 0 (.reading retaggedState 6)) ⟨.head _, ?_⟩ rfl)
    (a := .resume 0 (.reading taggedState 7)) ⟨.tail _ (.tail _ (.head _)), ?_⟩ rfl,
    fun h => ?_⟩
  · rintro call hcall
    cases hcall
    decide
  · rintro call hcall
    cases hcall
    decide
  · have hlost := h 0 replaceRequest 5 ["cold"] (.reading retaggedState 8) rfl ⟨none, rfl⟩
      [retaggedState, retaggedState, retaggedState] taggedState [] _ rfl rfl rfl retaggedState
      (.head _)
    exact absurd hlost.2 (by decide)

end ChainSettle
