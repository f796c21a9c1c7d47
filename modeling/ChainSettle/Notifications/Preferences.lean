import ChainSettle.Notifications.Steps

/-!
No lost preference. A call writes back the whole document that it has read, with its
changes merged into it. Requests for different parts do not disturb each other as long
as every write finds the document as its call has read it.
-/

namespace ChainSettle

open Lib

section Parts

inductive PreferencePart where
  | channels (kind : NotificationType)
  | quietHours | digestFrequency | slackWebhookUrl | discordWebhookUrl
deriving DecidableEq

inductive PreferenceChange where
  | channels (kind : NotificationType) (flags : StoredChannels)
  | emailOff (kind : NotificationType)
  | quietHours (hours : QuietHours)
  | digestFrequency (frequency : DigestFrequency)
  | slackWebhookUrl (url : Option String)
  | discordWebhookUrl (url : Option String)
deriving DecidableEq

def PreferenceChange.part : PreferenceChange → PreferencePart
  | .channels kind _ | .emailOff kind => .channels kind
  | .quietHours _ => .quietHours
  | .digestFrequency _ => .digestFrequency
  | .slackWebhookUrl _ => .slackWebhookUrl
  | .discordWebhookUrl _ => .discordWebhookUrl

def PreferenceChange.HoldsIn (row : NotificationPreference) : PreferenceChange → Prop
  | .channels kind flags => row.preferences.types.channels kind = some flags
  | .emailOff kind => ∃ flags ∈ row.preferences.types.channels kind, flags.email = some false
  | .quietHours hours => row.preferences.quietHours = some hours
  | .digestFrequency frequency => row.preferences.digestFrequency = some frequency
  | .slackWebhookUrl url => row.slackWebhookUrl = url
  | .discordWebhookUrl url => row.discordWebhookUrl = url

instance (row : NotificationPreference) : (change : PreferenceChange) →
    Decidable (change.HoldsIn row)
  | .channels .. | .quietHours _ | .digestFrequency _ | .slackWebhookUrl _
  | .discordWebhookUrl _ => inferInstanceAs (Decidable (_ = _))
  | .emailOff kind =>
      inferInstanceAs (Decidable
        (∃ flags ∈ row.preferences.types.channels kind, flags.email = some false))

/-- What a request asks for. -/
def PreferenceRequest.changes : PreferenceRequest → List PreferenceChange
  | .update dto =>
      (dto.preferences.elim [] fun map => map.rows.map fun row => .channels row.1 row.2) ++
        (dto.quietHours.map .quietHours).toList ++
        (dto.digestFrequency.map .digestFrequency).toList ++
        (dto.slackWebhookUrl.map fun url => .slackWebhookUrl (storedUrl url)).toList ++
        (dto.discordWebhookUrl.map fun url => .discordWebhookUrl (storedUrl url)).toList
  | .unsubscribe type => type.types.map .emailOff

/-- The rows agree in a part. -/
def PreferencePart.Same (row row' : NotificationPreference) : PreferencePart → Prop
  | .channels kind => row'.preferences.types.channels kind = row.preferences.types.channels kind
  | .quietHours => row'.preferences.quietHours = row.preferences.quietHours
  | .digestFrequency => row'.preferences.digestFrequency = row.preferences.digestFrequency
  | .slackWebhookUrl => row'.slackWebhookUrl = row.slackWebhookUrl
  | .discordWebhookUrl => row'.discordWebhookUrl = row.discordWebhookUrl

variable {row row' : NotificationPreference} {kind : NotificationType}

theorem PreferenceChange.HoldsIn.of_same {change : PreferenceChange} (h : change.HoldsIn row)
    (hsame : change.part.Same row row') : change.HoldsIn row' := by
  cases change with
  | channels kind flags => exact hsame.trans h
  | emailOff kind =>
      obtain ⟨flags, hflags, hoff⟩ := h
      exact ⟨flags, hsame.trans hflags, hoff⟩
  | quietHours hours => exact hsame.trans h
  | digestFrequency frequency => exact hsame.trans h
  | slackWebhookUrl url => exact hsame.trans h
  | discordWebhookUrl url => exact hsame.trans h

/-- A row with the same document and URLs agrees in every part. -/
theorem same_of_eq (part : PreferencePart) (hdocument : row'.preferences = row.preferences)
    (hslack : row'.slackWebhookUrl = row.slackWebhookUrl)
    (hdiscord : row'.discordWebhookUrl = row.discordWebhookUrl) : part.Same row row' := by
  cases part <;> simp only [PreferencePart.Same, hdocument, hslack, hdiscord]

theorem channels_foldl_set_of_not_mem {rows : List (NotificationType × StoredChannels)}
    (h : kind ∉ rows.map Prod.fst) (map : PreferenceMap) :
    (rows.foldl (fun map row => map.set row.1 row.2) map).channels kind = map.channels kind := by
  induction rows generalizing map with
  | nil => rfl
  | cons row rest ih =>
      obtain ⟨hhead, hrest⟩ := List.ne_and_not_mem_of_not_mem_cons h
      rw [List.foldl_cons, ih hrest, PreferenceMap.channels_set, if_neg hhead]

theorem channels_foldl_set_of_mem {rows : List (NotificationType × StoredChannels)}
    (hnodup : (rows.map Prod.fst).Nodup) {flags : StoredChannels} (h : (kind, flags) ∈ rows)
    (map : PreferenceMap) :
    (rows.foldl (fun map row => map.set row.1 row.2) map).channels kind = some flags := by
  induction rows generalizing map with
  | nil => cases h
  | cons row rest ih =>
      obtain ⟨hhead, hrest⟩ := List.nodup_cons.mp hnodup
      rcases List.mem_cons.mp h with rfl | hmem
      · rw [List.foldl_cons, channels_foldl_set_of_not_mem hhead, PreferenceMap.channels_set,
          if_pos rfl]
      · exact ih hrest hmem _

theorem channels_foldl_emailOff_of_not_mem {kinds : List NotificationType} (h : kind ∉ kinds)
    (map : PreferenceMap) :
    (kinds.foldl PreferenceMap.emailOff map).channels kind = map.channels kind := by
  induction kinds generalizing map with
  | nil => rfl
  | cons other rest ih =>
      obtain ⟨hhead, hrest⟩ := List.ne_and_not_mem_of_not_mem_cons h
      rw [List.foldl_cons, ih hrest, PreferenceMap.emailOff, PreferenceMap.channels_set,
        if_neg hhead]

theorem channels_foldl_emailOff_of_mem {kinds : List NotificationType} (h : kind ∈ kinds)
    (map : PreferenceMap) :
    ∃ flags ∈ (kinds.foldl PreferenceMap.emailOff map).channels kind, flags.email = some false := by
  induction kinds generalizing map with
  | nil => cases h
  | cons other rest ih =>
      by_cases hrest : kind ∈ rest
      · exact ih hrest _
      · have hother : kind = other := (List.mem_cons.mp h).resolve_right hrest
        subst hother
        rw [List.foldl_cons, channels_foldl_emailOff_of_not_mem hrest, PreferenceMap.emailOff,
          PreferenceMap.channels_set, if_pos rfl]
        exact ⟨_, rfl, rfl⟩

/-- A write contains what its request asks for. -/
theorem holdsIn_write {request : PreferenceRequest} {change : PreferenceChange}
    (h : change ∈ request.changes) (current : StoredPreferences) (row : NotificationPreference) :
    change.HoldsIn (request.write current row) := by
  cases request with
  | unsubscribe type =>
      obtain ⟨kind, hkind, rfl⟩ := List.mem_map.mp h
      exact channels_foldl_emailOff_of_mem hkind current.types
  | update dto =>
      simp only [PreferenceRequest.changes, List.mem_append, Option.mem_toList,
        Option.map_eq_some_iff] at h
      obtain (((hchannels | ⟨hours, hhours, rfl⟩) | ⟨frequency, hfrequency, rfl⟩) |
        ⟨url, hurl, rfl⟩) | ⟨url, hurl, rfl⟩ := h
      · cases hmap : dto.preferences with
        | none => simp [hmap] at hchannels
        | some map =>
            rw [hmap] at hchannels
            obtain ⟨⟨kind, flags⟩, hmem, rfl⟩ := List.mem_map.mp hchannels
            have hset := channels_foldl_set_of_mem map.nodup hmem current.types
            simpa [PreferenceChange.HoldsIn, PreferenceRequest.write, PreferenceRequest.merge, hmap,
              PreferenceMap.spread] using hset
      · simp [PreferenceChange.HoldsIn, PreferenceRequest.write, PreferenceRequest.merge, hhours]
      · simp [PreferenceChange.HoldsIn, PreferenceRequest.write, PreferenceRequest.merge,
          hfrequency]
      · simp [PreferenceChange.HoldsIn, PreferenceRequest.write, PreferenceRequest.urls, hurl]
      · simp [PreferenceChange.HoldsIn, PreferenceRequest.write, PreferenceRequest.urls, hurl]

/-- A write that finds the document as its call has read it leaves the other parts. -/
theorem same_write {request : PreferenceRequest} {part : PreferencePart}
    (h : ∀ change ∈ request.changes, change.part ≠ part) (row : NotificationPreference) :
    part.Same row (request.write row.preferences row) := by
  cases request with
  | unsubscribe type =>
      cases part with
      | channels kind =>
          refine channels_foldl_emailOff_of_not_mem (fun hkind => ?_) row.preferences.types
          exact h (.emailOff kind) (List.mem_map_of_mem hkind) rfl
      | quietHours => rfl
      | digestFrequency => rfl
      | slackWebhookUrl => rfl
      | discordWebhookUrl => rfl
  | update dto =>
      cases part with
      | channels kind =>
          cases hmap : dto.preferences with
          | none =>
              simp [PreferencePart.Same, PreferenceRequest.write, PreferenceRequest.merge, hmap]
          | some map =>
              have hnew : kind ∉ map.rows.map Prod.fst := by
                intro hmem
                obtain ⟨⟨_, flags⟩, hrow, rfl⟩ := List.mem_map.mp hmem
                refine h (.channels _ flags) ?_ rfl
                simp only [PreferenceRequest.changes, hmap, Option.elim_some, List.mem_append]
                exact .inl (.inl (.inl (.inl (List.mem_map_of_mem hrow))))
              have hset := channels_foldl_set_of_not_mem hnew row.preferences.types
              simpa [PreferencePart.Same, PreferenceRequest.write, PreferenceRequest.merge, hmap,
                PreferenceMap.spread] using hset
      | quietHours =>
          cases hhours : dto.quietHours with
          | none =>
              simp [PreferencePart.Same, PreferenceRequest.write, PreferenceRequest.merge, hhours]
          | some hours =>
              exact absurd rfl (h (.quietHours hours) (by
                simp [PreferenceRequest.changes, hhours]))
      | digestFrequency =>
          cases hfrequency : dto.digestFrequency with
          | none =>
              simp [PreferencePart.Same, PreferenceRequest.write, PreferenceRequest.merge,
                hfrequency]
          | some frequency =>
              exact absurd rfl (h (.digestFrequency frequency) (by
                simp [PreferenceRequest.changes, hfrequency]))
      | slackWebhookUrl =>
          cases hurl : dto.slackWebhookUrl with
          | none =>
              simp [PreferencePart.Same, PreferenceRequest.write, PreferenceRequest.urls, hurl]
          | some url =>
              exact absurd rfl (h (.slackWebhookUrl (storedUrl url)) (by
                simp [PreferenceRequest.changes, hurl]))
      | discordWebhookUrl =>
          cases hurl : dto.discordWebhookUrl with
          | none =>
              simp [PreferencePart.Same, PreferenceRequest.write, PreferenceRequest.urls, hurl]
          | some url =>
              exact absurd rfl (h (.discordWebhookUrl (storedUrl url)) (by
                simp [PreferenceRequest.changes, hurl]))

end Parts

section Requests

/-- Requests of one user are about different parts. -/
def DifferentParts (r r' : String × PreferenceRequest) : Prop :=
  r.1 = r'.1 → ∀ change ∈ r.2.changes, ∀ change' ∈ r'.2.changes, change.part ≠ change'.part

instance (r r' : String × PreferenceRequest) : Decidable (DifferentParts r r') :=
  inferInstanceAs (Decidable (_ → _))

theorem DifferentParts.symm {r r' : String × PreferenceRequest} (h : DifferentParts r r') :
    DifferentParts r' r :=
  fun huser change hchange change' hchange' =>
    (h huser.symm change' hchange' change hchange).symm

/-- The requests that are under way or written. -/
def NotificationPool.requests (s : NotificationPool) : List (String × PreferenceRequest) :=
  s.inflight.filterMap NotificationCall.request ++ s.shared.saved

/-- A call begins with a request for parts that no other request of its user is about. -/
def BegunApart (s : NotificationPool) : NotificationAction → Prop
  | .begin call => ∀ r ∈ call.request, ∀ other ∈ s.requests, DifferentParts r other
  | _ => True

/-- A call that is about to write has read the document that is stored. -/
def NotificationCall.RowCurrent (w : NotificationWorld) : NotificationCall → Prop
  | .writePreferences userId current _ =>
      ∀ row ∈ w.preferences.find? userId, row.preferences = current
  | _ => True

def WritesCurrent (s : NotificationPool) : NotificationAction → Prop
  | .resume index input =>
      ∀ call ∈ s.inflight[index]?, input.thrown = false → call.RowCurrent s.shared
  | _ => True

instance (s : NotificationPool) : (a : NotificationAction) → Decidable (BegunApart s a)
  | .begin call =>
      inferInstanceAs (Decidable (∀ r ∈ call.request, ∀ other ∈ s.requests, DifferentParts r other))
  | .resume .. | .crash _ | .external _ => inferInstanceAs (Decidable True)

instance (w : NotificationWorld) (call : NotificationCall) : Decidable (call.RowCurrent w) := by
  unfold NotificationCall.RowCurrent
  split <;> infer_instance

instance (s : NotificationPool) : (a : NotificationAction) → Decidable (WritesCurrent s a)
  | .resume index input =>
      inferInstanceAs (Decidable
        (∀ call ∈ s.inflight[index]?, input.thrown = false → call.RowCurrent s.shared))
  | .begin _ | .crash _ | .external _ => inferInstanceAs (Decidable True)

/-- The stored preferences contain all that calls have written. -/
def PreferencesHeld (w : NotificationWorld) : Prop :=
  ∀ entry ∈ w.saved, ∃ row ∈ w.preferences.find? entry.1,
    ∀ change ∈ entry.2.changes, change.HoldsIn row

/-- A call goes on with its request, has written it, or refuses it. -/
def RequestAccounted (service : NotificationsService) (input : NotificationInput)
    (w : NotificationWorld) (call : NotificationCall) : Prop :=
  ∀ r ∈ call.request,
    r ∈ (call.resume service input w).2.filterMap NotificationCall.request ∨
    r ∈ (call.resume service input w).1.saved ∨
    ∃ refusal, (call.resume service input w).1.responses = .error refusal :: w.responses

theorem accounted (service : NotificationsService) (input : NotificationInput)
    (w : NotificationWorld) (call : NotificationCall) : RequestAccounted service input w call := by
  intro r hr
  cases call with
  | updatePreferences userId dto =>
      cases hr
      simp only [NotificationCall.resume]
      split
      · exact .inr (.inr ⟨_, rfl⟩)
      · split
        · exact .inr (.inr ⟨_, rfl⟩)
        · exact .inl (List.mem_singleton.mpr rfl)
  | unsubscribe token =>
      cases token with
      | error refusal => cases hr
      | ok found =>
          obtain ⟨userId, type⟩ := found
          cases hr
          simp only [NotificationCall.resume]
          split
          · exact .inr (.inr ⟨_, rfl⟩)
          · split
            · exact .inr (.inr ⟨_, rfl⟩)
            · exact .inl (List.mem_singleton.mpr rfl)
  | readPreferences userId request =>
      cases hr
      simp only [NotificationCall.resume]
      split
      · exact .inr (.inr ⟨_, rfl⟩)
      · exact .inl (List.mem_singleton.mpr rfl)
  | writePreferences userId current request =>
      cases hr
      simp only [NotificationCall.resume]
      split
      · exact .inr (.inr ⟨_, rfl⟩)
      · refine .inr (.inl ?_)
        split <;> exact List.mem_cons_self
  | _ => cases hr

end Requests

section Runs

variable (service : NotificationsService)

/-- The rows keep their documents and URLs. -/
def KeepsDocuments (w w' : NotificationWorld) : Prop :=
  ∀ userId row, w.preferences.find? userId = some row →
    ∃ row', w'.preferences.find? userId = some row' ∧ row'.preferences = row.preferences ∧
      row'.slackWebhookUrl = row.slackWebhookUrl ∧ row'.discordWebhookUrl = row.discordWebhookUrl

theorem keepsDocuments_of_eq {w w' : NotificationWorld} (h : w'.preferences = w.preferences) :
    KeepsDocuments w w' :=
  fun _ row hrow => ⟨row, h ▸ hrow, rfl, rfl, rfl⟩

theorem keepsDocuments_update (w : NotificationWorld) (userId : String)
    (f : NotificationPreference → NotificationPreference)
    (hf : ∀ row, (f row).userId = row.userId)
    (hdocument : ∀ row, (f row).preferences = row.preferences ∧
      (f row).slackWebhookUrl = row.slackWebhookUrl ∧
      (f row).discordWebhookUrl = row.discordWebhookUrl) :
    KeepsDocuments w (w.updatePreference userId f hf) := by
  intro other row hrow
  have hfind := Table.find?_modify w.preferences userId f hf other
  by_cases hother : other = userId
  · subst hother
    rw [if_pos rfl, hrow] at hfind
    exact ⟨f row, hfind, hdocument row⟩
  · rw [if_neg hother, hrow] at hfind
    exact ⟨row, hfind, rfl, rfl, rfl⟩

/-- A step writes the request of its call, or keeps all documents. -/
theorem writes_or_keeps (input : NotificationInput) (w : NotificationWorld)
    (call : NotificationCall) :
    (∃ userId current request row, call = .writePreferences userId current request ∧
      input.thrown = false ∧ w.preferences.find? userId = some row ∧
      (call.resume service input w).1.preferences = w.preferences.modify userId
        (request.write current) (request.userId_write current) ∧
      (call.resume service input w).1.saved = (userId, request) :: w.saved ∧
      (call.resume service input w).2.filterMap NotificationCall.request = []) ∨
    (KeepsDocuments w (call.resume service input w).1 ∧
      (call.resume service input w).1.saved = w.saved ∧
      ((call.resume service input w).2.filterMap NotificationCall.request).Sublist
        call.request.toList) := by
  by_cases hquiet : call.quiet = true
  · have h : QuietStep w call _ := quiet_resume service input hquiet
    exact .inr ⟨fun userId row hrow => ⟨row, h.preferences userId row hrow, rfl, rfl, rfl⟩,
      h.saved, h.requests⟩
  · cases call with
    | writePreferences userId current request =>
        simp only [NotificationCall.resume]
        split
        · exact .inr ⟨keepsDocuments_of_eq rfl, rfl, List.nil_sublist _⟩
        · rename_i hwrites
          obtain ⟨hthrown, hfound⟩ := not_or.mp hwrites
          obtain ⟨row, hrow⟩ := Option.isSome_iff_exists.mp (by
            simpa [Option.isNone_iff_eq_none, Option.isSome_iff_ne_none] using hfound)
          refine .inl ⟨userId, current, request, row, rfl, by simpa using hthrown, hrow, ?_⟩
          cases request <;> exact ⟨rfl, rfl, rfl⟩
    | smsCheck n =>
        simp only [NotificationCall.resume]
        split
        · exact .inr ⟨keepsDocuments_of_eq rfl, rfl, List.nil_sublist _⟩
        · split
          · exact .inr ⟨keepsDocuments_of_eq rfl, rfl, List.nil_sublist _⟩
          · split
            · exact .inr ⟨keepsDocuments_of_eq rfl, rfl, List.nil_sublist _⟩
            · split <;> exact .inr ⟨keepsDocuments_of_eq rfl, rfl, List.nil_sublist _⟩
    | smsReset n now =>
        simp only [NotificationCall.resume]
        split
        · exact .inr ⟨keepsDocuments_of_eq rfl, rfl, List.nil_sublist _⟩
        · exact .inr ⟨keepsDocuments_update w n.user.id _ _ fun _ => ⟨rfl, rfl, rfl⟩, rfl,
            List.nil_sublist _⟩
    | smsSend n currentCount =>
        simp only [NotificationCall.resume]
        split <;> exact .inr ⟨keepsDocuments_of_eq rfl, rfl, List.nil_sublist _⟩
    | smsCount n currentCount =>
        simp only [NotificationCall.resume]
        split
        · exact .inr ⟨keepsDocuments_of_eq rfl, rfl, List.nil_sublist _⟩
        · exact .inr ⟨keepsDocuments_update w n.user.id _ _ fun _ => ⟨rfl, rfl, rfl⟩, rfl,
            List.nil_sublist _⟩
    | dispatch event =>
        simp only [NotificationCall.resume]
        split <;> exact .inr ⟨keepsDocuments_of_eq rfl, rfl, List.nil_sublist _⟩
    | _ => exact absurd rfl hquiet

/-- All that was written is stored, and no two requests of a user are about one part. -/
structure PreferencesKept (s : NotificationPool) : Prop where
  held : PreferencesHeld s.shared
  apart : s.requests.Pairwise DifferentParts

/-- A write that finds the document as its call has read it keeps what the others have
written. -/
theorem held_write {w w' : NotificationWorld} {userId : String} {current : StoredPreferences}
    {request : PreferenceRequest} {row : NotificationPreference} (h : PreferencesHeld w)
    (hrow : w.preferences.find? userId = some row) (hcurrent : row.preferences = current)
    (hpreferences : w'.preferences = w.preferences.modify userId (request.write current)
      (request.userId_write current))
    (hsaved : w'.saved = (userId, request) :: w.saved)
    (hapart : ∀ entry ∈ w.saved, DifferentParts (userId, request) entry) : PreferencesHeld w' := by
  have hfind (other : String) := Table.find?_modify w.preferences userId (request.write current)
    (request.userId_write current) other
  have hself : w'.preferences.find? userId = some (request.write current row) := by
    rw [hpreferences, hfind, if_pos rfl, hrow, Option.map_some]
  intro entry hentry
  rw [hsaved] at hentry
  rcases List.mem_cons.mp hentry with rfl | hold
  · exact ⟨_, hself, fun change hchange => holdsIn_write hchange current row⟩
  · obtain ⟨found, hfound, hholds⟩ := h entry hold
    by_cases huser : entry.1 = userId
    · rw [huser, hrow] at hfound
      cases hfound
      rw [huser]
      refine ⟨_, hself, fun change hchange => (hholds change hchange).of_same ?_⟩
      rw [← hcurrent]
      exact same_write (fun own hown => hapart entry hold huser.symm own hown change hchange) row
    · refine ⟨found, ?_, hholds⟩
      rw [hpreferences, hfind, if_neg huser]
      exact hfound

theorem held_of_keeps {w w' : NotificationWorld} (h : PreferencesHeld w)
    (hkeeps : KeepsDocuments w w') (hsaved : w'.saved = w.saved) : PreferencesHeld w' := by
  intro entry hentry
  rw [hsaved] at hentry
  obtain ⟨row, hrow, hholds⟩ := h entry hentry
  obtain ⟨row', hrow', hdocument, hslack, hdiscord⟩ := hkeeps entry.1 row hrow
  exact ⟨row', hrow', fun change hchange =>
    (hholds change hchange).of_same (same_of_eq change.part hdocument hslack hdiscord)⟩

theorem preferencesKept_step (s : NotificationPool) (a : NotificationAction)
    (h : PreferencesKept s) (hbegun : BegunApart s a) (hcurrent : WritesCurrent s a) :
    PreferencesKept ((notifications service).step s a) := by
  obtain ⟨held, hapart⟩ := h
  rcases (notifications service).step_cases s a with ⟨call, rfl, -, hnext⟩ |
    ⟨index, input, call, pre, post, rfl, hcall, hsplit, -, hnext⟩ |
    ⟨index, call, pre, post, rfl, -, hsplit, -, hnext⟩ | ⟨event, rfl, hnext⟩ | ⟨hnext, -⟩
  · rw [hnext]
    refine ⟨held, ?_⟩
    have hperm : (call.request.toList ++ s.requests).Perm
        (NotificationPool.requests ⟨s.shared, s.inflight ++ [call]⟩) := by
      simp only [NotificationPool.requests, List.filterMap_append, ← List.append_assoc]
      refine List.Perm.append_right _ (List.perm_append_comm.trans (List.Perm.append_left _ ?_))
      cases hrequest : call.request <;> simp [List.filterMap, hrequest]
    refine hperm.pairwise ?_ fun h => h.symm
    refine List.pairwise_append.mpr ⟨?_, hapart, fun r hr => hbegun r (Option.mem_toList.mp hr)⟩
    cases call.request <;> simp
  · rw [hnext]
    have hsplitRequests : s.requests = pre.filterMap NotificationCall.request ++
        (call.request.toList ++ post.filterMap NotificationCall.request) ++ s.shared.saved := by
      unfold NotificationPool.requests
      rw [hsplit, List.filterMap_append]
      cases hrequest : call.request <;> simp [hrequest]
    rw [hsplitRequests] at hapart
    rcases writes_or_keeps service input s.shared call with
      ⟨userId, current, request, row, rfl, hthrown, hrow, hpreferences, hsaved, hrequests⟩ |
      ⟨hkeeps, hsaved, hrequests⟩
    · have hothers : ∀ entry ∈ s.shared.saved, DifferentParts (userId, request) entry :=
        fun entry hentry =>
          (List.pairwise_append.mp hapart).2.2 (userId, request)
            (by simp [NotificationCall.request]) entry hentry
      refine ⟨held_write held hrow (hcurrent _ hcall hthrown row hrow) hpreferences hsaved hothers,
        ?_⟩
      simp only [NotificationPool.requests, notifications, hsaved, List.filterMap_append, hrequests,
        List.nil_append]
      have hmoved : (pre.filterMap NotificationCall.request ++
            post.filterMap NotificationCall.request ++ (userId, request) :: s.shared.saved).Perm
          ((userId, request) :: (pre.filterMap NotificationCall.request ++
            post.filterMap NotificationCall.request ++ s.shared.saved)) :=
        List.perm_middle
      refine (List.Perm.trans ?_ hmoved.symm).pairwise hapart fun h => h.symm
      exact List.perm_middle.append_right _
    · refine ⟨held_of_keeps held hkeeps hsaved, hapart.sublist ?_⟩
      simp only [NotificationPool.requests, notifications, hsaved, List.filterMap_append]
      exact ((hrequests.append_right _).append_left _).append_right _
  · rw [hnext]
    refine ⟨held, hapart.sublist ?_⟩
    unfold NotificationPool.requests
    rw [hsplit]
    exact (((List.sublist_cons_self _ _).append_left _).filterMap _).append_right _
  · rw [hnext]
    cases event <;> exact ⟨held, hapart⟩
  · rw [hnext]
    exact ⟨held, hapart⟩

/-- No call under way, and nothing logged. -/
def NotificationWorld.fresh (w : NotificationWorld) : NotificationPool :=
  ⟨{ w with saved := [], sms := [], deliveries := [], responses := [] }, []⟩

/-- Every request is written, refused, or still under way. Along every run in which the
requests of a user are about different parts, and each write finds the document as its call
has read it, all that was written is stored. -/
theorem preferences_kept_while_current (w : NotificationWorld) (actions : List NotificationAction)
    (hbegun : Along (notifications service).step BegunApart w.fresh actions)
    (hcurrent : Along (notifications service).step WritesCurrent w.fresh actions) :
    (∀ input w' call, RequestAccounted service input w' call) ∧
      ∀ pre post, actions = pre ++ post →
        PreferencesHeld ((notifications service).run pre w.fresh).shared := by
  refine ⟨accounted service, fun pre post hsplit => ?_⟩
  have hfresh : PreferencesKept w.fresh := ⟨List.forall_mem_nil _, List.Pairwise.nil⟩
  have hstep (s : NotificationPool) (a : NotificationAction) (h : PreferencesKept s)
      (ha : BegunApart s a ∧ WritesCurrent s a) :
      PreferencesKept ((notifications service).step s a) :=
    preferencesKept_step service s a h ha.1 ha.2
  exact ((hbegun.and hcurrent).invariant hstep hfresh pre post hsplit).held

instance (w : NotificationWorld) : Decidable (PreferencesHeld w) :=
  inferInstanceAs (Decidable (∀ entry ∈ w.saved, ∃ row ∈ w.preferences.find? entry.1,
    ∀ change ∈ entry.2.changes, change.HoldsIn row))

def plainNotifications : NotificationsService := ⟨fun _ => true, fun _ _ => 0, true⟩

def uma : Account :=
  { newAccount "uma" "GUMA" with phoneNumber := some "+100", phoneVerified := true }

def notificationsOf (user : Account) (now : Nat) : NotificationWorld where
  users := ⟨[user], by simp⟩
  preferences := .empty
  notifications := .empty
  shipments := .empty
  milestones := .empty
  comments := .empty
  members := .empty
  endpoints := .empty
  now := now
  saved := []
  sms := []
  deliveries := []
  responses := []

/-- The digest frequency and one type, in a settings page and over the link in an email. -/
def dailyDigest : UpdatePreferencesDto := ⟨none, none, some .daily, none, none⟩

def calmInput : NotificationInput := ⟨false, "", .sent⟩

def twoRequests : List NotificationAction :=
  [.begin (.updatePreferences "uma" dailyDigest),
    .begin (.unsubscribe (.ok ("uma", .type .commentAdded)))]

/-- The unsubscription reads after the update has written. -/
def oneAfterTheOther : List NotificationAction :=
  twoRequests ++ ([1, 0, 0, 1, 1, 0].map fun index => .resume index calmInput)

theorem both_requests_kept :
    PreferencesHeld
        ((notifications plainNotifications).run oneAfterTheOther (notificationsOf uma 0).fresh).shared ∧
      ((notifications plainNotifications).run oneAfterTheOther
        (notificationsOf uma 0).fresh).shared.saved.length = 2 :=
  ⟨(preferences_kept_while_current plainNotifications (notificationsOf uma 0) oneAfterTheOther
    (by decide) (by decide)).2 oneAfterTheOther [] rfl, by decide⟩

/-- Both calls read before either writes. -/
def bothReadFirst : List NotificationAction :=
  twoRequests ++ ([1, 1, 0, 1, 0, 0].map fun index => .resume index calmInput)

theorem unsubscription_overwritten :
    Along (notifications plainNotifications).step BegunApart (notificationsOf uma 0).fresh
        bothReadFirst ∧
      ¬ PreferencesHeld
        ((notifications plainNotifications).run bothReadFirst (notificationsOf uma 0).fresh).shared ∧
      ((notifications plainNotifications).run bothReadFirst
        (notificationsOf uma 0).fresh).inflight.length = 0 ∧
      ((notifications plainNotifications).run bothReadFirst
        (notificationsOf uma 0).fresh).shared.responses.all fun r => r.isOk := by
  decide

end Runs

end ChainSettle
