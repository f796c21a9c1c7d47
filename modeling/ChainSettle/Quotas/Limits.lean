import ChainSettle.Comments.Stranded
import ChainSettle.Lib.Quota
import ChainSettle.Semantics.Quotas

/-!
The limits on pinned comments, on active reminders and on invitations. Each is checked by a
count in one statement and used up by a write in a later one, so what counts is what is there at
the write.
-/

namespace ChainSettle

open Lib

section Rows

variable {ρ : Type}

theorem length_filter_append_singleton (rows : List ρ) (row : ρ) (p : ρ → Bool) :
    ((rows ++ [row]).filter p).length = (rows.filter p).length + if p row then 1 else 0 := by
  rw [List.filter_append, List.length_append]
  cases hp : p row <;> simp [hp]

/-- Rows that are changed so that none of them counts that did not. -/
theorem length_filter_map_le {rows : List ρ} {f : ρ → ρ} {p : ρ → Bool}
    (h : ∀ row ∈ rows, p (f row) → p row) :
    ((rows.map f).filter p).length ≤ (rows.filter p).length := by
  rw [List.filter_map, List.length_map]
  refine (List.Sublist.length_le ?_)
  induction rows with
  | nil => exact List.Sublist.refl _
  | cons row rest ih =>
      have hrest := ih fun r hr => h r (.tail _ hr)
      rw [List.filter_cons, List.filter_cons, Function.comp_apply]
      have hrow := h row (.head _)
      cases hp : p (f row) with
      | true => simpa [hrow hp] using hrest
      | false =>
          cases hq : p row with
          | true => simpa using hrest.trans (List.sublist_cons_self _ _)
          | false => simpa using hrest

theorem length_filter_filter_le (rows : List ρ) (keeps p : ρ → Bool) :
    ((rows.filter keeps).filter p).length ≤ (rows.filter p).length :=
  (List.filter_sublist.filter p).length_le

/-- Only one row may count differently. -/
theorem length_filter_of_one {β : Type} {key : ρ → β} {rows : List ρ} {row : ρ} (p q : ρ → Bool)
    (hkeys : (rows.map key).Nodup) (hrow : row ∈ rows)
    (h : ∀ other ∈ rows, key other ≠ key row → q other = p other) :
    (rows.filter q).length + (if p row then 1 else 0) =
      (rows.filter p).length + if q row then 1 else 0 := by
  obtain ⟨pre, post, rfl⟩ := List.append_of_mem hrow
  rw [List.map_append, List.map_cons, List.nodup_append, List.nodup_cons] at hkeys
  have hpre : pre.filter q = pre.filter p := by
    refine List.filter_congr fun other hmem => h other (List.mem_append_left _ hmem) ?_
    exact hkeys.2.2 _ (List.mem_map_of_mem hmem) _ (.head _)
  have hpost : post.filter q = post.filter p := by
    refine List.filter_congr fun other hmem =>
      h other (List.mem_append_right _ (.tail _ hmem)) fun hsame => ?_
    exact hkeys.2.1.1 (hsame ▸ List.mem_map_of_mem hmem)
  rw [List.filter_append, List.filter_append, List.filter_cons, List.filter_cons, hpre, hpost]
  cases p row <;> cases q row <;> simp <;> omega

end Rows

section Reminders

/-- The call is about to count the unsent reminders of a user on a shipment. -/
def RemindersCall.counting : RemindersCall → Option (String × String)
  | .countActive shipmentId userId _ _ => some (shipmentId, userId)
  | _ => none

/-- The call has counted them, and is about to store one. -/
def RemindersCall.past : RemindersCall → Option (String × String)
  | .insert shipmentId userId _ _ => some (shipmentId, userId)
  | _ => none

def RemindersWorld.used (w : RemindersWorld) (key : String × String) : Nat :=
  (w.active key.1 key.2).length

theorem used_insert_reminder (input : RowInput) (w : RemindersWorld) (shipmentId userId : String)
    (remindAt : Nat) (message : String) (key : String × String) :
    (RemindersCall.resume input w (.insert shipmentId userId remindAt message)).1.used key ≤
      w.used key + if (shipmentId, userId) = key then 1 else 0 := by
  rw [RemindersCall.resume]
  split
  · exact Nat.le_add_right _ _
  · rename_i hstored
    rw [not_or, Bool.not_eq_true, Option.not_isSome_iff_eq_none] at hstored
    unfold RemindersWorld.used RemindersWorld.active RemindersWorld.reply
    rw [Table.rows_insert (Table.find?_eq_none_iff.mp hstored.2),
      length_filter_append_singleton]
    refine Nat.add_le_add_left ?_ _
    by_cases hkey : (shipmentId, userId) = key
    · rw [if_pos hkey]
      split <;> omega
    · rw [if_neg hkey, if_neg]
      rw [decide_eq_true_iff]
      exact fun hmatch => hkey (Prod.ext hmatch.1 hmatch.2.1)

theorem used_claim (input : RowInput) (w : RemindersWorld) (due : List ShipmentReminder)
    (sent : Nat) (key : String × String) :
    (RemindersCall.resume input w (.claim due sent)).1.used key ≤ w.used key := by
  cases due with
  | nil => exact Nat.le_refl _
  | cons reminder rest =>
      simp only [RemindersCall.resume]
      repeat' split
      · exact Nat.le_refl _
      · apply length_filter_map_le
        intro row _ hmatch
        split at hmatch
        · simp at hmatch
        · exact hmatch
      · exact Nat.le_refl _

theorem quotaStep_reminders (input : RowInput) (w : RemindersWorld) (call : RemindersCall) :
    QuotaStep reminders RemindersWorld.used RemindersCall.counting RemindersCall.past
      MAX_ACTIVE_REMINDERS input w call := by
  have hresume : reminders.resume input w call = call.resume input w := rfl
  cases call with
  | countActive shipmentId userId remindAt message =>
      have hcounting : (RemindersCall.countActive shipmentId userId remindAt message).counting =
        some (shipmentId, userId) := rfl
      rw [RemindersCall.resume] at hresume
      split at hresume
      · exact .idle (by rw [hresume]; exact fun _ => Nat.le_refl _) (by rw [hresume]; exact List.forall_mem_nil _)
      · split at hresume
        · exact .idle (by rw [hresume]; exact fun _ => Nat.le_refl _) (by rw [hresume]; exact List.forall_mem_nil _)
        · rename_i hbelow
          exact .counted hcounting (Nat.lt_of_not_le hbelow)
            (by rw [hresume]; exact fun _ => Nat.le_refl _) (by rw [hresume]) rfl
  | insert shipmentId userId remindAt message =>
      have hpast : (RemindersCall.insert shipmentId userId remindAt message).past =
        some (shipmentId, userId) := rfl
      refine .took hpast (used_insert_reminder input w shipmentId userId remindAt message) ?_
      rw [hresume, RemindersCall.resume]
      split <;> rfl
  | remove shipmentId reminderId userId =>
      refine .idle (fun key => ?_) ?_
      all_goals
        rw [hresume]
        simp only [RemindersCall.resume]
        repeat' split
      · exact Nat.le_refl _
      · exact length_filter_filter_le ..
      · exact Nat.le_refl _
      all_goals exact List.forall_mem_nil _
  | claim due sent =>
      refine .idle (fun key => ?_) ?_
      · rw [hresume]
        exact used_claim input w due sent key
      · rw [hresume]
        cases due with
        | nil => exact List.forall_mem_nil _
        | cons reminder rest =>
            simp only [RemindersCall.resume]
            repeat' split
            · exact List.forall_mem_nil _
            · exact List.forall_mem_singleton.mpr rfl
            · exact List.forall_mem_singleton.mpr rfl
  | _ =>
      refine .idle (fun key => ?_) ?_
      all_goals
        rw [hresume]
        simp only [RemindersCall.resume]
        repeat' split
      all_goals first | exact Nat.le_refl _ | exact List.forall_mem_singleton.mpr rfl |
        exact List.forall_mem_nil _

theorem reminders_quota : PoolQuota reminders RemindersWorld.used RemindersCall.counting
    RemindersCall.past MAX_ACTIVE_REMINDERS fun _ => True where
  keeps _ _ _ := trivial
  starts call h := by
    cases call <;> first | rfl | cases h
  resume s _ call _ input := quotaStep_reminders input s.shared call
  external event w key := by
    cases event with
    | cascade keeps => exact length_filter_filter_le ..
    | _ => exact Nat.le_refl _

end Reminders

section Invitations

variable (service : InvitationsService)

/-- The invitations of an inviter that were created in the 24 hours from a moment on. -/
def InvitationsWorld.sentWithin (w : InvitationsWorld) (inviterId : String) (start : Nat) :
    List Invitation :=
  w.invitations.rows.filter fun inv => inv.invitedById = inviterId ∧ start ≤ inv.createdAt ∧
    inv.createdAt ≤ start + invitationWindow

/-- The call is about to count the invitations of an inviter. -/
def InvitationsCall.counting : InvitationsCall → Option String
  | .create inviterId _ _ => some inviterId
  | _ => none

/-- The call has counted them, and is about to store one. -/
def InvitationsCall.past : InvitationsCall → Option String
  | .checkShipment inviterId _ _ | .insert inviterId _ _ => some inviterId
  | _ => none

def InvitationsWorld.used (w : InvitationsWorld) (inviterId : String) : Nat :=
  (w.sentToday inviterId).length

/-- The rows of an inviter and a moment that count. -/
def InvitationsWorld.counted (w : InvitationsWorld) (p : String → Nat → Bool) : Nat :=
  (w.invitations.rows.filter fun inv => p inv.invitedById inv.createdAt).length

/-- The inviter of the row that the step may store, which is created now. -/
def InvitationsCall.inserting : InvitationsCall → Option String
  | .insert inviterId _ _ => some inviterId
  | _ => none

theorem counted_resume (input : RowInput) (w : InvitationsWorld) (call : InvitationsCall)
    (p : String → Nat → Bool) :
    (call.resume service input w).1.now = w.now ∧
      (call.resume service input w).1.counted p ≤
        w.counted p + (call.inserting.any fun inviterId => p inviterId w.now).toNat := by
  cases call with
  | insert inviterId token dto =>
      rw [InvitationsCall.resume]
      split
      · exact ⟨rfl, Nat.le_add_right _ _⟩
      · rename_i hstored
        rw [not_or, not_or, Option.not_isSome_iff_eq_none] at hstored
        refine ⟨rfl, Nat.le_of_eq ?_⟩
        unfold InvitationsWorld.counted InvitationsWorld.reply
        rw [Table.rows_insert (Table.find?_eq_none_iff.mp hstored.2.1),
          length_filter_append_singleton]
        change _ = _ + (p inviterId w.now).toNat
        cases p inviterId w.now <;> rfl
  | acceptWrite invitationId userId =>
      simp only [InvitationsCall.resume]
      repeat' split
      · exact ⟨rfl, Nat.le_refl _⟩
      · exact ⟨rfl, Nat.le_refl _⟩
      · refine ⟨rfl, length_filter_map_le fun row _ hmatch => ?_⟩
        split at hmatch <;> exact hmatch
  | _ =>
      simp only [InvitationsCall.resume]
      repeat' split
      all_goals exact ⟨rfl, Nat.le_refl _⟩

theorem used_resume_invitation (input : RowInput) (w : InvitationsWorld) (call : InvitationsCall)
    (key : String) :
    (call.resume service input w).1.used key ≤
      w.used key + if call.inserting = some key then 1 else 0 := by
  obtain ⟨hnow, hcounted⟩ := counted_resume service input w call fun inviterId createdAt =>
    inviterId = key ∧ w.now ≤ createdAt + invitationWindow
  have hused : (call.resume service input w).1.used key =
      (call.resume service input w).1.counted fun inviterId createdAt =>
        inviterId = key ∧ w.now ≤ createdAt + invitationWindow := by
    unfold InvitationsWorld.used InvitationsWorld.sentToday InvitationsWorld.counted
    rw [hnow]
  rw [hused]
  refine Nat.le_trans hcounted (Nat.add_le_add_left ?_ _)
  cases call.inserting with
  | none => exact Nat.zero_le _
  | some inviterId => by_cases hkey : inviterId = key <;> simp [hkey]

theorem quotaStep_invitations (input : RowInput) (w : InvitationsWorld) (call : InvitationsCall) :
    QuotaStep (invitations service) InvitationsWorld.used InvitationsCall.counting
      InvitationsCall.past DAILY_INVITATION_LIMIT input w call := by
  have hresume : (invitations service).resume input w call = call.resume service input w := rfl
  have hused := used_resume_invitation service input w call
  cases call with
  | create inviterId token dto =>
      have hcounting : (InvitationsCall.create inviterId token dto).counting = some inviterId := rfl
      rw [InvitationsCall.resume] at hresume
      split at hresume
      · exact .idle hused (by rw [hresume]; exact List.forall_mem_nil _)
      · split at hresume
        · exact .idle hused (by rw [hresume]; exact List.forall_mem_nil _)
        · rename_i hbelow
          split at hresume
          · exact .counted hcounting (Nat.lt_of_not_le hbelow) hused (by rw [hresume]) rfl
          · exact .counted hcounting (Nat.lt_of_not_le hbelow) hused (by rw [hresume]) rfl
  | checkShipment inviterId token dto =>
      have hpast : (InvitationsCall.checkShipment inviterId token dto).past = some inviterId := rfl
      simp only [InvitationsCall.resume] at hresume
      split at hresume
      · exact .idle hused (by rw [hresume]; exact List.forall_mem_nil _)
      · split at hresume
        · exact .idle hused (by rw [hresume]; exact List.forall_mem_nil _)
        · exact .moved hpast hused (by rw [hresume]) rfl
  | insert inviterId token dto =>
      have hpast : (InvitationsCall.insert inviterId token dto).past = some inviterId := rfl
      refine .took hpast (fun other => ?_) ?_
      · have hother := hused other
        simp only [InvitationsCall.inserting, Option.some.injEq] at hother
        exact hother
      · rw [hresume, InvitationsCall.resume]
        split <;> rfl
  | _ =>
      refine .idle hused ?_
      rw [hresume]
      simp only [InvitationsCall.resume]
      repeat' split
      all_goals first | exact List.forall_mem_singleton.mpr rfl | exact List.forall_mem_nil _

theorem used_of_later (w w' : InvitationsWorld) (hrows : w'.invitations = w.invitations)
    (hnow : w.now ≤ w'.now) (key : String) : w'.used key ≤ w.used key := by
  unfold InvitationsWorld.used InvitationsWorld.sentToday
  rw [hrows]
  refine (List.monotone_filter_right _ fun inv hmatch => ?_).length_le
  rw [decide_eq_true_iff] at hmatch ⊢
  exact ⟨hmatch.1, Nat.le_trans hnow hmatch.2⟩

theorem invitations_quota : PoolQuota (invitations service) InvitationsWorld.used
    InvitationsCall.counting InvitationsCall.past DAILY_INVITATION_LIMIT fun _ => True where
  keeps _ _ _ := trivial
  starts call h := by
    cases call <;> first | rfl | cases h
  resume s _ call _ input := quotaStep_invitations service input s.shared call
  external event w key := by
    cases event with
    | tick ms =>
        exact used_of_later w { w with now := w.now + ms } rfl (Nat.le_add_right _ _) key
    | cascade keeps => exact length_filter_filter_le ..
    | shipments ids => exact Nat.le_refl _

/-- Nobody has more invitations than the limit in any 24 hours. -/
def InvitationsWithin (w : InvitationsWorld) : Prop :=
  ∀ inviterId start, (w.sentWithin inviterId start).length ≤ DAILY_INVITATION_LIMIT

theorem sentWithin_le_used {w : InvitationsWorld} {inviterId : String} {start : Nat}
    (h : w.now ≤ start + invitationWindow) :
    (w.sentWithin inviterId start).length ≤ w.used inviterId := by
  refine (List.monotone_filter_right _ fun inv hmatch => ?_).length_le
  rw [decide_eq_true_iff] at hmatch ⊢
  exact ⟨hmatch.1, by omega⟩

/-- What was created before counts in the 24 hours that end now. -/
theorem used_le_of_past {w : InvitationsWorld} (h : InvitationsWithin w)
    (hpast : ∀ inv ∈ w.invitations.rows, inv.createdAt ≤ w.now) (inviterId : String) :
    w.used inviterId ≤ DAILY_INVITATION_LIMIT := by
  refine Nat.le_trans (Nat.le_of_eq (congrArg List.length (List.filter_congr fun inv hmem => ?_)))
    (h inviterId (w.now - invitationWindow))
  have hcreated := hpast inv hmem
  rw [decide_eq_decide]
  exact and_congr_right fun _ => by omega

theorem invitationsWithin_resume {s : InvitationsPool} {call : InvitationsCall}
    (input : RowInput) (hcall : call ∈ s.inflight)
    (hquota : WithinQuota InvitationsWorld.used InvitationsCall.past DAILY_INVITATION_LIMIT s)
    (h : InvitationsWithin s.shared) :
    InvitationsWithin (call.resume service input s.shared).1 := by
  intro inviterId start
  have hrows := (counted_resume service input s.shared call fun other createdAt =>
    other = inviterId ∧ start ≤ createdAt ∧ createdAt ≤ start + invitationWindow).2
  refine Nat.le_trans hrows ?_
  cases call with
  | insert other token dto =>
      by_cases hwindow : other = inviterId ∧ start ≤ s.shared.now ∧
          s.shared.now ≤ start + invitationWindow
      · have hkey := hquota inviterId
        have hway : 0 < onTheWay InvitationsCall.past s.inflight inviterId :=
          List.countP_pos_iff.mpr ⟨_, hcall, by simp [InvitationsCall.past, hwindow.1]⟩
        have hused : s.shared.counted (fun other createdAt => other = inviterId ∧
            start ≤ createdAt ∧ createdAt ≤ start + invitationWindow) ≤
            s.shared.used inviterId :=
          sentWithin_le_used hwindow.2.2
        have hone := Bool.toNat_le (decide (other = inviterId ∧ start ≤ s.shared.now ∧
          s.shared.now ≤ start + invitationWindow))
        change _ + (decide _).toNat ≤ _
        omega
      · change _ + (decide _).toNat ≤ _
        rw [decide_eq_false hwindow]
        exact h inviterId start
  | _ => exact h inviterId start

theorem invitationsWithin_step (s : InvitationsPool) (a : InvitationsAction)
    (hquota : WithinQuota InvitationsWorld.used InvitationsCall.past DAILY_INVITATION_LIMIT s)
    (h : InvitationsWithin s.shared) : InvitationsWithin ((invitations service).step s a).shared :=
  (invitations service).shared_step a h
    (fun input _ hcall => invitationsWithin_resume service input hcall hquota h)
    fun event inviterId start => by
      cases event with
      | cascade keeps => exact Nat.le_trans (length_filter_filter_le ..) (h inviterId start)
      | _ => exact h inviterId start

end Invitations

section Pins

variable (service : NotificationsService)

/-- Only comments that are there are pinned. -/
def CommentsWorld.PinsStored (w : CommentsWorld) : Prop :=
  ∀ id, w.base.comments.find? id = none → w.pinnedAt id = none

/-- The call is about to count the pinned comments of a shipment. -/
def CommentsCall.counting : CommentsCall → Option String
  | .countPinned shipmentId _ => some shipmentId
  | _ => none

/-- The call has counted them, and is about to pin one. -/
def CommentsCall.past : CommentsCall → Option String
  | .writePinned shipmentId _ true => some shipmentId
  | _ => none

def CommentsWorld.used (w : CommentsWorld) (shipmentId : String) : Nat :=
  (w.pinnedComments shipmentId).length

/-- What is pinned or unpinned is a comment of the shipment. -/
def CommentsCall.Located (w : CommentsWorld) : CommentsCall → Prop
  | .countPinned shipmentId commentId | .writePinned shipmentId commentId _ =>
      ∃ link ∈ w.links, link.id = commentId ∧ link.shipmentId = shipmentId
  | _ => True

theorem CommentsCall.Located.grow {w w' : CommentsWorld} {call : CommentsCall}
    (h : call.Located w) (hlinks : w.links ⊆ w'.links) : call.Located w' := by
  cases call with
  | countPinned shipmentId commentId =>
      obtain ⟨link, hmem, hlink⟩ := h
      exact ⟨link, hlinks hmem, hlink⟩
  | writePinned shipmentId commentId pinned =>
      obtain ⟨link, hmem, hlink⟩ := h
      exact ⟨link, hlinks hmem, hlink⟩
  | _ => trivial

theorem CommentsCall.Located.shipment {w : CommentsWorld} {shipmentId : String} {pinned : Bool}
    {comment : ShipmentComment}
    (h : (CommentsCall.writePinned shipmentId comment.id pinned).Located w)
    (hfound : w.base.comments.find? comment.id = some comment) :
    comment.shipmentId = shipmentId := by
  obtain ⟨link, hmem, hid, hshipment⟩ := h
  obtain ⟨other, hother, rfl⟩ := List.mem_map.mp hmem
  have hsame : w.base.comments.find? other.id = some other := Table.find?_of_mem hother
  have hkey : other.id = comment.id := hid
  rw [hkey, hfound, Option.some.injEq] at hsame
  rw [hsame]
  exact hshipment

theorem located_resume (input : NotificationInput) (w : CommentsWorld) (call : CommentsCall)
    (h : call.Located w) :
    ∀ next ∈ (call.resume service input w).2, next.Located (call.resume service input w).1 := by
  have hlinks := (links_resume service input w call).subset
  cases call with
  | service call =>
      intro next hnext
      obtain ⟨inner, -, rfl⟩ := List.mem_map.mp hnext
      trivial
  | setPinned shipmentId commentId pinned =>
      simp only [CommentsCall.resume]
      cases hlive : w.liveComment shipmentId commentId with
      | none => split <;> exact List.forall_mem_nil _
      | some comment =>
          have hmatch := List.find?_some hlive
          rw [decide_eq_true_iff] at hmatch
          have hlink : ∃ link ∈ w.links, link.id = commentId ∧ link.shipmentId = shipmentId :=
            ⟨comment.link, List.mem_map_of_mem (List.mem_of_find?_eq_some hlive), hmatch.1,
              hmatch.2.1⟩
          dsimp only
          split
          · exact List.forall_mem_nil _
          · split
            · exact List.forall_mem_nil _
            · refine List.forall_mem_singleton.mpr ?_
              cases pinned <;> exact hlink
  | countPinned shipmentId commentId =>
      simp only [CommentsCall.resume]
      repeat' split
      · exact List.forall_mem_nil _
      · exact List.forall_mem_nil _
      · exact List.forall_mem_singleton.mpr h
  | _ =>
      simp only [CommentsCall.resume]
      repeat' split
      all_goals first | exact List.forall_mem_nil _ | exact List.forall_mem_singleton.mpr trivial

/-- The pins after a step, and the rows that are there. -/
theorem pinnedAt_resume (input : NotificationInput) (w : CommentsWorld) (call : CommentsCall) :
    (call.resume service input w).1.pinnedAt = w.pinnedAt ∨
      ∃ shipmentId commentId pinned comment,
        call = .writePinned shipmentId commentId pinned ∧ input.thrown = false ∧
        w.base.comments.find? commentId = some comment ∧
        (call.resume service input w).1.rows = w.rows ∧
        (call.resume service input w).1.pinnedAt =
          Function.update w.pinnedAt commentId (if pinned then some w.base.now else none) := by
  cases call with
  | writePinned shipmentId commentId pinned =>
      simp only [CommentsCall.resume]
      split
      · exact .inl rfl
      · rename_i comment hfound
        split
        · exact .inl rfl
        · rename_i hdone
          exact .inr ⟨shipmentId, commentId, pinned, comment, rfl, by simpa using hdone, hfound, rfl, rfl⟩
  | service call => exact .inl rfl
  | _ =>
      refine .inl ?_
      simp only [CommentsCall.resume]
      repeat' split
      all_goals rfl

theorem ids_resume (input : NotificationInput) (w : CommentsWorld) (call : CommentsCall) {id : String}
    (h : (call.resume service input w).1.base.comments.find? id = none) :
    w.base.comments.find? id = none := by
  rw [Table.find?_eq_none_iff] at h ⊢
  intro hmem
  have hids := (links_resume service input w call).map CommentLink.id
  unfold CommentsWorld.links at hids
  rw [List.map_map, List.map_map] at hids
  exact h (hids.subset hmem)

/-- How a pin that is written changes what counts. -/
theorem length_pinned_write {w w' : CommentsWorld} {comment : ShipmentComment}
    {pinnedAt : Option Nat} (hfound : w.base.comments.find? comment.id = some comment)
    (hrows : w'.rows = w.rows)
    (hpins : w'.pinnedAt = Function.update w.pinnedAt comment.id pinnedAt) (shipmentId : String) :
    (w'.pinnedComments shipmentId).length +
        (if comment.shipmentId = shipmentId ∧ (w.pinnedAt comment.id).isSome ∧
          comment.deletedAt = none then 1 else 0) =
      (w.pinnedComments shipmentId).length +
        if comment.shipmentId = shipmentId ∧ pinnedAt.isSome ∧ comment.deletedAt = none then 1
        else 0 := by
  have hkeys : (w.rows.map ShipmentComment.id).Nodup := w.base.comments.nodup
  have hmem : comment ∈ w.rows := Table.mem_of_find? hfound
  have hcount := length_filter_of_one
    (fun c => c.shipmentId = shipmentId ∧ (w.pinnedAt c.id).isSome ∧ c.deletedAt = none)
    (fun c => c.shipmentId = shipmentId ∧ (w'.pinnedAt c.id).isSome ∧ c.deletedAt = none)
    hkeys hmem fun other _ hne => by
      rw [hpins, Function.update_of_ne hne]
  unfold CommentsWorld.pinnedComments
  rw [hrows]
  simpa [hpins] using hcount

structure PinsInv (s : CommentsPool) : Prop where
  stored : s.shared.PinsStored
  located : ∀ call ∈ s.inflight, call.Located s.shared

theorem pinsStored_resume (input : NotificationInput) {w : CommentsWorld} (call : CommentsCall)
    (hpins : w.PinsStored) : (call.resume service input w).1.PinsStored := by
  intro id hid
  have hold := ids_resume service input w call hid
  rcases pinnedAt_resume service input w call with hsame |
    ⟨shipmentId, commentId, pinned, comment, rfl, -, hfound, -, hwrite⟩
  · rw [hsame]
    exact hpins id hold
  · have hne : id ≠ commentId := by
      rintro rfl
      rw [hfound] at hold
      cases hold
    rw [hwrite, Function.update_of_ne hne]
    exact hpins id hold

theorem pinsInv_step (s : CommentsPool) (a : CommentsAction) (h : PinsInv s) :
    PinsInv ((comments service).step s a) := by
  have hkeeps := (comments service).keeps_step (Q := CommentsWorld.PinsStored)
    (P := fun w call => call.Located w) a h.stored h.located
    (fun call _ hstart => by
      cases call <;> trivial)
    (fun index input call _ hcall => by
      have hlinks := (links_resume service input s.shared call).subset
      exact ⟨pinsStored_resume service input call h.stored,
        located_resume service input s.shared call (h.located call (List.mem_of_getElem? hcall)),
        fun other hmem => (h.located other (List.mem_of_mem_eraseIdx hmem)).grow hlinks⟩)
    (fun event => by
      cases event <;> exact ⟨h.stored, h.located⟩)
  exact ⟨hkeeps.1, hkeeps.2⟩

theorem used_of_same_pins {input : NotificationInput} {w : CommentsWorld} {call : CommentsCall}
    (hstored : w.PinsStored) (hsame : (call.resume service input w).1.pinnedAt = w.pinnedAt)
    (key : String) : (call.resume service input w).1.used key ≤ w.used key := by
  unfold CommentsWorld.used CommentsWorld.pinnedComments
  rw [hsame]
  cases rows_resume service input w call with
  | same hrows => rw [hrows]
  | @stored shipment request comment _ _ hfree hlink _ hrows =>
      have hid : comment.id = input.id := congrArg CommentLink.id hlink
      rw [hrows, length_filter_append_singleton, if_neg]
      · exact Nat.le_refl _
      · simp [hid, hstored input.id hfree]
  | deleted _ _ hrows =>
      rw [hrows]
      apply length_filter_map_le
      intro row _ hmatch
      split at hmatch
      · simp at hmatch
      · exact hmatch

theorem used_writePinned (input : NotificationInput) {w : CommentsWorld}
    {shipmentId commentId : String} {pinned : Bool} (hstored : w.PinsStored)
    (h : (CommentsCall.writePinned shipmentId commentId pinned).Located w) (key : String) :
    (CommentsCall.resume service input w (.writePinned shipmentId commentId pinned)).1.used key ≤
      w.used key + if pinned ∧ shipmentId = key then 1 else 0 := by
  rcases pinnedAt_resume service input w (.writePinned shipmentId commentId pinned) with hsame |
    ⟨_, _, _, comment, hcall, -, hfound, hrows, hwrite⟩
  · exact Nat.le_add_right_of_le (used_of_same_pins service hstored hsame key)
  · cases hcall
    obtain rfl : comment.id = commentId := Table.key_of_find? hfound
    have hcount := length_pinned_write hfound hrows hwrite key
    rw [h.shipment hfound] at hcount
    refine Nat.le_trans (Nat.le_add_right _ _) (Nat.le_trans (Nat.le_of_eq hcount) ?_)
    refine Nat.add_le_add_left ?_ _
    cases pinned with
    | false => simp
    | true => by_cases hkey : shipmentId = key <;> simp [hkey]; split <;> omega

theorem quotaStep_comments (input : NotificationInput) {w : CommentsWorld} (call : CommentsCall)
    (hstored : w.PinsStored) (hlocated : call.Located w) :
    QuotaStep (comments service) CommentsWorld.used CommentsCall.counting CommentsCall.past
      MAX_PINNED_COMMENTS input w call := by
  have hresume : (comments service).resume input w call = call.resume service input w := rfl
  have hsame (hother : ∀ shipmentId commentId pinned,
      call ≠ .writePinned shipmentId commentId pinned) (key : String) :
      ((comments service).resume input w call).1.used key ≤ w.used key := by
    refine used_of_same_pins service hstored ?_ key
    rcases pinnedAt_resume service input w call with hpins | ⟨_, _, _, _, hcall, -⟩
    · exact hpins
    · exact absurd hcall (hother _ _ _)
  cases call with
  | countPinned shipmentId commentId =>
      have hcounting : (CommentsCall.countPinned shipmentId commentId).counting =
        some shipmentId := rfl
      have hused := hsame (by rintro _ _ _ ⟨⟩)
      rw [CommentsCall.resume] at hresume
      split at hresume
      · exact .idle hused (by rw [hresume]; exact List.forall_mem_nil _)
      · split at hresume
        · exact .idle hused (by rw [hresume]; exact List.forall_mem_nil _)
        · rename_i hbelow
          exact .counted hcounting (Nat.lt_of_not_le hbelow) hused (by rw [hresume]) rfl
  | writePinned shipmentId commentId pinned =>
      have hused (key : String) : ((comments service).resume input w
          (.writePinned shipmentId commentId pinned)).1.used key ≤
            w.used key + if pinned ∧ shipmentId = key then 1 else 0 :=
        used_writePinned service input hstored hlocated key
      have hnext : (CommentsCall.resume service input w
          (.writePinned shipmentId commentId pinned)).2 = [] := by
        simp only [CommentsCall.resume]
        repeat' split
        all_goals rfl
      cases pinned with
      | false =>
          refine .idle (by simpa using hused) ?_
          rw [hresume, hnext]
          exact List.forall_mem_nil _
      | true =>
          have hpast : (CommentsCall.writePinned shipmentId commentId true).past =
            some shipmentId := rfl
          exact .took hpast (by simpa using hused) hnext
  | service call =>
      refine .idle (hsame (by rintro _ _ _ ⟨⟩)) fun next hnext => ?_
      obtain ⟨inner, -, rfl⟩ := List.mem_map.mp hnext
      rfl
  | setPinned shipmentId commentId pinned =>
      refine .idle (hsame (by rintro _ _ _ ⟨⟩)) ?_
      rw [hresume]
      simp only [CommentsCall.resume]
      repeat' split
      all_goals first | exact List.forall_mem_nil _ | exact List.forall_mem_singleton.mpr rfl
  | _ =>
      refine .idle (hsame (by rintro _ _ _ ⟨⟩)) ?_
      rw [hresume]
      simp only [CommentsCall.resume]
      repeat' split
      all_goals first | exact List.forall_mem_nil _ | exact List.forall_mem_singleton.mpr rfl

theorem pins_quota : PoolQuota (comments service) CommentsWorld.used CommentsCall.counting
    CommentsCall.past MAX_PINNED_COMMENTS PinsInv where
  keeps := pinsInv_step service
  starts call h := by
    cases call <;> first | rfl | cases h
  resume s hinv call hmem input :=
    quotaStep_comments service input call hinv.stored (hinv.located call hmem)
  external event w key := by
    cases event <;> exact Nat.le_refl _

end Pins

section Runs

/-- No shipment has more pinned comments than the limit. -/
def PinsWithin (w : CommentsWorld) : Prop :=
  ∀ shipmentId, (w.pinnedComments shipmentId).length ≤ MAX_PINNED_COMMENTS

/-- No user has more unsent reminders on a shipment than the limit. -/
def RemindersWithin (w : RemindersWorld) : Prop :=
  ∀ shipmentId userId, (w.active shipmentId userId).length ≤ MAX_ACTIVE_REMINDERS

/-- Whenever a call counts while the pinned comments of its shipment, with those that other calls
past their count are about to pin, reach the limit, the pinned ones alone have reached it. -/
def PinsCounted : CommentsPool → CommentsAction → Prop :=
  Counted CommentsWorld.used CommentsCall.counting CommentsCall.past MAX_PINNED_COMMENTS

/-- The same for the unsent reminders of a user on a shipment. -/
def RemindersCounted : RemindersPool → RemindersAction → Prop :=
  Counted RemindersWorld.used RemindersCall.counting RemindersCall.past MAX_ACTIVE_REMINDERS

/-- The same for the invitations of an inviter in the last 24 hours. -/
def InvitationsCounted : InvitationsPool → InvitationsAction → Prop :=
  Counted InvitationsWorld.used InvitationsCall.counting InvitationsCall.past DAILY_INVITATION_LIMIT

instance (s : CommentsPool) (a : CommentsAction) : Decidable (PinsCounted s a) :=
  inferInstanceAs (Decidable (Counted ..))

instance (s : RemindersPool) (a : RemindersAction) : Decidable (RemindersCounted s a) :=
  inferInstanceAs (Decidable (Counted ..))

instance (s : InvitationsPool) (a : InvitationsAction) : Decidable (InvitationsCounted s a) :=
  inferInstanceAs (Decidable (Counted ..))

theorem invitationsWithin_run (service : InvitationsService) {w : InvitationsWorld}
    (hcreated : ∀ inv ∈ w.invitations.rows, inv.createdAt ≤ w.now) (hwithin : InvitationsWithin w)
    {actions : List InvitationsAction}
    (h : Along (invitations service).step InvitationsCounted ⟨w, []⟩ actions) :
    InvitationsWithin ((invitations service).run actions ⟨w, []⟩).shared := by
  have hstep (s : InvitationsPool) (a : InvitationsAction)
      (hs : WithinQuota InvitationsWorld.used InvitationsCall.past DAILY_INVITATION_LIMIT s ∧
        InvitationsWithin s.shared) (hcounted : InvitationsCounted s a) :
      WithinQuota InvitationsWorld.used InvitationsCall.past DAILY_INVITATION_LIMIT
          ((invitations service).step s a) ∧
        InvitationsWithin ((invitations service).step s a).shared :=
    ⟨(invitations_quota service).step a trivial hs.1 hcounted,
      invitationsWithin_step service s a hs.1 hs.2⟩
  have hinit : WithinQuota InvitationsWorld.used InvitationsCall.past DAILY_INVITATION_LIMIT
      ⟨w, []⟩ := withinQuota_idle (used_le_of_past hwithin hcreated)
  exact (h.invariant hstep ⟨hinit, hwithin⟩ actions [] (List.append_nil _).symm).2

/-- Whatever calls overlap: each of the three limits holds in every state of a run in which no
call relies on a count that leaves out what would have refused it. -/
theorem limits_hold_while_counted (service : NotificationsService)
    (inviting : InvitationsService) {w : CommentsWorld} {r : RemindersWorld} {i : InvitationsWorld}
    (hstored : w.PinsStored) (hpins : PinsWithin w) (hreminders : RemindersWithin r)
    (hcreated : ∀ inv ∈ i.invitations.rows, inv.createdAt ≤ i.now)
    (hinvitations : InvitationsWithin i) (pinning : List CommentsAction)
    (reminding : List RemindersAction) (sending : List InvitationsAction) :
    (Along (comments service).step PinsCounted ⟨w, []⟩ pinning →
      PinsWithin ((comments service).run pinning ⟨w, []⟩).shared) ∧
    (Along reminders.step RemindersCounted ⟨r, []⟩ reminding →
      RemindersWithin (reminders.run reminding ⟨r, []⟩).shared) ∧
    (Along (invitations inviting).step InvitationsCounted ⟨i, []⟩ sending →
      InvitationsWithin ((invitations inviting).run sending ⟨i, []⟩).shared) := by
  refine ⟨fun h => ?_, fun h => ?_, invitationsWithin_run inviting hcreated hinvitations⟩
  · have hquota := (pins_quota service).run ⟨hstored, List.forall_mem_nil _⟩
      (withinQuota_idle hpins) h
    exact hquota.2.used_le
  · have hquota := reminders_quota.run trivial
      (withinQuota_idle fun key => hreminders key.1 key.2) h
    exact fun shipmentId userId => hquota.2.used_le (shipmentId, userId)

def noReminders : RemindersWorld := ⟨["SHIP-1"], .empty, 20, []⟩

def noInvitations : InvitationsWorld := ⟨["SHIP-1"], .empty, 20, []⟩

def plainInvitations : InvitationsService := ⟨.ascii, id⟩

/-- A name for each number. -/
def rowName (n : Nat) : String :=
  String.ofList (List.replicate n 'r')

/-- Calls that begin together, and take each of their steps one after the other. -/
def atOnce {κ ι ω : Type} (count rounds : Nat) (call : Nat → κ) (input : Nat → ι) :
    List (PoolAction κ ι ω) :=
  (List.range count).map (fun n => .begin (call n)) ++
    ((List.replicate rounds (List.range count)).flatten.map fun n => .resume n (input n)) ++
    (List.range count).map fun n => .resume 0 (input n)

/-- Calls each of which begins when the one before has ended. -/
def inTurn {κ ι ω : Type} (count rounds : Nat) (call : Nat → κ) (input : Nat → ι) :
    List (PoolAction κ ι ω) :=
  (List.range count).flatMap fun n =>
    .begin (call n) :: List.replicate (rounds + 1) (.resume 0 (input n))

def postings (count : Nat) : List CommentsAction :=
  (List.range count).flatMap fun n => postingComment (rowName n) none

def pin (n : Nat) : CommentsCall :=
  .setPinned "SHIP-1" (rowName n) true

def remind (_ : Nat) : RemindersCall :=
  .create "SHIP-1" "bo" ⟨some 50, "Call"⟩

def invite (n : Nat) : InvitationsCall :=
  .create "bo" (rowName n) ⟨"a@b.test", .supplier, none, none⟩

def rowInput (n : Nat) : RowInput :=
  ⟨false, rowName n⟩

/-- Calls one after the other: the one after the last that is allowed is refused. -/
theorem limits_respected :
    (PinsWithin ((comments plainNotifications).run
        (postings 4 ++ inTurn 4 2 pin fun _ => calmInput) ⟨threadWorld, []⟩).shared ∧
      RemindersWithin (reminders.run (inTurn 21 2 remind rowInput) ⟨noReminders, []⟩).shared ∧
      InvitationsWithin ((invitations plainInvitations).run (inTurn 21 1 invite rowInput)
        ⟨noInvitations, []⟩).shared) ∧
    (((comments plainNotifications).run (postings 4 ++ inTurn 4 2 pin fun _ => calmInput)
        ⟨threadWorld, []⟩).shared.pinnedComments "SHIP-1").length = 3 ∧
      ((reminders.run (inTurn 21 2 remind rowInput) ⟨noReminders, []⟩).shared.active
        "SHIP-1" "bo").length = 20 ∧
      (((invitations plainInvitations).run (inTurn 21 1 invite rowInput)
        ⟨noInvitations, []⟩).shared.sentToday "bo").length = 20 := by
  have hhold := limits_hold_while_counted plainNotifications plainInvitations (w := threadWorld)
    (r := noReminders) (i := noInvitations) (fun _ _ => rfl) (fun _ => Nat.zero_le _)
    (fun _ _ => Nat.zero_le _) (List.forall_mem_nil _) (fun _ _ => Nat.zero_le _)
    (postings 4 ++ inTurn 4 2 pin fun _ => calmInput) (inTurn 21 2 remind rowInput)
    (inTurn 21 1 invite rowInput)
  exact ⟨⟨hhold.1 (by decide +kernel), hhold.2.1 (by decide +kernel),
    hhold.2.2 (by decide +kernel)⟩, by decide +kernel, by decide +kernel, by decide +kernel⟩

theorem limits_exceeded :
    ¬ PinsWithin ((comments plainNotifications).run
        (postings 4 ++ atOnce 4 2 pin fun _ => calmInput) ⟨threadWorld, []⟩).shared ∧
      ¬ RemindersWithin (reminders.run (atOnce 21 2 remind rowInput) ⟨noReminders, []⟩).shared ∧
      ¬ InvitationsWithin ((invitations plainInvitations).run (atOnce 21 1 invite rowInput)
        ⟨noInvitations, []⟩).shared := by
  refine ⟨fun h => ?_, fun h => ?_, fun h => ?_⟩
  · exact absurd (h "SHIP-1") (by decide +kernel)
  · exact absurd (h "SHIP-1" "bo") (by decide +kernel)
  · exact absurd (h "bo" 0) (by decide +kernel)

end Runs

end ChainSettle
