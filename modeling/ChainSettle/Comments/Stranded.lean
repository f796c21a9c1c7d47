import ChainSettle.Comments.Threads

/-!
Runs of calls on comments. Comments are stored below comments that are there, and keep their
place; what a step changes of a thread is one comment that is new, or one that is deleted.
-/

namespace ChainSettle

open Lib

section Steps

variable (service : NotificationsService)

/-- What a step of `create` stores: nothing, or the comment that was asked for. -/
theorem comments_resume (input : NotificationInput) (w : NotificationWorld)
    (call : NotificationCall) :
    ((call.resume service input w).1.comments = w.comments ∧
      ∀ shipment request, call = .commentInsert shipment request →
        input.thrown = true ∨ (w.comments.find? input.id).isSome = true) ∨
      ∃ shipment request comment, call = .commentInsert shipment request ∧
        input.thrown = false ∧ w.comments.find? comment.id = none ∧
        comment.id = input.id ∧
        comment.link = ⟨input.id, request.shipmentId, request.parentCommentId⟩ ∧
        comment.deletedAt = none ∧
        (call.resume service input w).1.comments = w.comments.insert comment := by
  cases call with
  | commentInsert shipment request =>
      simp only [NotificationCall.resume]
      split
      · rename_i hrefused
        exact .inl ⟨rfl, fun _ _ _ => hrefused⟩
      · rename_i hstored
        rw [not_or, Bool.not_eq_true, Option.not_isSome_iff_eq_none] at hstored
        exact .inr ⟨shipment, request, _, rfl, hstored.1, hstored.2, rfl, rfl, rfl, rfl⟩
  | writePreferences userId current request =>
      refine .inl ⟨?_, fun _ _ hcall => by cases hcall⟩
      simp only [NotificationCall.resume]
      split
      · rfl
      · cases request <;> rfl
  | notify tasks =>
      refine .inl ⟨?_, fun _ _ hcall => by cases hcall⟩
      cases tasks with
      | nil => rfl
      | cons task rest =>
          simp only [NotificationCall.resume]
          split
          · rfl
          · split <;> rfl
  | _ =>
      refine .inl ⟨?_, fun _ _ hcall => by cases hcall⟩
      simp only [NotificationCall.resume]
      repeat' split
      all_goals trivial

/-- A reply is deleted while it has no live reply, and stored below a root or a live reply. -/
def CommentsCall.KeepsThreads (input : NotificationInput) (w : CommentsWorld) :
    CommentsCall → Prop
  | .removeWrite commentId => input.thrown = false → ∀ comment ∈ w.rows, comment.id = commentId →
      comment.parentCommentId = none ∨
        ∀ reply ∈ w.rows, reply.parentCommentId = some commentId → reply.deletedAt ≠ none
  | .service (.commentInsert _ request) => input.thrown = false →
      w.base.comments.find? input.id = none → ∀ parent ∈ w.rows,
        request.parentCommentId = some parent.id →
          parent.parentCommentId = none ∨ parent.deletedAt = none
  | _ => True

instance (input : NotificationInput) (w : CommentsWorld) (call : CommentsCall) :
    Decidable (call.KeepsThreads input w) := by
  unfold CommentsCall.KeepsThreads
  split <;> infer_instance

/-- Everything that a step does to the comments. -/
inductive RowsStep (input : NotificationInput) (w w' : CommentsWorld) (call : CommentsCall) :
    Prop
  | same (hrows : w'.rows = w.rows) (hkeeps : call.KeepsThreads input w)
  | stored {shipment : Shipment} {request : CommentRequest} {comment : ShipmentComment}
      (hcall : call = .service (.commentInsert shipment request)) (hdone : input.thrown = false)
      (hfree : w.base.comments.find? input.id = none)
      (hlink : comment.link = ⟨input.id, request.shipmentId, request.parentCommentId⟩)
      (hlive : comment.deletedAt = none) (hrows : w'.rows = w.rows ++ [comment])
  | deleted {commentId : String} {time : Nat} (hcall : call = .removeWrite commentId)
      (hdone : input.thrown = false) (hrows : w'.rows = w.rows.map fun row =>
        if row.id = commentId then { row with deletedAt := some time } else row)

theorem rows_resume (input : NotificationInput) (w : CommentsWorld) (call : CommentsCall) :
    RowsStep input w (call.resume service input w).1 call := by
  cases call with
  | service call =>
      rcases comments_resume service input w.base call with ⟨hsame, hrefused⟩ |
        ⟨shipment, request, comment, rfl, hdone, hfree, hid, hlink, hlive, hinsert⟩
      · have hrows : (CommentsCall.resume service input w (.service call)).1.rows = w.rows :=
          congrArg Table.rows hsame
        refine .same hrows ?_
        cases call with
        | commentInsert shipment request =>
            intro hdone hfree
            rcases hrefused shipment request rfl with hthrown | htaken
            · rw [hdone] at hthrown
              cases hthrown
            · rw [hfree] at htaken
              cases htaken
        | _ => trivial
      · refine .stored rfl hdone (hid ▸ hfree) hlink hlive ?_
        have hkey : comment.id ∉ w.base.comments.rows.map ShipmentComment.id :=
          Table.find?_eq_none_iff.mp hfree
        exact (congrArg Table.rows hinsert).trans (Table.rows_insert hkey)
  | removeWrite commentId =>
      simp only [CommentsCall.resume]
      split
      · rename_i hrefused
        refine .same rfl fun hdone comment hrow hid => ?_
        rw [hdone] at hrefused
        rcases hrefused with hthrown | hmissing
        · cases hthrown
        · rw [Option.isNone_iff_eq_none] at hmissing
          exact absurd (hid ▸ List.mem_map_of_mem hrow) (Table.find?_eq_none_iff.mp hmissing)
      · rename_i hwrite
        rw [not_or, Bool.not_eq_true] at hwrite
        exact .deleted rfl hwrite.1 rfl
  | setPinned shipmentId commentId pinned =>
      refine .same ?_ trivial
      simp only [CommentsCall.resume]
      repeat' split
      all_goals rfl
  | _ =>
      refine .same ?_ trivial
      simp only [CommentsCall.resume]
      repeat' split
      all_goals rfl

/-- A step of `create` before its comment is stored. -/
def NotificationCall.creates : NotificationCall → Bool
  | .comment _ | .commentOrganizations .. | .commentParent .. | .commentMilestone ..
  | .commentInsert .. => true
  | _ => false

theorem creates_afterEmail (n : Notifying) : (n.afterEmail service).creates = false := by
  unfold Notifying.afterEmail
  split <;> rfl

/-- Notifications create no comments. -/
theorem creates_resume (input : NotificationInput) (w : NotificationWorld)
    {call : NotificationCall} (h : call.creates = false ∨ ∃ shipment request,
      call = .commentInsert shipment request) :
    ∀ next ∈ (call.resume service input w).2, next.creates = false := by
  rcases h with hother | ⟨shipment, request, rfl⟩
  · cases call with
    | comment request => cases hother
    | commentOrganizations shipment request => cases hother
    | commentParent shipment request => cases hother
    | commentMilestone shipment request => cases hother
    | commentInsert shipment request => cases hother
    | notify tasks =>
        cases tasks with
        | nil => exact List.forall_mem_nil _
        | cons task rest =>
            simp only [NotificationCall.resume]
            repeat' split
            all_goals exact List.forall_mem_singleton.mpr rfl
    | createNotification task user channels deliverAfter rest =>
        simp only [NotificationCall.resume]
        split
        · exact List.forall_mem_singleton.mpr rfl
        · change ∀ next ∈ (if deliverAfter.isNone ∧ channels.email ∧
            (truthyText user.email).isSome then _ else _), NotificationCall.creates next = false
          split
          · exact List.forall_mem_singleton.mpr rfl
          · exact List.forall_mem_singleton.mpr (creates_afterEmail service _)
    | sendEmail n =>
        simp only [NotificationCall.resume]
        split
        · exact List.forall_mem_singleton.mpr rfl
        · exact List.forall_mem_singleton.mpr (creates_afterEmail service _)
    | push n => exact List.forall_mem_cons.mpr ⟨rfl, List.forall_mem_singleton.mpr rfl⟩
    | writePreferences userId current request =>
        simp only [NotificationCall.resume]
        split
        · exact List.forall_mem_nil _
        · cases request with
          | update dto => exact List.forall_mem_singleton.mpr rfl
          | unsubscribe type => exact List.forall_mem_nil _
    | _ =>
        simp only [NotificationCall.resume]
        repeat' split
        all_goals first
          | exact List.forall_mem_nil _
          | exact List.forall_mem_singleton.mpr rfl
  · simp only [NotificationCall.resume]
    split
    · exact List.forall_mem_nil _
    · exact List.forall_mem_cons.mpr ⟨rfl, List.forall_mem_singleton.mpr rfl⟩

end Steps

section Pending

variable (service : NotificationsService)

/-- The parent that a call is about to store is there. -/
def CommentsCall.Linked (w : CommentsWorld) : CommentsCall → Prop
  | .service (.comment request) | .service (.commentOrganizations _ request)
  | .service (.commentParent _ request) => request.parentCommentId ≠ some ""
  | .service (.commentMilestone _ request) | .service (.commentInsert _ request) =>
      ∀ id, request.parentCommentId = some id →
        ∃ parent ∈ w.links, parent.id = id ∧ parent.shipmentId = request.shipmentId
  | _ => True

theorem linked_of_creates {w : CommentsWorld} {call : NotificationCall}
    (h : call.creates = false) : (CommentsCall.service call).Linked w := by
  cases call <;> trivial

theorem CommentsCall.Linked.grow {w w' : CommentsWorld} {call : CommentsCall} (h : call.Linked w)
    (hlinks : w.links <+: w'.links) : call.Linked w' := by
  have hparent {request : CommentRequest} (hrequest : ∀ id, request.parentCommentId = some id →
      ∃ parent ∈ w.links, parent.id = id ∧ parent.shipmentId = request.shipmentId) (id : String)
      (hid : request.parentCommentId = some id) :
      ∃ parent ∈ w'.links, parent.id = id ∧ parent.shipmentId = request.shipmentId := by
    obtain ⟨parent, hmem, hsame⟩ := hrequest id hid
    exact ⟨parent, hlinks.subset hmem, hsame⟩
  cases call with
  | service call =>
      cases call with
      | comment request => exact h
      | commentOrganizations shipment request => exact h
      | commentParent shipment request => exact h
      | commentMilestone shipment request => exact hparent h
      | commentInsert shipment request => exact hparent h
      | _ => trivial
  | _ => trivial

/-- A deleted comment keeps its place. -/
theorem map_link_deleted (rows : List ShipmentComment) (commentId : String) (time : Nat) :
    (rows.map fun row => if row.id = commentId then { row with deletedAt := some time } else
      row).map ShipmentComment.link = rows.map ShipmentComment.link := by
  rw [List.map_map]
  refine List.map_congr_left fun row _ => ?_
  rw [Function.comp_apply]
  split <;> rfl

theorem links_resume (input : NotificationInput) (w : CommentsWorld) (call : CommentsCall) :
    w.links <+: (call.resume service input w).1.links := by
  unfold CommentsWorld.links
  cases rows_resume service input w call with
  | same hrows => rw [hrows]
  | stored _ _ _ _ _ hrows =>
      rw [hrows, List.map_append]
      exact List.prefix_append _ _
  | deleted _ _ hrows => rw [hrows, map_link_deleted]

theorem linked_afterParent {w : CommentsWorld} (shipment : Shipment) {request : CommentRequest}
    (h : ∀ id, request.parentCommentId = some id →
      ∃ parent ∈ w.links, parent.id = id ∧ parent.shipmentId = request.shipmentId) :
    (CommentsCall.service (request.afterParent shipment)).Linked w := by
  unfold CommentRequest.afterParent
  split <;> exact h

theorem linked_afterAuthor {w : CommentsWorld} (shipment : Shipment) {request : CommentRequest}
    (h : request.parentCommentId ≠ some "") :
    (CommentsCall.service (request.afterAuthor shipment)).Linked w := by
  unfold CommentRequest.afterAuthor
  split
  · exact h
  · rename_i hfalsy
    apply linked_afterParent
    intro id hid
    rw [hid] at hfalsy h
    exact absurd (by simpa [truthyText] using h) hfalsy

/-- The parent of a comment is looked up before the comment is stored. -/
theorem linked_resume (input : NotificationInput) (w : CommentsWorld) (call : CommentsCall)
    (h : call.Linked w) : ∀ next ∈ (call.resume service input w).2,
      next.Linked (call.resume service input w).1 := by
  have hgrow := links_resume service input w call
  cases call with
  | service call =>
      have hmap (calls : List NotificationCall)
          (hcalls : ∀ next ∈ calls, (CommentsCall.service next).Linked w) :
          ∀ next ∈ calls.map CommentsCall.service,
            next.Linked (CommentsCall.resume service input w (.service call)).1 := by
        intro next hnext
        obtain ⟨inner, hinner, rfl⟩ := List.mem_map.mp hnext
        exact (hcalls inner hinner).grow hgrow
      have hquiet (hnone : call.creates = false ∨ ∃ shipment request,
          call = .commentInsert shipment request) :
          ∀ next ∈ (call.resume service input w.base).2, (CommentsCall.service next).Linked w :=
        fun next hnext => linked_of_creates (creates_resume service input w.base hnone next hnext)
      apply hmap
      cases call with
      | comment request =>
          simp only [NotificationCall.resume]
          repeat' split
          · exact List.forall_mem_nil _
          · exact List.forall_mem_nil _
          · exact List.forall_mem_singleton.mpr (linked_afterAuthor _ h)
          · exact List.forall_mem_singleton.mpr h
      | commentOrganizations shipment request =>
          simp only [NotificationCall.resume]
          repeat' split
          · exact List.forall_mem_nil _
          · exact List.forall_mem_singleton.mpr (linked_afterAuthor _ h)
          · exact List.forall_mem_nil _
      | commentParent shipment request =>
          simp only [NotificationCall.resume]
          split
          · exact List.forall_mem_nil _
          · split
            · rename_i hfound
              obtain ⟨parent, hparent, hmatch⟩ := List.any_eq_true.mp hfound
              rw [decide_eq_true_iff] at hmatch
              refine List.forall_mem_singleton.mpr (linked_afterParent _ fun id hid => ?_)
              refine ⟨parent.link, List.mem_map_of_mem hparent, ?_, hmatch.2.1⟩
              exact Option.some.inj (hmatch.1.symm.trans hid)
            · exact List.forall_mem_nil _
      | commentMilestone shipment request =>
          simp only [NotificationCall.resume]
          repeat' split
          · exact List.forall_mem_nil _
          · exact List.forall_mem_singleton.mpr h
          · exact List.forall_mem_nil _
      | commentInsert shipment request => exact hquiet (.inr ⟨shipment, request, rfl⟩)
      | _ => exact hquiet (.inl rfl)
  | _ =>
      simp only [CommentsCall.resume]
      repeat' split
      all_goals first
        | exact List.forall_mem_nil _
        | exact List.forall_mem_singleton.mpr trivial

end Pending

section Runs

variable (service : NotificationsService)

/-- No comment is below itself. -/
theorem Threaded.irrefl {links : List CommentLink} (h : Threaded links)
    (hnodup : (links.map CommentLink.id).Nodup) :
    ∀ link ∈ links, link.parentCommentId ≠ some link.id := by
  induction h with
  | nil => exact List.forall_mem_nil _
  | @snoc links link hlinks hparent ih =>
      rw [List.map_append, List.nodup_append] at hnodup
      refine List.forall_mem_append.mpr ⟨ih hnodup.1, List.forall_mem_singleton.mpr ?_⟩
      intro hself
      obtain ⟨parent, hmem, hsame, -⟩ := hparent link.id hself
      exact hnodup.2.2 _ (List.mem_map_of_mem hmem) _ (List.mem_map_of_mem (.head _)) hsame

/-- A step keeps the parents live exactly if it is allowed. -/
theorem parentsLive_resume {input : NotificationInput} {w : CommentsWorld}
    (hthreaded : Threaded w.links) (hlive : w.ParentsLive) (call : CommentsCall) :
    (call.resume service input w).1.ParentsLive ↔ call.KeepsThreads input w := by
  have hids : (w.links.map CommentLink.id).Nodup := by
    unfold CommentsWorld.links
    rw [List.map_map]
    exact w.base.comments.nodup
  cases rows_resume service input w call with
  | same hrows hkeeps =>
      refine iff_of_true ?_ hkeeps
      unfold CommentsWorld.ParentsLive
      rw [hrows]
      exact hlive
  | @stored shipment request new hcall hdone hfree hlink hnew hrows =>
      subst hcall
      have hparent : new.parentCommentId = request.parentCommentId :=
        congrArg CommentLink.parentCommentId hlink
      unfold CommentsWorld.ParentsLive
      rw [hrows]
      constructor
      · intro h _ _ parent hmem hid
        exact h new (by simp) hnew parent (List.mem_append_left _ hmem) (hparent.trans hid)
      · intro h comment hmem hcomment parent hpmem hid
        rcases List.mem_append.mp hpmem with hold | hlast
        · rcases List.mem_append.mp hmem with hcold | hclast
          · exact hlive comment hcold hcomment parent hold hid
          · obtain rfl := List.mem_singleton.mp hclast
            exact h hdone hfree parent hold (hparent.symm.trans hid)
        · exact .inr (List.mem_singleton.mp hlast ▸ hnew)
  | @deleted commentId time hcall hdone hrows =>
      subst hcall
      unfold CommentsWorld.ParentsLive
      rw [hrows]
      constructor
      · intro h _ comment hmem hid
        by_contra hnot
        rw [not_or] at hnot
        obtain ⟨hreply, hsome⟩ := hnot
        refine hsome fun reply hrmem hrid hrlive => ?_
        -- the reply is another comment, so it stays live
        have hother : reply.id ≠ commentId := by
          intro hsame
          refine hthreaded.irrefl hids reply.link (List.mem_map_of_mem hrmem) ?_
          exact hrid.trans (congrArg some hsame.symm)
        have hkept := h reply (List.mem_map.mpr ⟨reply, hrmem, if_neg hother⟩) hrlive
          { comment with deletedAt := some time } (List.mem_map.mpr ⟨comment, hmem, if_pos hid⟩)
          (hrid.trans (congrArg some hid.symm))
        rcases hkept with hroot | hdeleted
        · exact hreply hroot
        · cases hdeleted
      · intro h comment hmem hcomment parent hpmem hid
        obtain ⟨old, hold, rfl⟩ := List.mem_map.mp hmem
        obtain ⟨above, habove, rfl⟩ := List.mem_map.mp hpmem
        have hother : old.id ≠ commentId := by
          intro hsame
          rw [if_pos hsame] at hcomment
          cases hcomment
        rw [if_neg hother] at hcomment hid
        by_cases hdeleted : above.id = commentId
        · rw [if_pos hdeleted] at hid ⊢
          rcases h hdone above habove hdeleted with hroot | hnone
          · exact .inl hroot
          · exact absurd hcomment (hnone old hold (hdeleted ▸ hid))
        · rw [if_neg hdeleted] at hid ⊢
          exact hlive old hold hcomment above habove hid

structure CommentsInv (s : CommentsPool) : Prop where
  threaded : Threaded s.shared.links
  pending : ∀ call ∈ s.inflight, call.Linked s.shared

theorem threaded_resume {input : NotificationInput} {w : CommentsWorld} {call : CommentsCall}
    (hthreaded : Threaded w.links) (hlinked : call.Linked w) :
    Threaded (call.resume service input w).1.links := by
  unfold CommentsWorld.links at hthreaded ⊢
  cases rows_resume service input w call with
  | same hrows => rwa [hrows]
  | stored hcall _ _ hlink _ hrows =>
      subst hcall
      rw [hrows, List.map_append, List.map_singleton, hlink]
      exact .snoc hthreaded hlinked
  | deleted _ _ hrows => rwa [hrows, map_link_deleted]

theorem threadLinked_of_starts {w : CommentsWorld} {call : CommentsCall} (h : call.starts = true) :
    call.Linked w := by
  cases call with
  | service call =>
      cases call with
      | comment request =>
          change request.parentCommentId ≠ some ""
          simpa [CommentsCall.starts] using h
      | commentOrganizations shipment request => cases h
      | commentParent shipment request => cases h
      | commentMilestone shipment request => cases h
      | commentInsert shipment request => cases h
      | _ => trivial
  | _ => trivial

theorem commentsInv_step (s : CommentsPool) (a : CommentsAction) (h : CommentsInv s) :
    CommentsInv ((comments service).step s a) := by
  have hkeeps := (comments service).keeps_step (Q := fun w => Threaded w.links)
    (P := fun w call => call.Linked w) a h.threaded h.pending
    (fun call _ hstart => threadLinked_of_starts hstart)
    (fun index input call _ hcall => by
      have hlinked := h.pending call (List.mem_of_getElem? hcall)
      exact ⟨threaded_resume service h.threaded hlinked,
        linked_resume service input s.shared call hlinked,
        fun other hmem => (h.pending other (List.mem_of_mem_eraseIdx hmem)).grow
          (links_resume service input s.shared call)⟩)
    (fun event => by
      have hlinks : (event.apply s.shared).links = s.shared.links := by cases event <;> rfl
      exact ⟨hlinks.symm ▸ h.threaded, fun other hmem => (h.pending other hmem).grow
        (hlinks.symm ▸ List.prefix_rfl)⟩)
  exact ⟨hkeeps.1, hkeeps.2⟩

/-- No step deletes a reply that has a live reply, or stores a reply below a deleted one. -/
def KeepsThreads (s : CommentsPool) : CommentsAction → Prop
  | .resume index input => ∀ call ∈ s.inflight[index]?, call.KeepsThreads input s.shared
  | _ => True

instance (s : CommentsPool) : (a : CommentsAction) → Decidable (KeepsThreads s a)
  | .resume index input =>
      inferInstanceAs (Decidable (∀ call ∈ s.inflight[index]?, call.KeepsThreads input s.shared))
  | .begin _ | .crash _ | .external _ => inferInstanceAs (Decidable True)

theorem parentsLive_step (s : CommentsPool) (a : CommentsAction) (hinv : CommentsInv s)
    (hlive : s.shared.ParentsLive) :
    ((comments service).step s a).shared.ParentsLive ↔ KeepsThreads s a := by
  cases a with
  | begin call =>
      refine iff_of_true ?_ trivial
      simp only [PoolSystem.step]
      split <;> exact hlive
  | crash index => exact iff_of_true hlive trivial
  | external event => exact iff_of_true (by cases event <;> exact hlive) trivial
  | resume index input =>
      cases hcall : s.inflight[index]? with
      | none =>
          refine iff_of_true (by simpa only [PoolSystem.step, hcall] using hlive) ?_
          intro call hmem
          rw [hcall] at hmem
          cases hmem
      | some call =>
          have hstep : ((comments service).step s (.resume index input)).shared =
              (call.resume service input s.shared).1 := by
            simp only [PoolSystem.step, hcall, comments]
          rw [hstep, parentsLive_resume service hinv.threaded hlive]
          constructor
          · intro h other hother
            cases hcall.symm.trans hother
            exact h
          · intro h
            exact h call hcall

/-- From no comments on, whatever else is stored: all along a run every reader comes to every
live comment that he may see with all comments above it, if and only if no step deletes a reply
that has a live reply or stores one below a deleted reply. -/
theorem nothing_stranded_iff {w : CommentsWorld} (hempty : w.rows = [])
    (actions : List CommentsAction) :
    (∀ pre post, actions = pre ++ post → ∀ other, ((CommentsEvent.edit other).apply
        ((comments service).run pre ⟨w, []⟩).shared).NoneStranded) ↔
      Along (comments service).step KeepsThreads ⟨w, []⟩ actions := by
  have hinit : CommentsInv ⟨w, []⟩ := by
    refine ⟨?_, List.forall_mem_nil _⟩
    unfold CommentsWorld.links
    rw [hempty]
    exact .nil
  have hgood : w.ParentsLive := by
    intro comment hmem
    rw [hempty] at hmem
    cases hmem
  have hinv (pre : List CommentsAction) : CommentsInv ((comments service).run pre ⟨w, []⟩) :=
    List.foldlRecOn pre _ hinit fun s hs a _ => commentsInv_step service s a hs
  have hrun : (∀ pre post, actions = pre ++ post →
      ((comments service).run pre ⟨w, []⟩).shared.ParentsLive) ↔
        Along (comments service).step KeepsThreads ⟨w, []⟩ actions :=
    along_iff_property (commentsInv_step service) (parentsLive_step service) hinit hgood actions
  rw [← hrun]
  refine forall_congr' fun pre => forall_congr' fun post => imp_congr_right fun _ => ?_
  exact noneStranded_iff (hinv pre).threaded

/-- A shipment, an administrator, and no comments. -/
def threadWorld : CommentsWorld where
  base := { notificationsOf uma 20 with
    users := Table.empty.insert { newAccount "admin" "GADMIN" with role := .admin }
    shipments := Table.empty.insert mentionShipment }
  pinnedAt := fun _ => none
  replies := []

/-- The buyer posts a comment or a reply, whose notifications are lost. -/
def postingComment (id : String) (parentCommentId : Option String) : List CommentsAction :=
  .begin (.service (.comment ⟨"SHIP-1", "bo", "GBUYER", "Text", none, parentCommentId, none⟩)) ::
    (List.replicate (if parentCommentId.isSome then 3 else 2) (.resume 0 ⟨false, id, .sent⟩) ++
      [.crash 0, .crash 0])

def removing (id : String) : List CommentsAction :=
  .begin (.remove "SHIP-1" id "bo" "GBUYER") :: List.replicate 3 (.resume 0 calmInput)

def thread : List CommentsAction :=
  postingComment "c-1" none ++ postingComment "c-2" (some "c-1") ++ postingComment "c-3" (some "c-2")

/-- The root of a thread is deleted, and its last reply. -/
theorem thread_reached :
    ((CommentsEvent.edit threadWorld.base).apply
      ((comments plainNotifications).run (thread ++ removing "c-1" ++ removing "c-3")
        ⟨threadWorld, []⟩).shared).NoneStranded :=
  (nothing_stranded_iff plainNotifications rfl (thread ++ removing "c-1" ++ removing "c-3")).mpr
    (by decide) _ [] (List.append_nil _).symm threadWorld.base

/-- The reply in the middle is deleted. -/
theorem reply_stranded :
    ¬ ((comments plainNotifications).run (thread ++ removing "c-2")
      ⟨threadWorld, []⟩).shared.NoneStranded := by
  intro h
  have hall (visibility : CommentVisibility) :
      visibility ∈ buildVisibilityFilter "GADMIN" mentionShipment true := by
    cases visibility <;> decide
  have hreached := h "SHIP-1" "GADMIN" mentionShipment true rfl
    ⟨"c-3", "SHIP-1", "bo", "Text", .all, some "c-2", none, 20, none⟩ (by decide) rfl rfl (hall _)
    (fun other _ => hall _) 1 Nat.one_pos
  have hdeleted : (⟨"c-2", "SHIP-1", "bo", "Text", .all, some "c-1", none, 20, some 20⟩ :
      ShipmentComment) ∈ ((comments plainNotifications).run (thread ++ removing "c-2")
        ⟨threadWorld, []⟩).shared.rows := by decide
  exact not_reached (by decide) hdeleted rfl nofun nofun hreached

end Runs

end ChainSettle
