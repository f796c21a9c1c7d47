import ChainSettle.Notifications.Preferences
import ChainSettle.Semantics.Comments

/-!
Who is notified of a comment, against who may read it. The participants that are notified of
a comment follow from its visibility; a mention is looked up among all participants.

Which comments a reader comes to, page after page and reply after reply. Replies are only
returned while they are not deleted, and a deleted root only while it has a reply that is
returned. A comment is reached as long as every comment above it, but for the root, is live.
-/

namespace ChainSettle

open Lib

namespace NotificationWorld

variable (w : NotificationWorld)

def isAdminAddress (address : String) : Bool :=
  (w.users.rows.find? fun user => user.stellarAddress = address).any fun user =>
    user.role = .admin

/-- A participant or an administrator, whose visibility filter has the visibility of the
comment. -/
structure Reads (shipment : Shipment) (address : String) (visibility : CommentVisibility) :
    Prop where
  enters : w.isAdminAddress address ∨ address ∈ shipment.participants
  sees : visibility ∈ buildVisibilityFilter address shipment (w.isAdminAddress address)

end NotificationWorld

/-- The calls of `notifyUser` that a step leaves. -/
def NotificationCall.tasks : NotificationCall → List NotifyTask
  | .notify tasks => tasks
  | _ => []

section Recipients

variable {shipment : Shipment} {comment : ShipmentComment} {authorAddress address : String}

theorem mem_participantTasks_iff :
    address ∈ (participantTasks shipment comment authorAddress).map NotifyTask.stellarAddress ↔
      address ≠ authorAddress ∧
        ((comment.visibility ≠ .internal ∧
            (address = shipment.buyerAddress ∨ address = shipment.supplierAddress)) ∨
          comment.visibility ≠ .buyerSupplier ∧
            (address = shipment.logisticsAddress ∨ address = shipment.arbiterAddress)) := by
  unfold participantTasks
  rw [List.map_map]
  simp only [Function.comp_def, List.map_id', List.mem_filter, List.mem_eraseDups,
    List.mem_append, decide_eq_true_eq]
  rw [and_comm]
  cases comment.visibility <;> simp [or_assoc]

/-- Who is notified as a participant reads the comment. -/
theorem participant_reads (w : NotificationWorld)
    (h : address ∈ (participantTasks shipment comment authorAddress).map
      NotifyTask.stellarAddress) : w.Reads shipment address comment.visibility := by
  obtain ⟨-, hparty⟩ := mem_participantTasks_iff.mp h
  refine ⟨.inr ?_, ?_⟩
  · unfold Shipment.participants
    rcases hparty with ⟨-, rfl | rfl⟩ | ⟨-, rfl | rfl⟩ <;> simp
  · unfold buildVisibilityFilter
    split
    · cases comment.visibility <;> decide
    · rcases hparty with ⟨hvisibility, hparty⟩ | ⟨hvisibility, hparty⟩ <;>
        cases hsame : comment.visibility <;> simp_all

theorem mem_mentionTasks_iff :
    address ∈ (mentionTasks shipment comment authorAddress).map NotifyTask.stellarAddress ↔
      address ∈ addressMatches comment.body.toList.length comment.body.toList ∧
        address ∈ shipment.participants ∧ address ≠ authorAddress := by
  unfold mentionTasks
  rw [List.map_map]
  simp [Function.comp_def, List.mem_filter, List.mem_eraseDups]

end Recipients

/-- Whatever comment is stored, everyone who is notified of it may read it if and only if every
participant mentioned in it, other than its author, may see its visibility. -/
theorem notified_read_iff_mentions_see (service : NotificationsService)
    {input : NotificationInput} {w : NotificationWorld} (hdone : input.thrown = false)
    (hid : w.comments.find? input.id = none) (shipment : Shipment) (request : CommentRequest) :
    let visibility := request.visibility.getD .all
    (∀ call ∈ ((NotificationCall.commentInsert shipment request).resume service input w).2,
        ∀ task ∈ call.tasks, w.Reads shipment task.stellarAddress visibility) ↔
      ∀ address ∈ addressMatches request.body.toList.length request.body.toList,
        address ∈ shipment.participants → address ≠ request.authorAddress →
          visibility ∈ buildVisibilityFilter address shipment (w.isAdminAddress address) := by
  intro visibility
  have hstored : ¬ (input.thrown = true ∨ (w.comments.find? input.id).isSome = true) := by
    simp [hdone, hid]
  simp only [NotificationCall.resume, if_neg hstored]
  simp only [List.forall_mem_cons, NotificationCall.tasks, List.forall_mem_append]
  constructor
  · rintro ⟨-, ⟨-, hmentions⟩, -⟩ address hmatch hparticipant hauthor
    have haddresses := (List.forall_mem_map (f := NotifyTask.stellarAddress)
      (P := fun a => visibility ∈ buildVisibilityFilter a shipment (w.isAdminAddress a))).mpr
      fun task htask => (hmentions task htask).sees
    exact haddresses address (mem_mentionTasks_iff.mpr ⟨hmatch, hparticipant, hauthor⟩)
  · intro h
    refine ⟨List.forall_mem_nil _, ⟨fun task htask => ?_, fun task htask => ?_⟩,
      List.forall_mem_nil _⟩
    · exact participant_reads w (List.mem_map_of_mem htask)
    · obtain ⟨hmatch, hparticipant, hauthor⟩ := mem_mentionTasks_iff.mp (List.mem_map_of_mem htask)
      exact ⟨.inr hparticipant, h _ hmatch hparticipant hauthor⟩

/-- A shipment whose arbiter has a Stellar address of full length. -/
def mentionShipment : Shipment :=
  ⟨"SHIP-1", "GBUYER", "GSUPPLIER", "GLOGISTICS", 0, .active, none, none, none, 1000, none, 7,
    "GARBITER000000000000000000000000000000000000000000000000", .accepted, "CUSDC", "USDC", none,
    false⟩

/-- The buyer mentions the arbiter. -/
def mentionRequest (visibility : CommentVisibility) : CommentRequest :=
  ⟨"SHIP-1", "bo", "GBUYER", "@GARBITER000000000000000000000000000000000000000000000000",
    some visibility, none, none⟩

/-- The arbiter may see an internal comment that mentions him. -/
theorem internal_mention_read :
    mentionShipment.arbiterAddress ∈ mentionShipment.participants ∧
      ∀ call ∈ ((NotificationCall.commentInsert mentionShipment (mentionRequest .internal)).resume
          plainNotifications ⟨false, "c-1", .sent⟩ (notificationsOf uma 20)).2,
        ∀ task ∈ call.tasks,
          (notificationsOf uma 20).Reads mentionShipment task.stellarAddress .internal := by
  refine ⟨by decide, ?_⟩
  exact (notified_read_iff_mentions_see plainNotifications rfl rfl mentionShipment
    (mentionRequest .internal)).mpr (by decide)

theorem arbiter_notified_unread :
    ¬ ∀ call ∈ ((NotificationCall.commentInsert mentionShipment
        (mentionRequest .buyerSupplier)).resume plainNotifications ⟨false, "c-1", .sent⟩
          (notificationsOf uma 20)).2,
      ∀ task ∈ call.tasks,
        (notificationsOf uma 20).Reads mentionShipment task.stellarAddress .buyerSupplier := by
  intro h
  have hmention : mentionShipment.arbiterAddress ∈ (mentionTasks mentionShipment
      ⟨"c-1", "SHIP-1", "bo", (mentionRequest .buyerSupplier).body, .buyerSupplier, none, none, 20,
        none⟩ "GBUYER").map NotifyTask.stellarAddress :=
    mem_mentionTasks_iff.mpr (by decide)
  obtain ⟨task, htask, haddress⟩ := List.mem_map.mp hmention
  have hreads := h _ (.tail _ (.head _)) task (List.mem_append_right _ htask)
  rw [haddress] at hreads
  exact absurd hreads.sees (by decide)

namespace CommentsWorld

variable (w : CommentsWorld)

def IsParent (parent comment : ShipmentComment) : Prop :=
  parent ∈ w.rows ∧ comment.parentCommentId = some parent.id

def Ancestor : ShipmentComment → ShipmentComment → Prop :=
  Relation.TransGen w.IsParent

/-- The comments that a reader comes to from the pages of `findAll`, by the pages of
`findReplies` of what is returned. -/
inductive Reached (shipmentId address : String) (limit : Nat) : String → Prop
  | root {page : Nat} {result : CommentPage} {view : CommentView} (hpage : 1 ≤ page)
      (hfound : w.findAll shipmentId address page limit none = .ok result)
      (hview : view ∈ result.data) : Reached shipmentId address limit view.comment.id
  | reply {commentId : String} {page : Nat} {result : CommentPage} {view : CommentView}
      (hparent : Reached shipmentId address limit commentId) (hpage : 1 ≤ page)
      (hfound : w.findReplies shipmentId commentId address page limit = .ok result)
      (hview : view ∈ result.data) : Reached shipmentId address limit view.comment.id

/-- Every reader comes to every live comment that he may see with all comments above it. -/
def NoneStranded : Prop :=
  ∀ shipmentId address shipment isAdmin,
    w.loadForRead shipmentId address = .ok (shipment, isAdmin) →
    ∀ comment ∈ w.rows, comment.shipmentId = shipmentId → comment.deletedAt = none →
      comment.visibility ∈ buildVisibilityFilter address shipment isAdmin →
      (∀ other, w.Ancestor other comment →
        other.visibility ∈ buildVisibilityFilter address shipment isAdmin) →
      ∀ limit, 0 < limit → w.Reached shipmentId address limit comment.id

/-- A live reply to a reply has a live parent. -/
def ParentsLive : Prop :=
  ∀ comment ∈ w.rows, comment.deletedAt = none → ∀ parent ∈ w.rows,
    comment.parentCommentId = some parent.id →
      parent.parentCommentId = none ∨ parent.deletedAt = none

end CommentsWorld

section Links

/-- What never changes of a comment. -/
structure CommentLink where
  id : String
  shipmentId : String
  parentCommentId : Option String

def ShipmentComment.link (comment : ShipmentComment) : CommentLink :=
  ⟨comment.id, comment.shipmentId, comment.parentCommentId⟩

def CommentsWorld.links (w : CommentsWorld) : List CommentLink :=
  w.rows.map ShipmentComment.link

/-- Comments that were stored one after the other, each below one that was there. -/
inductive Threaded : List CommentLink → Prop
  | nil : Threaded []
  | snoc {links : List CommentLink} {link : CommentLink} (hlinks : Threaded links)
      (hparent : ∀ id, link.parentCommentId = some id →
        ∃ parent ∈ links, parent.id = id ∧ parent.shipmentId = link.shipmentId) :
      Threaded (links ++ [link])

/-- Induction from the roots to the replies. -/
theorem Threaded.induct {w : CommentsWorld} (h : Threaded w.links)
    {motive : ShipmentComment → Prop}
    (root : ∀ comment ∈ w.rows, comment.parentCommentId = none → motive comment)
    (reply : ∀ parent ∈ w.rows, ∀ comment ∈ w.rows, comment.parentCommentId = some parent.id →
      comment.shipmentId = parent.shipmentId → motive parent → motive comment) :
    ∀ comment ∈ w.rows, motive comment := by
  suffices hprefix : ∀ links, Threaded links → links <+: w.links → ∀ comment ∈ w.rows,
      comment.link ∈ links → motive comment from fun comment hmem =>
    hprefix w.links h List.prefix_rfl comment hmem (List.mem_map_of_mem hmem)
  intro links hlinks
  induction hlinks with
  | nil =>
      intro _ comment _ hlink
      cases hlink
  | @snoc links link hlinks hparent ih =>
      intro hpre comment hmem hlink
      have hshorter : links <+: w.links := (List.prefix_append links [link]).trans hpre
      rcases List.mem_append.mp hlink with hold | hnew
      · exact ih hshorter comment hmem hold
      · obtain rfl := List.mem_singleton.mp hnew
        cases hid : comment.parentCommentId with
        | none => exact root comment hmem hid
        | some id =>
            obtain ⟨above, habove, rfl, hshipment⟩ := hparent id hid
            obtain ⟨parent, hrow, rfl⟩ := List.mem_map.mp (hshorter.subset habove)
            exact reply parent hrow comment hmem hid hshipment.symm
              (ih hshorter parent hrow habove)

end Links

section Reaching

variable {w : CommentsWorld} {shipmentId address : String} {limit : Nat} {shipment : Shipment}
  {isAdmin : Bool}

open CommentsWorld

theorem reached_root (hload : w.loadForRead shipmentId address = .ok (shipment, isAdmin))
    (hlimit : 0 < limit) {comment : ShipmentComment}
    (h : comment ∈ w.roots shipmentId (buildVisibilityFilter address shipment isAdmin) none) :
    w.Reached shipmentId address limit comment.id := by
  obtain ⟨page, hpage, -, hmem⟩ := exists_page h hlimit
  have hfound : w.findAll shipmentId address page limit none = .ok (paginate
      (w.roots shipmentId (buildVisibilityFilter address shipment isAdmin) none) page limit
      fun comment => w.redactIfDeleted comment (some (w.visibleReplies
        (buildVisibilityFilter address shipment isAdmin) comment).length)) := by
    unfold findAll
    rw [hload]
    rfl
  exact .root hpage hfound (List.mem_map_of_mem hmem)

theorem reached_reply (hload : w.loadForRead shipmentId address = .ok (shipment, isAdmin))
    (hlimit : 0 < limit) {parent comment : ShipmentComment} (hrow : parent ∈ w.rows)
    (hshipment : parent.shipmentId = shipmentId)
    (hvisible : parent.visibility ∈ buildVisibilityFilter address shipment isAdmin)
    (hparent : w.Reached shipmentId address limit parent.id)
    (h : comment ∈ w.repliesTo shipmentId parent.id
      (buildVisibilityFilter address shipment isAdmin)) :
    w.Reached shipmentId address limit comment.id := by
  obtain ⟨page, hpage, -, hmem⟩ := exists_page h hlimit
  have hfound : w.findReplies shipmentId parent.id address page limit = .ok (paginate
      (w.repliesTo shipmentId parent.id (buildVisibilityFilter address shipment isAdmin)) page limit
      fun comment => w.redactIfDeleted comment none) := by
    have hsome : (w.rows.find? fun comment => decide (comment.id = parent.id ∧
        comment.shipmentId = shipmentId ∧
          comment.visibility ∈ buildVisibilityFilter address shipment isAdmin)).isNone = false := by
      rw [Option.isNone_eq_false_iff, List.find?_isSome]
      exact ⟨parent, hrow, by simp [hshipment, hvisible]⟩
    unfold findReplies
    rw [hload]
    simp only [bind, Except.bind, hsome]
    rfl
  exact .reply hparent hpage hfound (List.mem_map_of_mem hmem)

/-- While no reply is deleted above a live one, nothing is stranded. -/
theorem noneStranded_of_parentsLive (hthreaded : Threaded w.links) (hlive : w.ParentsLive) :
    w.NoneStranded := by
  intro shipmentId address shipment isAdmin hload
  set visibility := buildVisibilityFilter address shipment isAdmin with hvisibility
  -- by induction on the thread: live comments, and deleted roots with a visible reply
  suffices hboth : ∀ comment ∈ w.rows, comment.shipmentId = shipmentId →
      comment.visibility ∈ visibility →
      (∀ other, w.Ancestor other comment → other.visibility ∈ visibility) →
      ∀ limit, 0 < limit →
      (comment.deletedAt = none ∨
        comment.parentCommentId = none ∧ w.visibleReplies visibility comment ≠ []) →
      w.Reached shipmentId address limit comment.id by
    intro comment hrow hshipment hdeleted hvisible habove limit hlimit
    exact hboth comment hrow hshipment hvisible habove limit hlimit (.inl hdeleted)
  refine hthreaded.induct ?_ ?_
  · intro comment hrow hroot hshipment hvisible _ limit hlimit hreached
    apply reached_root hload hlimit
    unfold roots
    rw [List.mem_insertionSort, List.mem_filter]
    refine ⟨hrow, ?_⟩
    simp only [decide_eq_true_eq, Option.all_none, true_and]
    exact ⟨hshipment, hroot, hvisible, hreached.imp_right And.right⟩
  · intro parent hparent comment hrow hid hsame ih hshipment hvisible habove limit hlimit hreached
    have hdeleted : comment.deletedAt = none := by
      rcases hreached with hdeleted | ⟨hroot, -⟩
      · exact hdeleted
      · rw [hid] at hroot
        cases hroot
    have hdirect : w.IsParent parent comment := ⟨hparent, hid⟩
    have hreturned : comment ∈ w.visibleReplies visibility parent := by
      unfold visibleReplies
      rw [List.mem_filter]
      exact ⟨hrow, by simp [hid, hdeleted, hvisible]⟩
    have hpvisible := habove parent (.single hdirect)
    have hpreached : w.Reached shipmentId address limit parent.id := by
      refine ih (hsame ▸ hshipment) hpvisible (fun other hother => habove other (hother.tail hdirect))
        limit hlimit ?_
      rcases hlive comment hrow hdeleted parent hparent hid with hroot | hplive
      · exact .inr ⟨hroot, List.ne_nil_of_mem hreturned⟩
      · exact .inl hplive
    refine reached_reply hload hlimit hparent (hsame ▸ hshipment) hpvisible hpreached ?_
    unfold repliesTo
    rw [List.mem_insertionSort, List.mem_filter]
    exact ⟨hrow, by simpa [hshipment, hid, hdeleted] using hvisible⟩

/-- What is returned is a root, or a live reply to something returned before. -/
theorem reached_cases {id : String} (h : w.Reached shipmentId address limit id) :
    ∃ comment ∈ w.rows, comment.id = id ∧ (comment.parentCommentId = none ∨
      comment.deletedAt = none ∧ ∃ parentId, comment.parentCommentId = some parentId ∧
        w.Reached shipmentId address limit parentId) := by
  cases h with
  | @root page result view hpage hfound hview =>
      unfold findAll at hfound
      cases hload : w.loadForRead shipmentId address with
      | error refusal =>
          rw [hload] at hfound
          cases hfound
      | ok found =>
          rw [hload] at hfound
          obtain rfl := Except.ok.inj hfound
          obtain ⟨comment, hmem, rfl⟩ := List.mem_map.mp hview
          have hroots := List.mem_of_mem_drop (List.mem_of_mem_take hmem)
          unfold roots at hroots
          rw [List.mem_insertionSort, List.mem_filter, decide_eq_true_iff] at hroots
          exact ⟨comment, hroots.1, rfl, .inl hroots.2.2.1⟩
  | @reply parentId page result view hparent hpage hfound hview =>
      unfold findReplies at hfound
      cases hload : w.loadForRead shipmentId address with
      | error refusal =>
          rw [hload] at hfound
          cases hfound
      | ok found =>
          rw [hload] at hfound
          simp only [bind, Except.bind] at hfound
          split at hfound
          · cases hfound
          · obtain rfl := Except.ok.inj hfound
            obtain ⟨comment, hmem, rfl⟩ := List.mem_map.mp hview
            have hreplies := List.mem_of_mem_drop (List.mem_of_mem_take hmem)
            unfold repliesTo at hreplies
            rw [List.mem_insertionSort, List.mem_filter, decide_eq_true_iff] at hreplies
            exact ⟨comment, hreplies.1, rfl,
              .inr ⟨hreplies.2.2.2.1, parentId, hreplies.2.2.1, hparent⟩⟩

/-- Nobody comes to a reply of a deleted reply. -/
theorem not_reached {comment parent : ShipmentComment} (hrow : comment ∈ w.rows)
    (hparent : parent ∈ w.rows) (hid : comment.parentCommentId = some parent.id)
    (hreply : parent.parentCommentId ≠ none) (hdeleted : parent.deletedAt ≠ none) :
    ¬ w.Reached shipmentId address limit comment.id := by
  have hunique {other row : ShipmentComment} (hother : other ∈ w.rows) (hmem : row ∈ w.rows)
      (hsame : other.id = row.id) : other = row :=
    List.inj_on_of_nodup_map w.base.comments.nodup hother hmem hsame
  intro hreached
  obtain ⟨row, hmem, hsame, hroot | ⟨-, parentId, hparentId, habove⟩⟩ := reached_cases hreached
  · rw [hunique hmem hrow hsame, hid] at hroot
    cases hroot
  · rw [hunique hmem hrow hsame, hid] at hparentId
    obtain rfl := Option.some.inj hparentId
    obtain ⟨above, habovemem, habovesame, hroot | ⟨hlive, -⟩⟩ := reached_cases habove
    · exact hreply (hunique habovemem hparent habovesame ▸ hroot)
    · exact hdeleted (hunique habovemem hparent habovesame ▸ hlive)

/-- A world of an administrator and a shipment. -/
def adminsWorld (base : NotificationWorld) (shipmentId : String) : NotificationWorld :=
  { base with
    users := Table.empty.insert { newAccount "admin" "GADMIN" with role := .admin }
    shipments := Table.empty.insert { mentionShipment with id := shipmentId } }

/-- A live reply below a deleted one is stranded for an administrator. -/
theorem parentsLive_of_noneStranded
    (h : ∀ other, ((CommentsEvent.edit other).apply w).NoneStranded) : w.ParentsLive := by
  intro comment hrow hdeleted parent hparent hid
  by_contra hstranded
  rw [not_or] at hstranded
  have hload : ((CommentsEvent.edit (adminsWorld w.base comment.shipmentId)).apply w).loadForRead
      comment.shipmentId "GADMIN" =
        .ok ({ mentionShipment with id := comment.shipmentId }, true) := by
    have hfind : ((CommentsEvent.edit (adminsWorld w.base comment.shipmentId)).apply
        w).base.shipments.find? comment.shipmentId =
          some { mentionShipment with id := comment.shipmentId } := by
      change (Table.empty.insert { mentionShipment with id := comment.shipmentId }).find?
        comment.shipmentId = _
      rw [Table.find?_insert, if_pos rfl]
      rfl
    unfold loadForRead
    rw [hfind]
    rfl
  have hall (visibility : CommentVisibility) :
      visibility ∈ buildVisibilityFilter "GADMIN"
        { mentionShipment with id := comment.shipmentId } true := by
    cases visibility <;> simp [buildVisibilityFilter]
  have hreached := h _ comment.shipmentId "GADMIN" _ true hload comment hrow rfl hdeleted
    (hall _) (fun other _ => hall _) 1 Nat.one_pos
  exact not_reached (w := (CommentsEvent.edit (adminsWorld w.base comment.shipmentId)).apply w)
    hrow hparent hid hstranded.1 hstranded.2 hreached

/-- Whatever else is stored, nothing is stranded if and only if every live reply has a live
parent or a root above it. -/
theorem noneStranded_iff (hthreaded : Threaded w.links) :
    (∀ other, ((CommentsEvent.edit other).apply w).NoneStranded) ↔ w.ParentsLive :=
  ⟨parentsLive_of_noneStranded, fun h _ => noneStranded_of_parentsLive hthreaded h⟩

end Reaching

end ChainSettle
