import ChainSettle.Semantics.Notifications

/-!
The rest of `CommentsService`. Comments are read in pages, pinned and deleted; a deleted
comment keeps its row. Pinning and deleting are calls beside those of `create`, suspended before
each of their statements.

Nothing else writes `shipment_comments`. Rows that compare equal come in the order of their table.
-/

namespace ChainSettle

open Lib

/-- Maximum number of pinned comments allowed per shipment. -/
def MAX_PINNED_COMMENTS : Nat := 3

inductive CommentsReply where
  | pinned (comment : ShipmentComment) (pinnedAt : Option Nat)
  | removed

/-- The tables, with the column `pinnedAt` of `shipment_comments` beside its rows. -/
structure CommentsWorld where
  base : NotificationWorld
  pinnedAt : String → Option Nat
  replies : List (Except HttpError CommentsReply)

/-- A comment as it is returned; that of a deleted one has no body. -/
structure CommentView where
  comment : ShipmentComment
  body : Option String
  pinnedAt : Option Nat
  deleted : Bool
  replyCount : Option Nat

structure CommentPage where
  data : List CommentView
  total : Nat
  page : Nat
  limit : Nat
  totalPages : Nat

namespace CommentsWorld

variable (w : CommentsWorld)

def rows : List ShipmentComment := w.base.comments.rows

def reply (answer : Except HttpError CommentsReply) : CommentsWorld :=
  { w with replies := answer :: w.replies }

def requester (address : String) : Option Account :=
  w.base.users.rows.find? fun user => user.stellarAddress = address

/-- The shipment, and whether the reader is an administrator. -/
def loadForRead (shipmentId requesterAddress : String) : Except HttpError (Shipment × Bool) :=
  match w.base.shipments.find? shipmentId with
  | none => .error ⟨404, s!"Shipment {shipmentId} not found"⟩
  | some shipment =>
      let requester := w.requester requesterAddress
      let isAdmin := requester.any fun user => user.role = .admin
      if isAdmin = false ∧ requesterAddress ∉ shipment.participants ∧
          requester.any (fun user => (w.base.shipmentOrgRank user.id shipment).isSome) = false then
        .error ⟨403, "Only shipment participants can read comments"⟩
      else .ok (shipment, isAdmin)

def redactIfDeleted (comment : ShipmentComment) (replyCount : Option Nat) : CommentView where
  comment := comment
  body := if comment.deletedAt.isSome then none else some comment.body
  pinnedAt := w.pinnedAt comment.id
  deleted := comment.deletedAt.isSome
  replyCount := replyCount

/-- `replies: { where: visibleReplies }` -/
def visibleReplies (visibility : List CommentVisibility) (comment : ShipmentComment) :
    List ShipmentComment :=
  w.rows.filter fun reply =>
    reply.parentCommentId = some comment.id ∧ reply.deletedAt = none ∧ reply.visibility ∈ visibility

/-- Pinned comments sort first, by `pinnedAt`, then the rest chronologically. -/
def RootBefore (a b : ShipmentComment) : Prop :=
  match w.pinnedAt a.id, w.pinnedAt b.id with
  | some p, some q => p < q ∨ p = q ∧ a.createdAt ≤ b.createdAt
  | some _, none => True
  | none, some _ => False
  | none, none => a.createdAt ≤ b.createdAt

instance (a b : ShipmentComment) : Decidable (w.RootBefore a b) := by
  unfold RootBefore
  split <;> infer_instance

/-- `skip: (page - 1) * limit, take: limit` -/
def paginate (found : List ShipmentComment) (page limit : Nat)
    (view : ShipmentComment → CommentView) : CommentPage where
  data := ((found.drop ((page - 1) * limit)).take limit).map view
  total := found.length
  page := page
  limit := limit
  totalPages := (found.length + limit - 1) / limit

def roots (shipmentId : String) (visibility : List CommentVisibility)
    (milestoneIndex : Option Int) : List ShipmentComment :=
  let found := w.rows.filter fun comment =>
    comment.shipmentId = shipmentId ∧ comment.parentCommentId = none ∧
      (milestoneIndex.all fun index => comment.milestoneIndex = some index) ∧
      comment.visibility ∈ visibility ∧
      (comment.deletedAt = none ∨ w.visibleReplies visibility comment ≠ [])
  found.insertionSort w.RootBefore

def findAll (shipmentId requesterAddress : String) (page limit : Nat)
    (milestoneIndex : Option Int) : Except HttpError CommentPage := do
  let (shipment, isAdmin) ← w.loadForRead shipmentId requesterAddress
  let visibility := buildVisibilityFilter requesterAddress shipment isAdmin
  return paginate (w.roots shipmentId visibility milestoneIndex) page limit fun comment =>
    w.redactIfDeleted comment (some (w.visibleReplies visibility comment).length)

def repliesTo (shipmentId commentId : String) (visibility : List CommentVisibility) :
    List ShipmentComment :=
  let found := w.rows.filter fun comment =>
    comment.shipmentId = shipmentId ∧ comment.parentCommentId = some commentId ∧
      comment.deletedAt = none ∧ comment.visibility ∈ visibility
  found.insertionSort fun a b => a.createdAt ≤ b.createdAt

def findReplies (shipmentId commentId requesterAddress : String) (page limit : Nat) :
    Except HttpError CommentPage := do
  let (shipment, isAdmin) ← w.loadForRead shipmentId requesterAddress
  let visibility := buildVisibilityFilter requesterAddress shipment isAdmin
  let parent := w.rows.find? fun comment =>
    comment.id = commentId ∧ comment.shipmentId = shipmentId ∧ comment.visibility ∈ visibility
  if parent.isNone then throw ⟨404, s!"Comment {commentId} not found"⟩
  return paginate (w.repliesTo shipmentId commentId visibility) page limit fun comment =>
    w.redactIfDeleted comment none

/-- `findFirst` of a comment that is not deleted. -/
def liveComment (shipmentId commentId : String) : Option ShipmentComment :=
  w.rows.find? fun comment =>
    comment.id = commentId ∧ comment.shipmentId = shipmentId ∧ comment.deletedAt = none

/-- The comments that count against `MAX_PINNED_COMMENTS`. -/
def pinnedComments (shipmentId : String) : List ShipmentComment :=
  w.rows.filter fun comment =>
    comment.shipmentId = shipmentId ∧ (w.pinnedAt comment.id).isSome ∧ comment.deletedAt = none

end CommentsWorld

section Calls

inductive CommentsCall where
  /-- `create` and the notifications of it -/
  | service (call : NotificationCall)
  | setPinned (shipmentId commentId : String) (pinned : Bool)
  | countPinned (shipmentId commentId : String)
  | writePinned (shipmentId commentId : String) (pinned : Bool)
  | remove (shipmentId commentId requesterId requesterAddress : String)
  | removeAuthor (comment : ShipmentComment) (requesterId requesterAddress : String)
  | removeWrite (commentId : String)

def CommentsCall.resume (service : NotificationsService) (input : NotificationInput)
    (w : CommentsWorld) : CommentsCall → CommentsWorld × List CommentsCall
  | .service call =>
      let result := call.resume service input w.base
      ({ w with base := result.1 }, result.2.map .service)
  | .setPinned shipmentId commentId pinned =>
      if input.thrown then (w.reply (.error ⟨500, "Internal server error"⟩), [])
      else
        match w.liveComment shipmentId commentId with
        | none => (w.reply (.error ⟨404, s!"Comment {commentId} not found"⟩), [])
        | some comment =>
            if pinned ∧ comment.deletedAt ≠ none then
              (w.reply (.error ⟨400, "Cannot pin a deleted comment"⟩), [])
            else
              (w, [if pinned then .countPinned shipmentId commentId
                else .writePinned shipmentId commentId false])
  | .countPinned shipmentId commentId =>
      if input.thrown then (w.reply (.error ⟨500, "Internal server error"⟩), [])
      else if MAX_PINNED_COMMENTS ≤ (w.pinnedComments shipmentId).length then
        (w.reply (.error ⟨409, s!"Cannot pin more than {MAX_PINNED_COMMENTS} comments per " ++
          "shipment. Unpin one first."⟩), [])
      else (w, [.writePinned shipmentId commentId true])
  | .writePinned _ commentId pinned =>
      match w.base.comments.find? commentId with
      | none => (w.reply (.error ⟨500, "Internal server error"⟩), [])
      | some comment =>
          if input.thrown then (w.reply (.error ⟨500, "Internal server error"⟩), [])
          else
            let pinnedAt := if pinned then some w.base.now else none
            ({ w with pinnedAt := Function.update w.pinnedAt commentId pinnedAt }.reply
              (.ok (.pinned comment pinnedAt)), [])
  | .remove shipmentId commentId requesterId requesterAddress =>
      if input.thrown then (w.reply (.error ⟨500, "Internal server error"⟩), [])
      else
        match w.liveComment shipmentId commentId with
        | none => (w.reply (.error ⟨404, s!"Comment {commentId} not found"⟩), [])
        | some comment => (w, [.removeAuthor comment requesterId requesterAddress])
  | .removeAuthor comment requesterId requesterAddress =>
      let isAdmin := (w.requester requesterAddress).any fun user => user.role = .admin
      if input.thrown then (w.reply (.error ⟨500, "Internal server error"⟩), [])
      else if comment.authorId ≠ requesterId ∧ isAdmin = false then
        (w.reply (.error ⟨403, "Only the comment author or an admin can delete this comment"⟩), [])
      else (w, [.removeWrite comment.id])
  | .removeWrite commentId =>
      if input.thrown ∨ (w.base.comments.find? commentId).isNone then
        (w.reply (.error ⟨500, "Internal server error"⟩), [])
      else
        ({ w with
            base := { w.base with
              comments := w.base.comments.modify commentId
                (fun row => { row with deletedAt := some w.base.now }) fun _ => rfl } }.reply
          (.ok .removed), [])

/-- The pipe lets a parent through only if it is a UUID. -/
def CommentsCall.starts : CommentsCall → Bool
  | .service (.comment request) => request.parentCommentId ≠ some ""
  | .service call => call.starts
  | .setPinned .. | .remove .. => true
  | _ => false

inductive CommentsEvent where
  | tick (ms : Nat)
  /-- what other requests write -/
  | edit (other : NotificationWorld)

def CommentsEvent.apply (w : CommentsWorld) : CommentsEvent → CommentsWorld
  | .tick ms => { w with base := (NotificationEvent.tick ms).apply w.base }
  | .edit other =>
      { w with
        base := { (NotificationEvent.edit other).apply w.base with comments := w.base.comments } }

def comments (service : NotificationsService) :
    PoolSystem CommentsWorld CommentsCall NotificationInput CommentsEvent where
  starts := CommentsCall.starts
  resume input w call := call.resume service input w
  external event w := event.apply w

abbrev CommentsPool := Pool CommentsWorld CommentsCall

abbrev CommentsAction := PoolAction CommentsCall NotificationInput CommentsEvent

end Calls

end ChainSettle
