import ChainSettle.Lib.Answer
import ChainSettle.Lib.Numbered
import ChainSettle.Lib.Pool
import ChainSettle.Semantics.Database

/-!
Announcements, which administrators manage and users dismiss. Each statement is atomic, and any
number of requests are under way, each of them suspended before its next statement: an update and a
dismissal look the announcement up first.

What a user has dismissed is not shown to him again. An announcement ends after it starts as long as
no update writes over another that it has not seen.
-/

namespace ChainSettle

open Lib

section Rows

inductive AnnouncementSeverity where
  | INFO
  | WARNING
  | CRITICAL
deriving DecidableEq

structure Announcement where
  id : Nat
  title : String
  body : String
  severity : AnnouncementSeverity
  startsAt : Int
  endsAt : Option Int
  audienceRoles : List UserRole
  createdById : Option String
deriving DecidableEq

structure CreateAnnouncementDto where
  title : String
  body : String
  severity : Option AnnouncementSeverity
  startsAt : Option Int
  endsAt : Option Int
  audienceRoles : Option (List UserRole)

/-- `endsAt` may be `undefined` or `null`. -/
structure UpdateAnnouncementDto where
  title : Option String
  body : Option String
  severity : Option AnnouncementSeverity
  startsAt : Option Int
  endsAt : Option (Option Int)
  audienceRoles : Option (List UserRole)

def assertWindow (startsAt : Int) (endsAt : Option Int) : Except HttpError Unit :=
  if endsAt.any fun endsAt => endsAt ≤ startsAt then
    .error ⟨400, "endsAt must be after startsAt"⟩
  else .ok ()

def trimmed (value : String) : String := String.ofList (jsTrim value.toList)

def CreateAnnouncementDto.row (dto : CreateAnnouncementDto) (id : Nat) (startsAt : Int)
    (createdById : Option String) : Announcement where
  id := id
  title := trimmed dto.title
  body := trimmed dto.body
  severity := dto.severity.getD .INFO
  startsAt := startsAt
  endsAt := dto.endsAt
  audienceRoles := (dto.audienceRoles.getD []).eraseDups
  createdById := createdById

def Announcement.write (row : Announcement) (dto : UpdateAnnouncementDto) : Announcement :=
  { row with
    title := (dto.title.map trimmed).getD row.title
    body := (dto.body.map trimmed).getD row.body
    severity := dto.severity.getD row.severity
    startsAt := dto.startsAt.getD row.startsAt
    endsAt := dto.endsAt.getD row.endsAt
    audienceRoles := (dto.audienceRoles.map List.eraseDups).getD row.audienceRoles }

def AnnouncementSeverity.rank : AnnouncementSeverity → Nat
  | .CRITICAL => 0
  | .WARNING => 1
  | .INFO => 2

/-- Active at the time, and for the role. -/
def Announcement.addressed (row : Announcement) (role : UserRole) (now : Int) : Bool :=
  row.startsAt ≤ now && row.endsAt.all (fun endsAt => now < endsAt) &&
    (row.audienceRoles.isEmpty || role ∈ row.audienceRoles)

end Rows

section Statements

inductive AnnouncementReply where
  | saved (row : Announcement)
  | deleted (id : Nat)
  | listed (userId : String) (role : UserRole) (rows : List Announcement)
  | dismissed (id : Nat) (userId : String)
  | refused (error : HttpError)
  /-- the statement has thrown -/
  | failed

structure AnnouncementWorld where
  table : Numbered Announcement.id
  dismissals : List (Nat × String)
  /-- the latest first -/
  replies : List AnnouncementReply

inductive AnnouncementCall where
  | create (dto : CreateAnnouncementDto) (createdById : Option String)
  | findOne (id : Nat)
  | update (id : Nat) (dto : UpdateAnnouncementDto)
  /-- the row was found, and its window is right -/
  | write (existing : Announcement) (dto : UpdateAnnouncementDto)
  | remove (id : Nat)
  /-- the row was found -/
  | delete (id : Nat)
  | findActiveForUser (userId : String) (role : UserRole)
  | dismiss (id : Nat) (userId : String)
  /-- the row was found -/
  | upsert (id : Nat) (userId : String)

/-- Whether the statement throws, what the clock says, and in which order rows come. -/
structure AnnouncementInput where
  thrown : Bool
  now : Int
  scan : Scan Announcement

def announcementNotFound : HttpError := ⟨404, "Announcement not found"⟩

namespace AnnouncementWorld

variable (w : AnnouncementWorld)

def answer (reply : AnnouncementReply) : AnnouncementWorld × List AnnouncementCall :=
  ({ w with replies := reply :: w.replies }, [])

def find (id : Nat) : Option Announcement := w.table.rows.find? fun row => row.id = id

/-- `findOne`, and what comes after it. -/
def found (id : Nat) (next : Announcement → AnnouncementWorld × List AnnouncementCall) :
    AnnouncementWorld × List AnnouncementCall :=
  match w.find id with
  | none => w.answer (.refused announcementNotFound)
  | some row => next row

def insert (dto : CreateAnnouncementDto) (startsAt : Int) (createdById : Option String) :
    AnnouncementWorld :=
  { w with table := w.table.insert (dto.row w.table.created startsAt createdById) rfl }

def overwrite (id : Nat) (dto : UpdateAnnouncementDto) : AnnouncementWorld :=
  { w with
    table := w.table.modify (fun row => if row.id = id then row.write dto else row)
      fun row => by split <;> rfl }

/-- The dismissals go with the announcement. -/
def discard (id : Nat) : AnnouncementWorld :=
  { w with
    table := w.table.filter fun row => row.id ≠ id
    dismissals := w.dismissals.filter fun dismissal => dismissal.1 ≠ id }

def hide (id : Nat) (userId : String) : AnnouncementWorld :=
  { w with
    dismissals := if (id, userId) ∈ w.dismissals then w.dismissals
      else (id, userId) :: w.dismissals }

/-- The query of `findActiveForUser`, and the sort of what it has given. -/
def active (scan : Scan Announcement) (userId : String) (role : UserRole) (now : Int) :
    List Announcement :=
  let rows := (scan.findMany w.table.rows fun row =>
    row.addressed role now && (row.id, userId) ∉ w.dismissals).insertionSort
      fun a b => b.startsAt ≤ a.startsAt
  rows.insertionSort fun a b => a.severity.rank ≤ b.severity.rank

end AnnouncementWorld

def AnnouncementCall.resume (input : AnnouncementInput) (w : AnnouncementWorld) :
    AnnouncementCall → AnnouncementWorld × List AnnouncementCall
  | .create dto createdById =>
      let startsAt := dto.startsAt.getD input.now
      match assertWindow startsAt dto.endsAt with
      | .error err => w.answer (.refused err)
      | .ok () =>
          if input.thrown then w.answer .failed
          else
            (w.insert dto startsAt createdById).answer
              (.saved (dto.row w.table.created startsAt createdById))
  | .findOne id =>
      if input.thrown then w.answer .failed
      else w.found id fun row => w.answer (.saved row)
  | .update id dto =>
      if input.thrown then w.answer .failed
      else w.found id fun existing =>
        match assertWindow (dto.startsAt.getD existing.startsAt)
            (dto.endsAt.getD existing.endsAt) with
        | .error err => w.answer (.refused err)
        | .ok () => (w, [.write existing dto])
  | .write existing dto =>
      match w.find existing.id with
      | none => w.answer .failed
      | some row =>
          if input.thrown then w.answer .failed
          else (w.overwrite existing.id dto).answer (.saved (row.write dto))
  | .remove id =>
      if input.thrown then w.answer .failed
      else w.found id fun _ => (w, [.delete id])
  | .delete id =>
      if input.thrown ∨ (w.find id).isNone then w.answer .failed
      else (w.discard id).answer (.deleted id)
  | .findActiveForUser userId role =>
      if input.thrown then w.answer .failed
      else w.answer (.listed userId role (w.active input.scan userId role input.now))
  | .dismiss id userId =>
      if input.thrown then w.answer .failed
      else w.found id fun _ => (w, [.upsert id userId])
  | .upsert id userId =>
      -- the announcement is a foreign key
      if input.thrown ∨ (w.find id).isNone then w.answer .failed
      else (w.hide id userId).answer (.dismissed id userId)

def announcements : PoolSystem AnnouncementWorld AnnouncementCall AnnouncementInput Empty where
  starts call := match call with
    | .write _ _ | .delete _ | .upsert _ _ => false
    | _ => true
  resume input w call := call.resume input w
  external event _ := event.elim

abbrev AnnouncementPool := Pool AnnouncementWorld AnnouncementCall

abbrev AnnouncementAction := PoolAction AnnouncementCall AnnouncementInput Empty

def noAnnouncements : AnnouncementPool := ⟨⟨.empty, [], []⟩, []⟩

end Statements

section Steps

variable {w : AnnouncementWorld} {call : AnnouncementCall}

theorem find_eq_some {id : Nat} {row : Announcement} (h : w.find id = some row) :
    row ∈ w.table.rows ∧ row.id = id :=
  ⟨List.mem_of_find?_eq_some h, by simpa using List.find?_some h⟩

/-- A reply that says nothing about what is shown or dismissed. -/
def AnnouncementReply.Plain : AnnouncementReply → Prop
  | .listed _ _ _ | .dismissed _ _ => False
  | _ => True

def Announcement.Windowed (row : Announcement) : Prop :=
  ∀ endsAt ∈ row.endsAt, row.startsAt < endsAt

/-- An update that is about to write: the window that it has seen and asserted. -/
def AnnouncementCall.Asserted : AnnouncementCall → Prop
  | .write existing dto => (existing.write dto).Windowed
  | _ => True

theorem assertWindow_eq_ok {startsAt : Int} {endsAt : Option Int}
    (h : assertWindow startsAt endsAt = .ok ()) : ∀ last ∈ endsAt, startsAt < last := by
  rintro last ⟨⟩
  unfold assertWindow at h
  split at h
  · cases h
  · rename_i hwindow
    simpa using hwindow

/-- Everything that a statement can do, and what it can ask for. -/
inductive AnnouncementStep (w : AnnouncementWorld) :
    AnnouncementCall → AnnouncementWorld × List AnnouncementCall → Prop where
  | asked (call next : AnnouncementCall) (h : next.Asserted) : AnnouncementStep w call (w, [next])
  | told (call : AnnouncementCall) (reply : AnnouncementReply) (h : reply.Plain) :
      AnnouncementStep w call (w.answer reply)
  | inserted (dto : CreateAnnouncementDto) (createdById : Option String) (startsAt : Int)
      (h : assertWindow startsAt dto.endsAt = .ok ()) :
      AnnouncementStep w (.create dto createdById)
        ((w.insert dto startsAt createdById).answer
          (.saved (dto.row w.table.created startsAt createdById)))
  | written (existing : Announcement) (dto : UpdateAnnouncementDto) (row : Announcement) :
      AnnouncementStep w (.write existing dto)
        ((w.overwrite existing.id dto).answer (.saved (row.write dto)))
  | deleted (id : Nat) :
      AnnouncementStep w (.delete id) ((w.discard id).answer (.deleted id))
  | listed (userId : String) (role : UserRole) (scan : Scan Announcement) (now : Int) :
      AnnouncementStep w (.findActiveForUser userId role)
        (w.answer (.listed userId role (w.active scan userId role now)))
  | dismissed (id : Nat) (userId : String) (row : Announcement) (h : w.find id = some row) :
      AnnouncementStep w (.upsert id userId) ((w.hide id userId).answer (.dismissed id userId))

/-- A lookup tells that there is no such row, or goes on with it. -/
theorem step_found (call : AnnouncementCall) (id : Nat)
    {next : Announcement → AnnouncementWorld × List AnnouncementCall}
    (h : ∀ row, AnnouncementStep w call (next row)) :
    AnnouncementStep w call (w.found id next) := by
  unfold AnnouncementWorld.found
  cases w.find id with
  | none => exact .told call _ trivial
  | some row => exact h row

theorem step_resume (input : AnnouncementInput) (w : AnnouncementWorld)
    (call : AnnouncementCall) : AnnouncementStep w call (call.resume input w) := by
  have hfailed : AnnouncementStep w call (w.answer .failed) := .told call _ trivial
  cases call with
  | create dto createdById =>
      simp only [AnnouncementCall.resume]
      cases hwindow : assertWindow (dto.startsAt.getD input.now) dto.endsAt with
      | error err => exact .told _ _ trivial
      | ok _ =>
          dsimp only
          split
          · exact hfailed
          · exact .inserted dto createdById _ hwindow
  | findOne id =>
      simp only [AnnouncementCall.resume]
      split
      · exact hfailed
      · exact step_found _ id fun row => .told _ _ trivial
  | update id dto =>
      simp only [AnnouncementCall.resume]
      split
      · exact hfailed
      · refine step_found _ id fun existing => ?_
        split
        · exact .told _ _ trivial
        · rename_i hwindow
          exact .asked _ _ (assertWindow_eq_ok hwindow)
  | write existing dto =>
      simp only [AnnouncementCall.resume]
      cases w.find existing.id with
      | none => exact hfailed
      | some row =>
          dsimp only
          split
          · exact hfailed
          · exact .written existing dto row
  | remove id =>
      simp only [AnnouncementCall.resume]
      split
      · exact hfailed
      · exact step_found _ id fun row => .asked _ _ trivial
  | delete id =>
      simp only [AnnouncementCall.resume]
      split
      · exact hfailed
      · exact .deleted id
  | findActiveForUser userId role =>
      simp only [AnnouncementCall.resume]
      split
      · exact hfailed
      · exact .listed userId role input.scan input.now
  | dismiss id userId =>
      simp only [AnnouncementCall.resume]
      split
      · exact hfailed
      · exact step_found _ id fun row => .asked _ _ trivial
  | upsert id userId =>
      simp only [AnnouncementCall.resume]
      split
      · exact hfailed
      · rename_i hrow
        obtain ⟨-, hsome⟩ := not_or.mp hrow
        obtain ⟨row, hfind⟩ :=
          Option.ne_none_iff_exists'.mp (mt Option.isNone_iff_eq_none.mpr hsome)
        exact .dismissed id userId row hfind

theorem AnnouncementStep.asserted {outcome : AnnouncementWorld × List AnnouncementCall}
    (h : AnnouncementStep w call outcome) : ∀ next ∈ outcome.2, next.Asserted := by
  cases h with
  | asked _ _ h => exact List.forall_mem_singleton.mpr h
  | _ => exact List.forall_mem_nil _

end Steps

section Hidden

variable {w : AnnouncementWorld} {outcome : AnnouncementWorld × List AnnouncementCall}
  {call : AnnouncementCall} {id : Nat} {userId : String}

/-- The user has dismissed the announcement, or it is gone. -/
def Hidden (id : Nat) (userId : String) (w : AnnouncementWorld) : Prop :=
  w.table.Known (fun _ => (id, userId) ∈ w.dismissals) id

theorem Hidden.step (h : Hidden id userId w) (hstep : AnnouncementStep w call outcome) :
    Hidden id userId outcome.1 := by
  cases hstep with
  | asked => exact h
  | told _ reply => exact h
  | inserted dto createdById startsAt =>
      exact h.goesOn (R := fun _ _ => True) (.insert (fun _ => trivial) rfl) fun _ _ _ hP => hP
  | written existing dto row =>
      exact h.goesOn (R := fun _ _ => True) (.modify (fun _ => trivial) fun row => by split <;> rfl)
        fun _ _ _ hP => hP
  | deleted other =>
      refine ⟨h.given, fun row hrow hid => ?_⟩
      obtain ⟨hmem, hother⟩ := List.mem_filter.mp hrow
      exact List.mem_filter.mpr ⟨h.holds row hmem hid, hid ▸ hother⟩
  | listed user role scan now => exact h
  | dismissed other user row hfind =>
      refine ⟨h.given, fun row hrow hid => ?_⟩
      show _ ∈ if _ then _ else _
      split
      · exact h.holds row hrow hid
      · exact List.mem_cons_of_mem _ (h.holds row hrow hid)

theorem mem_active {scan : Scan Announcement} {role : UserRole} {now : Int} {row : Announcement} :
    row ∈ w.active scan userId role now ↔
      row ∈ w.table.rows ∧ row.addressed role now ∧ (row.id, userId) ∉ w.dismissals := by
  unfold AnnouncementWorld.active
  rw [List.mem_insertionSort, List.mem_insertionSort, Scan.mem_findMany, Bool.and_eq_true,
    decide_eq_true_eq]

theorem Hidden.not_active (h : Hidden id userId w) {scan : Scan Announcement} {role : UserRole}
    {now : Int} : ∀ row ∈ w.active scan userId role now, row.id ≠ id := by
  rintro row hrow rfl
  obtain ⟨hmem, -, hshown⟩ := mem_active.mp hrow
  exact hshown (h.holds row hmem rfl)

/-- From the answer of a dismissal on, the announcement is hidden from the user. -/
def DismissedHidden (w : AnnouncementWorld) : Prop :=
  ∀ newer older id userId, w.replies = newer ++ .dismissed id userId :: older →
    Hidden id userId w ∧
      ∀ role rows, .listed userId role rows ∈ newer → ∀ row ∈ rows, row.id ≠ id

/-- One more reply. -/
theorem DismissedHidden.reply (h : DismissedHidden w) (hstep : AnnouncementStep w call outcome)
    {reply : AnnouncementReply} (hreplies : outcome.1.replies = reply :: w.replies)
    (hnew : ∀ id userId, reply = .dismissed id userId → Hidden id userId outcome.1)
    (hlisted : ∀ id userId role rows, Hidden id userId w → reply = .listed userId role rows →
      ∀ row ∈ rows, row.id ≠ id) : DismissedHidden outcome.1 := by
  intro newer older id userId hsplit
  rw [hreplies] at hsplit
  cases newer with
  | nil =>
      obtain ⟨hreply, -⟩ := List.cons.inj hsplit
      refine ⟨hnew id userId hreply, ?_⟩
      rintro role rows ⟨⟩
  | cons last newer =>
      obtain ⟨rfl, hrest⟩ := List.cons.inj hsplit
      obtain ⟨hhidden, hshown⟩ := h newer older id userId hrest
      refine ⟨hhidden.step hstep, fun role rows hmem => ?_⟩
      rcases List.mem_cons.mp hmem with hlast | hmem
      · exact hlisted id userId role rows hhidden hlast.symm
      · exact hshown role rows hmem

theorem DismissedHidden.plain (h : DismissedHidden w) (hstep : AnnouncementStep w call outcome)
    {reply : AnnouncementReply} (hreplies : outcome.1.replies = reply :: w.replies)
    (hplain : reply.Plain) : DismissedHidden outcome.1 := by
  refine h.reply hstep hreplies ?_ ?_
  · rintro id userId rfl
    exact hplain.elim
  · rintro id userId role rows - rfl
    exact hplain.elim

theorem DismissedHidden.step (h : DismissedHidden w) (hstep : AnnouncementStep w call outcome) :
    DismissedHidden outcome.1 := by
  have hall := hstep
  cases hstep with
  | asked => exact h
  | told _ reply hplain => exact h.plain hall rfl hplain
  | inserted dto createdById startsAt => exact h.plain hall rfl trivial
  | written existing dto row => exact h.plain hall rfl trivial
  | deleted id => exact h.plain hall rfl trivial
  | listed user role scan now =>
      refine h.reply hall rfl ?_ ?_
      · rintro id userId ⟨⟩
      · rintro id userId role rows hhidden ⟨⟩
        exact hhidden.not_active
  | dismissed id user row hfind =>
      refine h.reply hall rfl ?_ ?_
      · rintro _ _ ⟨⟩
        obtain ⟨hrow, rfl⟩ := find_eq_some hfind
        refine ⟨w.table.below row hrow, fun _ _ _ => ?_⟩
        show _ ∈ if _ then _ else _
        split
        · assumption
        · exact List.mem_cons_self ..
      · rintro id userId role rows - ⟨⟩

theorem dismissedHidden_run (actions : List AnnouncementAction) :
    DismissedHidden (announcements.run actions noAnnouncements).shared := by
  refine List.foldlRecOn actions announcements.step
    (motive := fun s => DismissedHidden s.shared) ?_ fun s hs a _ => ?_
  · intro newer older id userId hsplit
    exact absurd hsplit.symm (by simp [noAnnouncements])
  · refine announcements.shared_step a hs ?_ fun event => event.elim
    exact fun input call _ => hs.step (step_resume input s.shared call)

/-- After the answer to a dismissal the announcement is in no list that the user is given. -/
theorem dismissed_never_listed (actions : List AnnouncementAction)
    (newer older : List AnnouncementReply) (id : Nat) (userId : String) :
    (announcements.run actions noAnnouncements).shared.replies =
        newer ++ .dismissed id userId :: older →
      ∀ role rows, .listed userId role rows ∈ newer → ∀ row ∈ rows, row.id ≠ id :=
  fun hsplit => (dismissedHidden_run actions newer older id userId hsplit).2

end Hidden

section Shown

def demoAt (now : Int) : AnnouncementInput := ⟨false, now, ⟨id, fun _ => .refl _⟩⟩

def shownUntil (startsAt endsAt : Int) : CreateAnnouncementDto :=
  ⟨" Maintenance ", "Read only", none, some startsAt, some endsAt, none⟩

def demoRow (id : Nat) : Announcement :=
  (shownUntil 10 20).row id 10 none

/-- The user dismisses the first of two announcements, and is shown the other. -/
def demoDismissal : List AnnouncementAction :=
  [.begin (.create (shownUntil 10 20) none), .resume 0 (demoAt 0),
    .begin (.create (shownUntil 10 20) none), .resume 0 (demoAt 0),
    .begin (.dismiss 0 "u1"), .resume 0 (demoAt 11), .resume 0 (demoAt 11),
    .begin (.findActiveForUser "u1" .buyer), .resume 0 (demoAt 12)]

theorem demo_never_listed :
    (announcements.run demoDismissal noAnnouncements).shared.replies.length = 4 ∧
      ∀ role rows, AnnouncementReply.listed "u1" role rows ∈ [.listed "u1" .buyer [demoRow 1]] →
        ∀ row ∈ rows, row.id ≠ 0 :=
  ⟨rfl, dismissed_never_listed demoDismissal [.listed "u1" .buyer [demoRow 1]]
    [.saved (demoRow 1), .saved (demoRow 0)] 0 "u1" rfl⟩

/-- The list of a user: what is active, addressed to the role and not dismissed, the most severe
first and of these the latest. -/
theorem active_listing (actions : List AnnouncementAction) (scan : Scan Announcement)
    (userId : String) (role : UserRole) (now : Int) :
    let w := (announcements.run actions noAnnouncements).shared
    let rows := w.active scan userId role now
    (∀ row, row ∈ rows ↔
      row ∈ w.table.rows ∧ row.addressed role now ∧ (row.id, userId) ∉ w.dismissals) ∧
    rows.Nodup ∧
    rows.Pairwise fun a b => a.severity.rank < b.severity.rank ∨
      a.severity.rank = b.severity.rank ∧ b.startsAt ≤ a.startsAt := by
  intro w rows
  let found := scan.findMany w.table.rows fun row =>
    row.addressed role now && (row.id, userId) ∉ w.dismissals
  let latest := found.insertionSort fun a b => b.startsAt ≤ a.startsAt
  have hfound : found.Nodup := (scan.perm _).nodup_iff.mpr (w.table.nodup_rows.filter _)
  have hlatest : latest.Nodup := (List.perm_insertionSort _ found).nodup_iff.mpr hfound
  have hsorted : latest.Pairwise fun a b => b.startsAt ≤ a.startsAt := by
    have htotal : Std.Total fun a b : Announcement => b.startsAt ≤ a.startsAt :=
      ⟨fun a b => le_total b.startsAt a.startsAt⟩
    have htrans : IsTrans Announcement fun a b => b.startsAt ≤ a.startsAt :=
      ⟨fun a b c hab hbc => hbc.trans hab⟩
    exact List.pairwise_insertionSort _ _
  refine ⟨fun row => mem_active, (List.perm_insertionSort _ latest).nodup_iff.mpr hlatest, ?_⟩
  have hrank := insertionSort_beforeIn (r := fun a b => a.severity.rank ≤ b.severity.rank)
    (fun a b => Iff.rfl) hlatest
  refine hrank.imp fun {a b} h => h.imp_right fun ⟨htied, horder⟩ => ⟨htied, ?_⟩
  exact List.pairwise_iff_forall_sublist.mp hsorted horder

end Shown

section Windows

/-- An update that writes, writes over the window that it has seen. -/
def AnnouncementCall.Seen (rows : List Announcement) : AnnouncementCall → Prop
  | .write existing _ => ∀ row ∈ rows, row.id = existing.id →
      row.startsAt = existing.startsAt ∧ row.endsAt = existing.endsAt
  | _ => True

instance (rows : List Announcement) : (call : AnnouncementCall) → Decidable (call.Seen rows)
  | .write _ _ => inferInstanceAs (Decidable (∀ _ ∈ _, _))
  | .create _ _ | .findOne _ | .update _ _ | .remove _ | .delete _ | .findActiveForUser _ _
  | .dismiss _ _ | .upsert _ _ => inferInstanceAs (Decidable True)

def WritesSeen (s : AnnouncementPool) : AnnouncementAction → Prop
  | .resume index _ => ∀ call ∈ s.inflight[index]?, call.Seen s.shared.table.rows
  | _ => True

instance (s : AnnouncementPool) : (a : AnnouncementAction) → Decidable (WritesSeen s a)
  | .resume _ _ => inferInstanceAs (Decidable (∀ _ ∈ _, _))
  | .begin _ | .crash _ | .external _ => inferInstanceAs (Decidable True)

theorem windowed_write {row existing : Announcement} {dto : UpdateAnnouncementDto}
    (hsame : row.startsAt = existing.startsAt ∧ row.endsAt = existing.endsAt)
    (h : (existing.write dto).Windowed) : (row.write dto).Windowed := by
  unfold Announcement.Windowed Announcement.write at h ⊢
  dsimp only at h ⊢
  rw [hsame.1, hsame.2]
  exact h

def WindowsKept (s : AnnouncementPool) : Prop :=
  (∀ row ∈ s.shared.table.rows, row.Windowed) ∧ ∀ call ∈ s.inflight, call.Asserted

theorem windowed_step {w : AnnouncementWorld} {call : AnnouncementCall}
    {outcome : AnnouncementWorld × List AnnouncementCall}
    (h : ∀ row ∈ w.table.rows, row.Windowed) (hcall : call.Asserted)
    (hseen : call.Seen w.table.rows) (hstep : AnnouncementStep w call outcome) :
    ∀ row ∈ outcome.1.table.rows, row.Windowed := by
  cases hstep with
  | asked => exact h
  | told _ reply => exact h
  | inserted dto createdById startsAt hwindow =>
      intro row hrow
      rcases List.mem_append.mp hrow with hrow | hrow
      · exact h row hrow
      · rw [List.mem_singleton.mp hrow]
        exact assertWindow_eq_ok hwindow
  | written existing dto found =>
      intro row hrow
      obtain ⟨old, hold, rfl⟩ := List.mem_map.mp hrow
      split
      · rename_i hid
        exact windowed_write (hseen old hold hid) hcall
      · exact h old hold
  | deleted id => exact fun row hrow => h row (List.mem_of_mem_filter hrow)
  | listed userId role scan now => exact h
  | dismissed id userId row hfind => exact h

theorem WindowsKept.step {s : AnnouncementPool} (h : WindowsKept s) (a : AnnouncementAction)
    (hseen : WritesSeen s a) : WindowsKept (announcements.step s a) := by
  obtain ⟨hwindowed, hasserted⟩ := h
  unfold WindowsKept
  refine announcements.keeps_step (Q := fun w => ∀ row ∈ w.table.rows, row.Windowed)
    (P := fun _ call => call.Asserted) a hwindowed hasserted ?_ ?_ fun event => event.elim
  · intro call _ hstart
    cases call with
    | write existing dto => cases hstart
    | _ => trivial
  · rintro index input call rfl hcall
    refine ⟨?_, (step_resume input s.shared call).asserted, fun other hother =>
      hasserted other (List.mem_of_mem_eraseIdx hother)⟩
    exact windowed_step hwindowed (hasserted call (List.mem_of_getElem? hcall)) (hseen call hcall)
      (step_resume input s.shared call)

/-- Every announcement ends after it starts, in every run in which no update writes over a window
that it has not seen. -/
theorem windows_kept (actions : List AnnouncementAction)
    (hseen : Along announcements.step WritesSeen noAnnouncements actions) :
    ∀ row ∈ (announcements.run actions noAnnouncements).shared.table.rows, row.Windowed := by
  have hinit : WindowsKept noAnnouncements := by
    refine ⟨?_, ?_⟩ <;> exact List.forall_mem_nil _
  exact (hseen.invariant (fun s a hs ha => hs.step a ha) hinit actions [] (by simp)).1

def startingAt (startsAt : Int) : UpdateAnnouncementDto :=
  ⟨none, none, none, some startsAt, none, none⟩

def endingAt (endsAt : Int) : UpdateAnnouncementDto :=
  ⟨none, none, none, none, some (some endsAt), none⟩

/-- Two updates, one after the other. -/
def demoUpdates : List AnnouncementAction :=
  [.begin (.create (shownUntil 10 20) none), .resume 0 (demoAt 0),
    .begin (.update 0 (startingAt 15)), .resume 0 (demoAt 1), .resume 0 (demoAt 2),
    .begin (.update 0 (endingAt 18)), .resume 0 (demoAt 3), .resume 0 (demoAt 4)]

theorem demo_windows_kept :
    let rows := (announcements.run demoUpdates noAnnouncements).shared.table.rows
    rows.length = 1 ∧ ∀ row ∈ rows, row.Windowed :=
  ⟨rfl, windows_kept demoUpdates (by decide)⟩

end Windows

end ChainSettle
