import ChainSettle.Lib.Pool
import ChainSettle.Semantics.Templates

/-!
Requests for shipment templates, of any number of users, each suspended before its next statement.
The owner is checked when a template is found, and the statement that comes later writes by the id
alone. Deletion is soft.

The percentages of every template sum to 100 at all times, and a template stays with its owner: only
he changes it, it does not go away, and what is deleted stays deleted.
-/

namespace ChainSettle

open Lib

section Rows

def MilestoneTemplate.total (milestones : List MilestoneTemplate) : Int :=
  (milestones.map MilestoneTemplate.paymentPercent).sum

/-- `validateMilestonePercentages` -/
def assertPercentages (milestones : List MilestoneTemplate) : Except HttpError Unit :=
  if MilestoneTemplate.total milestones ≠ 100 then
    .error ⟨400, s!"Milestone percentages must sum to 100, got {MilestoneTemplate.total milestones}"⟩
  else .ok ()

structure CreateTemplateDto where
  name : String
  description : Option String
  supplierAddress : Option String
  logisticsAddress : Option String
  arbiterAddress : Option String
  tokenAddress : Option String
  milestoneTemplates : List MilestoneTemplate
  isPublic : Option Bool

structure UpdateTemplateDto where
  name : Option String
  description : Option String
  supplierAddress : Option String
  logisticsAddress : Option String
  arbiterAddress : Option String
  tokenAddress : Option String
  milestoneTemplates : Option (List MilestoneTemplate)
  isPublic : Option Bool

def CreateTemplateDto.row (dto : CreateTemplateDto) (ownerId id : String) : ShipmentTemplate where
  id := id
  ownerId := ownerId
  name := dto.name
  description := dto.description
  isPublic := dto.isPublic.getD false
  supplierAddress := dto.supplierAddress
  logisticsAddress := dto.logisticsAddress
  arbiterAddress := dto.arbiterAddress
  tokenAddress := dto.tokenAddress
  milestoneTemplates := dto.milestoneTemplates
  deletedAt := none

/-- A field that is `undefined` stays as it is. -/
def ShipmentTemplate.write (row : ShipmentTemplate) (dto : UpdateTemplateDto) : ShipmentTemplate :=
  { row with
    name := dto.name.getD row.name
    description := dto.description.or row.description
    isPublic := dto.isPublic.getD row.isPublic
    supplierAddress := dto.supplierAddress.or row.supplierAddress
    logisticsAddress := dto.logisticsAddress.or row.logisticsAddress
    arbiterAddress := dto.arbiterAddress.or row.arbiterAddress
    tokenAddress := dto.tokenAddress.or row.tokenAddress
    milestoneTemplates := dto.milestoneTemplates.getD row.milestoneTemplates }

structure PreviewMilestone where
  name : String
  paymentPercent : Int
  dueDays : Option Int
  checklist : List ChecklistItemTemplate
  dueDescription : String

structure TemplatePreview where
  milestones : List PreviewMilestone
  percentSum : Int
  isValid : Bool
  missingFields : List String

def dueDescription : Option Int → String
  | none => "No due date set"
  | some days => s!"{days} day" ++ (if days = 1 then "" else "s") ++ " after creation"

def MilestoneTemplate.preview (m : MilestoneTemplate) : PreviewMilestone where
  name := m.name
  paymentPercent := m.paymentPercent
  dueDays := m.dueDays
  checklist := m.checklist.getD []
  dueDescription := ChainSettle.dueDescription m.dueDays

def ShipmentTemplate.preview (template : ShipmentTemplate) : TemplatePreview where
  milestones := template.milestoneTemplates.map MilestoneTemplate.preview
  percentSum := MilestoneTemplate.total template.milestoneTemplates
  isValid := MilestoneTemplate.total template.milestoneTemplates = 100
  missingFields :=
    ([("supplierAddress", template.supplierAddress), ("logisticsAddress", template.logisticsAddress),
      ("arbiterAddress", template.arbiterAddress), ("tokenAddress", template.tokenAddress)].filter
        fun field => (truthyText field.2).isNone).map Prod.fst

end Rows

section Statements

inductive TemplateReply where
  | template (row : ShipmentTemplate)
  | previewed (template : ShipmentTemplate) (preview : TemplatePreview)
  | success
  | refused (error : HttpError)
  /-- the statement has thrown -/
  | failed

structure TemplateWorld where
  rows : List ShipmentTemplate
  /-- the users, with what was answered -/
  replies : List (String × TemplateReply)

inductive TemplateRequest where
  | create (dto : CreateTemplateDto)
  | createFromShipment (callerAddress shipmentId : String) (dto : CreateTemplateFromShipmentDto)
  /-- the shipment was found, and is the caller's -/
  | insert (dto : CreateTemplateDto)
  | findOne (id : String)
  | preview (id : String)
  | update (id : String) (dto : UpdateTemplateDto)
  | updateVisibility (id : String) (isPublic : Bool)
  /-- the template was found, and is the caller's -/
  | write (id : String) (dto : UpdateTemplateDto)
  | delete (id : String)
  /-- the template was found, and is the caller's -/
  | mark (id : String)

structure TemplateCall where
  userId : String
  request : TemplateRequest

/-- Whether the statement throws, the id that the database generates, the time, and what a statement
reads of the other tables. -/
structure TemplateInput where
  thrown : Bool
  id : String
  now : Nat
  db : TemplatesDb

namespace TemplateWorld

variable (w : TemplateWorld)

def answer (userId : String) (reply : TemplateReply) : TemplateWorld × List TemplateCall :=
  ({ w with replies := (userId, reply) :: w.replies }, [])

def next (userId : String) (request : TemplateRequest) : TemplateWorld × List TemplateCall :=
  (w, [⟨userId, request⟩])

def insert (userId : String) (dto : CreateTemplateDto) (input : TemplateInput) :
    TemplateWorld × List TemplateCall :=
  if input.thrown ∨ w.rows.any fun row => row.id = input.id then w.answer userId .failed
  else
    { w with rows := w.rows ++ [dto.row userId input.id] }.answer userId
      (.template (dto.row userId input.id))

/-- `findOne`, and what comes after it. -/
def found (userId id : String) (onward : ShipmentTemplate → TemplateWorld × List TemplateCall) :
    TemplateWorld × List TemplateCall :=
  match w.rows.find? fun row => row.id = id ∧ row.deletedAt = none with
  | none => w.answer userId (.refused ⟨404, s!"Template {id} not found"⟩)
  | some row => onward row

/-- `findOne`, with the check that the template is the caller's. -/
def owned (userId id : String) (refusal : String)
    (onward : TemplateWorld × List TemplateCall) : TemplateWorld × List TemplateCall :=
  w.found userId id fun row =>
    if row.ownerId ≠ userId then w.answer userId (.refused ⟨403, refusal⟩) else onward

def overwrite (id : String) (change : ShipmentTemplate → ShipmentTemplate) : TemplateWorld :=
  { w with rows := w.rows.map fun row => if row.id = id then change row else row }

/-- A statement that updates a row by its id. -/
def edit (userId id : String) (change : ShipmentTemplate → ShipmentTemplate)
    (reply : ShipmentTemplate → TemplateReply) : TemplateWorld × List TemplateCall :=
  match w.rows.find? fun row => row.id = id with
  | none => w.answer userId .failed
  | some row => (w.overwrite id change).answer userId (reply (change row))

end TemplateWorld

/-- What `createFromShipment` takes from a shipment. -/
def templateOf (db : TemplatesDb) (shipment : Shipment) (dto : CreateTemplateFromShipmentDto) :
    CreateTemplateDto where
  name := dto.name
  description := dto.description
  supplierAddress := some shipment.supplierAddress
  logisticsAddress := some shipment.logisticsAddress
  arbiterAddress := some shipment.arbiterAddress
  tokenAddress := some shipment.tokenAddress
  milestoneTemplates := (db.tables.findMany shipment.id).map (db.milestoneTemplate shipment.id)
  isPublic := dto.isPublic

def visibilityOnly (isPublic : Bool) : UpdateTemplateDto :=
  ⟨none, none, none, none, none, none, none, some isPublic⟩

def TemplateCall.resume (input : TemplateInput) (w : TemplateWorld) (call : TemplateCall) :
    TemplateWorld × List TemplateCall :=
  let userId := call.userId
  match call.request with
  | .create dto =>
      match assertPercentages dto.milestoneTemplates with
      | .error err => w.answer userId (.refused err)
      | .ok () => w.insert userId dto input
  | .createFromShipment callerAddress shipmentId dto =>
      if input.thrown then w.answer userId .failed
      else
        match input.db.tables.shipments.find? shipmentId with
        | none => w.answer userId (.refused ⟨404, s!"Shipment {shipmentId} not found"⟩)
        | some shipment =>
            if shipment.buyerAddress ≠ callerAddress then
              w.answer userId
                (.refused ⟨403, "Only the shipment buyer can create a template from it"⟩)
            else
              match assertPercentages (templateOf input.db shipment dto).milestoneTemplates with
              | .error err => w.answer userId (.refused err)
              | .ok () => w.next userId (.insert (templateOf input.db shipment dto))
  | .insert dto => w.insert userId dto input
  | .findOne id =>
      if input.thrown then w.answer userId .failed
      else w.found userId id fun row => w.answer userId (.template row)
  | .preview id =>
      if input.thrown then w.answer userId .failed
      else w.found userId id fun row =>
        if !row.isPublic && row.ownerId ≠ userId then
          w.answer userId
            (.refused ⟨403, "Only the template owner can preview a private template"⟩)
        else w.answer userId (.previewed row row.preview)
  | .update id dto =>
      if input.thrown then w.answer userId .failed
      else w.owned userId id "Only the template owner can update it"
        (match (dto.milestoneTemplates.map assertPercentages).getD (.ok ()) with
        | .error err => w.answer userId (.refused err)
        | .ok () => w.next userId (.write id dto))
  | .updateVisibility id isPublic =>
      if input.thrown then w.answer userId .failed
      else w.owned userId id "Only the template owner can change its visibility"
        (w.next userId (.write id (visibilityOnly isPublic)))
  | .write id dto =>
      if input.thrown then w.answer userId .failed
      else w.edit userId id (fun row => row.write dto) .template
  | .delete id =>
      if input.thrown then w.answer userId .failed
      else w.owned userId id "Only the template owner can delete it" (w.next userId (.mark id))
  | .mark id =>
      if input.thrown then w.answer userId .failed
      else w.edit userId id (fun row => { row with deletedAt := some input.now }) fun _ => .success

def templateRequests : PoolSystem TemplateWorld TemplateCall TemplateInput Empty where
  starts call := match call.request with
    | .insert _ | .write _ _ | .mark _ => false
    | _ => true
  resume input w call := call.resume input w
  external event _ := event.elim

abbrev TemplatePool := Pool TemplateWorld TemplateCall

abbrev TemplateAction := PoolAction TemplateCall TemplateInput Empty

def noTemplates : TemplatePool := ⟨⟨[], []⟩, []⟩

end Statements

section Sound

def ShipmentTemplate.Whole (row : ShipmentTemplate) : Prop :=
  MilestoneTemplate.total row.milestoneTemplates = 100

/-- A row as it may go on. -/
structure TemplateKept (row row' : ShipmentTemplate) : Prop where
  id : row'.id = row.id
  ownerId : row'.ownerId = row.ownerId
  deletedAt : row.deletedAt.isSome → row'.deletedAt.isSome
  whole : row.Whole → row'.Whole

def TemplateReply.ShownTo (userId : String) : TemplateReply → Prop
  | .template row => row.Whole
  | .previewed row preview => (row.isPublic ∨ row.ownerId = userId) ∧ preview = row.preview ∧
      preview.percentSum = 100 ∧ preview.isValid
  | .success | .refused _ | .failed => True

structure TemplatesSound (w : TemplateWorld) : Prop where
  nodup : (w.rows.map ShipmentTemplate.id).Nodup
  whole : ∀ row ∈ w.rows, row.Whole
  shown : ∀ userId reply, (userId, reply) ∈ w.replies → reply.ShownTo userId

def OwnTemplate (w : TemplateWorld) (userId id : String) : Prop :=
  ∃ row ∈ w.rows, row.id = id ∧ row.ownerId = userId

def TemplateCall.Checked (w : TemplateWorld) (call : TemplateCall) : Prop :=
  match call.request with
  | .insert dto => MilestoneTemplate.total dto.milestoneTemplates = 100
  | .write id dto => OwnTemplate w call.userId id ∧
      ∀ milestones ∈ dto.milestoneTemplates, MilestoneTemplate.total milestones = 100
  | .mark id => OwnTemplate w call.userId id
  | _ => True

def TemplatesGoOn (w w' : TemplateWorld) : Prop :=
  ∀ row ∈ w.rows, ∃ row' ∈ w'.rows, TemplateKept row row'

variable {w w' : TemplateWorld} {userId id : String}

theorem TemplateKept.refl (row : ShipmentTemplate) : TemplateKept row row :=
  ⟨rfl, rfl, fun h => h, fun h => h⟩

theorem TemplateKept.trans {row row' row'' : ShipmentTemplate} (h : TemplateKept row row')
    (h' : TemplateKept row' row'') : TemplateKept row row'' where
  id := h'.id.trans h.id
  ownerId := h'.ownerId.trans h.ownerId
  deletedAt hdeleted := h'.deletedAt (h.deletedAt hdeleted)
  whole hwhole := h'.whole (h.whole hwhole)

theorem TemplatesGoOn.refl (w : TemplateWorld) : TemplatesGoOn w w :=
  fun row hrow => ⟨row, hrow, .refl row⟩

theorem TemplatesGoOn.trans {w'' : TemplateWorld} (h : TemplatesGoOn w w')
    (h' : TemplatesGoOn w' w'') : TemplatesGoOn w w'' := by
  intro row hrow
  obtain ⟨row', hrow', hkept⟩ := h row hrow
  obtain ⟨row'', hrow'', hkept'⟩ := h' row' hrow'
  exact ⟨row'', hrow'', hkept.trans hkept'⟩

theorem OwnTemplate.goesOn (h : OwnTemplate w userId id) (hon : TemplatesGoOn w w') :
    OwnTemplate w' userId id := by
  obtain ⟨row, hrow, rfl, rfl⟩ := h
  obtain ⟨row', hrow', hkept⟩ := hon row hrow
  exact ⟨row', hrow', hkept.id, hkept.ownerId⟩

theorem TemplateCall.Checked.goesOn {call : TemplateCall} (h : call.Checked w)
    (hon : TemplatesGoOn w w') : call.Checked w' := by
  obtain ⟨userId, request⟩ := call
  cases request with
  | insert dto => exact h
  | write id dto => exact ⟨h.1.goesOn hon, h.2⟩
  | mark id => exact OwnTemplate.goesOn h hon
  | _ => trivial

theorem assertPercentages_ok {milestones : List MilestoneTemplate}
    (h : assertPercentages milestones = .ok ()) : MilestoneTemplate.total milestones = 100 := by
  unfold assertPercentages at h
  split at h
  · cases h
  · rename_i hsum
    exact not_not.mp hsum

theorem kept_write {dto : UpdateTemplateDto}
    (h : ∀ milestones ∈ dto.milestoneTemplates, MilestoneTemplate.total milestones = 100)
    (row : ShipmentTemplate) : TemplateKept row (row.write dto) where
  id := rfl
  ownerId := rfl
  deletedAt hdeleted := hdeleted
  whole hwhole := by
    unfold ShipmentTemplate.Whole ShipmentTemplate.write
    dsimp only
    cases hgiven : dto.milestoneTemplates with
    | none => exact hwhole
    | some milestones => exact h milestones hgiven

/-- What a statement of a user has done. -/
structure TemplateStep (w : TemplateWorld) (userId : String)
    (next : TemplateWorld × List TemplateCall) : Prop where
  sound : TemplatesSound next.1
  goesOn : TemplatesGoOn w next.1
  own : ∀ row ∈ w.rows, row ∉ next.1.rows → row.ownerId = userId
  checked : ∀ call ∈ next.2, call.Checked next.1

theorem TemplatesSound.answer (h : TemplatesSound w) {reply : TemplateReply}
    (hshown : reply.ShownTo userId) : TemplateStep w userId (w.answer userId reply) where
  sound := by
    refine ⟨h.nodup, h.whole, fun user other hmem => ?_⟩
    rcases List.mem_cons.mp hmem with hsame | hmem
    · cases hsame
      exact hshown
    · exact h.shown user other hmem
  goesOn := TemplatesGoOn.refl w
  own _ hrow hlost := absurd hrow hlost
  checked := List.forall_mem_nil _

theorem TemplatesSound.next (h : TemplatesSound w) {request : TemplateRequest}
    (hchecked : TemplateCall.Checked w ⟨userId, request⟩) :
    TemplateStep w userId (w.next userId request) :=
  ⟨h, .refl w, fun _ hrow hlost => absurd hrow hlost, List.forall_mem_singleton.mpr hchecked⟩

theorem TemplatesSound.insert (h : TemplatesSound w) {dto : CreateTemplateDto}
    (hsum : MilestoneTemplate.total dto.milestoneTemplates = 100) (input : TemplateInput) :
    TemplateStep w userId (w.insert userId dto input) := by
  unfold TemplateWorld.insert
  split
  · exact h.answer trivial
  · rename_i hfree
    obtain ⟨-, hunused⟩ := not_or.mp hfree
    have hsound : TemplatesSound { w with rows := w.rows ++ [dto.row userId input.id] } := by
      refine ⟨?_, fun row hrow => ?_, h.shown⟩
      · dsimp only
        rw [List.map_append, List.map_singleton, ← List.concat_eq_append]
        refine List.Nodup.concat (fun hmem => hunused ?_) h.nodup
        obtain ⟨row, hrow, hid⟩ := List.mem_map.mp hmem
        exact List.any_eq_true.mpr ⟨row, hrow, decide_eq_true hid⟩
      · rcases List.mem_append.mp hrow with hrow | hrow
        · exact h.whole row hrow
        · rw [List.mem_singleton.mp hrow]
          exact hsum
    have hshown : TemplateReply.ShownTo userId (.template (dto.row userId input.id)) := hsum
    have hanswer := hsound.answer hshown
    exact ⟨hanswer.sound, fun row hrow => ⟨row, List.mem_append_left _ hrow, .refl row⟩,
      fun row hrow hlost => absurd (List.mem_append_left _ hrow) hlost, hanswer.checked⟩

theorem TemplatesSound.found (h : TemplatesSound w)
    {onward : ShipmentTemplate → TemplateWorld × List TemplateCall}
    (honward : ∀ row ∈ w.rows, row.id = id → TemplateStep w userId (onward row)) :
    TemplateStep w userId (w.found userId id onward) := by
  unfold TemplateWorld.found
  cases hfind : w.rows.find? fun row => row.id = id ∧ row.deletedAt = none with
  | none => exact h.answer trivial
  | some row =>
      have hrow : row.id = id ∧ row.deletedAt = none := by simpa using List.find?_some hfind
      exact honward row (List.mem_of_find?_eq_some hfind) hrow.1

theorem TemplatesSound.owned (h : TemplatesSound w) {refusal : String}
    {onward : TemplateWorld × List TemplateCall}
    (honward : OwnTemplate w userId id → TemplateStep w userId onward) :
    TemplateStep w userId (w.owned userId id refusal onward) := by
  refine h.found fun row hrow hid => ?_
  split
  · exact h.answer trivial
  · rename_i howner
    exact honward ⟨row, hrow, hid, not_not.mp howner⟩

theorem TemplatesSound.edit (h : TemplatesSound w) (hown : OwnTemplate w userId id)
    {change : ShipmentTemplate → ShipmentTemplate} (hkept : ∀ row, TemplateKept row (change row))
    {reply : ShipmentTemplate → TemplateReply}
    (hshown : ∀ row : ShipmentTemplate, row.Whole → (reply row).ShownTo userId) :
    TemplateStep w userId (w.edit userId id change reply) := by
  unfold TemplateWorld.edit
  cases hfind : w.rows.find? fun row => row.id = id with
  | none => exact h.answer trivial
  | some found =>
      have hrows (row : ShipmentTemplate) :
          TemplateKept row (if row.id = id then change row else row) := by
        split
        · exact hkept row
        · exact .refl row
      have hids : w.rows.map (ShipmentTemplate.id ∘ fun row =>
            if row.id = id then change row else row) = w.rows.map ShipmentTemplate.id :=
        List.map_congr_left fun row _ => (hrows row).id
      have hsound : TemplatesSound (w.overwrite id change) := by
        refine ⟨?_, fun row' hrow' => ?_, h.shown⟩
        · unfold TemplateWorld.overwrite
          dsimp only
          rw [List.map_map, hids]
          exact h.nodup
        · obtain ⟨row, hrow, rfl⟩ := List.mem_map.mp hrow'
          exact (hrows row).whole (h.whole row hrow)
      have hwhole := (hkept found).whole (h.whole found (List.mem_of_find?_eq_some hfind))
      have hanswer := hsound.answer (hshown (change found) hwhole)
      refine ⟨hanswer.sound, fun row hrow => ⟨_, List.mem_map_of_mem hrow, hrows row⟩,
        fun row hrow hlost => ?_, hanswer.checked⟩
      have hid : row.id = id := by
        by_contra hother
        refine hlost (List.mem_map.mpr ⟨row, hrow, ?_⟩)
        rw [if_neg hother]
      obtain ⟨mine, hmine, hmineId, rfl⟩ := hown
      rw [List.inj_on_of_nodup_map h.nodup hrow hmine (hid.trans hmineId.symm)]

theorem templates_resume (input : TemplateInput) (h : TemplatesSound w) {call : TemplateCall}
    (hcall : call.Checked w) : TemplateStep w call.userId (call.resume input w) := by
  obtain ⟨userId, request⟩ := call
  have hfailed : TemplateStep w userId (w.answer userId .failed) := h.answer trivial
  cases request with
  | create dto =>
      simp only [TemplateCall.resume]
      cases hsum : assertPercentages dto.milestoneTemplates with
      | error err => exact h.answer trivial
      | ok _ => exact h.insert (assertPercentages_ok hsum) input
  | createFromShipment callerAddress shipmentId dto =>
      simp only [TemplateCall.resume]
      split
      · exact hfailed
      · cases input.db.tables.shipments.find? shipmentId with
        | none => exact h.answer trivial
        | some shipment =>
            dsimp only
            split
            · exact h.answer trivial
            · cases hsum : assertPercentages
                  (templateOf input.db shipment dto).milestoneTemplates with
              | error err => exact h.answer trivial
              | ok _ => exact h.next (assertPercentages_ok hsum)
  | insert dto => exact h.insert hcall input
  | findOne id =>
      simp only [TemplateCall.resume]
      split
      · exact hfailed
      · exact h.found fun row hrow _ => h.answer (h.whole row hrow)
  | preview id =>
      simp only [TemplateCall.resume]
      split
      · exact hfailed
      · refine h.found fun row hrow _ => ?_
        split
        · exact h.answer trivial
        · rename_i hprivate
          refine h.answer ⟨?_, rfl, h.whole row hrow, decide_eq_true (h.whole row hrow)⟩
          rw [Bool.and_eq_true, not_and_or] at hprivate
          simpa using hprivate
  | update id dto =>
      simp only [TemplateCall.resume]
      split
      · exact hfailed
      · refine h.owned fun hown => ?_
        cases hgiven : dto.milestoneTemplates with
        | none =>
            refine h.next ⟨hown, ?_⟩
            rw [hgiven]
            rintro milestones ⟨⟩
        | some milestones =>
            dsimp only [Option.map_some, Option.getD_some]
            cases hsum : assertPercentages milestones with
            | error err => exact h.answer trivial
            | ok _ =>
                refine h.next ⟨hown, ?_⟩
                rw [hgiven]
                rintro _ ⟨⟩
                exact assertPercentages_ok hsum
  | updateVisibility id isPublic =>
      simp only [TemplateCall.resume]
      split
      · exact hfailed
      · refine h.owned fun hown => h.next ⟨hown, ?_⟩
        rintro milestones ⟨⟩
  | write id dto =>
      simp only [TemplateCall.resume]
      split
      · exact hfailed
      · exact h.edit hcall.1 (kept_write hcall.2) fun row hrow => hrow
  | delete id =>
      simp only [TemplateCall.resume]
      split
      · exact hfailed
      · exact h.owned fun hown => h.next hown
  | mark id =>
      simp only [TemplateCall.resume]
      split
      · exact hfailed
      · have hkept (row : ShipmentTemplate) :
            TemplateKept row { row with deletedAt := some input.now } :=
          ⟨rfl, rfl, fun _ => rfl, fun hwhole => hwhole⟩
        refine h.edit hcall hkept fun row _ => ?_
        trivial

end Sound

section Runs

theorem templates_step {s : TemplatePool} (a : TemplateAction)
    (h : TemplatesSound s.shared ∧ ∀ call ∈ s.inflight, call.Checked s.shared) :
    TemplatesSound (templateRequests.step s a).shared ∧
      ∀ call ∈ (templateRequests.step s a).inflight,
        call.Checked (templateRequests.step s a).shared := by
  refine templateRequests.keeps_step (P := fun w call => call.Checked w) a h.1 h.2 ?_ ?_
    fun event => event.elim
  · rintro ⟨userId, request⟩ - hstart
    cases request with
    | insert dto => cases hstart
    | write id dto => cases hstart
    | mark id => cases hstart
    | _ => trivial
  · intro index input call _ hcall
    have hafter := templates_resume input h.1 (h.2 call (List.mem_of_getElem? hcall))
    exact ⟨hafter.sound, hafter.checked, fun other hother =>
      (h.2 other (List.mem_of_mem_eraseIdx hother)).goesOn hafter.goesOn⟩

theorem templates_run (actions : List TemplateAction) :
    TemplatesSound (templateRequests.run actions noTemplates).shared ∧
      ∀ call ∈ (templateRequests.run actions noTemplates).inflight,
        call.Checked (templateRequests.run actions noTemplates).shared := by
  refine List.foldlRecOn actions templateRequests.step
    (motive := fun s => TemplatesSound s.shared ∧ ∀ call ∈ s.inflight, call.Checked s.shared)
    ⟨⟨?_, ?_, ?_⟩, ?_⟩ fun _ hs a _ => templates_step a hs
  · exact List.nodup_nil
  · exact List.forall_mem_nil _
  · rintro userId reply ⟨⟩
  · exact List.forall_mem_nil _

/-- The percentages of every stored template sum to 100, and so does what a preview shows: it is of
a public template, or for its owner. -/
theorem templates_whole (actions : List TemplateAction) :
    let w := (templateRequests.run actions noTemplates).shared
    (∀ row ∈ w.rows, (row.milestoneTemplates.map MilestoneTemplate.paymentPercent).sum = 100) ∧
      ∀ userId row preview, (userId, .previewed row preview) ∈ w.replies →
        (row.isPublic ∨ row.ownerId = userId) ∧ preview = row.preview ∧
          preview.percentSum = 100 ∧ preview.isValid :=
  have hsound := (templates_run actions).1
  ⟨hsound.whole, fun userId _ _ hreply => hsound.shown userId _ hreply⟩

/-- Templates stay: each keeps its id and its owner, what is deleted stays deleted, and only a call
of the owner changes anything. -/
theorem templates_kept (early late : List TemplateAction) :
    let before := templateRequests.run early noTemplates
    (∀ row ∈ before.shared.rows, ∃ row' ∈ (templateRequests.run late before).shared.rows,
      row'.id = row.id ∧ row'.ownerId = row.ownerId ∧
        (row.deletedAt.isSome → row'.deletedAt.isSome)) ∧
    ∀ a, ∀ row ∈ before.shared.rows, row ∉ (templateRequests.step before a).shared.rows →
      ∃ index input call, a = .resume index input ∧ before.inflight[index]? = some call ∧
        call.userId = row.ownerId := by
  intro before
  have hrun := templates_run early
  constructor
  · have hlate : (TemplatesSound (templateRequests.run late before).shared ∧
          ∀ call ∈ (templateRequests.run late before).inflight,
            call.Checked (templateRequests.run late before).shared) ∧
        TemplatesGoOn before.shared (templateRequests.run late before).shared := by
      refine List.foldlRecOn late templateRequests.step
        (motive := fun s => (TemplatesSound s.shared ∧
          ∀ call ∈ s.inflight, call.Checked s.shared) ∧ TemplatesGoOn before.shared s.shared)
        ⟨hrun, .refl _⟩ fun s hs a _ => ⟨templates_step a hs.1, hs.2.trans ?_⟩
      refine templateRequests.shared_step (Q := TemplatesGoOn s.shared) a (.refl _) ?_
        fun event => event.elim
      exact fun input call hcall => (templates_resume input hs.1.1 (hs.1.2 call hcall)).goesOn
    intro row hrow
    obtain ⟨row', hrow', hkept⟩ := hlate.2 row hrow
    exact ⟨row', hrow', hkept.id, hkept.ownerId, hkept.deletedAt⟩
  · intro a row hrow hlost
    rcases templateRequests.ended_by_step (Q := fun w => row ∈ w.rows) a hrow hlost with
      ⟨index, input, call, haction, hcall, hgone⟩ | ⟨event, -⟩
    · have hafter := templates_resume input hrun.1 (hrun.2 call (List.mem_of_getElem? hcall))
      exact ⟨index, input, call, haction, hcall, (hafter.own row hrow hgone).symm⟩
    · exact event.elim

end Runs

end ChainSettle
