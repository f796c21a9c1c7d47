import ChainSettle.Etag.Tags

/-!
What the validator of a shipment says about its contents. It is computed from
the shipment's `updatedAt` and the latest one of its live milestones, so a
writer has to move one of the two. Two writers do not: `removeTag`, whose raw SQL
leaves `updatedAt` alone, and `removeMilestone`, which takes its row out of the
set that the latest one is looked up in.

A run is observed together with every stamp that it has put on the shipment or a
live milestone so far. `Since` compares two states of a run: either a part of the
contents is the same, or its stamp is one that the earlier state had not seen.
-/

namespace ChainSettle

open Lib Lib.Eff

section Validator

variable {sha1 : HexDigest} {id : String}

/-- The validator determines the two stamps. -/
theorem shipmentEtag_inj {a b : Nat} {x y : Option Nat}
    (h : shipmentEtag sha1 id a x = shipmentEtag sha1 id b y) : a = b ∧ x = y := by
  have hquoted := congrArg String.toList h
  simp only [shipmentEtag, String.toList_append] at hquoted
  have hhash := String.toList_injective
    (List.append_cancel_left (List.append_cancel_right hquoted))
  have htext := congrArg String.toList (sha1.injective hhash)
  simp only [String.toList_append, List.append_assoc] at htext
  have hdates := List.append_cancel_left (List.append_cancel_left htext)
  simp only [toISOString, String.toList_ofList] at hdates
  obtain ⟨hfirst, hrest⟩ := isoText_append_inj hdates
  have hsecond := List.append_cancel_left hrest
  refine ⟨hfirst, ?_⟩
  -- the text of a date is not empty
  have hne (n : Nat) : isoText n ≠ [] := by simp [isoText]
  cases x with
  | none =>
      cases y with
      | none => rfl
      | some n => exact absurd (by simpa [toISOString] using hsecond.symm) (hne n)
  | some m =>
      cases y with
      | none => exact absurd (by simpa [toISOString] using hsecond) (hne m)
      | some n =>
          have hsame : isoText m ++ [] = isoText n ++ [] := by
            simpa [toISOString] using hsecond
          exact congrArg some (isoText_append_inj hsame).1

theorem getDetailEtag_ok {s : Versioned} {etag : String}
    (h : getDetailEtag sha1 s id = .ok etag) :
    etag = shipmentEtag sha1 id (s.updatedAt id) (s.latest id) := by
  unfold getDetailEtag at h
  split at h
  · cases h
  · exact (Except.ok.inj h).symm

end Validator

/-- The columns of a shipment. -/
def Versioned.columns (s : Versioned) (id : String) : Option Shipment × List String :=
  (s.db.shipments.find? id, s.tags id)

/-- The stamps that the validator is computed from. -/
def Versioned.stamps (s : Versioned) (id : String) : List Nat :=
  s.updatedAt id :: (s.db.live id).map fun m => s.milestoneUpdatedAt m.key

/-- A state of a run, with every stamp seen on the shipment so far. -/
structure Observed where
  state : Versioned
  seen : List Nat

def Observed.start (id : String) (s : Versioned) : Observed := ⟨s, s.stamps id⟩

def Observed.step (config : TagsConfig) (services : Services) (id : String) (o : Observed)
    (write : DetailWrite) : Observed :=
  let next := write.apply config services o.state
  ⟨next, o.seen ++ next.stamps id⟩

/-- The later state `t` agrees with `s`, or shows it by a stamp that is new. -/
structure Since (id : String) (s t : Observed) : Prop where
  seen : s.seen ⊆ t.seen
  columns : t.state.columns id = s.state.columns id ∧ t.state.updatedAt id = s.state.updatedAt id ∨
    t.state.updatedAt id ∉ s.seen
  live : t.state.db.findMany id = s.state.db.findMany id ∧
      t.state.latest id = s.state.latest id ∨
    ∃ at_, t.state.latest id = some at_ ∧ at_ ∉ s.seen

section Since

variable {id : String} {s t u : Observed}

theorem Since.refl (s : Observed) : Since id s s :=
  ⟨fun _ h => h, .inl ⟨rfl, rfl⟩, .inl ⟨rfl, rfl⟩⟩

theorem Since.trans (h : Since id s t) (h' : Since id t u) : Since id s u := by
  refine ⟨fun _ hat => h'.seen (h.seen hat), ?_, ?_⟩
  · rcases h'.columns with ⟨hcolumns', hstamp'⟩ | hnew
    · rw [hcolumns', hstamp']
      exact h.columns
    · exact .inr fun hseen => hnew (h.seen hseen)
  · rcases h'.live with ⟨hlive', hlatest'⟩ | ⟨at_, hlatest', hnew⟩
    · rw [hlive', hlatest']
      exact h.live
    · exact .inr ⟨at_, hlatest', fun hseen => hnew (h.seen hseen)⟩

/-- Equal validators mean equal contents, for a state whose stamps were seen. -/
theorem Since.sound {sha1 : HexDigest} {etag : String} (h : Since id s t)
    (hseen : s.state.stamps id ⊆ s.seen) (hs : getDetailEtag sha1 s.state id = .ok etag)
    (ht : getDetailEtag sha1 t.state id = .ok etag) :
    t.state.columns id = s.state.columns id ∧ t.state.db.findMany id = s.state.db.findMany id := by
  have hsame := (getDetailEtag_ok hs).symm.trans (getDetailEtag_ok ht)
  obtain ⟨hupdated, hlatest⟩ := shipmentEtag_inj hsame
  constructor
  · rcases h.columns with ⟨hcolumns, -⟩ | hnew
    · exact hcolumns
    · exact absurd (hupdated ▸ hseen (.head _)) hnew
  · rcases h.live with ⟨hlive, -⟩ | ⟨at_, hat, hnew⟩
    · exact hlive
    · have hmem := (List.max?_eq_some_iff.mp (hlatest.trans hat)).1
      exact absurd (hseen (.tail _ hmem)) hnew

end Since

section Live

variable {id : String} {db next : Db}

/-- The list of live milestones is determined by which they are. -/
theorem findMany_congr (h : ∀ m, m ∈ next.live id ↔ m ∈ db.live id) :
    next.findMany id = db.findMany id := by
  have hnodup (db : Db) : (db.live id).Nodup :=
    (List.Nodup.of_map Milestone.key db.milestones.nodup).filter _
  have hperm : (next.findMany id).Perm (db.findMany id) :=
    (findMany_perm next id).trans
      (((List.perm_ext_iff_of_nodup (hnodup next) (hnodup db)).mpr h).trans
        (findMany_perm db id).symm)
  have hsorted (db : Db) :
      (db.findMany id).Pairwise fun a b => a.milestoneIndex ≤ b.milestoneIndex :=
    List.pairwise_insertionSort ..
  refine hperm.eq_of_pairwise (fun a b ha hb hab hba => ?_) (hsorted next) (hsorted db)
  obtain ⟨harow, haid, -⟩ := mem_live.mp ((findMany_perm next id).mem_iff.mp ha)
  obtain ⟨hbrow, hbid, -⟩ :=
    mem_live.mp ((h b).mpr ((findMany_perm db id).mem_iff.mp hb))
  have hkey : a.key = b.key := Prod.ext (haid.trans hbid.symm) (le_antisymm hab hba)
  exact List.inj_on_of_nodup_map next.milestones.nodup harow hbrow hkey

theorem max?_congr {xs ys : List Nat} (h : ∀ n, n ∈ xs ↔ n ∈ ys) : xs.max? = ys.max? := by
  apply Option.ext
  intro n
  simp only [List.max?_eq_some_iff, h]

/-- What the clock of an operation has to show: no stamp of the shipment twice,
and none on a milestone that is behind another one of its shipment. -/
structure WriteTimes.Fresh (times : WriteTimes) (id : String) (o : Observed) : Prop where
  shipment : times.shipmentAt id ∉ o.seen
  milestone : ∀ index, times.milestoneAt (id, index) ∉ o.seen
  later : ∀ index, ∀ m ∈ o.state.db.live id,
    o.state.milestoneUpdatedAt m.key < times.milestoneAt (id, index)

variable {o : Observed} {times : WriteTimes}

theorem mem_live_of_not_written {m : Milestone} (hm : m ∈ next.live id)
    (h : ¬ times.writesMilestone db next m.key) : m ∈ db.live id := by
  obtain ⟨hrow, hid, hlive⟩ := mem_live.mp hm
  have hsame : next.milestones.find? m.key = db.milestones.find? m.key :=
    not_not.mp (not_or.mp h).1
  have hfind : db.milestones.find? m.key = some m := hsame ▸ Table.find?_of_mem hrow
  exact mem_live.mpr ⟨Table.mem_of_find? hfind, hid, hlive⟩

theorem key_of_mem_live {m : Milestone} (h : m ∈ db.live id) : m.key = (id, m.milestoneIndex) :=
  Prod.ext (mem_live.mp h).2.1 rfl

theorem stamp_of_written {s : Versioned} {m : Milestone} (hm : m ∈ next.live id)
    (h : times.writesMilestone s.db next m.key) :
    (s.restamp next times).milestoneUpdatedAt m.key = times.milestoneAt (id, m.milestoneIndex) := by
  rw [← key_of_mem_live hm]
  exact if_pos h

/-- Where a live milestone is written, the latest stamp is new. -/
theorem latest_of_written (hfresh : times.Fresh id o) {m : Milestone} (hm : m ∈ next.live id)
    (hwritten : times.writesMilestone o.state.db next m.key) :
    ∃ at_, (o.state.restamp next times).latest id = some at_ ∧ at_ ∉ o.seen := by
  have hstamp := stamp_of_written hm hwritten
  cases hlatest : (o.state.restamp next times).latest id with
  | none =>
      have hempty : next.live id = [] := by
        simpa [Versioned.latest, List.max?_eq_none_iff, Versioned.restamp] using hlatest
      rw [hempty] at hm
      cases hm
  | some at_ =>
      refine ⟨at_, rfl, ?_⟩
      obtain ⟨hmem, hmax⟩ := List.max?_eq_some_iff.mp hlatest
      obtain ⟨top, htop, hat⟩ := List.mem_map.mp hmem
      by_cases hnew : times.writesMilestone o.state.db next top.key
      · have htopAt : times.milestoneAt (id, top.milestoneIndex) = at_ :=
          (stamp_of_written htop hnew).symm.trans hat
        exact htopAt ▸ hfresh.milestone top.milestoneIndex
      · -- an older stamp would be behind the one of `m`
        have hold : o.state.milestoneUpdatedAt top.key = at_ := (if_neg hnew).symm.trans hat
        have hlater := hfresh.later m.milestoneIndex top (mem_live_of_not_written htop hnew)
        have hbound := hmax _ (List.mem_map_of_mem hm)
        simp only [hstamp] at hbound
        omega

/-- Where none is written, none has changed. -/
theorem live_of_not_written (hkeeps : o.state.db.KeepsLive next id)
    (hnone : ∀ m ∈ next.live id, ¬ times.writesMilestone o.state.db next m.key) :
    next.findMany id = o.state.db.findMany id ∧
      (o.state.restamp next times).latest id = o.state.latest id := by
  have hmem (m : Milestone) : m ∈ next.live id ↔ m ∈ o.state.db.live id := by
    refine ⟨fun hm => mem_live_of_not_written hm (hnone m hm), fun hm => ?_⟩
    obtain ⟨m', hm', hkey⟩ := hkeeps m hm
    have hold := mem_live_of_not_written hm' (hnone m' hm')
    have hsame : m' = m := List.inj_on_of_nodup_map o.state.db.milestones.nodup
      (mem_live.mp hold).1 (mem_live.mp hm).1 hkey
    exact hsame ▸ hm'
  refine ⟨findMany_congr hmem, max?_congr fun at_ => ?_⟩
  simp only [List.mem_map]
  constructor
  · rintro ⟨m, hm, rfl⟩
    exact ⟨m, (hmem m).mp hm, (if_neg (hnone m hm)).symm⟩
  · rintro ⟨m, hm, rfl⟩
    have hm' := (hmem m).mpr hm
    exact ⟨m, hm', if_neg (hnone m hm')⟩

end Live

/-- The stamps of the write are new. -/
def DetailWrite.Fresh (id : String) (o : Observed) : DetailWrite → Prop
  | .addTag _ _ _ _ at_ => at_ ∉ o.seen
  | .removeTag _ _ _ _ => True
  | .replaceTags input _ => input.at_ ∉ o.seen
  | .row _ times => times.Fresh id o

/-- The write changes the contents and leaves the validator to older stamps. -/
def DetailWrite.Silent (id : String) (s : Versioned) : DetailWrite → Prop
  | .removeTag env shipmentId buyerAddress tag =>
      shipmentId = id ∧ RemovesTag env s shipmentId buyerAddress tag
  | .row (.removeMilestone env shipmentId milestoneIndex callerAddress) _ =>
      ∃ row, RemovesMilestone env s.db shipmentId milestoneIndex callerAddress row ∧
        row.shipmentId = id
  | _ => False

section Steps

variable {id : String} {o : Observed}

/-- A Prisma update of the tags. -/
theorem since_updateTags {shipmentId : String} {tags : List String} {at_ : Nat}
    {seen : List Nat} (h : at_ ∉ o.seen) :
    Since id o ⟨o.state.updateTags shipmentId tags at_, o.seen ++ seen⟩ := by
  refine ⟨List.subset_append_left _ _, ?_, .inl ⟨rfl, rfl⟩⟩
  by_cases hid : id = shipmentId
  · subst hid
    refine .inr ?_
    simp only [Versioned.updateTags, Function.update_self]
    exact h
  · refine .inl ⟨?_, ?_⟩
    · simp only [Versioned.columns, Versioned.updateTags, Versioned.setTags,
        Function.update_of_ne hid]
    · simp only [Versioned.updateTags, Function.update_of_ne hid]

theorem since_setTags {shipmentId : String} {tags : List String} {seen : List Nat}
    (h : shipmentId ≠ id) : Since id o ⟨o.state.setTags shipmentId tags, o.seen ++ seen⟩ := by
  refine ⟨List.subset_append_left _ _, .inl ⟨?_, rfl⟩, .inl ⟨rfl, rfl⟩⟩
  simp only [Versioned.columns, Versioned.setTags, Function.update_of_ne (Ne.symm h)]

theorem since_same {seen : List Nat} : Since id o ⟨o.state, o.seen ++ seen⟩ :=
  ⟨List.subset_append_left _ _, .inl ⟨rfl, rfl⟩, .inl ⟨rfl, rfl⟩⟩

theorem since_restamp {next : Db} {times : WriteTimes} {seen : List Nat}
    (hfresh : times.Fresh id o) (hkeeps : o.state.db.KeepsLive next id) :
    Since id o ⟨o.state.restamp next times, o.seen ++ seen⟩ := by
  refine ⟨List.subset_append_left _ _, ?_, ?_⟩
  · by_cases hwritten : times.writesShipment o.state.db next id
    · refine .inr ?_
      simp only [Versioned.restamp, hwritten, ↓reduceIte]
      exact hfresh.shipment
    · have hrow : next.shipments.find? id = o.state.db.shipments.find? id :=
        not_not.mp (not_or.mp hwritten).1
      refine .inl ⟨?_, if_neg hwritten⟩
      simp only [Versioned.columns, Versioned.restamp, hrow]
  · by_cases hwritten : ∃ m ∈ next.live id, times.writesMilestone o.state.db next m.key
    · obtain ⟨m, hm, hwritten⟩ := hwritten
      exact .inr (latest_of_written hfresh hm hwritten)
    · have hnone : ∀ m ∈ next.live id, ¬ times.writesMilestone o.state.db next m.key :=
        fun m hm h => hwritten ⟨m, hm, h⟩
      exact .inl (live_of_not_written hkeeps hnone)

/-- Only a removal takes a milestone out of the live ones. -/
theorem keepsLive_row (services : Services) (s : Versioned) (write : RowWrite) (times : WriteTimes)
    (h : ¬ (DetailWrite.row write times).Silent id s) :
    s.db.KeepsLive (write.toServiceOp.apply services s.db) id := by
  cases write with
  | cancel env shipmentId buyerAddress txHash =>
      exact keepsLive_of_eq (milestones_cancel env buyerAddress txHash)
  | replaceArbiter env shipmentId buyerAddress arbiterAddress =>
      exact keepsLive_of_eq
        (milestones_replaceArbiter services.text env buyerAddress arbiterAddress)
  | arbiterAccept env shipmentId callerAddress =>
      exact keepsLive_of_eq (milestones_answer env .accept callerAddress)
  | syncStatusFromChain env shipmentId => exact keepsLive_of_eq (milestones_sync env)
  | appendMilestone env shipmentId callerAddress dto => exact keepsLive_plan env 4 rfl
  | rebalance env shipmentId callerAddress updates => exact keepsLive_plan env 4 rfl
  | removeMilestone env shipmentId milestoneIndex callerAddress =>
      change s.db.KeepsLive (complete (PlanCall.statement env) 4
        (.removeShipment shipmentId milestoneIndex callerAddress) s.db) id
      rcases removeMilestone_cases env s.db shipmentId milestoneIndex callerAddress with
        hsame | ⟨row, hremoves, hdeleted⟩
      · rw [hsame]
        exact keepsLive_of_eq rfl
      · rw [hdeleted]
        exact keepsLive_softDelete env.now fun hid => h ⟨row, hremoves, hid⟩
  | milestoneStatus op => exact keepsLive_operation op

/-- One write with new stamps that is not silent. -/
theorem since_step (config : TagsConfig) (services : Services) (write : DetailWrite)
    (hfresh : write.Fresh id o) (hloud : ¬ write.Silent id o.state) :
    Since id o (o.step config services id write) := by
  unfold Observed.step
  cases write with
  | addTag env shipmentId buyerAddress tag at_ =>
      rcases after_addTag_cases env o.state shipmentId buyerAddress tag at_ with h | h
      · simp only [DetailWrite.apply, h]
        exact since_same
      · simp only [DetailWrite.apply, h]
        exact since_updateTags hfresh
  | removeTag env shipmentId buyerAddress tag =>
      rcases after_removeTag_cases env o.state shipmentId buyerAddress tag with h | ⟨hremoves, h⟩
      · simp only [DetailWrite.apply, h]
        exact since_same
      · simp only [DetailWrite.apply, h]
        exact since_setTags fun hid => hloud ⟨hid, hremoves⟩
  | replaceTags input request =>
      rcases complete_replaceTags_cases config input o.state 3 request with h | ⟨tags, h⟩
      · simp only [DetailWrite.apply, h]
        exact since_same
      · simp only [DetailWrite.apply, h]
        exact since_updateTags hfresh
  | row write times =>
      exact since_restamp hfresh (keepsLive_row services o.state write times hloud)

/-- The stamps of the state are among those that were seen. -/
def Observed.Recorded (id : String) (o : Observed) : Prop :=
  o.state.stamps id ⊆ o.seen

theorem stamps_recorded (config : TagsConfig) (services : Services) (s : Versioned)
    (writes : List DetailWrite) :
    (writes.foldl (Observed.step config services id) (Observed.start id s)).Recorded id :=
  List.foldlRecOn writes _ (fun _ h => h) fun _ _ _ _ => List.subset_append_right _ _

/-- Any two states of the run with one validator have the same columns and the
same live milestones. -/
def EtagSound (config : TagsConfig) (services : Services) (id : String) (s : Versioned)
    (writes : List DetailWrite) : Prop :=
  ∀ pre mid post, writes = pre ++ mid ++ post →
    let earlier := (pre.foldl (Observed.step config services id) (Observed.start id s)).state
    let later := ((pre ++ mid).foldl (Observed.step config services id) (Observed.start id s)).state
    ∀ etag, getDetailEtag config.sha1 earlier id = .ok etag →
      getDetailEtag config.sha1 later id = .ok etag →
        later.columns id = earlier.columns id ∧ later.db.findMany id = earlier.db.findMany id

/-- In a run whose writes get new stamps and are not silent, equal validators mean
equal contents. -/
theorem etag_sound_of_stamped (config : TagsConfig) (services : Services) (id : String)
    (s : Versioned) (writes : List DetailWrite)
    (hrun : Along (Observed.step config services id)
      (fun o write => write.Fresh id o ∧ ¬ write.Silent id o.state)
      (Observed.start id s) writes) :
    EtagSound config services id s writes := by
  intro pre mid post hsplit earlier later etag hearlier hlater
  have hsteps : Along (Observed.step config services id)
      (fun o write => Since id o (o.step config services id write)) (Observed.start id s)
      writes := by
    rw [along_iff_forall] at hrun ⊢
    intro before write rest hwrites
    obtain ⟨hfresh, hloud⟩ := hrun before write rest hwrites
    exact since_step config services write hfresh hloud
  have hsince := (along_iff_between Since.refl (fun _ _ _ => Since.trans) _ _).mpr hsteps
    pre mid post hsplit
  exact hsince.sound (stamps_recorded config services s pre) hearlier hlater

end Steps

/-- The SHA-1 of what is hashed for the shipment below. -/
def demoDigests : DigestTable where
  entries :=
    [("SHIP-1:1970-01-01T00:00:00.001Z:1970-01-01T00:00:00.002Z",
      "7cafcac061c4325a70cac384090317752ba33212"),
     ("SHIP-1:1970-01-01T00:00:00.005Z:1970-01-01T00:00:00.002Z",
      "2b21c49453aa64c5e83aaba46a70892288f3c397")]
  nodup := by decide
  hex := by
    intro e he
    rcases List.mem_pair.mp he with rfl | rfl <;> exact List.all_eq_true.mp (by decide)
  short := by decide

def demoConfig : TagsConfig := ⟨demoDigests.toHexDigest, .ascii, false⟩

/-- Two milestones, written one after the other, and one tag. -/
def taggedState : Versioned where
  db := plannedDb
  tags _ := ["fragile"]
  updatedAt _ := 1
  milestoneUpdatedAt key := key.2.toNat + 1

/-- A tag is added, and a stranger cannot take it away. -/
theorem refused_removal_keeps_contents :
    EtagSound demoConfig openServices "SHIP-1" taggedState
      [.addTag (.calm 5) "SHIP-1" "GBUYER" "urgent" 5,
        .removeTag (.calm 6) "SHIP-1" "GSTRANGER" "urgent"] := by
  have hnew : 5 ∉ taggedState.stamps "SHIP-1" := by decide
  apply etag_sound_of_stamped
  refine ⟨⟨hnew, fun h => h⟩, ⟨trivial, ?_⟩, trivial⟩
  rintro ⟨-, ⟨-, shipment, hfound, hbuyer, -⟩, -, -⟩
  cases hfound
  revert hbuyer
  decide

/-- The clock readings of a run that writes the milestones at `at_`. -/
def WriteTimes.single (at_ : Nat) : WriteTimes :=
  ⟨fun _ => at_, fun _ => at_, fun _ => false, fun _ => false⟩

/-- The buyer takes a tag away, or the milestone that was written first. -/
theorem silent_writes_keep_etag :
    (Along (Observed.step demoConfig openServices "SHIP-1") (fun o write => write.Fresh "SHIP-1" o)
        (Observed.start "SHIP-1" taggedState) [.removeTag (.calm 5) "SHIP-1" "GBUYER" "fragile"] ∧
      ¬ EtagSound demoConfig openServices "SHIP-1" taggedState
        [.removeTag (.calm 5) "SHIP-1" "GBUYER" "fragile"]) ∧
    (Along (Observed.step demoConfig openServices "SHIP-1") (fun o write => write.Fresh "SHIP-1" o)
        (Observed.start "SHIP-1" taggedState)
        [.row (.removeMilestone (.calm 5) "SHIP-1" 0 "GBUYER") (.single 5)] ∧
      ¬ EtagSound demoConfig openServices "SHIP-1" taggedState
        [.row (.removeMilestone (.calm 5) "SHIP-1" 0 "GBUYER") (.single 5)]) := by
  have hnew : 5 ∉ taggedState.stamps "SHIP-1" := by decide
  have hlater : ∀ m ∈ taggedState.db.live "SHIP-1", taggedState.milestoneUpdatedAt m.key < 5 := by
    decide
  refine ⟨⟨⟨trivial, trivial⟩, fun h => ?_⟩,
    ⟨⟨⟨hnew, fun _ => hnew, fun _ => hlater⟩, trivial⟩, fun h => ?_⟩⟩
  · have hsame := h [] [_] [] rfl _ rfl rfl
    revert hsame
    decide
  · have hsame := h [] [_] [] rfl _ rfl rfl
    revert hsame
    decide

end ChainSettle
