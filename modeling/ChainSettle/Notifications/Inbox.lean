import ChainSettle.Lib.Fields
import ChainSettle.Lib.Table
import ChainSettle.Semantics.Values
import Mathlib.Data.List.Dedup
import Mathlib.Data.List.Sort

/-!
The inbox of a user, grouped by shipment. All notifications that are not snoozed are read, the
newest first; a map collects them under their shipments, in the order in which these are met. The
groups are then cut to three notifications each, sorted and paged in memory.

The pages of the grouped inbox. Every group has the figures of all its notifications, but the total
that a page reports is the number of groups on it. So the pages cover the inbox exactly if one page
has room for all groups, and no shipment has the key of the notifications without one.
-/

namespace ChainSettle

open Lib

structure InboxRow where
  id : String
  userId : String
  data : Option Json
  read : Bool
  createdAt : Nat
  snoozedUntil : Option Nat

structure NotificationGroup where
  key : String
  shipmentId : Option String
  referenceNumber : Option String
  unreadCount : Nat
  latestAt : Nat
  notifications : List InboxRow

structure GroupedPage where
  data : List NotificationGroup
  total : Nat
  page : Nat
  limit : Nat

/-- The `shipmentId` of the data, as a text. -/
def InboxRow.shipmentId (row : InboxRow) : Option String :=
  match row.data with
  | some (.obj fields) => (fields.lookup "shipmentId").map Json.toJsString
  | _ => none

def groupKey (shipmentId : Option String) : String := shipmentId.getD "__general__"

/-- The `where` of the query. -/
def InboxRow.isIn (userId : String) (unreadOnly : Bool) (now : Nat) (row : InboxRow) : Bool :=
  row.userId = userId && (!unreadOnly || !row.read) && row.snoozedUntil.all (· < now)

/-- A group before its first notification; the shipment may have a reference number. -/
def newGroup (referenceNumbers : String → Option String) (row : InboxRow) : NotificationGroup where
  key := groupKey row.shipmentId
  shipmentId := row.shipmentId
  referenceNumber := (truthyText row.shipmentId).bind referenceNumbers
  unreadCount := 0
  latestAt := row.createdAt
  notifications := []

def NotificationGroup.push (group : NotificationGroup) (row : InboxRow) : NotificationGroup :=
  { group with
    notifications := group.notifications ++ [row]
    latestAt := max group.latestAt row.createdAt
    unreadCount := group.unreadCount + if row.read then 0 else 1 }

def NotificationGroup.truncate (group : NotificationGroup) : NotificationGroup :=
  { group with
    notifications :=
      (group.notifications.insertionSort fun a b => b.createdAt ≤ a.createdAt).take 3 }

/-- The loop over the notifications. -/
def collectGroups (referenceNumbers : String → Option String) (notifications : List InboxRow) :
    Fields String NotificationGroup :=
  notifications.foldl (fun groups row =>
    let key := groupKey row.shipmentId
    let group := (Fields.get? groups key).getD (newGroup referenceNumbers row)
    Fields.set groups key (group.push row)) []

/-- `findForUser` with `groupBy` set to `shipment`. -/
def findForUser (scan : Scan InboxRow) (rows : List InboxRow)
    (referenceNumbers : String → Option String) (now : Nat) (userId : String) (unreadOnly : Bool)
    (page limit : Nat) : GroupedPage :=
  let notifications := (scan.findMany rows fun row => row.isIn userId unreadOnly now).insertionSort
    fun a b => b.createdAt ≤ a.createdAt
  let groups := collectGroups referenceNumbers notifications
  let grouped := ((((groups.map Prod.snd).map NotificationGroup.truncate).insertionSort
    fun a b => b.latestAt ≤ a.latestAt).drop ((page - 1) * limit)).take limit
  { data := grouped
    total := grouped.length
    page := page
    limit := limit }

section Groups

variable {referenceNumbers : String → Option String} {rows : List InboxRow}

/-- The distinct shipments of some notifications, with `none` for those without one. -/
def shipmentsOf (rows : List InboxRow) : List (Option String) :=
  (rows.map InboxRow.shipmentId).dedup

theorem mem_shipmentsOf {shipmentId : Option String} :
    shipmentId ∈ shipmentsOf rows ↔ ∃ row ∈ rows, row.shipmentId = shipmentId := by
  unfold shipmentsOf
  rw [List.mem_dedup, List.mem_map]

/-- A notification is added to a group, or begins one. -/
def addToGroup (referenceNumbers : String → Option String) (group : Option NotificationGroup)
    (row : InboxRow) : NotificationGroup :=
  (group.getD (newGroup referenceNumbers row)).push row

theorem collectGroups_eq (rows : List InboxRow) : collectGroups referenceNumbers rows =
    Fields.gather (fun row => groupKey row.shipmentId) (addToGroup referenceNumbers) rows [] :=
  rfl

/-- A group has the figures of its notifications. -/
structure GroupOf (rows : List InboxRow) (group : NotificationGroup) : Prop where
  unreadCount : group.unreadCount = (rows.filter fun row => !row.read).length
  latest : ∀ row ∈ rows, row.createdAt ≤ group.latestAt
  attained : ∃ row ∈ rows, row.createdAt = group.latestAt

theorem GroupOf.push {group : NotificationGroup} (h : GroupOf rows group) (row : InboxRow) :
    GroupOf (rows ++ [row]) (group.push row) where
  unreadCount := by
    rw [List.filter_append, List.length_append, ← h.unreadCount]
    unfold NotificationGroup.push
    cases hread : row.read <;> simp [hread]
  latest := by
    rw [List.forall_mem_append, List.forall_mem_singleton]
    exact ⟨fun other hmem => (h.latest other hmem).trans (Nat.le_max_left ..), Nat.le_max_right ..⟩
  attained := by
    obtain ⟨other, hmem, hother⟩ := h.attained
    rcases Nat.le_total row.createdAt group.latestAt with hle | hle
    · exact ⟨other, List.mem_append_left _ hmem, hother.trans (Nat.max_eq_left hle).symm⟩
    · exact ⟨row, List.mem_append_right _ (List.mem_cons_self ..), (Nat.max_eq_right hle).symm⟩

theorem groupOf_newGroup (row : InboxRow) :
    GroupOf [row] ((newGroup referenceNumbers row).push row) where
  unreadCount := by
    unfold newGroup NotificationGroup.push
    cases hread : row.read <;> simp [hread]
  latest := List.forall_mem_singleton.mpr (Nat.le_max_right ..)
  attained := ⟨row, List.mem_cons_self .., (Nat.max_self _).symm⟩

variable (referenceNumbers) in
/-- The rest of the notifications of a group. -/
theorem groupOf_foldl {first : List InboxRow} {group : NotificationGroup} (h : GroupOf first group)
    (rest : List InboxRow) :
    ∃ result, rest.foldl (fun value row => some (addToGroup referenceNumbers value row))
        (some group) = some result ∧ GroupOf (first ++ rest) result ∧
      result.shipmentId = group.shipmentId := by
  induction rest generalizing first group with
  | nil => exact ⟨group, rfl, by rwa [List.append_nil], rfl⟩
  | cons row rest ih =>
      obtain ⟨result, hresult, hgroup, hshipment⟩ := ih (h.push row)
      exact ⟨result, hresult, by rwa [List.append_cons], hshipment⟩

variable (referenceNumbers) in
/-- What is collected under a key. -/
theorem get?_collectGroups {key : String} {row : InboxRow} {rest : List InboxRow}
    (h : (rows.filter fun row => groupKey row.shipmentId = key) = row :: rest) :
    ∃ group, Fields.get? (collectGroups referenceNumbers rows) key = some group ∧
      GroupOf (row :: rest) group ∧ group.shipmentId = row.shipmentId := by
  obtain ⟨group, hgroup, hfigures, hshipment⟩ :=
    groupOf_foldl referenceNumbers (groupOf_newGroup row) rest
  refine ⟨group, ?_, hfigures, hshipment⟩
  rw [collectGroups_eq, Fields.get?_gather, h]
  exact hgroup

theorem keys_collectGroups_nodup :
    ((collectGroups referenceNumbers rows).map Prod.fst).Nodup := by
  rw [collectGroups_eq]
  exact Fields.keys_gather_nodup (o := []) _ _ List.nodup_nil rows

/-- The keys are those of the shipments. -/
theorem keys_collectGroups_perm :
    ((collectGroups referenceNumbers rows).map Prod.fst).Perm
      ((shipmentsOf rows).map groupKey).dedup := by
  rw [List.perm_ext_iff_of_nodup keys_collectGroups_nodup (List.nodup_dedup _)]
  intro key
  rw [collectGroups_eq, Fields.mem_keys_gather, List.mem_dedup, List.mem_map]
  constructor
  · rintro ⟨row, hrow, rfl⟩
    exact ⟨row.shipmentId, mem_shipmentsOf.mpr ⟨row, hrow, rfl⟩, rfl⟩
  · rintro ⟨shipmentId, hmem, rfl⟩
    obtain ⟨row, hrow, rfl⟩ := mem_shipmentsOf.mp hmem
    exact ⟨row, hrow, rfl⟩

/-- No shipment has the key of the notifications without one. -/
def GroupKeysApart (shipments : List (Option String)) : Prop :=
  ¬ (none ∈ shipments ∧ some "__general__" ∈ shipments)

theorem GroupKeysApart.inj {shipments : List (Option String)} (h : GroupKeysApart shipments)
    {a b : Option String} (ha : a ∈ shipments) (hb : b ∈ shipments)
    (heq : groupKey a = groupKey b) : a = b := by
  unfold groupKey at heq
  cases a with
  | none =>
      cases b with
      | none => rfl
      | some b =>
          obtain rfl : "__general__" = b := heq
          exact absurd ⟨ha, hb⟩ h
  | some a =>
      cases b with
      | none =>
          obtain rfl : a = "__general__" := heq
          exact absurd ⟨hb, ha⟩ h
      | some b => exact congrArg some heq

/-- The keys are as many as the shipments exactly if they are apart. -/
theorem length_keys_eq_iff {shipments : List (Option String)} (hnodup : shipments.Nodup) :
    (shipments.map groupKey).dedup.length = shipments.length ↔ GroupKeysApart shipments := by
  constructor
  · rintro hlength ⟨hnone, hgeneral⟩
    have hkeys : (shipments.map groupKey).dedup = shipments.map groupKey := by
      refine (List.dedup_sublist _).eq_of_length ?_
      rw [hlength, List.length_map]
    have hinj := List.inj_on_of_nodup_map (List.dedup_eq_self.mp hkeys)
    cases hinj hnone hgeneral rfl
  · intro h
    have hkeys : (shipments.map groupKey).Nodup :=
      hnodup.map_on fun a ha b hb heq => h.inj ha hb heq
    rw [List.dedup_eq_self.mpr hkeys, List.length_map]

/-- A group that is collected, with its notifications. -/
theorem mem_collectGroups {key : String} {group : NotificationGroup}
    (h : (key, group) ∈ collectGroups referenceNumbers rows) :
    groupKey group.shipmentId = key ∧ group.shipmentId ∈ shipmentsOf rows ∧
      GroupOf (rows.filter fun row => groupKey row.shipmentId = key) group := by
  have hkey := List.mem_map_of_mem (f := Prod.fst) h
  rw [collectGroups_eq, Fields.mem_keys_gather] at hkey
  obtain ⟨item, hitem, heq⟩ := hkey
  have hin : item ∈ rows.filter fun row => groupKey row.shipmentId = key :=
    List.mem_filter.mpr ⟨hitem, decide_eq_true heq⟩
  obtain ⟨row, rest, hrows⟩ := List.exists_cons_of_ne_nil (List.ne_nil_of_mem hin)
  obtain ⟨other, hother, hfigures, hshipment⟩ :=
    get?_collectGroups referenceNumbers hrows
  obtain rfl : other = group := by
    rw [(Fields.get?_eq_some_iff keys_collectGroups_nodup).mpr h] at hother
    exact (Option.some.inj hother).symm
  have hmem : row ∈ rows.filter fun row => groupKey row.shipmentId = key :=
    hrows ▸ List.mem_cons_self ..
  obtain ⟨hrow, hrowkey⟩ := List.mem_filter.mp hmem
  rw [hrows, hshipment]
  exact ⟨of_decide_eq_true hrowkey, mem_shipmentsOf.mpr ⟨row, hrow, rfl⟩, hfigures⟩

end Groups

section Pages

theorem GroupOf.perm {rows other : List InboxRow} {group : NotificationGroup}
    (h : GroupOf rows group) (hperm : rows.Perm other) : GroupOf other group where
  unreadCount := h.unreadCount.trans (hperm.filter _).length_eq
  latest row hmem := h.latest row (hperm.mem_iff.mpr hmem)
  attained := by
    obtain ⟨row, hmem, hrow⟩ := h.attained
    exact ⟨row, hperm.mem_iff.mp hmem, hrow⟩

/-- All groups in order, before they are paged. -/
def sortedGroups (referenceNumbers : String → Option String) (rows : List InboxRow) :
    List NotificationGroup :=
  (((collectGroups referenceNumbers rows).map Prod.snd).map NotificationGroup.truncate).insertionSort
    fun a b => b.latestAt ≤ a.latestAt

variable {referenceNumbers : String → Option String} {rows : List InboxRow}

theorem sortedGroups_perm : (sortedGroups referenceNumbers rows).Perm
    (((collectGroups referenceNumbers rows).map Prod.snd).map NotificationGroup.truncate) :=
  List.perm_insertionSort _ _

theorem sortedGroups_pairwise :
    (sortedGroups referenceNumbers rows).Pairwise fun a b => b.latestAt ≤ a.latestAt := by
  have htotal : Std.Total fun a b : NotificationGroup => b.latestAt ≤ a.latestAt :=
    ⟨fun a b => Nat.le_total ..⟩
  have htrans : IsTrans NotificationGroup fun a b => b.latestAt ≤ a.latestAt :=
    ⟨fun a b c hab hbc => Nat.le_trans hbc hab⟩
  exact List.pairwise_insertionSort _ _

theorem length_sortedGroups : (sortedGroups referenceNumbers rows).length =
    ((shipmentsOf rows).map groupKey).dedup.length := by
  rw [sortedGroups_perm.length_eq, List.length_map, List.length_map,
    ← keys_collectGroups_perm.length_eq, List.length_map]

/-- A group is found again among the sorted ones. -/
theorem mem_sortedGroups {group : NotificationGroup} (h : group ∈ sortedGroups referenceNumbers rows)
    (hapart : GroupKeysApart (shipmentsOf rows)) : group.shipmentId ∈ shipmentsOf rows ∧
      GroupOf (rows.filter fun row => row.shipmentId = group.shipmentId) group := by
  obtain ⟨whole, hwhole, rfl⟩ := List.mem_map.mp (sortedGroups_perm.mem_iff.mp h)
  obtain ⟨⟨key, other⟩, hentry, rfl⟩ := List.mem_map.mp hwhole
  obtain ⟨rfl, hshipment, hfigures⟩ := mem_collectGroups hentry
  have hsame : (rows.filter fun row => groupKey row.shipmentId = groupKey other.shipmentId) =
      rows.filter fun row => row.shipmentId = other.shipmentId := by
    refine List.filter_congr fun row hrow => decide_eq_decide.mpr ⟨?_, fun heq => by rw [heq]⟩
    exact hapart.inj (mem_shipmentsOf.mpr ⟨row, hrow, rfl⟩) hshipment
  rw [hsame] at hfigures
  exact ⟨hshipment, hfigures.unreadCount, hfigures.latest, hfigures.attained⟩

/-- Every shipment has one group. -/
theorem shipments_sortedGroups (hapart : GroupKeysApart (shipmentsOf rows)) :
    ((sortedGroups referenceNumbers rows).map NotificationGroup.shipmentId).Perm
      (shipmentsOf rows) := by
  have hkeys : ((sortedGroups referenceNumbers rows).map NotificationGroup.shipmentId).map groupKey =
      (sortedGroups referenceNumbers rows).map fun group => groupKey group.shipmentId :=
    List.map_map
  have hnodup : ((sortedGroups referenceNumbers rows).map NotificationGroup.shipmentId).Nodup := by
    refine List.Nodup.of_map groupKey ?_
    rw [hkeys, (sortedGroups_perm.map _).nodup_iff, List.map_map, List.map_map]
    have hfst : (collectGroups referenceNumbers rows).map
        (((fun group => groupKey group.shipmentId) ∘ NotificationGroup.truncate) ∘ Prod.snd) =
        (collectGroups referenceNumbers rows).map Prod.fst :=
      List.map_congr_left fun entry hentry => (mem_collectGroups hentry).1
    rw [hfst]
    exact keys_collectGroups_nodup
  refine (List.subperm_of_subset hnodup ?_).perm_of_length_le ?_
  · intro shipmentId hmem
    obtain ⟨group, hgroup, rfl⟩ := List.mem_map.mp hmem
    exact (mem_sortedGroups hgroup hapart).1
  · rw [List.length_map, length_sortedGroups]
    exact ((length_keys_eq_iff (List.nodup_dedup _)).mpr hapart).ge

/-- The pages up to the last one that the number of groups asks for. -/
def listedGroups (pages : Nat → GroupedPage) (total limit : Nat) : List NotificationGroup :=
  (List.range ((total + limit - 1) / limit)).flatMap fun i => (pages (i + 1)).data

/-- The pages report the number of groups and list each of them once, the latest first, with the
figures of all its notifications. -/
structure CoversInbox (pages : Nat → GroupedPage) (inbox : List InboxRow) (limit : Nat) : Prop where
  totals : ∀ page, 1 ≤ page → page ≤ ((shipmentsOf inbox).length + limit - 1) / limit →
    (pages page).total = (shipmentsOf inbox).length
  once : ((listedGroups pages (shipmentsOf inbox).length limit).map
    NotificationGroup.shipmentId).Perm (shipmentsOf inbox)
  ordered : (listedGroups pages (shipmentsOf inbox).length limit).Pairwise
    fun a b => b.latestAt ≤ a.latestAt
  figures : ∀ group ∈ listedGroups pages (shipmentsOf inbox).length limit,
    GroupOf (inbox.filter fun row => row.shipmentId = group.shipmentId) group

/-- The pages cover the inbox exactly if one of them has room for all groups, and no shipment has the
key of the notifications without one. Each page is a query of its own. -/
theorem grouped_pages_cover_iff (scan : Nat → Scan InboxRow) (rows : List InboxRow)
    (referenceNumbers : String → Option String) (now : Nat) (userId : String) (unreadOnly : Bool)
    {limit : Nat} (hlimit : 1 ≤ limit) :
    let inbox := rows.filter fun row => row.isIn userId unreadOnly now
    CoversInbox
        (fun page => findForUser (scan page) rows referenceNumbers now userId unreadOnly page limit)
        inbox limit ↔
      (shipmentsOf inbox).length ≤ limit ∧ GroupKeysApart (shipmentsOf inbox) := by
  intro inbox
  let found (page : Nat) : List InboxRow :=
    ((scan page).findMany rows fun row => row.isIn userId unreadOnly now).insertionSort
      fun a b => b.createdAt ≤ a.createdAt
  have hfound (page : Nat) : (found page).Perm inbox :=
    (List.perm_insertionSort _ _).trans ((scan page).perm _)
  have hshipments (page : Nat) : (shipmentsOf (found page)).Perm (shipmentsOf inbox) :=
    ((hfound page).map _).dedup
  have hdata (page : Nat) :
      (findForUser (scan page) rows referenceNumbers now userId unreadOnly page limit).data =
        ((sortedGroups referenceNumbers (found page)).drop ((page - 1) * limit)).take limit := rfl
  have hcount (page : Nat) : (sortedGroups referenceNumbers (found page)).length =
      ((shipmentsOf inbox).map groupKey).dedup.length := by
    rw [length_sortedGroups, ((hshipments page).map groupKey).dedup.length_eq]
  have htotal : (findForUser (scan 1) rows referenceNumbers now userId unreadOnly 1 limit).total =
      min limit ((shipmentsOf inbox).map groupKey).dedup.length := by
    have hreport :
        (findForUser (scan 1) rows referenceNumbers now userId unreadOnly 1 limit).total =
          (findForUser (scan 1) rows referenceNumbers now userId unreadOnly 1 limit).data.length := rfl
    rw [hreport, hdata, Nat.sub_self, Nat.zero_mul, List.drop_zero, List.length_take, hcount]
  constructor
  · intro h
    by_cases hnone : shipmentsOf inbox = []
    · rw [hnone]
      exact ⟨Nat.zero_le _, fun hboth => absurd hboth.1 List.not_mem_nil⟩
    · -- already the first page reports all groups
      have hpos := List.length_pos_iff.mpr hnone
      have hfirst : 1 ≤ ((shipmentsOf inbox).length + limit - 1) / limit := by
        rw [Nat.le_div_iff_mul_le hlimit]
        omega
      have hreported := htotal.symm.trans (h.totals 1 le_rfl hfirst)
      have hkeys := (List.dedup_sublist ((shipmentsOf inbox).map groupKey)).length_le
      rw [List.length_map] at hkeys
      refine ⟨by omega, (length_keys_eq_iff (List.nodup_dedup _)).mp ?_⟩
      show ((shipmentsOf inbox).map groupKey).dedup.length = (shipmentsOf inbox).length
      omega
  · rintro ⟨hle, hapart⟩
    have hkeys : ((shipmentsOf inbox).map groupKey).dedup.length = (shipmentsOf inbox).length :=
      (length_keys_eq_iff (List.nodup_dedup _)).mpr hapart
    have hapart' : GroupKeysApart (shipmentsOf (found 1)) := by
      unfold GroupKeysApart
      rw [(hshipments 1).mem_iff, (hshipments 1).mem_iff]
      exact hapart
    have hpages : ((shipmentsOf inbox).length + limit - 1) / limit ≤ 1 :=
      Nat.le_of_lt_succ (Nat.div_lt_of_lt_mul (by omega))
    have hlisted : listedGroups (fun page =>
          findForUser (scan page) rows referenceNumbers now userId unreadOnly page limit)
        (shipmentsOf inbox).length limit = sortedGroups referenceNumbers (found 1) := by
      unfold listedGroups
      rcases Nat.le_one_iff_eq_zero_or_eq_one.mp hpages with hzero | hone
      · have hshort := Nat.lt_of_div_eq_zero hlimit hzero
        have hempty : (sortedGroups referenceNumbers (found 1)).length = 0 := by
          rw [hcount 1, hkeys]
          omega
        rw [hzero, List.length_eq_zero_iff.mp hempty]
        rfl
      · rw [hone, List.range_one, List.flatMap_singleton, hdata, Nat.add_sub_cancel, Nat.zero_mul,
          List.drop_zero, List.take_of_length_le]
        rw [hcount 1, hkeys]
        exact hle
    constructor
    case totals =>
      intro page hfirst hlast
      obtain rfl : page = 1 := by omega
      exact htotal.trans (by omega)
    case once =>
      rw [hlisted]
      exact (shipments_sortedGroups hapart').trans (hshipments 1)
    case ordered =>
      rw [hlisted]
      exact sortedGroups_pairwise
    case figures =>
      intro group hgroup
      rw [hlisted] at hgroup
      exact (mem_sortedGroups hgroup hapart').2.perm ((hfound 1).filter _)

/-- An unread notification of a shipment. -/
def shipmentRow (id shipmentId : String) (createdAt : Nat) : InboxRow where
  id := id
  userId := "u1"
  data := some (.obj [("shipmentId", .str shipmentId)])
  read := false
  createdAt := createdAt
  snoozedUntil := none

def givenOrder : Scan InboxRow := ⟨id, fun _ => .refl _⟩

theorem one_page_covers :
    CoversInbox (fun page => findForUser givenOrder
        [shipmentRow "n1" "s1" 1, shipmentRow "n2" "s2" 2, shipmentRow "n3" "s1" 3] (fun _ => none) 9
        "u1" false page 2)
      [shipmentRow "n1" "s1" 1, shipmentRow "n2" "s2" 2, shipmentRow "n3" "s1" 3] 2 :=
  (grouped_pages_cover_iff (fun _ => givenOrder) _ _ 9 "u1" false (by decide)).mpr
    ⟨by decide, fun hboth => absurd hboth.1 (by decide)⟩

/-- Three shipments, two groups to a page: each page reports its own groups only. -/
theorem three_groups_on_two_pages :
    let rows := [shipmentRow "n1" "s1" 1, shipmentRow "n2" "s2" 2, shipmentRow "n3" "s3" 3]
    let pages := fun page => findForUser givenOrder rows (fun _ => none) 9 "u1" false page 2
    (shipmentsOf rows).length = 3 ∧ (pages 1).total = 2 ∧ (pages 2).total = 1 ∧
      ¬ CoversInbox pages rows 2 := by
  intro rows pages
  have hfirst : (pages 1).total = 2 := by decide
  refine ⟨by decide, hfirst, by decide, fun h => ?_⟩
  have htotal := h.totals 1 le_rfl (by decide)
  rw [hfirst] at htotal
  exact absurd htotal (by decide)

end Pages

end ChainSettle
