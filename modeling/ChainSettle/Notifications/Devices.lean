import ChainSettle.Lib.Numbered
import ChainSettle.Lib.Pool
import ChainSettle.Lib.Table
import Mathlib.Data.List.Count

/-!
Push notifications to the devices of a user, as FCM tokens or web push subscriptions. A device is
known by its token or its endpoint, and belongs to the user who has registered it last. A push reads
the devices of its user, sends to all of them at once, and deletes those that the push service says
are gone when all have been answered. Registrations, removals and pushes are under way in any number,
each of them suspended before its next statement.

A device that a user has left gets none of that user's notifications any more, but for those whose
devices had been read. And a device is forgotten only by its own user, or once it was said to be gone.
-/

namespace ChainSettle

open Lib

section Services

variable {ε : Type}

/-- What the two services differ in: which failures say that a device is gone, and whether a device
that is registered again has its details replaced. -/
structure PushService (ε : Type) where
  enabled : Bool
  isGone : ε → Bool
  updatesDetails : Bool

/-- `PushNotificationService`; a failure is the code of FCM, and the details are the platform. -/
def pushNotificationService (enabled : Bool) : PushService String where
  enabled := enabled
  isGone code := code = "messaging/registration-token-not-registered" ||
    code = "messaging/invalid-registration-token"
  updatesDetails := false

/-- `WebPushService`; a failure is the status of the push service, and the details are the keys. -/
def webPushService (enabled : Bool) : PushService Nat where
  enabled := enabled
  isGone status := status = 404 || status = 410
  updatesDetails := true

/-- `key` is the token or the endpoint. -/
structure Device where
  id : Nat
  key : String
  userId : String
  details : String
deriving DecidableEq

inductive DeviceEvent where
  | pushed (userId key content : String)
  | gone (device : Device)
deriving DecidableEq

structure DeviceWorld where
  table : Numbered Device.id
  /-- the latest first -/
  journal : List DeviceEvent

inductive DeviceCall where
  | register (userId key details : String)
  | remove (userId key : String)
  | sendToUser (userId content : String)
  /-- with the devices that were read -/
  | send (userId content : String) (devices : List Device)
  /-- with the devices that have not answered, and the ids of those that are gone -/
  | settle (pending : List Device) (staleIds : List Nat)
  | deleteStale (staleIds : List Nat)

/-- Whether the statement throws, in which order the rows come, which device answers next, and the
failure it answers with. -/
structure DeviceInput (ε : Type) where
  thrown : Bool
  scan : Scan Device
  index : Nat
  failure : Option ε

variable (service : PushService ε)

def Device.handOver (device : Device) (userId details : String) : Device :=
  { device with
    userId := userId
    details := if service.updatesDetails then details else device.details }

/-- `upsert` by the key. -/
def DeviceWorld.upsert (w : DeviceWorld) (userId key details : String) : DeviceWorld :=
  if w.table.rows.any fun device => device.key = key then
    { w with
      table := w.table.modify
        (fun device => if device.key = key then device.handOver service userId details else device)
        fun device => by split <;> rfl }
  else { w with table := w.table.insert ⟨w.table.created, key, userId, details⟩ rfl }

def DeviceWorld.delete (w : DeviceWorld) (p : Device → Bool) : DeviceWorld :=
  { w with table := w.table.filter fun device => ¬ p device }

def DeviceCall.resume (input : DeviceInput ε) (w : DeviceWorld) :
    DeviceCall → DeviceWorld × List DeviceCall
  | .register userId key details =>
      if input.thrown then (w, []) else (w.upsert service userId key details, [])
  | .remove userId key =>
      if input.thrown then (w, [])
      else (w.delete fun device => device.userId = userId && device.key = key, [])
  | .sendToUser userId content =>
      if ¬ service.enabled ∨ input.thrown then (w, [])
      else
        let devices := input.scan.findMany w.table.rows fun device => device.userId = userId
        if devices.length = 0 then (w, []) else (w, [.send userId content devices])
  | .send userId content devices =>
      let pushed := devices.map fun device => DeviceEvent.pushed userId device.key content
      ({ w with journal := pushed ++ w.journal }, [.settle devices []])
  | .settle [] staleIds => if staleIds.length = 0 then (w, []) else (w, [.deleteStale staleIds])
  | .settle (first :: rest) staleIds =>
      let pending := first :: rest
      match pending[input.index]? with
      | none => (w, [.settle pending staleIds])
      | some device =>
          if input.failure.any service.isGone then
            ({ w with journal := .gone device :: w.journal },
              [.settle (pending.eraseIdx input.index) (staleIds ++ [device.id])])
          else (w, [.settle (pending.eraseIdx input.index) staleIds])
  | .deleteStale staleIds =>
      if input.thrown then (w, [])
      else (w.delete fun device => device.id ∈ staleIds, [])

def devicePushes : PoolSystem DeviceWorld DeviceCall (DeviceInput ε) Empty where
  starts call := match call with
    | .register _ _ _ | .remove _ _ | .sendToUser _ _ => true
    | _ => false
  resume input w call := call.resume service input w
  external event _ := event.elim

abbrev DevicePool := Pool DeviceWorld DeviceCall

abbrev DeviceAction (ε : Type) := PoolAction DeviceCall (DeviceInput ε) Empty

def noDevices : DevicePool := ⟨⟨.empty, []⟩, []⟩

end Services

section Steps

variable {ε : Type} (service : PushService ε)

/-- Everything that a statement can do, and what it can ask for. -/
inductive DeviceStep (w : DeviceWorld) : DeviceCall → DeviceWorld × List DeviceCall → Prop where
  | ended (call : DeviceCall) : DeviceStep w call (w, [])
  | registered (userId key details : String) :
      DeviceStep w (.register userId key details) (w.upsert service userId key details, [])
  | removed (userId key : String) :
      DeviceStep w (.remove userId key)
        (w.delete fun device => device.userId = userId && device.key = key, [])
  | read (userId content : String) (devices : List Device)
      (h : ∀ device ∈ devices, device ∈ w.table.rows ∧ device.userId = userId) :
      DeviceStep w (.sendToUser userId content) (w, [.send userId content devices])
  | sent (userId content : String) (devices : List Device) :
      DeviceStep w (.send userId content devices)
        ({ w with journal :=
          (devices.map fun device => .pushed userId device.key content) ++ w.journal },
        [.settle devices []])
  | waiting (pending rest : List Device) (staleIds : List Nat) (h : rest ⊆ pending) :
      DeviceStep w (.settle pending staleIds) (w, [.settle rest staleIds])
  | gone (pending rest : List Device) (staleIds : List Nat) (device : Device)
      (h : rest ⊆ pending) (hdevice : device ∈ pending) :
      DeviceStep w (.settle pending staleIds)
        ({ w with journal := .gone device :: w.journal },
        [.settle rest (staleIds ++ [device.id])])
  | settled (staleIds : List Nat) :
      DeviceStep w (.settle [] staleIds) (w, [.deleteStale staleIds])
  | deleted (staleIds : List Nat) :
      DeviceStep w (.deleteStale staleIds) (w.delete fun device => device.id ∈ staleIds, [])

theorem deviceStep_resume (input : DeviceInput ε) (w : DeviceWorld) (call : DeviceCall) :
    DeviceStep service w call (call.resume service input w) := by
  cases call with
  | register userId key details =>
      simp only [DeviceCall.resume]
      split
      · exact .ended _
      · exact .registered userId key details
  | remove userId key =>
      simp only [DeviceCall.resume]
      split
      · exact .ended _
      · exact .removed userId key
  | sendToUser userId content =>
      simp only [DeviceCall.resume]
      split
      · exact .ended _
      · split
        · exact .ended _
        · refine .read userId content _ fun device hdevice => ?_
          obtain ⟨hmem, hown⟩ := Scan.mem_findMany.mp hdevice
          exact ⟨hmem, of_decide_eq_true hown⟩
  | send userId content devices => exact .sent userId content devices
  | settle pending staleIds =>
      cases pending with
      | nil =>
          simp only [DeviceCall.resume]
          split
          · exact .ended _
          · exact .settled staleIds
      | cons first rest =>
          simp only [DeviceCall.resume]
          have hrest := List.eraseIdx_subset (l := first :: rest) (k := input.index)
          cases hdevice : (first :: rest)[input.index]? with
          | none => exact .waiting _ _ staleIds (List.Subset.refl _)
          | some device =>
              dsimp only
              split
              · exact .gone _ _ staleIds device hrest (List.mem_of_getElem? hdevice)
              · exact .waiting _ _ staleIds hrest
  | deleteStale staleIds =>
      simp only [DeviceCall.resume]
      split
      · exact .ended _
      · exact .deleted staleIds

end Steps

section Silence

variable {ε : Type} {service : PushService ε} {userId key : String} {w : DeviceWorld}
  {call : DeviceCall} {outcome : DeviceWorld × List DeviceCall}

variable (userId key) in
def isPushTo : DeviceEvent → Bool
  | .pushed user device _ => user = userId && device = key
  | .gone _ => false

variable (userId key) in
/-- What a call will still send to a device for a user: one push for each time it has read it. -/
def DeviceCall.due : DeviceCall → Nat
  | .send user _ devices => if user = userId then devices.countP fun device => device.key = key else 0
  | _ => 0

variable (userId key) in
def HasLeft (w : DeviceWorld) : Prop :=
  ∀ device ∈ w.table.rows, device.key = key → device.userId ≠ userId

/-- The user has left the device, and does not register it. -/
structure Left (userId key : String) (s : DevicePool) : Prop where
  devices : HasLeft userId key s.shared
  calls : ∀ call ∈ s.inflight, ∀ details, call ≠ .register userId key details

theorem countP_pushed (devices : List Device) (user content : String) :
    (devices.map fun device => DeviceEvent.pushed user device.key content).countP
        (isPushTo userId key) =
      DeviceCall.due userId key (.send user content devices) := by
  rw [List.countP_map, DeviceCall.due]
  by_cases huser : user = userId
  · subst huser
    rw [if_pos rfl]
    exact List.countP_congr fun device _ => by simp [isPushTo]
  · rw [if_neg huser]
    exact List.countP_eq_zero.mpr fun device _ => by simp [isPushTo, huser]

/-- While the user has left the device, nothing is sent but what was due. -/
theorem pushDue_step (hleft : HasLeft userId key w) (hstep : DeviceStep service w call outcome) :
    outcome.1.journal.countP (isPushTo userId key) +
        (outcome.2.map (DeviceCall.due userId key)).sum ≤
      w.journal.countP (isPushTo userId key) + call.due userId key := by
  cases hstep with
  | registered user device details =>
      unfold DeviceWorld.upsert
      split <;> exact Nat.le_refl _
  | read user content devices hread =>
      have hnone : DeviceCall.due userId key (.send user content devices) = 0 := by
        rw [DeviceCall.due]
        split
        · rename_i huser
          refine List.countP_eq_zero.mpr fun device hdevice hkey => ?_
          obtain ⟨hmem, hown⟩ := hread device hdevice
          exact hleft device hmem (of_decide_eq_true hkey) (hown.trans huser)
        · rfl
      rw [List.map_singleton, List.sum_singleton, hnone]
      exact Nat.le_refl _
  | sent user content devices =>
      rw [List.countP_append, countP_pushed, Nat.add_comm (DeviceCall.due userId key _)]
      exact Nat.le_refl _
  | gone pending rest staleIds device =>
      rw [List.countP_cons_of_neg (by simp [isPushTo])]
      exact Nat.le_refl _
  | ended => exact Nat.le_add_right _ _
  | _ => exact Nat.le_refl _

theorem HasLeft.delete (hleft : HasLeft userId key w) (p : Device → Bool) :
    HasLeft userId key (w.delete p) :=
  fun device hdevice => hleft device (List.mem_of_mem_filter hdevice)

theorem HasLeft.step (hleft : HasLeft userId key w)
    (hcall : ∀ details, call ≠ .register userId key details)
    (hstep : DeviceStep service w call outcome) : HasLeft userId key outcome.1 := by
  cases hstep with
  | registered user device details =>
      have hother : device = key → user ≠ userId := by
        rintro rfl rfl
        exact hcall details rfl
      unfold DeviceWorld.upsert
      split
      · intro found hfound hkey
        obtain ⟨old, hold, rfl⟩ := List.mem_map.mp hfound
        split at hkey
        · rename_i hdevice
          rw [if_pos hdevice]
          exact hother (hdevice.symm.trans hkey)
        · rename_i hdevice
          rw [if_neg hdevice]
          exact hleft old hold hkey
      · intro found hfound hkey
        rcases List.mem_append.mp hfound with hfound | hfound
        · exact hleft found hfound hkey
        · rw [List.mem_singleton.mp hfound] at hkey ⊢
          exact hother hkey
  | removed user device => exact hleft.delete _
  | deleted staleIds => exact hleft.delete _
  | _ => exact hleft

/-- Registrations come from users only. -/
theorem DeviceStep.asks (hstep : DeviceStep service w call outcome) :
    ∀ next ∈ outcome.2, ∀ details, next ≠ .register userId key details := by
  cases hstep with
  | ended | registered | removed | deleted => exact List.forall_mem_nil _
  | read | sent | waiting | gone | settled =>
      refine List.forall_mem_singleton.mpr ?_
      rintro details ⟨⟩

theorem Left.step {s : DevicePool} (h : Left userId key s) {a : DeviceAction ε}
    (ha : ∀ details, a ≠ .begin (.register userId key details)) :
    Left userId key ((devicePushes service).step s a) := by
  suffices hnext : HasLeft userId key ((devicePushes service).step s a).shared ∧
      ∀ call ∈ ((devicePushes service).step s a).inflight,
        ∀ details, call ≠ .register userId key details from ⟨hnext.1, hnext.2⟩
  refine (devicePushes service).keeps_step (Q := HasLeft userId key)
    (P := fun _ call => ∀ details, call ≠ .register userId key details) a h.devices h.calls ?_ ?_
    fun event => event.elim
  · rintro call rfl - details rfl
    exact ha details rfl
  · intro index input call _ hcall
    have hstep := deviceStep_resume service input s.shared call
    exact ⟨h.devices.step (h.calls call (List.mem_of_getElem? hcall)) hstep, hstep.asks,
      fun other hother => h.calls other (List.mem_of_mem_eraseIdx hother)⟩

/-- From when a user has left a device until he registers it again, the device gets no push for
him but from those that had read it before. -/
theorem left_device_silent (service : PushService ε) (early late : List (DeviceAction ε))
    (userId key : String) :
    let before := (devicePushes service).run early noDevices
    let last := (devicePushes service).run late before
    Left userId key before → (∀ a ∈ late, ∀ details, a ≠ .begin (.register userId key details)) →
      last.shared.journal.countP (isPushTo userId key) ≤
        before.shared.journal.countP (isPushTo userId key) +
          (before.inflight.map (DeviceCall.due userId key)).sum := by
  intro before last hleft hlate
  have hlast : Left userId key last ∧ last.shared.journal.countP (isPushTo userId key) +
      (last.inflight.map (DeviceCall.due userId key)).sum ≤
        before.shared.journal.countP (isPushTo userId key) +
          (before.inflight.map (DeviceCall.due userId key)).sum := by
    refine List.foldlRecOn late (devicePushes service).step
      (motive := fun s => Left userId key s ∧ s.shared.journal.countP (isPushTo userId key) +
        (s.inflight.map (DeviceCall.due userId key)).sum ≤ _)
      ⟨hleft, Nat.le_refl _⟩ fun s hs a ha => ⟨hs.1.step (hlate a ha), ?_⟩
    refine (devicePushes service).budget_step
      (fun w => w.journal.countP (isPushTo userId key)) (fun _ => _) (DeviceCall.due userId key) a
      hs.2 ?_ ?_ fun event => event.elim
    · intro call hstart
      cases call with
      | send user content devices => cases hstart
      | _ => rfl
    · intro index input call others _ _ _ hbudget
      have hpaid := pushDue_step hs.1.devices (deviceStep_resume service input s.shared call)
      calc
        _ = _ + others := (Nat.add_assoc _ _ _).symm
        _ ≤ _ + others := Nat.add_le_add_right hpaid others
        _ = _ := Nat.add_assoc _ _ _
        _ ≤ _ := hbudget
  exact Nat.le_trans (Nat.le_add_right _ _) hlast.2

def demoPush (failure : Option Nat) : DeviceInput Nat :=
  ⟨false, ⟨id, fun _ => .refl _⟩, 0, failure⟩

/-- A browser is registered, and a push has read it when another user signs in on it. -/
def demoHandover : List (DeviceAction Nat) :=
  [.begin (.register "u1" "https://push.test/1" "k1"), .resume 0 (demoPush none),
    .begin (.sendToUser "u1" "hello"), .resume 0 (demoPush none),
    .begin (.register "u2" "https://push.test/1" "k2"), .resume 1 (demoPush none)]

/-- That push is still sent, and no later one. -/
theorem demo_device_silent :
    let before := (devicePushes (webPushService true)).run demoHandover noDevices
    let last := (devicePushes (webPushService true)).run
      [.resume 0 (demoPush none), .begin (.sendToUser "u1" "again"), .resume 1 (demoPush none)] before
    last.shared.journal.countP (isPushTo "u1" "https://push.test/1") = 1 ∧
      last.shared.journal.countP (isPushTo "u1" "https://push.test/1") ≤
        before.shared.journal.countP (isPushTo "u1" "https://push.test/1") +
          (before.inflight.map (DeviceCall.due "u1" "https://push.test/1")).sum := by
  have hleft : Left "u1" "https://push.test/1"
      ((devicePushes (webPushService true)).run demoHandover noDevices) := by
    refine ⟨fun device hdevice _ => ?_, List.forall_mem_singleton.mpr ?_⟩
    · obtain rfl : device = ⟨0, "https://push.test/1", "u2", "k2"⟩ := List.mem_singleton.mp hdevice
      decide
    · rintro details ⟨⟩
  refine ⟨by decide,
    left_device_silent (webPushService true) demoHandover _ "u1" "https://push.test/1" hleft ?_⟩
  simp

end Silence

section Removal

variable {ε : Type} {service : PushService ε} {w w' : DeviceWorld} {call : DeviceCall}
  {outcome : DeviceWorld × List DeviceCall}

/-- The id of a device that was read stays that of its key. -/
def KnownDevice (w : DeviceWorld) (known : Device) : Prop :=
  w.table.Known (fun device => device.key = known.key) known.id

/-- The ids that are to be deleted are those of devices that are gone. -/
def SaidGone (w : DeviceWorld) (staleIds : List Nat) : Prop :=
  ∀ i ∈ staleIds, ∃ known, known.id = i ∧ .gone known ∈ w.journal

def DevicesKnown (w : DeviceWorld) : DeviceCall → Prop
  | .send _ _ devices => ∀ device ∈ devices, KnownDevice w device
  | .settle pending staleIds => (∀ device ∈ pending, KnownDevice w device) ∧ SaidGone w staleIds
  | .deleteStale staleIds => SaidGone w staleIds
  | _ => True

def SameKey (old device : Device) : Prop := device.key = old.key

theorem SameKey.refl (device : Device) : SameKey device device := rfl

/-- How the world goes on: devices keep their ids and keys, and new ones have new ids. -/
structure DevicesGoOn (w w' : DeviceWorld) : Prop where
  table : w.table.GoesOn SameKey w'.table
  journal : w.journal ⊆ w'.journal

theorem KnownDevice.goesOn {known : Device} (h : KnownDevice w known) (hon : DevicesGoOn w w') :
    KnownDevice w' known :=
  Numbered.Known.goesOn h hon.table fun _ _ hkey hknown => hkey.trans hknown

theorem SaidGone.goesOn {staleIds : List Nat} (h : SaidGone w staleIds) (hon : DevicesGoOn w w') :
    SaidGone w' staleIds := by
  intro i hi
  obtain ⟨known, hid, hgone⟩ := h i hi
  exact ⟨known, hid, hon.journal hgone⟩

theorem DevicesKnown.goesOn {call : DeviceCall} (h : DevicesKnown w call)
    (hon : DevicesGoOn w w') : DevicesKnown w' call := by
  cases call with
  | send userId content devices => exact fun device hdevice => (h device hdevice).goesOn hon
  | settle pending staleIds =>
      exact ⟨fun device hdevice => (h.1 device hdevice).goesOn hon, h.2.goesOn hon⟩
  | deleteStale staleIds => exact SaidGone.goesOn h hon
  | _ => trivial

theorem DeviceStep.goesOn (hstep : DeviceStep service w call outcome) :
    DevicesGoOn w outcome.1 := by
  cases hstep with
  | registered userId key details =>
      unfold DeviceWorld.upsert
      split
      · refine ⟨.modify (fun device => ?_) (fun device => by split <;> rfl), List.Subset.refl _⟩
        unfold SameKey
        split <;> rfl
      · exact ⟨.insert SameKey.refl rfl, List.Subset.refl _⟩
  | removed userId key => exact ⟨.filter SameKey.refl _, List.Subset.refl _⟩
  | deleted staleIds => exact ⟨.filter SameKey.refl _, List.Subset.refl _⟩
  | sent userId content devices => exact ⟨.refl SameKey.refl, List.subset_append_right _ _⟩
  | gone pending rest staleIds device => exact ⟨.refl SameKey.refl, List.subset_cons_self _ _⟩
  | _ => exact ⟨.refl SameKey.refl, List.Subset.refl _⟩

/-- What is said to be gone was known. -/
def GoneKnown (w : DeviceWorld) : Prop := ∀ known, .gone known ∈ w.journal → KnownDevice w known

theorem GoneKnown.step (h : GoneKnown w) (hcall : DevicesKnown w call)
    (hstep : DeviceStep service w call outcome) : GoneKnown outcome.1 := by
  have hon := hstep.goesOn
  refine fun known hgone => KnownDevice.goesOn ?_ hon
  cases hstep with
  | registered userId key details =>
      unfold DeviceWorld.upsert at hgone
      refine h known ?_
      split at hgone <;> exact hgone
  | sent userId content devices =>
      rcases List.mem_append.mp hgone with hgone | hgone
      · obtain ⟨device, -, heq⟩ := List.mem_map.mp hgone
        cases heq
      · exact h known hgone
  | gone pending rest staleIds device hrest hdevice =>
      rcases List.mem_cons.mp hgone with hgone | hgone
      · cases hgone
        exact hcall.1 known hdevice
      · exact h known hgone
  | _ => exact h known hgone

/-- What a statement asks for is known as well. -/
theorem DevicesKnown.step (hcall : DevicesKnown w call)
    (hstep : DeviceStep service w call outcome) :
    ∀ next ∈ outcome.2, DevicesKnown outcome.1 next := by
  have hon := hstep.goesOn
  cases hstep with
  | ended | registered | removed | deleted => exact List.forall_mem_nil _
  | read userId content devices hread =>
      refine List.forall_mem_singleton.mpr fun device hdevice => ?_
      exact .of_mem (hread device hdevice).1 rfl
  | sent userId content devices =>
      refine List.forall_mem_singleton.mpr
        ⟨fun device hdevice => (hcall device hdevice).goesOn hon, ?_⟩
      exact List.forall_mem_nil _
  | waiting pending rest staleIds hrest =>
      exact List.forall_mem_singleton.mpr ⟨fun device hdevice => hcall.1 device (hrest hdevice),
        hcall.2⟩
  | gone pending rest staleIds device hrest hdevice =>
      refine List.forall_mem_singleton.mpr
        ⟨fun other hother => (hcall.1 other (hrest hother)).goesOn hon, fun i hi => ?_⟩
      rcases List.mem_append.mp hi with hi | hi
      · exact hcall.2.goesOn hon i hi
      · exact ⟨device, (List.mem_singleton.mp hi).symm, List.mem_cons_self⟩
  | settled staleIds => exact List.forall_mem_singleton.mpr hcall.2

theorem devices_step {s : DevicePool} (a : DeviceAction ε)
    (h : GoneKnown s.shared ∧ ∀ call ∈ s.inflight, DevicesKnown s.shared call) :
    GoneKnown ((devicePushes service).step s a).shared ∧
      ∀ call ∈ ((devicePushes service).step s a).inflight,
        DevicesKnown ((devicePushes service).step s a).shared call := by
  refine (devicePushes service).keeps_step a h.1 h.2 ?_ ?_ fun event => event.elim
  · intro call _ hstart
    cases call with
    | send userId content devices => cases hstart
    | settle pending staleIds => cases hstart
    | deleteStale staleIds => cases hstart
    | _ => trivial
  · intro index input call _ hcall
    have hknown := h.2 call (List.mem_of_getElem? hcall)
    have hstep := deviceStep_resume service input s.shared call
    exact ⟨h.1.step hknown hstep, hknown.step hstep, fun other hother =>
      (h.2 other (List.mem_of_mem_eraseIdx hother)).goesOn hstep.goesOn⟩

/-- A device that a statement forgets is removed for its user, or is one of those to be deleted. -/
theorem DeviceStep.forgets (hstep : DeviceStep service w call outcome) {device : Device}
    (hdevice : device ∈ w.table.rows)
    (hgone : ∀ other ∈ outcome.1.table.rows, other.key ≠ device.key) :
    call = .remove device.userId device.key ∨
      ∃ staleIds, call = .deleteStale staleIds ∧ device.id ∈ staleIds := by
  cases hstep with
  | registered userId key details =>
      unfold DeviceWorld.upsert at hgone
      split at hgone
      · refine absurd ?_ (hgone _ (List.mem_map_of_mem hdevice))
        split <;> rfl
      · exact absurd rfl (hgone device (List.mem_append_left _ hdevice))
  | removed userId key =>
      refine .inl ?_
      by_contra hother
      refine hgone device (List.mem_filter.mpr ⟨hdevice, ?_⟩) rfl
      simp only [decide_eq_true_eq, Bool.and_eq_true]
      rintro ⟨rfl, rfl⟩
      exact hother rfl
  | deleted staleIds =>
      refine .inr ⟨staleIds, rfl, ?_⟩
      by_contra hnot
      exact hgone device (List.mem_filter.mpr ⟨hdevice, by simpa using hnot⟩) rfl
  | _ => exact absurd rfl (hgone device hdevice)

/-- A device is forgotten only when its own user removes it, or after the push service has said
that it is gone. -/
theorem device_forgotten (service : PushService ε) (actions : List (DeviceAction ε))
    (a : DeviceAction ε) (device : Device) :
    let before := (devicePushes service).run actions noDevices
    device ∈ before.shared.table.rows →
      (∀ other ∈ ((devicePushes service).step before a).shared.table.rows,
        other.key ≠ device.key) →
      (∃ index input, a = .resume index input ∧
        before.inflight[index]? = some (.remove device.userId device.key)) ∨
      ∃ known, known.id = device.id ∧ known.key = device.key ∧
        .gone known ∈ before.shared.journal := by
  intro before hdevice hgone
  have hsound : GoneKnown before.shared ∧
      ∀ call ∈ before.inflight, DevicesKnown before.shared call := by
    refine List.foldlRecOn actions (devicePushes service).step
      (motive := fun s => GoneKnown s.shared ∧ ∀ call ∈ s.inflight, DevicesKnown s.shared call)
      ⟨?_, ?_⟩ fun _ hs a _ => devices_step a hs
    · rintro known ⟨⟩
    · exact List.forall_mem_nil _
  rcases (devicePushes service).ended_by_step
    (Q := fun w => ∃ other ∈ w.table.rows, other.key = device.key) a ⟨device, hdevice, rfl⟩
    (by simpa using hgone) with ⟨index, input, call, haction, hcall, hnot⟩ | ⟨event, -⟩
  · have hstep := deviceStep_resume service input before.shared call
    rcases hstep.forgets hdevice fun other hother hkey => hnot ⟨other, hother, hkey⟩ with
      rfl | ⟨staleIds, rfl, hid⟩
    · exact .inl ⟨index, input, haction, hcall⟩
    · obtain ⟨known, hknown, hsaid⟩ := hsound.2 _ (List.mem_of_getElem? hcall) device.id hid
      have hkey := (hsound.1 known hsaid).holds device hdevice hknown.symm
      exact .inr ⟨known, hknown, hkey.symm, hsaid⟩
  · exact event.elim

/-- The push service answers that a device is gone, and it is deleted. -/
def demoGone : List (DeviceAction Nat) :=
  [.begin (.register "u1" "https://push.test/1" "k1"), .resume 0 (demoPush none),
    .begin (.sendToUser "u1" "hello"), .resume 0 (demoPush none), .resume 0 (demoPush none),
    .resume 0 (demoPush (some 410)), .resume 0 (demoPush none)]

theorem demo_device_forgotten :
    let before := (devicePushes (webPushService true)).run demoGone noDevices
    (∃ index input, PoolAction.resume 0 (demoPush none) = (.resume index input : DeviceAction Nat) ∧
      before.inflight[index]? = some (.remove "u1" "https://push.test/1")) ∨
    ∃ known, known.id = 0 ∧ known.key = "https://push.test/1" ∧ .gone known ∈ before.shared.journal :=
  device_forgotten (webPushService true) demoGone (.resume 0 (demoPush none))
    ⟨0, "https://push.test/1", "u1", "k1"⟩ (List.mem_singleton.mpr rfl) (List.forall_mem_nil _)

end Removal

end ChainSettle
