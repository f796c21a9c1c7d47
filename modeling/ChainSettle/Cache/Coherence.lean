import ChainSettle.Etag.Soundness
import ChainSettle.Semantics.ListCache

/-!
How old a cached list can be. A writer that invalidates deletes the keys of the
shipment's buyer after it has changed the database, so the buyer's next request
asks the database. Two things are not covered: the lists of the other
participants, and a request of the buyer that has read before the write and
stores after the deletion.
-/

namespace ChainSettle

open Lib Lib.Eff

section Keys

variable {sha256 : String → String}

/-- A key belongs to one caller. -/
theorem caller_of_key (hex : ∀ text, ∀ c ∈ (sha256 text).toList, isHex c) {p q : String}
    {f g : ListFilters} (h : buildCacheKey sha256 p f = buildCacheKey sha256 q g) : p = q := by
  have hchars := congrArg String.toList h
  simp only [buildCacheKey, String.toList_append, String.toList_ofList, List.append_assoc] at hchars
  have hrest := congrArg List.reverse (List.append_cancel_left hchars)
  have hcolon : ":".toList = [':'] := rfl
  simp only [hcolon, List.reverse_append, List.reverse_cons, List.append_assoc,
    List.singleton_append] at hrest
  have hhash (filters : ListFilters) (c : Char)
      (hc : c ∈ ((sha256 filters.json).toList.take 16).reverse) : isHex c :=
    hex _ c (List.mem_of_mem_take (List.mem_reverse.mp hc))
  obtain ⟨-, -, hcaller⟩ := append_cons_inj (p := fun c => isHex c) (hhash f) (hhash g)
    (by decide) (by decide) hrest
  exact String.toList_injective (List.reverse_injective hcaller)

/-- The invalidation of a caller leaves none of his keys. -/
theorem invalidated_key (cache : ListCache) (p : String) (f : ListFilters) :
    invalidateUserCache cache p (buildCacheKey sha256 p f) = none := by
  apply if_pos
  rw [List.isPrefixOf_iff_prefix, buildCacheKey]
  simp only [String.toList_append]
  exact List.prefix_append _ _

theorem cached_of_invalidated {cache : ListCache} {p key : String} {list : CachedList}
    (h : invalidateUserCache cache p key = some list) : cache key = some list := by
  unfold invalidateUserCache delByPrefix at h
  split at h
  · cases h
  · exact h

end Keys

section Writers

variable (env : Env) (db : Db)

theorem exec_cancel_cases (id buyerAddress txHash : String) :
    (∃ err, exec (cancel env id buyerAddress txHash) db = (.error err, db)) ∨
      Cancels env db id buyerAddress ∧
        exec (cancel env id buyerAddress txHash) db =
          (.ok (), { db with
            shipments := db.shipments.modify id (Shipment.registerCancel env.now txHash)
              (Shipment.registerCancel_id env.now txHash) }) := by
  unfold cancel
  rw [exec_bind, exec_shipmentFindUnique]
  cases hread : env.fails .shipmentRead with
  | true => exact .inl ⟨_, rfl⟩
  | false =>
      simp only [Bool.false_eq_true, ↓reduceIte]
      cases hfind : db.shipments.find? id with
      | none => exact .inl ⟨_, rfl⟩
      | some shipment =>
          dsimp only
          split
          · exact .inl ⟨_, rfl⟩
          · rename_i hbuyer
            split
            · exact .inl ⟨_, rfl⟩
            · rename_i hactive
              rw [exec_bind, exec_prismaCall]
              cases hwrite : env.fails .shipmentWrite with
              | true => exact .inl ⟨_, rfl⟩
              | false =>
                  exact .inr ⟨⟨hread, hwrite, shipment, hfind, not_not.mp hbuyer,
                    not_not.mp hactive⟩, rfl⟩

/-- The party whose lists are deleted is the buyer of the shipment. -/
theorem buyer_of_commit {service : ListService} {s : Versioned} {op : ShipmentWrite}
    {address : String} (h : (op.commit service s).2 = .invalidates address) {row : Shipment}
    (hrow : (op.commit service s).1.db.shipments.find? op.id = some row) :
    row.buyerAddress = address := by
  cases op with
  | create env dto times =>
      simp only [ShipmentWrite.commit, ShipmentWrite.stamped, ShipmentWrite.id] at h hrow
      obtain ⟨err, herr⟩ | ⟨new, milestones, hchecked, hinsert⟩ :=
        exec_create_cases service.services env s.db dto
      · rw [herr] at h
        cases h
      rw [hinsert] at h hrow
      obtain ⟨-, err, herr⟩ | ⟨⟨-, -, hfree⟩, hok⟩ :=
        (exec_shipmentInsert env s.db new milestones).symm
      · rw [herr] at h
        cases h
      rw [hok] at h hrow
      cases h
      have hfound : (s.db.shipments.insert new.row).find? dto.shipmentId = some row := hrow
      have hid : dto.shipmentId = new.row.id := hchecked.id.symm
      rw [Table.find?_insert, hid, if_pos rfl] at hfound
      have hnone : s.db.shipments.find? new.row.id = none := hfree
      rw [hnone] at hfound
      cases hfound
      exact hchecked.buyer
  | addTag env id buyerAddress tag at_ =>
      simp only [ShipmentWrite.commit, ShipmentWrite.id] at h hrow
      obtain ⟨err, herr⟩ | ⟨hmay, hok⟩ := exec_addTag_cases env s id buyerAddress tag at_
      · rw [herr] at h
        cases h
      rw [hok] at h hrow
      cases h
      obtain ⟨shipment, hfound, hbuyer, -⟩ := hmay.buyer
      obtain rfl : shipment = row := Option.some.inj (hfound.symm.trans hrow)
      exact hbuyer
  | removeTag env id buyerAddress tag =>
      simp only [ShipmentWrite.commit, ShipmentWrite.id] at h hrow
      obtain ⟨err, herr⟩ | ⟨hremoves, hok⟩ := exec_removeTag_cases env s id buyerAddress tag
      · rw [herr] at h
        cases h
      rw [hok] at h hrow
      cases h
      obtain ⟨shipment, hfound, hbuyer, -⟩ := hremoves.may.buyer
      obtain rfl : shipment = row := Option.some.inj (hfound.symm.trans hrow)
      exact hbuyer
  | cancel env id buyerAddress txHash times =>
      simp only [ShipmentWrite.commit, ShipmentWrite.stamped, ShipmentWrite.id] at h hrow
      obtain ⟨err, herr⟩ | ⟨⟨-, -, shipment, hfound, hbuyer, -⟩, hok⟩ :=
        exec_cancel_cases env s.db id buyerAddress txHash
      · rw [herr] at h
        cases h
      rw [hok] at h hrow
      cases h
      have hupdated : (s.db.shipments.find? id).map (Shipment.registerCancel env.now txHash) =
          some row :=
        (Table.find?_modify_self _ _ _ (Shipment.registerCancel_id env.now txHash)).symm.trans hrow
      rw [hfound] at hupdated
      cases hupdated
      exact hbuyer
  | replaceTags input request =>
      simp only [ShipmentWrite.commit, ShipmentWrite.outcome] at h
      split at h <;> cases h
  | replaceArbiter env id buyerAddress arbiterAddress times =>
      simp only [ShipmentWrite.commit, ShipmentWrite.outcome] at h
      split at h <;> cases h
  | clone env id buyerAddress dto times =>
      simp only [ShipmentWrite.commit, ShipmentWrite.outcome] at h
      split at h <;> cases h

end Writers

/-- Everything that resuming a request can do. -/
inductive ListResumed (service : ListService) (w : ListWorld) :
    ListCall → ListWorld → Option ListCall → Prop where
  | direct (filters : ListFilters) :
      ListResumed service w (.findAllCached filters)
        (w.answer filters w.returned ⟨service.findAll filters w.state, w.version⟩) none
  | hit {filters : ListFilters} {caller : String} {list : CachedList}
      (hcaller : truthyText filters.callerStellarAddress = some caller)
      (hcached : w.cache (buildCacheKey service.sha256 caller filters) = some list) :
      ListResumed service w (.findAllCached filters) (w.answer filters w.returned list) none
  | miss {filters : ListFilters} {caller : String}
      (hcaller : truthyText filters.callerStellarAddress = some caller) :
      ListResumed service w (.findAllCached filters) w (some (.findAll filters caller w.returned))
  | read (filters : ListFilters) (caller : String) (began : List ReturnedWrite) :
      ListResumed service w (.findAll filters caller began) w
        (some (.setJson filters caller began ⟨service.findAll filters w.state, w.version⟩))
  | stored {filters : ListFilters} {caller : String} {began : List ReturnedWrite}
      {result : CachedList} {cache : ListCache}
      (hcache : ∀ key list, cache key = some list → w.cache key = some list ∨
        key = buildCacheKey service.sha256 caller filters ∧ list = result) :
      ListResumed service w (.setJson filters caller began result)
        ({ w with cache := cache }.answer filters began result) none
  | threw (op : ShipmentWrite) :
      ListResumed service w (.write op)
        { w with state := (op.commit service w.state).1, version := w.version + 1 } none
  | returned (op : ShipmentWrite) {record : ReturnedWrite} (hversion : record.version = w.version + 1)
      (hrecord : record.invalidated = false) :
      ListResumed service w (.write op)
        { w with
          state := (op.commit service w.state).1
          version := w.version + 1
          returned := record :: w.returned } none
  | committed (op : ShipmentWrite) {address : String} {record : ReturnedWrite}
      (hcommit : (op.commit service w.state).2 = .invalidates address)
      (hversion : record.version = w.version + 1)
      (hafter : record.after = (op.commit service w.state).1.db.shipments.find? op.id) :
      ListResumed service w (.write op)
        { w with state := (op.commit service w.state).1, version := w.version + 1 }
        (some (.invalidateUserCache address record))
  | rejected (address : String) (record : ReturnedWrite) :
      ListResumed service w (.invalidateUserCache address record) w none
  | invalidated (address : String) (record : ReturnedWrite) :
      ListResumed service w (.invalidateUserCache address record)
        { w with
          cache := invalidateUserCache w.cache address
          returned := record :: w.returned } none

section Resume

variable (service : ListService) (redisDown : RedisDown) (w : ListWorld)

theorem listResumed_findAllCached (filters : ListFilters) :
    ListResumed service w (.findAllCached filters)
      ((ListCall.findAllCached filters).resume service redisDown w).1
      ((ListCall.findAllCached filters).resume service redisDown w).2 := by
  unfold ListCall.resume
  dsimp only
  split
  · rename_i caller hcaller _
    cases redisDown with
    | true => exact .miss hcaller
    | false =>
        simp only [Bool.false_eq_true, ↓reduceIte]
        cases hcached : w.cache (buildCacheKey service.sha256 caller filters) with
        | some list => exact .hit hcaller hcached
        | none => exact .miss hcaller
  · exact .direct filters

theorem listResumed_setJson (filters : ListFilters) (caller : String) (began : List ReturnedWrite)
    (result : CachedList) :
    ListResumed service w (.setJson filters caller began result)
      ((ListCall.setJson filters caller began result).resume service redisDown w).1
      ((ListCall.setJson filters caller began result).resume service redisDown w).2 := by
  unfold ListCall.resume
  apply ListResumed.stored
  intro key list hlist
  split at hlist
  · exact .inl hlist
  · by_cases hkey : key = buildCacheKey service.sha256 caller filters
    · rw [hkey, Function.update_self] at hlist
      exact .inr ⟨hkey, (Option.some.inj hlist).symm⟩
    · rw [Function.update_of_ne hkey] at hlist
      exact .inl hlist

theorem listResumed_write (op : ShipmentWrite) :
    ListResumed service w (.write op) ((ListCall.write op).resume service redisDown w).1
      ((ListCall.write op).resume service redisDown w).2 := by
  unfold ListCall.resume
  dsimp only
  cases hcommit : (op.commit service w.state).2 with
  | threw => exact .threw op
  | returns => exact .returned op rfl rfl
  | invalidates address => exact .committed op hcommit rfl rfl

theorem listResumed (call : ListCall) :
    ListResumed service w call (call.resume service redisDown w).1
      (call.resume service redisDown w).2 := by
  cases call with
  | findAllCached filters => exact listResumed_findAllCached service redisDown w filters
  | findAll filters caller began => exact .read filters caller began
  | setJson filters caller began result =>
      exact listResumed_setJson service redisDown w filters caller began result
  | write op => exact listResumed_write service redisDown w op
  | invalidateUserCache address record =>
      cases redisDown with
      | true => exact .rejected address record
      | false => exact .invalidated address record

end Resume

/-- The write has deleted the lists of `p`, the buyer of its shipment. -/
def ReturnedWrite.Drops (write : ReturnedWrite) (p : String) : Prop :=
  write.invalidated = true ∧ ∃ row, write.after = some row ∧ row.buyerAddress = p

/-- Data with this many writes is not older than any write that has dropped the
lists of `p`. -/
def Covers (writes : List ReturnedWrite) (p : String) (version : Nat) : Prop :=
  ∀ write ∈ writes, write.Drops p → write.version ≤ version

/-- The buyer's answer is not older than the writes that had returned when he
asked. -/
def ListAnswer.Fresh (answer : ListAnswer) : Prop :=
  ∀ p, truthyText answer.filters.callerStellarAddress = some p → Covers answer.began p answer.version

/-- No request of the party that a write invalidates is about to store a list it
has read before the write. -/
def NoFillAcross (service : ListService) (s : Listing) : ListAction → Prop
  | .resume slot _ => ∀ op address, s.pending slot = some (.write op) →
      (op.commit service s.shared.state).2 = .invalidates address →
        ∀ other filters began result,
          s.pending other ≠ some (.setJson filters address began result)
  | _ => True

/-- What a request in flight knows of the writes that have returned. -/
def ListCall.Holds (w : ListWorld) : ListCall → Prop
  | .findAll filters p began =>
      truthyText filters.callerStellarAddress = some p ∧ began ⊆ w.returned
  | .setJson filters p began result =>
      truthyText filters.callerStellarAddress = some p ∧ began ⊆ w.returned ∧
        Covers w.returned p result.version
  | .invalidateUserCache address record =>
      record.version ≤ w.version ∧ ∀ p, record.Drops p → p = address
  | _ => True

/-- What is about to be stored for a party is not older than the write whose
deletion is still to come. -/
def Ordered (pending : Nat → Option ListCall) : Prop :=
  ∀ slot address record other filters began result,
    pending slot = some (.invalidateUserCache address record) →
      pending other = some (.setJson filters address began result) →
        record.version ≤ result.version

/-- What holds whenever no fill crosses a write. -/
structure Coherent (service : ListService) (s : Listing) : Prop where
  past : ∀ write ∈ s.shared.returned, write.version ≤ s.shared.version
  cached : ∀ p filters list, s.shared.cache (buildCacheKey service.sha256 p filters) = some list →
    Covers s.shared.returned p list.version
  holding : ∀ slot call, s.pending slot = some call → call.Holds s.shared
  ordered : Ordered s.pending
  answered : ∀ answer ∈ s.shared.answers, answer.Fresh

section Step

variable {service : ListService} {s t : Listing} {w : ListWorld}

theorem ordered_update {pending : Nat → Option ListCall} {slot : Nat} {rest : Option ListCall}
    (h : Ordered pending)
    (hinvalidates : ∀ address record, rest = some (.invalidateUserCache address record) →
      ∀ other filters began result, pending other = some (.setJson filters address began result) →
        record.version ≤ result.version)
    (hstores : ∀ filters address began result, rest = some (.setJson filters address began result) →
      ∀ other record, pending other = some (.invalidateUserCache address record) →
        record.version ≤ result.version) :
    Ordered (Function.update pending slot rest) := by
  intro first address record second filters began result hfirst hsecond
  obtain ⟨-, hfirst⟩ | ⟨-, hfirst⟩ := pending_update hfirst
  · obtain ⟨-, hsecond⟩ | ⟨-, hsecond⟩ := pending_update hsecond
    · rw [hfirst] at hsecond
      cases hsecond
    · exact hinvalidates address record hfirst second filters began result hsecond
  · obtain ⟨-, hsecond⟩ | ⟨-, hsecond⟩ := pending_update hsecond
    · exact hstores filters address began result hsecond first record hfirst
    · exact h first address record second filters began result hfirst hsecond

theorem holds_mono {call : ListCall} (h : call.Holds s.shared)
    (hreturned : w.returned = s.shared.returned) (hversion : s.shared.version ≤ w.version) :
    call.Holds w := by
  cases call with
  | findAllCached | write => trivial
  | findAll filters p began => exact ⟨h.1, hreturned ▸ h.2⟩
  | setJson filters p began result => exact ⟨h.1, hreturned ▸ h.2⟩
  | invalidateUserCache address record => exact ⟨h.1.trans hversion, h.2⟩

/-- A step after which no other write has returned. -/
theorem coherent_of_same_returned {slot : Nat} {rest : Option ListCall} (h : Coherent service s)
    (hreturned : w.returned = s.shared.returned) (hversion : s.shared.version ≤ w.version)
    (hcached : ∀ p filters list, w.cache (buildCacheKey service.sha256 p filters) = some list →
      Covers s.shared.returned p list.version)
    (hrest : ∀ call, rest = some call → call.Holds w)
    (hordered : Ordered (Function.update s.pending slot rest))
    (hanswered : ∀ answer ∈ w.answers, answer.Fresh) :
    Coherent service ⟨w, Function.update s.pending slot rest⟩ where
  past write hwrite := (h.past write (hreturned ▸ hwrite)).trans hversion
  cached p filters list hlist := hreturned ▸ hcached p filters list hlist
  holding other call hcall := by
    obtain ⟨-, hmine⟩ | ⟨-, hother⟩ := pending_update hcall
    · exact hrest call hmine
    · exact holds_mono (h.holding other call hother) hreturned hversion
  ordered := hordered
  answered := hanswered

theorem fresh_answer {filters : ListFilters} {began : List ReturnedWrite} {result : CachedList}
    (h : ∀ answer ∈ w.answers, answer.Fresh)
    (hcovers : ∀ p, truthyText filters.callerStellarAddress = some p →
      Covers began p result.version) :
    ∀ answer ∈ (w.answer filters began result).answers, answer.Fresh := by
  intro answer hanswer
  rcases List.mem_cons.mp hanswer with rfl | hold
  · exact hcovers
  · exact h answer hold

/-- The return of a write whose lists, if any, are deleted. -/
theorem coherent_of_returned {slot : Nat} {record : ReturnedWrite} (h : Coherent service s)
    (hversion : record.version ≤ w.version) (hpast : s.shared.version ≤ w.version)
    (hreturned : w.returned = record :: s.shared.returned)
    (hanswers : w.answers = s.shared.answers)
    (hcached : ∀ p filters list, w.cache (buildCacheKey service.sha256 p filters) = some list →
      s.shared.cache (buildCacheKey service.sha256 p filters) = some list ∧ ¬ record.Drops p)
    (hstoring : ∀ other filters p began result,
      s.pending other = some (.setJson filters p began result) → record.Drops p →
        record.version ≤ result.version) :
    Coherent service ⟨w, Function.update s.pending slot none⟩ where
  past write hwrite := by
    rw [hreturned] at hwrite
    rcases List.mem_cons.mp hwrite with rfl | hold
    · exact hversion
    · exact (h.past write hold).trans hpast
  cached p filters list hlist write hwrite hdrops := by
    obtain ⟨hold, hkept⟩ := hcached p filters list hlist
    rw [hreturned] at hwrite
    rcases List.mem_cons.mp hwrite with rfl | hwrite
    · exact absurd hdrops hkept
    · exact h.cached p filters list hold write hwrite hdrops
  holding other call hcall := by
    obtain ⟨-, hmine⟩ | ⟨-, hother⟩ := pending_update hcall
    · cases hmine
    have hholds := h.holding other call hother
    have hmore : s.shared.returned ⊆ w.returned := by
      rw [hreturned]
      exact List.subset_cons_self _ _
    cases call with
    | findAllCached | write => trivial
    | findAll filters p began => exact ⟨hholds.1, fun _ hb => hmore (hholds.2 hb)⟩
    | setJson filters p began result =>
        refine ⟨hholds.1, fun _ hb => hmore (hholds.2.1 hb), fun write hwrite hdrops => ?_⟩
        rw [hreturned] at hwrite
        rcases List.mem_cons.mp hwrite with rfl | hwrite
        · exact hstoring other filters p began result hother hdrops
        · exact hholds.2.2 write hwrite hdrops
    | invalidateUserCache address other => exact ⟨hholds.1.trans hpast, hholds.2⟩
  ordered := ordered_update h.ordered (fun _ _ hnone => nomatch hnone)
    (fun _ _ _ _ hnone => nomatch hnone)
  answered := hanswers ▸ h.answered

theorem coherent_resume {slot : Nat} {call : ListCall} {rest : Option ListCall}
    (h : Coherent service s) (hcall : s.pending slot = some call)
    (hresumed : ListResumed service s.shared call w rest)
    (hnofill : ∀ op address, call = .write op →
      (op.commit service s.shared.state).2 = .invalidates address →
        ∀ other filters began result,
          s.pending other ≠ some (.setJson filters address began result)) :
    Coherent service ⟨w, Function.update s.pending slot rest⟩ := by
  have hends : Ordered (Function.update s.pending slot none) :=
    ordered_update h.ordered (fun _ _ hnone => nomatch hnone) (fun _ _ _ _ hnone => nomatch hnone)
  have hholds := h.holding slot call hcall
  cases hresumed with
  | direct filters =>
      refine coherent_of_same_returned h rfl (le_refl _) h.cached (fun _ hnone => nomatch hnone)
        hends (fresh_answer h.answered fun p _ write hwrite _ => h.past write hwrite)
  | hit hcaller hcached =>
      refine coherent_of_same_returned h rfl (le_refl _) h.cached (fun _ hnone => nomatch hnone)
        hends (fresh_answer h.answered fun p hp => ?_)
      cases hcaller.symm.trans hp
      exact h.cached _ _ _ hcached
  | miss hcaller =>
      refine coherent_of_same_returned h rfl (le_refl _) h.cached ?_
        (ordered_update h.ordered (fun _ _ hfill => nomatch hfill)
          (fun _ _ _ _ hfill => nomatch hfill)) h.answered
      rintro _ ⟨rfl⟩
      exact ⟨hcaller, fun _ hb => hb⟩
  | read filters caller began =>
      refine coherent_of_same_returned h rfl (le_refl _) h.cached ?_
        (ordered_update h.ordered (fun _ _ hfill => nomatch hfill) ?_) h.answered
      · rintro _ ⟨rfl⟩
        exact ⟨hholds.1, hholds.2, fun write hwrite _ => h.past write hwrite⟩
      · rintro _ _ _ _ ⟨rfl⟩ other record hother
        exact (h.holding other _ hother).1
  | @stored filters caller began result cache hcache =>
      refine coherent_of_same_returned h rfl (le_refl _) ?_ (fun _ hnone => nomatch hnone)
        hends (fresh_answer h.answered fun p hp write hwrite => ?_)
      · intro p filters' list hlist
        rcases hcache _ _ hlist with hold | ⟨hkey, rfl⟩
        · exact h.cached p filters' list hold
        · cases caller_of_key service.hex hkey
          exact hholds.2.2
      · cases hholds.1.symm.trans hp
        exact hholds.2.2 write (hholds.2.1 hwrite)
  | threw op =>
      exact coherent_of_same_returned h rfl (Nat.le_succ _) h.cached (fun _ hnone => nomatch hnone)
        hends h.answered
  | returned op hversion hrecord =>
      have hkeeps (p : String) (record : ReturnedWrite) (hrecord : record.invalidated = false) :
          ¬ record.Drops p := by
        rintro ⟨hdropped, -⟩
        rw [hrecord] at hdropped
        cases hdropped
      exact coherent_of_returned h hversion.le (Nat.le_succ _) rfl rfl
        (fun p _ _ hlist => ⟨hlist, hkeeps p _ hrecord⟩)
        (fun _ _ p _ _ _ hdrops => absurd hdrops (hkeeps p _ hrecord))
  | @committed op address record hcommit hversion hafter =>
      have hnone := hnofill op address rfl hcommit
      refine coherent_of_same_returned h rfl (Nat.le_succ _) h.cached ?_
        (ordered_update h.ordered ?_ (fun _ _ _ _ hfill => nomatch hfill)) h.answered
      · rintro _ ⟨rfl⟩
        refine ⟨hversion.le, ?_⟩
        rintro p ⟨-, row, hrow, hbuyer⟩
        rw [hafter] at hrow
        exact hbuyer.symm.trans (buyer_of_commit hcommit hrow)
      · rintro _ _ ⟨rfl⟩ other filters began result hother
        exact absurd hother (hnone other filters began result)
  | rejected address record =>
      exact coherent_of_same_returned h rfl (le_refl _) h.cached (fun _ hnone => nomatch hnone)
        hends h.answered
  | invalidated address record =>
      refine coherent_of_returned h hholds.1 (le_refl _) rfl rfl ?_ ?_
      · intro p filters list hlist
        refine ⟨cached_of_invalidated hlist, fun hdrops => ?_⟩
        cases hholds.2 p hdrops
        have hgone : invalidateUserCache s.shared.cache address
            (buildCacheKey service.sha256 address filters) = none :=
          invalidated_key _ address filters
        cases hgone.symm.trans hlist
      · intro other filters p began result hother hdrops
        cases hholds.2 p hdrops
        exact h.ordered slot address record other filters began result hcall hother

theorem coherent_step {a : ListAction} (hallowed : NoFillAcross service s a)
    (hstep : (listing service).step s a = some t) (h : Coherent service s) :
    Coherent service t := by
  obtain ⟨slot, call, rfl, hstarts, -, rfl⟩ | ⟨slot, redisDown, call, rfl, hcall, rfl⟩ |
    ⟨key, rfl, rfl⟩ := (listing service).step_cases hstep
  · refine coherent_of_same_returned h rfl (le_refl _) h.cached ?_
      (ordered_update h.ordered ?_ ?_) h.answered
    · rintro _ ⟨rfl⟩
      cases call with
      | findAllCached | write => trivial
      | findAll | setJson | invalidateUserCache => cases hstarts
    · rintro _ _ ⟨rfl⟩
      cases hstarts
    · rintro _ _ _ _ ⟨rfl⟩
      cases hstarts
  · refine coherent_resume h hcall (listResumed service redisDown s.shared call) ?_
    intro op address hop
    exact hallowed op address (hop ▸ hcall)
  · refine ⟨h.past, fun p filters list hlist => ?_, fun slot call hcall => ?_, h.ordered, h.answered⟩
    · have hold : s.shared.cache (buildCacheKey service.sha256 p filters) = some list := by
        by_cases hkey : buildCacheKey service.sha256 p filters = key
        · have hgone : Function.update s.shared.cache key none
              (buildCacheKey service.sha256 p filters) = some list := hlist
          rw [hkey, Function.update_self] at hgone
          cases hgone
        · have hkept : Function.update s.shared.cache key none
              (buildCacheKey service.sha256 p filters) = some list := hlist
          rwa [Function.update_of_ne hkey] at hkept
      exact h.cached p filters list hold
    · exact holds_mono (h.holding slot call hcall) rfl (le_refl _)

/-- Where no fill of a buyer crosses a write, his lists are not older than the
writes that have deleted them. -/
theorem buyer_lists_coherent (service : ListService) (s : Versioned) (cache : ListCache)
    (t : Listing)
    (hrun : StepsAlong (listing service).step (NoFillAcross service) (Listing.idle s cache) t) :
    ∀ answer ∈ t.shared.answers, answer.Fresh := by
  have hstart : Coherent service (Listing.idle s cache) :=
    ⟨fun _ h => (nomatch h), fun _ _ _ _ _ h => (nomatch h), fun _ _ h => (nomatch h),
      fun _ _ _ _ _ _ _ h => (nomatch h), fun _ h => (nomatch h)⟩
  have hcoherent : Coherent service t :=
    hrun.invariant (fun _ _ _ hallowed hstep h => coherent_step hallowed hstep h) hstart
  exact hcoherent.answered

end Step

/-- The buyer lists his shipments. -/
def buyerList : ListFilters where
  callerStellarAddress := some "GBUYER"
  search := none
  json := "\x7b\"callerStellarAddress\":\"GBUYER\",\"isAdmin\":false," ++
    "\"callerUserId\":\"u-1\",\"displayCurrency\":\"USD\"\x7d"

/-- The supplier lists his. -/
def supplierList : ListFilters where
  callerStellarAddress := some "GSUPPLIER"
  search := none
  json := "\x7b\"callerStellarAddress\":\"GSUPPLIER\",\"isAdmin\":false," ++
    "\"callerUserId\":\"u-2\",\"displayCurrency\":\"USD\"\x7d"

/-- SHA-256 on the two requests. -/
def listDigest (text : String) : String :=
  if text = buyerList.json then
    "214c65b1bc9f60da57a2245bc774e0aa439c96fa81a678e7e98da2dd0982360c"
  else if text = supplierList.json then
    "04eb6dc5ff750e23a21213ea792d576bd74fb18d72f0baf3741005a17a8bc7e4"
  else "0"

theorem listDigest_hex (text : String) : ∀ c ∈ (listDigest text).toList, isHex c := by
  unfold listDigest
  split
  · exact List.all_eq_true.mp (by decide)
  · split <;> exact List.all_eq_true.mp (by decide)

/-- The list shows the tags of the one shipment. -/
def demoLists : ListService where
  sha256 := listDigest
  hex := listDigest_hex
  findAll _ s := ",".intercalate (s.tags "SHIP-1")
  tags := demoConfig
  services := openServices

def addUrgent : ShipmentWrite := .addTag (.calm 5) "SHIP-1" "GBUYER" "urgent" 5

set_option maxRecDepth 4000 in
/-- Redis holds an old list; the buyer adds a tag and lists his shipments. -/
theorem buyer_sees_his_tag :
    ∃ t : Listing, t.shared.answers.map ListAnswer.json = ["fragile,urgent"] ∧
      ∀ answer ∈ t.shared.answers, answer.Fresh := by
  refine ⟨_, ?_, buyer_lists_coherent demoLists taggedState (fun _ => some ⟨"fragile", 0⟩) _
    (.tail (.tail (.tail (.tail (.tail (.tail (.tail (.refl _)
      (a := .begin 0 (.write addUrgent)) trivial rfl)
      (a := .resume 0 false) ?_ rfl) (a := .resume 0 false) ?_ rfl)
      (a := .begin 0 (.findAllCached buyerList)) trivial rfl)
      (a := .resume 0 false) ?_ rfl) (a := .resume 0 false) ?_ rfl)
      (a := .resume 0 false) ?_ rfl)⟩
  · decide
  · rintro op address - - (_ | other) filters began result hpending
    · cases hpending
    · cases hpending
  all_goals
    rintro op address hop
    cases hop

/-- The claim of a list that every participant can rely on. -/
def ListAnswer.Current (answer : ListAnswer) : Prop :=
  ∀ p ∈ truthyText answer.filters.callerStellarAddress, ∀ write ∈ answer.began,
    p ∈ write.participants → write.version ≤ answer.version

instance (answer : ListAnswer) : Decidable answer.Current :=
  inferInstanceAs (Decidable (∀ p ∈ truthyText answer.filters.callerStellarAddress,
    ∀ write ∈ answer.began, p ∈ write.participants → write.version ≤ answer.version))

/-- A list request from its start to its end, on a miss. -/
def fill (slot : Nat) (filters : ListFilters) : List ListAction :=
  [.begin slot (.findAllCached filters), .resume slot false, .resume slot false,
    .resume slot false]

/-- A write of the buyer from its start to its end. -/
def taggingRun (slot : Nat) : List ListAction :=
  [.begin slot (.write addUrgent), .resume slot false, .resume slot false]

/-- The supplier's list is cached when the buyer adds a tag. -/
def otherParticipant : List ListAction :=
  fill 0 supplierList ++ taggingRun 1 ++ [.begin 2 (.findAllCached supplierList), .resume 2 false]

/-- The buyer's list is read before the tag is added, and stored afterwards. -/
def crossingFill : List ListAction :=
  (fill 0 buyerList).take 3 ++ taggingRun 1 ++
    [.resume 0 false, .begin 2 (.findAllCached buyerList), .resume 2 false]

/-- The buyer's list is cached when he replaces the tags. -/
def replacedTags : List ListAction :=
  fill 0 buyerList ++
    [.begin 1 (.write (.replaceTags ⟨.calm 5, taggedState, 5⟩
      ⟨"SHIP-1", some (.arr [.str "cold"]), none⟩)), .resume 1 false,
      .begin 2 (.findAllCached buyerList), .resume 2 false]

/-- The run ends with a list from before a write that had returned. -/
def EndsStale (actions : List ListAction) : Prop :=
  ∃ t : Listing,
    actions.foldlM (listing demoLists).step (Listing.idle taggedState fun _ => none) = some t ∧
    StepsAlong (listing demoLists).step (fun _ _ => True)
      (Listing.idle taggedState fun _ => none) t ∧
    ∃ answer ∈ t.shared.answers, ¬ answer.Current

theorem endsStale_of_any {actions : List ListAction}
    (h : (actions.foldlM (listing demoLists).step (Listing.idle taggedState fun _ => none)).map
      (fun t => t.shared.answers.any fun answer => ¬ answer.Current) = some true) :
    EndsStale actions := by
  obtain ⟨t, ht, hany⟩ := Option.map_eq_some_iff.mp h
  obtain ⟨answer, hanswer, hold⟩ := List.any_eq_true.mp hany
  exact ⟨t, ht, .of_foldlM (fun _ _ _ => trivial) ht, answer, hanswer, of_decide_eq_true hold⟩

theorem stale_lists :
    EndsStale otherParticipant ∧ EndsStale crossingFill ∧ EndsStale replacedTags := by
  refine ⟨?_, ?_, ?_⟩
  all_goals exact endsStale_of_any (by decide +kernel)

end ChainSettle
