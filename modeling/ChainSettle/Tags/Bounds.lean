import ChainSettle.Etag.Soundness
import ChainSettle.Lib.Pool
import ChainSettle.Semantics.Numerals
import Mathlib.Data.List.DropRight

/-!
The four writers of the tags of a shipment, each cut into its statements: `create` stores those of
the request, `addTag` and `removeTag` check what they have read and then change the column as it is
by then, `replaceTags` stores the normalised list. Any number of calls are under way; others write
the rows, too, but not the tags.

`replaceTags` takes any body here, more than its DTO admits.

The bounds on the tags of a shipment: how many, how long, and no two that differ in case only.
`replaceTags` keeps them by what it stores. `create` stores what it is given, and `addTag` looks
neither at their number nor for a tag in another case, takes longer tags, and appends to the tags
as they are when the statement runs, so for these it is said when the bounds hold.
-/

namespace ChainSettle

open Lib Lib.Eff

section Requests

/-- How the validator counts characters: no more than there are code units. -/
structure CharacterCount where
  count : String → Nat
  count_le : ∀ text, count text ≤ utf16Length text.toList

/-- The characters as code points. -/
def CharacterCount.codePoints : CharacterCount where
  count text := text.toList.length
  count_le text := by
    have hunits : (text.toList.map fun c => if c.toNat < 0x10000 then 1 else 2).length ≤
        utf16Length text.toList := by
      refine List.length_le_sum_of_one_le _ fun n hmem => ?_
      obtain ⟨c, -, rfl⟩ := List.mem_map.mp hmem
      split <;> decide
    rwa [List.length_map] at hunits

/-- The checks of `AddTagDto`. -/
def admitsTag (characters : CharacterCount) (tag : String) : Bool :=
  tag ≠ "" && characters.count tag ≤ 50 && !tag.toList.any isJsSpace

end Requests

section Statements

/-- The insert of `create`, with the tags of the request. -/
def insertTagged (env : Env) (new : NewShipment) (milestones : List NewMilestone)
    (tags : Option (List String)) (at_ : Nat) : Eff Exn Versioned Unit := do
  let s ← get
  match exec (shipmentInsert env new milestones) s.db with
  | (.error err, _) => throw err
  | (.ok (), db) =>
      modify fun s =>
        (s.restamp db ⟨fun _ => at_, fun _ => at_, fun _ => false, fun _ => false⟩).setTags new.id
          (tags.getD [])

/-- A call that is suspended before the statement its constructor names. -/
inductive TagCall where
  | create (new : NewShipment) (milestones : List NewMilestone) (tags : Option (List String))
  | addTag (id buyerAddress tag : String)
  | push (id tag : String)
  | removeTag (id buyerAddress tag : String)
  | arrayRemove (id tag : String)
  | replaceTags (call : TagsCall)

def TagCall.statement (config : TagsConfig) (input : TagsInput) :
    TagCall → Eff Exn Versioned (Option TagCall)
  | .create new milestones tags => do
      insertTagged input.env new milestones tags input.at_
      return none
  | .addTag id buyerAddress tag => do
      let tags ← tagChecks input.env id buyerAddress
      if tag ∈ tags then throw (.conflict s!"Tag \"{tag}\" already exists on shipment {id}")
      return some (.push id tag)
  | .push id tag => do
      versionedCall input.env .shipmentWrite
      if ((← get).db.shipments.find? id).isNone then throw .recordNotFound
      modify fun s => s.updateTags id (s.tags id ++ [tag]) input.at_
      return none
  | .removeTag id buyerAddress tag => do
      let tags ← tagChecks input.env id buyerAddress
      if tag ∉ tags then throw (.notFound s!"Tag \"{tag}\" not found on shipment {id}")
      return some (.arrayRemove id tag)
  | .arrayRemove id tag => do
      versionedCall input.env .shipmentWrite
      modify fun s => s.setTags id ((s.tags id).filter (· ≠ tag))
      return none
  | .replaceTags call => do
      let rest ← call.statement config input
      return rest.map .replaceTags

def TagCall.starts (characters : CharacterCount) : TagCall → Bool
  | .create .. | .removeTag .. => true
  | .addTag _ _ tag => admitsTag characters tag
  | .replaceTags call => call.starts
  | .push .. | .arrayRemove .. => false

/-- The calls in flight; an external event is a write of others. -/
def tagWriters (config : TagsConfig) (characters : CharacterCount) :
    PoolSystem Versioned TagCall TagsInput Versioned where
  starts := TagCall.starts characters
  resume input s call :=
    let (next, rest) := resume (call.statement config input) s
    (next, rest.toList)
  external next s := { next with tags := s.tags }

abbrev TagPool := Pool Versioned TagCall

abbrev TagAction := PoolAction TagCall TagsInput Versioned

/-- Before any shipment is created. -/
def untagged (s : Versioned) : TagPool := ⟨{ s with tags := fun _ => [] }, []⟩

end Statements

section Valid

/-- Up to 20 tags without white space around them, of 1 to 30 characters, that differ in more than
case. -/
structure ValidTags (text : CaseMapping) (tags : List String) : Prop where
  count : tags.length ≤ 20
  shape : ∀ tag ∈ tags, jsTrim tag.toList = tag.toList ∧
    1 ≤ utf16Length tag.toList ∧ utf16Length tag.toList ≤ 30
  distinct : (tags.map text.toLowerCase).Nodup

variable {text : CaseMapping} {characters : CharacterCount} {tags : List String}

theorem validTags_nil : ValidTags text [] := ⟨Nat.zero_le _, nofun, List.nodup_nil⟩

theorem ValidTags.sublist (h : ValidTags text tags) {fewer : List String}
    (hsub : fewer.Sublist tags) : ValidTags text fewer where
  count := hsub.length_le.trans h.count
  shape tag hmem := h.shape tag (hsub.subset hmem)
  distinct := h.distinct.sublist (hsub.map text.toLowerCase)

theorem one_le_utf16Length {tag : String} (h : tag ≠ "") : 1 ≤ utf16Length tag.toList := by
  cases hchars : tag.toList with
  | nil => exact absurd (String.toList_eq_nil_iff.mp hchars) h
  | cons first rest =>
      rw [utf16Length, List.map_cons, List.sum_cons]
      split <;> omega

/-- What is left for an append, once the DTO has admitted the tag. -/
theorem ValidTags.append_iff (h : ValidTags text tags) {tag : String}
    (hadmits : admitsTag characters tag = true) :
    ValidTags text (tags ++ [tag]) ↔
      tags.length < 20 ∧ utf16Length tag.toList ≤ 30 ∧
        ∀ other ∈ tags, text.toLowerCase other ≠ text.toLowerCase tag := by
  have hnodup : ((tags ++ [tag]).map text.toLowerCase).Nodup ↔
      ∀ other ∈ tags, text.toLowerCase other ≠ text.toLowerCase tag := by
    rw [List.map_append, List.map_singleton, ← List.concat_eq_append, List.nodup_concat,
      and_iff_left h.distinct, List.mem_map]
    exact ⟨fun hnot other hmem heq => hnot ⟨other, hmem, heq⟩,
      fun hapart ⟨other, hmem, heq⟩ => hapart other hmem heq⟩
  constructor
  · intro hafter
    have hcount := hafter.count
    rw [List.length_append, List.length_singleton] at hcount
    exact ⟨by omega, (hafter.shape tag (by simp)).2.2, hnodup.mp hafter.distinct⟩
  · rintro ⟨hroom, hshort, hapart⟩
    simp only [admitsTag, Bool.and_eq_true, decide_eq_true_eq, Bool.not_eq_true',
      List.any_eq_false] at hadmits
    obtain ⟨⟨hne, -⟩, hspace⟩ := hadmits
    have htrim : jsTrim tag.toList = tag.toList := by
      have hspaceR : ∀ c ∈ tag.toList.reverse, ¬ isJsSpace c := by simpa using hspace
      unfold jsTrim
      rw [dropWhile_of_forall_not hspace, dropWhile_of_forall_not hspaceR, List.reverse_reverse]
    refine ⟨?_, List.forall_mem_append.mpr ⟨h.shape, ?_⟩, hnodup.mpr hapart⟩
    · rw [List.length_append, List.length_singleton]
      exact hroom
    · exact List.forall_mem_singleton.mpr ⟨htrim, one_le_utf16Length hne, hshort⟩

end Valid

section Normalised

theorem jsTrim_jsTrim (cs : List Char) : jsTrim (jsTrim cs) = jsTrim cs := by
  have htrim (l : List Char) : jsTrim l = (l.dropWhile isJsSpace).rdropWhile isJsSpace := rfl
  -- what is left at the end starts as before
  have hstart (l : List Char) : ((l.dropWhile isJsSpace).rdropWhile isJsSpace).dropWhile isJsSpace =
      (l.dropWhile isJsSpace).rdropWhile isJsSpace := by
    rw [List.dropWhile_eq_self_iff]
    intro hpos
    have hle := (List.rdropWhile_prefix isJsSpace (l := l.dropWhile isJsSpace)).length_le
    rw [(List.rdropWhile_prefix isJsSpace (l := l.dropWhile isJsSpace)).getElem hpos]
    exact List.dropWhile_get_zero_not isJsSpace l (by omega)
  rw [htrim (jsTrim cs), htrim cs, hstart, List.rdropWhile_idempotent]

/-- The map that `replaceTags` fills. -/
structure NormalTags (text : CaseMapping) (normalizedTags : List (String × String)) : Prop where
  key : ∀ entry ∈ normalizedTags, entry.1 = text.toLowerCase entry.2
  shape : ∀ entry ∈ normalizedTags, jsTrim entry.2.toList = entry.2.toList ∧
    1 ≤ utf16Length entry.2.toList ∧ utf16Length entry.2.toList ≤ 30
  nodup : (normalizedTags.map Prod.fst).Nodup

variable {text : CaseMapping}

theorem normalTags_nil : NormalTags text [] :=
  ⟨fun _ h => absurd h List.not_mem_nil, fun _ h => absurd h List.not_mem_nil, List.nodup_nil⟩

theorem NormalTags.normalizeTag {normalizedTags after : List (String × String)}
    (h : NormalTags text normalizedTags) {tag : Json}
    (hafter : ChainSettle.normalizeTag text normalizedTags tag = .ok after) :
    NormalTags text after := by
  cases tag with
  | str tag =>
      simp only [ChainSettle.normalizeTag] at hafter
      split at hafter
      · cases hafter
      · rename_i hlength
        obtain ⟨hpos, hle⟩ := not_or.mp hlength
        split at hafter
        · obtain rfl := Except.ok.inj hafter
          exact h
        · rename_i hnew
          obtain rfl := Except.ok.inj hafter
          refine ⟨List.forall_mem_append.mpr ⟨h.key, List.forall_mem_singleton.mpr rfl⟩,
            List.forall_mem_append.mpr ⟨h.shape, List.forall_mem_singleton.mpr ?_⟩, ?_⟩
          · simp only [String.toList_ofList, jsTrim_jsTrim, true_and]
            omega
          · rw [List.map_append, List.map_singleton, ← List.concat_eq_append, List.nodup_concat]
            refine ⟨fun hmem => hnew ?_, h.nodup⟩
            obtain ⟨entry, hentry, hkey⟩ := List.mem_map.mp hmem
            exact List.any_eq_true.mpr ⟨entry, hentry, decide_eq_true hkey⟩
  | null | bool b | num n | arr items | obj fields => cases hafter

theorem NormalTags.foldlM {normalizedTags after : List (String × String)}
    (h : NormalTags text normalizedTags) {tags : List Json}
    (hafter : tags.foldlM (ChainSettle.normalizeTag text) normalizedTags = .ok after) :
    NormalTags text after := by
  induction tags generalizing normalizedTags with
  | nil =>
      obtain rfl := Except.ok.inj hafter
      exact h
  | cons tag rest ih =>
      rw [List.foldlM_cons] at hafter
      cases hnext : ChainSettle.normalizeTag text normalizedTags tag with
      | error err =>
          rw [hnext] at hafter
          cases hafter
      | ok next =>
          rw [hnext] at hafter
          exact ih (h.normalizeTag hnext) hafter

/-- What `replaceTags` stores is within the bounds. -/
theorem validTags_nextTags {tags : Option Json} {next : List String}
    (h : nextTags text tags = .ok next) : ValidTags text next := by
  unfold nextTags at h
  split at h
  · rename_i items
    cases hfold : items.foldlM (normalizeTag text) [] with
    | error err =>
        rw [hfold] at h
        cases h
    | ok normalizedTags =>
        have hnormal : NormalTags text normalizedTags :=
          normalTags_nil.foldlM hfold
        rw [hfold] at h
        simp only [bind, Except.bind] at h
        split at h
        · cases h
        · rename_i hcount
          obtain rfl := Except.ok.inj h
          refine ⟨by rw [List.length_map]; omega, fun tag hmem => ?_, ?_⟩
          · obtain ⟨entry, hentry, rfl⟩ := List.mem_map.mp hmem
            exact hnormal.shape entry hentry
          · have hkeys : (normalizedTags.map Prod.snd).map text.toLowerCase =
                normalizedTags.map Prod.fst := by
              rw [List.map_map]
              exact List.map_congr_left fun entry hentry => (hnormal.key entry hentry).symm
            rw [hkeys]
            exact hnormal.nodup
  · cases h

/-- Tags of the right shape, with keys that are all new, are taken one after the other. -/
theorem foldlM_normalizeTag {tags : List String} {normalizedTags : List (String × String)}
    (hshape : ∀ tag ∈ tags, jsTrim tag.toList = tag.toList ∧
      1 ≤ utf16Length tag.toList ∧ utf16Length tag.toList ≤ 30)
    (hnew : (normalizedTags.map Prod.fst ++ tags.map text.toLowerCase).Nodup) :
    (tags.map Json.str).foldlM (normalizeTag text) normalizedTags =
      .ok (normalizedTags ++ tags.map fun tag => (text.toLowerCase tag, tag)) := by
  induction tags generalizing normalizedTags with
  | nil =>
      rw [List.map_nil, List.map_nil, List.append_nil]
      rfl
  | cons tag rest ih =>
      obtain ⟨⟨htrim, hpos, hle⟩, hrest⟩ := List.forall_mem_cons.mp hshape
      have hfresh : ¬ normalizedTags.any fun entry => entry.1 = text.toLowerCase tag := by
        intro hany
        obtain ⟨entry, hentry, hkey⟩ := List.any_eq_true.mp hany
        refine (List.nodup_append.mp hnew).2.2 entry.1 (List.mem_map_of_mem hentry) _
          (List.mem_map_of_mem List.mem_cons_self) (of_decide_eq_true hkey)
      have htaken : normalizeTag text normalizedTags (.str tag) =
          .ok (normalizedTags ++ [(text.toLowerCase tag, tag)]) := by
        have hlength : ¬ (utf16Length tag.toList < 1 ∨ utf16Length tag.toList > 30) := by omega
        simp only [normalizeTag, htrim, hlength, if_false, String.ofList_toList, hfresh]
        rfl
      have hlater : ((normalizedTags ++ [(text.toLowerCase tag, tag)]).map Prod.fst ++
          rest.map text.toLowerCase).Nodup := by
        simpa using hnew
      rw [List.map_cons, List.foldlM_cons, htaken]
      exact (ih hrest hlater).trans (by simp)

/-- `replaceTags` would store the tags as they are. -/
def StoredAsIs (text : CaseMapping) (tags : List String) : Prop :=
  nextTags text (some (.arr (tags.map .str))) = .ok tags

instance (text : CaseMapping) (tags : List String) : Decidable (StoredAsIs text tags) :=
  inferInstanceAs (Decidable (_ = _))

theorem storedAsIs_iff {tags : List String} : StoredAsIs text tags ↔ ValidTags text tags := by
  refine ⟨validTags_nextTags, fun h => ?_⟩
  have hfold : (tags.map Json.str).foldlM (normalizeTag text) [] =
      .ok ([] ++ tags.map fun tag => (text.toLowerCase tag, tag)) :=
    foldlM_normalizeTag h.shape (by simpa using h.distinct)
  have hcount := h.count
  simp only [StoredAsIs, nextTags, hfold, List.nil_append]
  have hroom : ¬ (tags.map fun tag => (text.toLowerCase tag, tag)).length > 20 := by
    rw [List.length_map]
    omega
  simp only [bind, Except.bind, hroom, if_false, List.map_map]
  exact congrArg Except.ok (List.map_id _)

end Normalised

section Statements

variable (config : TagsConfig) (characters : CharacterCount) (input : TagsInput) (s : Versioned)

/-- Every shipment has valid tags. -/
def AllValid (config : TagsConfig) (s : Versioned) : Prop :=
  ∀ id, ValidTags config.text (s.tags id)

/-- What a call carries on to its write. -/
def TagCall.Sound (config : TagsConfig) (characters : CharacterCount) : TagCall → Prop
  | .addTag _ _ tag | .push _ tag => admitsTag characters tag = true
  | .replaceTags (.conditionalUpdate _ _ tags) => ValidTags config.text tags
  | _ => True

/-- `create` is given tags that `replaceTags` would store as they are. Where `addTag` appends, its
tag is short enough for `replaceTags`, there is room, and no tag that differs in case only. -/
def TagCall.Fits (config : TagsConfig) (input : TagsInput) (s : Versioned) : TagCall → Prop
  | .create new milestones tags =>
      Eff.Succeeds (shipmentInsert input.env new milestones) s.db →
        StoredAsIs config.text (tags.getD [])
  | .push id tag =>
      input.env.fails .shipmentWrite = false → (s.db.shipments.find? id).isSome →
        (s.tags id).length < 20 ∧ utf16Length tag.toList ≤ 30 ∧
          ∀ other ∈ s.tags id, config.text.toLowerCase other ≠ config.text.toLowerCase tag
  | _ => True

instance (config : TagsConfig) (input : TagsInput) (s : Versioned) (call : TagCall) :
    Decidable (call.Fits config input s) := by
  unfold TagCall.Fits
  split <;> infer_instance

variable {config characters input s}

theorem allValid_setTags (h : AllValid config s) {next : Versioned} {id : String}
    {tags : List String} (hnext : next.tags = Function.update s.tags id tags) :
    AllValid config next ↔ ValidTags config.text tags := by
  unfold AllValid
  rw [hnext]
  constructor
  · intro hall
    have hself := hall id
    rwa [Function.update_self] at hself
  · intro hvalid other
    by_cases hother : other = id
    · rw [hother, Function.update_self]
      exact hvalid
    · rw [Function.update_of_ne hother]
      exact h other

theorem allValid_of_tags_eq (h : AllValid config s) {next : Versioned}
    (hnext : next.tags = s.tags) : AllValid config next := by
  unfold AllValid
  rw [hnext]
  exact h

theorem resume_create (new : NewShipment) (milestones : List NewMilestone)
    (tags : Option (List String)) :
    (resume ((TagCall.create new milestones tags).statement config input) s).2 = none ∧
      ((Eff.Succeeds (shipmentInsert input.env new milestones) s.db ∧
          (resume ((TagCall.create new milestones tags).statement config input) s).1.tags =
            Function.update s.tags new.id (tags.getD [])) ∨
        ¬ Eff.Succeeds (shipmentInsert input.env new milestones) s.db ∧
          (resume ((TagCall.create new milestones tags).statement config input) s).1 = s) := by
  unfold resume Eff.Succeeds
  simp only [TagCall.statement]
  rw [exec_bind]
  unfold insertTagged
  rw [exec_bind, exec_get]
  dsimp only
  cases exec (shipmentInsert input.env new milestones) s.db with
  | mk outcome db =>
      cases outcome with
      | error err => exact ⟨rfl, .inr ⟨(by rintro ⟨_, ⟨⟩⟩), rfl⟩⟩
      | ok _ => exact ⟨rfl, .inl ⟨⟨(), rfl⟩, rfl⟩⟩

theorem resume_push (id tag : String) :
    (resume ((TagCall.push id tag).statement config input) s).2 = none ∧
      (((input.env.fails .shipmentWrite = false ∧ (s.db.shipments.find? id).isSome) ∧
          (resume ((TagCall.push id tag).statement config input) s).1.tags =
            Function.update s.tags id (s.tags id ++ [tag])) ∨
        ¬ (input.env.fails .shipmentWrite = false ∧ (s.db.shipments.find? id).isSome) ∧
          (resume ((TagCall.push id tag).statement config input) s).1 = s) := by
  unfold resume
  simp only [TagCall.statement]
  rw [exec_bind, exec_versionedCall]
  cases hfails : input.env.fails .shipmentWrite with
  | true => exact ⟨rfl, .inr ⟨(by rintro ⟨⟨⟩, -⟩), rfl⟩⟩
  | false =>
      simp only [Bool.false_eq_true, if_false, exec_bind, exec_get]
      cases hfound : s.db.shipments.find? id with
      | none => exact ⟨rfl, .inr ⟨(by rintro ⟨-, ⟨⟩⟩), rfl⟩⟩
      | some shipment => exact ⟨rfl, .inl ⟨⟨trivial, rfl⟩, rfl⟩⟩

/-- The checks of `addTag` and `removeTag` only read. -/
theorem resume_checks (id buyerAddress tag : String) :
    ((resume ((TagCall.addTag id buyerAddress tag).statement config input) s).1 = s ∧
      ∀ rest ∈ (resume ((TagCall.addTag id buyerAddress tag).statement config input) s).2,
        rest = .push id tag) ∧
    (resume ((TagCall.removeTag id buyerAddress tag).statement config input) s).1 = s ∧
      ∀ rest ∈ (resume ((TagCall.removeTag id buyerAddress tag).statement config input) s).2,
        rest = .arrayRemove id tag := by
  have hadd : ReadOnly ((TagCall.addTag id buyerAddress tag).statement config input) s
      fun rest => ∀ next ∈ rest, next = .push id tag := by
    refine readOnly_bind (readOnly_tagChecks input.env s id buyerAddress) fun tags _ => ?_
    refine readOnly_guard fun _ => readOnly_pure ?_
    rintro next ⟨⟩
    rfl
  have hremove : ReadOnly ((TagCall.removeTag id buyerAddress tag).statement config input) s
      fun rest => ∀ next ∈ rest, next = .arrayRemove id tag := by
    refine readOnly_bind (readOnly_tagChecks input.env s id buyerAddress) fun tags _ => ?_
    refine readOnly_guard fun _ => readOnly_pure ?_
    rintro next ⟨⟩
    rfl
  constructor
  · rcases hadd.resume_cases with hended | ⟨rest, hrest, hnext⟩
    · rw [hended]
      exact ⟨rfl, nofun⟩
    · rw [hrest]
      exact ⟨rfl, hnext⟩
  · rcases hremove.resume_cases with hended | ⟨rest, hrest, hnext⟩
    · rw [hended]
      exact ⟨rfl, nofun⟩
    · rw [hrest]
      exact ⟨rfl, hnext⟩

theorem resume_arrayRemove (id tag : String) :
    (resume ((TagCall.arrayRemove id tag).statement config input) s).2 = none ∧
      ((resume ((TagCall.arrayRemove id tag).statement config input) s).1 = s ∨
        (resume ((TagCall.arrayRemove id tag).statement config input) s).1.tags =
          Function.update s.tags id ((s.tags id).filter (· ≠ tag))) := by
  unfold resume
  simp only [TagCall.statement]
  rw [exec_bind, exec_versionedCall]
  cases input.env.fails .shipmentWrite with
  | true => exact ⟨rfl, .inl rfl⟩
  | false => exact ⟨rfl, .inr rfl⟩

/-- Before its update, `replaceTags` carries tags that it has normalised. -/
theorem resume_assertIfMatch (request : TagsRequest) (updatedAt : Nat) :
    ∀ rest ∈ (resume ((TagsCall.assertIfMatch request updatedAt).statement config input) s).2,
      (TagCall.replaceTags rest).Sound config characters := by
  have hread : ReadOnly ((TagsCall.assertIfMatch request updatedAt).statement config input) s
      fun rest => ∀ next ∈ rest, (TagCall.replaceTags next).Sound config characters := by
    refine readOnly_bind (readOnly_ifMatchRead input.env s request.ifMatch) fun _ _ => ?_
    split
    · exact readOnly_throw _ _ _
    · split
      · exact readOnly_throw _ _ _
      · rename_i tags hnext
        refine readOnly_pure ?_
        rintro next ⟨⟩
        exact validTags_nextTags hnext
  rcases hread.resume_cases with hended | ⟨rest, hrest, hnext⟩
  · rw [hended]
    nofun
  · rw [hrest]
    exact hnext

theorem resume_replaceTags (call : TagsCall)
    (hsound : (TagCall.replaceTags call).Sound config characters) :
    (AllValid config s →
        AllValid config (resume (call.statement config input) s).1) ∧
      ∀ rest ∈ (resume (call.statement config input) s).2,
        (TagCall.replaceTags rest).Sound config characters := by
  have hresumed := tagsResumed config input s call
  have hassert (request : TagsRequest) (updatedAt : Nat)
      (hcall : call = .assertIfMatch request updatedAt) :
      ∀ rest ∈ (resume (call.statement config input) s).2,
        (TagCall.replaceTags rest).Sound config characters :=
    hcall ▸ resume_assertIfMatch request updatedAt
  generalize (resume (call.statement config input) s).1 = next at hresumed ⊢
  generalize (resume (call.statement config input) s).2 = rest at hresumed hassert ⊢
  cases hresumed with
  | ended => exact ⟨id, nofun⟩
  | found request =>
      refine ⟨id, ?_⟩
      rintro rest ⟨⟩
      trivial
  | checked hmatch => exact ⟨id, hassert _ _ rfl⟩
  | updated hpinned => exact ⟨fun h => (allValid_setTags h rfl).mpr hsound, nofun⟩

/-- A step of a call keeps the tags valid exactly if its write fits. -/
theorem allValid_resume_iff (h : AllValid config s) (call : TagCall)
    (hsound : call.Sound config characters) :
    AllValid config (resume (call.statement config input) s).1 ↔
      call.Fits config input s := by
  cases call with
  | create new milestones tags =>
      rcases (resume_create new milestones tags).2 with ⟨hinserted, hnext⟩ | ⟨hrefused, hnext⟩
      · rw [allValid_setTags h hnext]
        exact ⟨fun hvalid _ => storedAsIs_iff.mpr hvalid,
          fun hfits => storedAsIs_iff.mp (hfits hinserted)⟩
      · rw [hnext]
        exact iff_of_true h fun hinserted => absurd hinserted hrefused
  | addTag id buyerAddress tag =>
      rw [(resume_checks id buyerAddress tag).1.1]
      exact iff_of_true h trivial
  | push id tag =>
      rcases (resume_push id tag).2 with ⟨⟨hcall, hfound⟩, hnext⟩ | ⟨hrefused, hnext⟩
      · rw [allValid_setTags h hnext, (h id).append_iff hsound]
        exact ⟨fun hvalid _ _ => hvalid, fun hfits => hfits hcall hfound⟩
      · rw [hnext]
        exact iff_of_true h fun hcall hfound => absurd ⟨hcall, hfound⟩ hrefused
  | removeTag id buyerAddress tag =>
      rw [(resume_checks id buyerAddress tag).2.1]
      exact iff_of_true h trivial
  | arrayRemove id tag =>
      refine iff_of_true ?_ trivial
      rcases (resume_arrayRemove id tag).2 with hnext | hnext
      · rwa [hnext]
      · exact (allValid_setTags h hnext).mpr ((h id).sublist List.filter_sublist)
  | replaceTags call =>
      refine iff_of_true ?_ trivial
      simp only [TagCall.statement]
      rw [resume_map]
      exact (resume_replaceTags call hsound).1 h

theorem sound_resume (call : TagCall) (hsound : call.Sound config characters) :
    ∀ rest ∈ (resume (call.statement config input) s).2, rest.Sound config characters := by
  cases call with
  | create new milestones tags =>
      rw [(resume_create new milestones tags).1]
      nofun
  | addTag id buyerAddress tag =>
      intro rest hrest
      rw [(resume_checks id buyerAddress tag).1.2 rest hrest]
      exact hsound
  | push id tag =>
      rw [(resume_push id tag).1]
      nofun
  | removeTag id buyerAddress tag =>
      intro rest hrest
      rw [(resume_checks id buyerAddress tag).2.2 rest hrest]
      trivial
  | arrayRemove id tag =>
      rw [(resume_arrayRemove id tag).1]
      nofun
  | replaceTags call =>
      simp only [TagCall.statement]
      rw [resume_map]
      intro rest hrest
      obtain ⟨next, hnext, rfl⟩ := Option.map_eq_some_iff.mp hrest
      exact (resume_replaceTags call hsound).2 next hnext

end Statements

section Runs

variable {config : TagsConfig} {characters : CharacterCount}

/-- The write that an action makes fits. -/
def TagWriteFits (config : TagsConfig) (s : TagPool) : TagAction → Prop
  | .resume index input => ∀ call ∈ s.inflight[index]?, call.Fits config input s.shared
  | .begin _ | .crash _ | .external _ => True

instance (config : TagsConfig) (s : TagPool) : (a : TagAction) → Decidable (TagWriteFits config s a)
  | .resume index input =>
      inferInstanceAs (Decidable (∀ call ∈ s.inflight[index]?, call.Fits config input s.shared))
  | .begin _ | .crash _ | .external _ => inferInstanceAs (Decidable True)

theorem sound_of_starts {call : TagCall} (h : call.starts characters = true) :
    call.Sound config characters := by
  cases call with
  | addTag id buyerAddress tag => exact h
  | create new milestones tags | removeTag id buyerAddress tag => trivial
  | push id tag | arrayRemove id tag => cases h
  | replaceTags call =>
      cases call with
      | findUnique request => trivial
      | assertIfMatch request updatedAt | conditionalUpdate request updatedAt tags => cases h

theorem sound_step {s : TagPool} (h : ∀ call ∈ s.inflight, call.Sound config characters)
    (a : TagAction) :
    ∀ call ∈ ((tagWriters config characters).step s a).inflight, call.Sound config characters := by
  refine (tagWriters config characters).calls_step (P := fun _ call => call.Sound config characters)
    a h (fun call => sound_of_starts) ?_ fun _ _ hother => hother
  intro input call hcall
  refine ⟨fun next hnext => ?_, fun _ hother => hother⟩
  exact sound_resume call (h call hcall) next (Option.mem_toList.mp hnext)

theorem allValid_step_iff {s : TagPool} (hcalls : ∀ call ∈ s.inflight, call.Sound config characters)
    (h : AllValid config s.shared) (a : TagAction) :
    AllValid config ((tagWriters config characters).step s a).shared ↔
      TagWriteFits config s a := by
  rcases (tagWriters config characters).step_cases s a with ⟨call, rfl, -, hnext⟩ |
    ⟨index, input, call, pre, post, rfl, hcall, -, -, hnext⟩ |
    ⟨index, call, pre, post, rfl, -, -, -, hnext⟩ | ⟨event, rfl, hnext⟩ | ⟨hnext, hnone⟩
  · rw [hnext]
    exact iff_of_true h trivial
  · have hresumed : AllValid config (resume (call.statement config input) s.shared).1 ↔
        call.Fits config input s.shared :=
      allValid_resume_iff h call (hcalls call (List.mem_of_getElem? hcall))
    have hfits : TagWriteFits config s (.resume index input) ↔
        call.Fits config input s.shared := by
      simp only [TagWriteFits, hcall, Option.mem_some_iff, forall_eq']
    rw [hnext, hfits]
    exact hresumed
  · rw [hnext]
    exact iff_of_true h trivial
  · rw [hnext]
    exact iff_of_true (allValid_of_tags_eq h rfl) trivial
  · rw [hnext]
    refine iff_of_true h ?_
    cases a with
    | resume index input =>
        rw [TagWriteFits, hnone index (.inl ⟨input, rfl⟩)]
        nofun
    | begin call | crash index | external event => trivial

/-- The tags of all shipments are within the bounds in every state of a run exactly if each
`create` is given tags that `replaceTags` would store as they are, and each `addTag`, when it
appends a tag of up to 30 characters, finds fewer than 20 tags and none that differs in case only. -/
theorem tags_within_bounds_iff (config : TagsConfig) (characters : CharacterCount) (s : Versioned)
    (actions : List TagAction) :
    (∀ pre post, actions = pre ++ post → ∀ id, ValidTags config.text
        (((tagWriters config characters).run pre (untagged s)).shared.tags id)) ↔
      Along (tagWriters config characters).step (TagWriteFits config) (untagged s)
        actions := by
  have hsound (s : TagPool) (a : TagAction) (h : ∀ call ∈ s.inflight, call.Sound config characters) :=
    sound_step h a
  have hstep (s : TagPool) (a : TagAction) (h : ∀ call ∈ s.inflight, call.Sound config characters)
      (hvalid : AllValid config s.shared) := allValid_step_iff h hvalid a
  have hcalls : ∀ call ∈ (untagged s).inflight, call.Sound config characters :=
    fun _ hmem => absurd hmem List.not_mem_nil
  exact along_iff_property hsound hstep hcalls (fun _ => validTags_nil) actions

/-- The participants have accounts and there is no shipment. -/
def unshipped : Versioned where
  db := { Db.blank with users := demoUsers }
  tags _ := []
  updatedAt _ := 0
  milestoneUpdatedAt _ := 0

def tagAdded (tag : String) : List TagAction :=
  [.begin (.addTag "SHIP-1" "GBUYER" tag), .resume 0 ⟨.calm 2, unshipped, 2⟩,
    .resume 0 ⟨.calm 3, unshipped, 3⟩]

/-- A shipment is created with one tag, and its buyer adds another. -/
def taggingApart : List TagAction :=
  [.begin (.create demoShipment [] (some ["urgent"])), .resume 0 ⟨.calm 1, unshipped, 1⟩] ++
    tagAdded "Fragile"

theorem tags_apart_within_bounds :
    ((tagWriters demoConfig .codePoints).run taggingApart (untagged unshipped)).shared.tags
        "SHIP-1" = ["urgent", "Fragile"] ∧
      ∀ pre post, taggingApart = pre ++ post → ∀ id, ValidTags demoConfig.text
        (((tagWriters demoConfig .codePoints).run pre (untagged unshipped)).shared.tags id) :=
  ⟨by decide,
    (tags_within_bounds_iff demoConfig .codePoints unshipped taggingApart).mpr (by decide)⟩

/-- A tag is added a second time, in lower case. -/
def taggingTwice : List TagAction :=
  taggingApart ++ tagAdded "fragile"

theorem tag_added_in_both_cases :
    ((tagWriters demoConfig .codePoints).run taggingTwice (untagged unshipped)).shared.tags
        "SHIP-1" = ["urgent", "Fragile", "fragile"] ∧
      ¬ ValidTags demoConfig.text ["urgent", "Fragile", "fragile"] :=
  ⟨by decide, fun h => absurd h.distinct (by decide)⟩

end Runs

end ChainSettle
