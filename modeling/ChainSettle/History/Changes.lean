import ChainSettle.Lib.JsonTree
import ChainSettle.Lib.Text
import ChainSettle.Semantics.Database
import Mathlib.Data.List.Dedup

/-!
The differences that an update of a shipment records, and what a reader of the history is
shown of them.

A dot path spells the keys of a place with dots between them, without escapes. Two places can
be spelled alike; in a flattened value the last one is left.

The changes recorded for a field against the two values of the field.
-/

namespace ChainSettle

open Lib JsonTree

variable {ν : Type}

/-- A value of JSON: every object has a key once. -/
structure JsonValue (ν : Type) where
  tree : JsonTree ν
  keyed : tree.keyed

structure FieldChange (ν : Type) where
  field : String
  before : JsonTree ν
  after : JsonTree ν

def isPlainObject : JsonTree ν → Bool
  | .obj _ => true
  | _ => false

mutual

/-- An object is flattened into its leaves; arrays are leaves. -/
def flattenToDotPaths : JsonTree ν → String → Fields String (JsonTree ν)
  | .obj fields, path =>
    if fields.isEmpty then [(path, .obj [])] else flattenEntries [] fields path
  | v, path => [(path, v)]

/-- The loop over the keys of an object, with `Object.assign(out, …)`. -/
def flattenEntries (out : Fields String (JsonTree ν)) :
    List (String × JsonTree ν) → String → Fields String (JsonTree ν)
  | [], _ => out
  | (key, v) :: rest, path =>
    flattenEntries (out.assign (flattenToDotPaths v (path ++ "." ++ key))) rest path

end

section Stringify

variable (numbers : NumberFormat ν)

mutual

def stableStringify : JsonTree ν → List Char
  | .arr items => '[' :: commas (stableItems items) ++ [']']
  | .obj fields =>
    '\x7b' :: commas ((sortKeys (stableFields fields)).map fun e => quote e.1 ++ ':' :: e.2) ++
      ['\x7d']
  | v => text numbers v

def stableItems : List (JsonTree ν) → List (List Char)
  | [] => []
  | v :: rest => stableStringify v :: stableItems rest

def stableFields : List (String × JsonTree ν) → Fields String (List Char)
  | [] => []
  | (key, v) :: rest => (key, stableStringify v) :: stableFields rest

end

def same (a b : JsonTree ν) : Bool :=
  decide (stableStringify numbers a = stableStringify numbers b)

theorem stableItems_eq (items : List (JsonTree ν)) :
    stableItems numbers items = items.map (stableStringify numbers) := by
  induction items with
  | nil => rfl
  | cons v rest ih => rw [stableItems, ih, List.map_cons]

theorem stableFields_eq (fields : List (String × JsonTree ν)) :
    stableFields numbers fields = fields.map fun f => (f.1, stableStringify numbers f.2) := by
  induction fields with
  | nil => rfl
  | cons f rest ih => rw [stableFields, ih, List.map_cons]

/-- The stable text is the text of the value with its keys in order. -/
theorem stableStringify_eq (v : JsonTree ν) :
    stableStringify numbers v = text numbers (canonical v) := by
  induction v using induct with
  | arr items ih =>
      rw [stableStringify, stableItems_eq, canonical_arr, text, texts_eq, List.map_map,
        List.map_congr_left ih]
      rfl
  | obj fields ih =>
      have hfields : (fields.map fun f => (f.1, stableStringify numbers f.2)) =
          (fields.map fun f => (f.1, canonical f.2)).map fun f => (f.1, text numbers f.2) := by
        rw [List.map_map]
        exact List.map_congr_left fun f hf => by rw [ih f hf]; rfl
      rw [stableStringify, stableFields_eq, hfields, sortKeys_map, canonical_obj, text,
        fieldTexts_eq, List.map_map]
      rfl
  | _ => rfl

theorem same_iff (a b : JsonTree ν) : same numbers a b ↔ canonical a = canonical b := by
  rw [same, decide_eq_true_iff, stableStringify_eq, stableStringify_eq]
  exact (text_injective numbers).eq_iff

/-- `sort()` on texts. -/
def sortTexts (texts : List String) : List String :=
  texts.insertionSort fun a b => codeUnits a ≤ codeUnits b

theorem mem_sortTexts {text : String} {texts : List String} :
    text ∈ sortTexts texts ↔ text ∈ texts :=
  (List.perm_insertionSort _ texts).mem_iff

/-- The changes of one field. -/
def changesOf (before after : Fields String (JsonTree ν)) (field : String) :
    List (FieldChange ν) :=
  let b := (before.get? field).getD .null
  let a := (after.get? field).getD .null
  if isPlainObject b || isPlainObject a then
    let fb := if isPlainObject b then flattenToDotPaths b field else [(field, b)]
    let fa := if isPlainObject a then flattenToDotPaths a field else [(field, a)]
    let paths := sortTexts (fb.map Prod.fst ++ fa.map Prod.fst).dedup
    paths.filterMap fun path =>
      let pb := (fb.get? path).getD .null
      let pa := (fa.get? path).getD .null
      if same numbers pb pa then none else some ⟨path, pb, pa⟩
  else if same numbers b a then []
  else [⟨field, b, a⟩]

def computeFieldChanges (before after : Fields String (JsonTree ν)) (fields : List String) :
    List (FieldChange ν) :=
  fields.flatMap (changesOf numbers before after)

end Stringify

section History

/-- A row of `audit_logs`. -/
structure HistoryEntry (ν : Type) where
  id : String
  resourceType : Option String
  resourceId : Option String
  entityType : String
  entityId : Option String
  metadata : JsonTree ν

end History

variable {ν : Type}

section Reading

/-- The dot path of a place below a field. -/
def dotPath (field : String) (place : List String) : String :=
  place.foldl (fun path key => path ++ "." ++ key) field

/-- The leaves of a value by their dot paths, the last one first. -/
def spelled (v : JsonTree ν) (field : String) : Fields String (JsonTree ν) :=
  ((leaves v).map fun l => (dotPath field l.1, l.2)).reverse

/-- The last leaf whose place is spelled by a dot path, null if there is none. -/
def lastLeaf (v : JsonTree ν) (field path : String) : JsonTree ν :=
  (Fields.get? (spelled v field) path).getD .null

def spelledFields (fields : List (String × JsonTree ν)) (field : String) :
    Fields String (JsonTree ν) :=
  ((leavesFields fields).map fun l => (dotPath field l.1, l.2)).reverse

theorem spelledFields_cons (key : String) (v : JsonTree ν) (rest : List (String × JsonTree ν))
    (field : String) : spelledFields ((key, v) :: rest) field =
      spelledFields rest field ++ spelled v (field ++ "." ++ key) := by
  unfold spelledFields spelled
  rw [leavesFields, List.map_append, List.reverse_append, List.map_map]
  rfl

theorem nodup_set {o : Fields String (JsonTree ν)} (h : (o.map Prod.fst).Nodup) (key : String)
    (v : JsonTree ν) : ((o.set key v).map Prod.fst).Nodup := by
  unfold Fields.set
  split
  · rename_i hset
    have hkeys : (o.map fun e => if e.1 = key then (key, v) else e).map Prod.fst =
        o.map Prod.fst := by
      rw [List.map_map]
      refine List.map_congr_left fun e _ => ?_
      by_cases hkey : e.1 = key
      · rw [Function.comp_apply, if_pos hkey, hkey]
      · rw [Function.comp_apply, if_neg hkey]
    rwa [hkeys]
  · rename_i hfresh
    rw [Fields.isSome_get?_iff] at hfresh
    rw [List.map_append, List.nodup_append]
    refine ⟨h, by simp, ?_⟩
    intro a ha b hb hab
    rw [List.map_singleton, List.mem_singleton] at hb
    obtain rfl : a = key := hab.trans hb
    exact hfresh ha

theorem nodup_assign {o : Fields String (JsonTree ν)} (h : (o.map Prod.fst).Nodup)
    (entries : Fields String (JsonTree ν)) : ((o.assign entries).map Prod.fst).Nodup := by
  unfold Fields.assign
  induction entries generalizing o with
  | nil => exact h
  | cons e rest ih => exact ih (nodup_set h e.1 e.2)

theorem nodup_flattenEntries (fields : List (String × JsonTree ν)) :
    ∀ (out : Fields String (JsonTree ν)) (path : String), (out.map Prod.fst).Nodup →
      ((flattenEntries out fields path).map Prod.fst).Nodup := by
  induction fields with
  | nil =>
      intro out path hout
      exact hout
  | cons f rest ih =>
      intro out path hout
      exact ih _ path (nodup_assign hout _)

theorem nodup_flatten (v : JsonTree ν) (path : String) :
    ((flattenToDotPaths v path).map Prod.fst).Nodup := by
  cases v with
  | obj fields =>
      rw [flattenToDotPaths]
      split
      · simp
      · exact nodup_flattenEntries fields [] path (by simp)
  | _ => simp [flattenToDotPaths]

/-- A flattened value has the last leaf of every dot path. -/
theorem get?_flatten (v : JsonTree ν) : ∀ path at' : String,
    Fields.get? (flattenToDotPaths v path) at' = Fields.get? (spelled v path) at' := by
  induction v using induct with
  | obj fields ih =>
      intro path at'
      have hloop : ∀ out : Fields String (JsonTree ν),
          Fields.get? (flattenEntries out fields path) at' =
            (Fields.get? (spelledFields fields path) at').or (Fields.get? out at') := by
        induction fields with
        | nil =>
            intro out
            rfl
        | cons f rest ih' =>
            intro out
            obtain ⟨key, v⟩ := f
            rw [flattenEntries, ih' (fun g hg => ih g (.tail _ hg)),
              Fields.get?_assign (nodup_flatten v _), ih _ (.head _), spelledFields_cons,
              Fields.get?_append, Option.or_assoc]
      rw [flattenToDotPaths, spelled, leaves]
      split
      · rfl
      · rw [hloop, Fields.get?_nil, Option.or_none, spelledFields]
  | _ =>
      intro path at'
      rfl

theorem getD_flatten (v : JsonTree ν) (field path : String) :
    (Fields.get? (flattenToDotPaths v field) path).getD .null = lastLeaf v field path := by
  rw [get?_flatten, lastLeaf]

theorem lastLeaf_of_leaf {v : JsonTree ν} (h : leaves v = [([], v)]) (field path : String) :
    lastLeaf v field path = if field = path then v else .null := by
  rw [lastLeaf, spelled, h, List.map_singleton, List.reverse_singleton, Fields.get?_cons]
  change (if field = path then some v else none).getD .null = _
  split <;> rfl

end Reading

section Changes

variable (numbers : NumberFormat ν)

theorem leaves_of_not_isPlainObject {v : JsonTree ν} (h : isPlainObject v = false) :
    leaves v = [([], v)] := by
  cases v with
  | obj fields => cases h
  | _ => rfl

theorem flatten_of_not_isPlainObject {v : JsonTree ν} (h : isPlainObject v = false)
    (field : String) : flattenToDotPaths v field = [(field, v)] := by
  cases v with
  | obj fields => cases h
  | _ => rfl

/-- The changes of a field are the dot paths at which the last leaves differ. -/
theorem mem_changesOf_iff (before after : Fields String (JsonTree ν)) (field : String)
    (change : FieldChange ν) : change ∈ changesOf numbers before after field ↔
      ∃ path, canonical (lastLeaf ((before.get? field).getD .null) field path) ≠
          canonical (lastLeaf ((after.get? field).getD .null) field path) ∧
        change = ⟨path, lastLeaf ((before.get? field).getD .null) field path,
          lastLeaf ((after.get? field).getD .null) field path⟩ := by
  generalize hb : (before.get? field).getD .null = b
  generalize ha : (after.get? field).getD .null = a
  have hflat (v : JsonTree ν) : (if isPlainObject v then flattenToDotPaths v field
      else [(field, v)]) = flattenToDotPaths v field := by
    split
    · rfl
    · rename_i hv
      rw [flatten_of_not_isPlainObject (by simpa using hv)]
  unfold changesOf
  simp only [hb, ha, hflat]
  split
  · simp only [List.mem_filterMap, getD_flatten]
    constructor
    · rintro ⟨path, -, hchange⟩
      by_cases hsame : same numbers (lastLeaf b field path) (lastLeaf a field path)
      · rw [if_pos hsame] at hchange
        cases hchange
      · rw [if_neg hsame] at hchange
        exact ⟨path, fun h => hsame ((same_iff ..).mpr h), (Option.some.inj hchange).symm⟩
    · rintro ⟨path, hdiffer, rfl⟩
      refine ⟨path, ?_, if_neg fun h => hdiffer ((same_iff ..).mp h)⟩
      rw [mem_sortTexts, List.mem_dedup, List.mem_append]
      by_contra hnone
      rw [not_or, ← Fields.isSome_get?_iff, ← Fields.isSome_get?_iff,
        Option.not_isSome_iff_eq_none, Option.not_isSome_iff_eq_none] at hnone
      rw [← getD_flatten, ← getD_flatten, hnone.1, hnone.2] at hdiffer
      exact hdiffer rfl
  · rename_i hplain
    rw [Bool.or_eq_true, not_or, Bool.not_eq_true, Bool.not_eq_true] at hplain
    have hbleaf := lastLeaf_of_leaf (leaves_of_not_isPlainObject hplain.1) field
    have haleaf := lastLeaf_of_leaf (leaves_of_not_isPlainObject hplain.2) field
    simp only [hbleaf, haleaf]
    constructor
    · intro hchange
      split at hchange
      · cases hchange
      · rename_i hsame
        refine ⟨field, ?_, ?_⟩
        · rw [if_pos rfl, if_pos rfl]
          exact fun h => hsame ((same_iff ..).mpr h)
        · rw [if_pos rfl, if_pos rfl]
          exact List.mem_singleton.mp hchange
    · rintro ⟨path, hdiffer, rfl⟩
      by_cases hpath : field = path
      · rw [if_pos hpath, if_pos hpath] at hdiffer
        rw [if_neg fun h => hdiffer ((same_iff ..).mp h), hpath, if_pos rfl, if_pos rfl]
        exact List.mem_singleton_self _
      · rw [if_neg hpath, if_neg hpath] at hdiffer
        exact absurd rfl hdiffer

theorem changesOf_eq_nil_iff (before after : Fields String (JsonTree ν)) (field : String) :
    changesOf numbers before after field = [] ↔
      ∀ path, canonical (lastLeaf ((before.get? field).getD .null) field path) =
        canonical (lastLeaf ((after.get? field).getD .null) field path) := by
  rw [List.eq_nil_iff_forall_not_mem]
  simp only [mem_changesOf_iff, not_exists, not_and]
  constructor
  · intro h path
    by_contra hdiffer
    exact h _ path hdiffer rfl
  · intro h change path hdiffer
    exact absurd (h path) hdiffer

/-- The changes put on top of a flattened value. -/
def applyChanges (flat : Fields String (JsonTree ν)) (changes : List (FieldChange ν)) :
    Fields String (JsonTree ν) :=
  changes.foldl (fun flat change => flat.set change.field change.after) flat

theorem get?_applyChanges {changes : List (FieldChange ν)} {f : String → JsonTree ν}
    (h : ∀ change ∈ changes, change.after = f change.field)
    (flat : Fields String (JsonTree ν)) (path : String) :
    Fields.get? (applyChanges flat changes) path =
      if path ∈ changes.map FieldChange.field then some (f path) else Fields.get? flat path := by
  induction changes generalizing flat with
  | nil => rfl
  | cons change rest ih =>
      have hstep : applyChanges flat (change :: rest) =
          applyChanges (flat.set change.field change.after) rest := rfl
      rw [hstep, ih (fun c hc => h c (.tail _ hc)), Fields.get?_set, h change (.head _),
        List.map_cons]
      by_cases hpath : path = change.field
      · simp [hpath]
      · simp [hpath]

/-- The changes turn the flattened value before into the one after. -/
theorem applyChanges_changesOf (before after : Fields String (JsonTree ν)) (field path : String) :
    canonical ((Fields.get? (applyChanges
        (flattenToDotPaths ((before.get? field).getD .null) field)
        (changesOf numbers before after field)) path).getD .null) =
      canonical ((Fields.get? (flattenToDotPaths ((after.get? field).getD .null) field)
        path).getD .null) := by
  rw [get?_applyChanges (f := lastLeaf ((after.get? field).getD .null) field), getD_flatten]
  · split
    · rfl
    · rename_i hunchanged
      rw [getD_flatten]
      by_contra hdiffer
      exact hunchanged (List.mem_map.mpr
        ⟨_, (mem_changesOf_iff ..).mpr ⟨path, hdiffer, rfl⟩, rfl⟩)
  · intro change hchange
    obtain ⟨path, -, rfl⟩ := (mem_changesOf_iff ..).mp hchange
    rfl

end Changes

section Exact

variable (numbers : NumberFormat ν)

/-- The object before an update and the object of the new values, as JSON. -/
def columns (values : Fields String (JsonValue ν)) : Fields String (JsonTree ν) :=
  values.map fun e => (e.1, e.2.tree)

/-- `values[field] ?? null`. -/
def fieldValue (values : Fields String (JsonValue ν)) (field : String) : JsonTree ν :=
  ((columns values).get? field).getD .null

theorem fieldValue_keyed (values : Fields String (JsonValue ν)) (field : String) :
    keyed (fieldValue values field) := by
  unfold fieldValue
  cases hfound : (columns values).get? field with
  | none => rfl
  | some v =>
      obtain ⟨e, -, he⟩ := List.mem_map.mp (Fields.mem_of_get? hfound)
      rw [Option.getD_some, ← (Prod.mk.inj he).2]
      exact e.2.keyed

/-- The recorded changes of a field say precisely how its value differs. -/
structure DiffExact (before after : Fields String (JsonValue ν)) (field : String) : Prop where
  reported : computeFieldChanges numbers (columns before) (columns after) [field] = [] ↔
    normal (fieldValue before field) = normal (fieldValue after field)
  applied : ∀ path,
    canonical ((Fields.get? (applyChanges (flattenToDotPaths (fieldValue before field) field)
        (computeFieldChanges numbers (columns before) (columns after) [field])) path).getD .null) =
      canonical ((Fields.get? (flattenToDotPaths (fieldValue after field) field) path).getD .null)

/-- Two values read the same: at every dot path the last leaves are the same. -/
def SameReading (field : String) (v w : JsonTree ν) : Prop :=
  ∀ path, canonical (lastLeaf v field path) = canonical (lastLeaf w field path)

theorem computeFieldChanges_single (before after : Fields String (JsonTree ν)) (field : String) :
    computeFieldChanges numbers before after [field] = changesOf numbers before after field := by
  rw [computeFieldChanges, List.flatMap_singleton]

theorem diffExact_iff (before after : Fields String (JsonValue ν)) (field : String) :
    DiffExact numbers before after field ↔
      (normal (fieldValue before field) = normal (fieldValue after field) ↔
        SameReading field (fieldValue before field) (fieldValue after field)) := by
  have hreported := changesOf_eq_nil_iff numbers (columns before) (columns after) field
  rw [← computeFieldChanges_single] at hreported
  constructor
  · intro h
    exact h.reported.symm.trans hreported
  · intro h
    refine ⟨hreported.trans h.symm, fun path => ?_⟩
    rw [computeFieldChanges_single]
    exact applyChanges_changesOf numbers (columns before) (columns after) field path

/-- No two places of the two values are spelled alike. -/
def Legible (field : String) (v w : JsonTree ν) : Prop :=
  ∀ p ∈ (leaves v ++ leaves w).map Prod.fst, ∀ q ∈ (leaves v ++ leaves w).map Prod.fst,
    dotPath field p = dotPath field q → p = q

theorem mem_spelled_iff (v : JsonTree ν) (field path : String) (leaf : JsonTree ν) :
    (path, leaf) ∈ spelled v field ↔ ∃ place, (place, leaf) ∈ leaves v ∧
      dotPath field place = path := by
  rw [spelled, List.mem_reverse, List.mem_map]
  constructor
  · rintro ⟨⟨place, l⟩, hl, hsame⟩
    obtain ⟨rfl, rfl⟩ := Prod.mk.inj hsame
    exact ⟨place, hl, rfl⟩
  · rintro ⟨place, hl, rfl⟩
    exact ⟨_, hl, rfl⟩

/-- A dot path that spells one place only reads the leaf there. -/
theorem lastLeaf_dotPath {v : JsonTree ν} {field : String} {place : List String} (hv : keyed v)
    (h : ∀ q ∈ (leaves v).map Prod.fst, dotPath field q = dotPath field place → q = place) :
    lastLeaf v field (dotPath field place) = leafAt v place := by
  have hread {leaf : JsonTree ν}
      (hfound : Fields.get? (spelled v field) (dotPath field place) = some leaf) :
      Fields.get? (leaves v) place = some leaf := by
    obtain ⟨q, hq, hspelled⟩ := (mem_spelled_iff ..).mp (Fields.mem_of_get? hfound)
    obtain rfl := h q (List.mem_map.mpr ⟨_, hq, rfl⟩) hspelled
    exact (get?_eq_some_iff (nodup_places v hv) ..).mpr hq
  rw [lastLeaf, leafAt]
  cases hfound : Fields.get? (spelled v field) (dotPath field place) with
  | some leaf => rw [hread hfound]
  | none =>
      cases hleaf : Fields.get? (leaves v) place with
      | none => rfl
      | some leaf =>
          have hmem := (mem_spelled_iff v field _ leaf).mpr ⟨place, Fields.mem_of_get? hleaf, rfl⟩
          have hsome := (Fields.isSome_get?_iff (spelled v field) (dotPath field place)).mpr
            (List.mem_map.mpr ⟨_, hmem, rfl⟩)
          rw [hfound] at hsome
          cases hsome

theorem lastLeaf_of_unspelled {v : JsonTree ν} {field path : String}
    (h : ∀ q ∈ (leaves v).map Prod.fst, dotPath field q ≠ path) : lastLeaf v field path = .null := by
  rw [lastLeaf]
  cases hfound : Fields.get? (spelled v field) path with
  | none => rfl
  | some leaf =>
      obtain ⟨q, hq, hspelled⟩ := (mem_spelled_iff ..).mp (Fields.mem_of_get? hfound)
      exact absurd hspelled (h q (List.mem_map.mpr ⟨_, hq, rfl⟩))

theorem leafAt_of_not_mem {v : JsonTree ν} {place : List String}
    (h : place ∉ (leaves v).map Prod.fst) : leafAt v place = .null := by
  rw [← Fields.isSome_get?_iff, Option.not_isSome_iff_eq_none] at h
  rw [leafAt, h]
  rfl

/-- Legible values read the same if and only if they have the same leaves. -/
theorem sameReading_iff {field : String} {v w : JsonTree ν} (hv : keyed v) (hw : keyed w)
    (h : Legible field v w) : SameReading field v w ↔
      ∀ place, canonical (leafAt v place) = canonical (leafAt w place) := by
  have hleft {place : List String} (hplace : place ∈ (leaves v ++ leaves w).map Prod.fst) :
      lastLeaf v field (dotPath field place) = leafAt v place :=
    lastLeaf_dotPath hv fun q hq hspelled => h q (by simp_all) place hplace hspelled
  have hright {place : List String} (hplace : place ∈ (leaves v ++ leaves w).map Prod.fst) :
      lastLeaf w field (dotPath field place) = leafAt w place :=
    lastLeaf_dotPath hw fun q hq hspelled => h q (by simp_all) place hplace hspelled
  constructor
  · intro hread place
    by_cases hplace : place ∈ (leaves v ++ leaves w).map Prod.fst
    · rw [← hleft hplace, ← hright hplace]
      exact hread _
    · rw [List.map_append, List.mem_append, not_or] at hplace
      rw [leafAt_of_not_mem hplace.1, leafAt_of_not_mem hplace.2]
  · intro hleaf path
    by_cases hspelled : ∃ place ∈ (leaves v ++ leaves w).map Prod.fst, dotPath field place = path
    · obtain ⟨place, hplace, rfl⟩ := hspelled
      rw [hleft hplace, hright hplace]
      exact hleaf place
    · rw [lastLeaf_of_unspelled fun q hq hq' => hspelled ⟨q, by simp_all, hq'⟩,
        lastLeaf_of_unspelled fun q hq hq' => hspelled ⟨q, by simp_all, hq'⟩]

/-- Without null entries and places spelled alike, the reading is the value. -/
theorem normal_eq_iff_sameReading {field : String} {v w : JsonTree ν} (hv : keyed v)
    (hw : keyed w) (hfv : nullFree v) (hfw : nullFree w) (h : Legible field v w) :
    normal v = normal w ↔ SameReading field v w := by
  rw [normal_of_nullFree v hfv, normal_of_nullFree w hfw, sameReading_iff hv hw h]
  constructor
  · intro hsame place
    rw [← leafAt_canonical v place hv, ← leafAt_canonical w place hw, hsame]
  · exact canonical_eq_of_leafAt v w hv hw hfv hfw

/-- What a dot path loses of its place: the dots in keys and the null entries. The changes of
every field are exact if and only if the values read the same when they are the same. -/
theorem field_changes_exact_iff (before after : Fields String (JsonValue ν))
    (fields : List String) :
    computeFieldChanges numbers (columns before) (columns after) fields =
        fields.flatMap (fun field =>
          computeFieldChanges numbers (columns before) (columns after) [field]) ∧
      ∀ field, (DiffExact numbers before after field ↔
          (normal (fieldValue before field) = normal (fieldValue after field) ↔
            SameReading field (fieldValue before field) (fieldValue after field))) ∧
        (nullFree (fieldValue before field) → nullFree (fieldValue after field) →
          Legible field (fieldValue before field) (fieldValue after field) →
          DiffExact numbers before after field) := by
  refine ⟨?_, fun field => ⟨diffExact_iff numbers before after field, ?_⟩⟩
  · simp only [computeFieldChanges_single]
    rfl
  · intro hfb hfa hlegible
    exact (diffExact_iff numbers before after field).mpr (normal_eq_iff_sameReading
      (fieldValue_keyed before field) (fieldValue_keyed after field) hfb hfa hlegible)

theorem decimal_ne_nil (n : Nat) : decimal 1 n ≠ [] := by
  intro hnil
  have hlength := congrArg List.length hnil
  rw [decimal, List.length_leftpad, List.length_nil] at hlength
  omega

theorem isNumberChar_of_mem_decimal (n : Nat) (c : Char) (hc : c ∈ decimal 1 n) :
    isNumberChar c := by
  simp [isNumberChar, isDigit_of_mem_decimal hc]

/-- Whole numbers in decimals. -/
def wholeNumbers : NumberFormat Nat where
  format := decimal 1
  injective := decimal_injective 1
  ne_nil := decimal_ne_nil
  chars := isNumberChar_of_mem_decimal

/-- One column of a row. -/
def column (field : String) (v : JsonTree Nat) (hv : keyed v) : Fields String (JsonValue Nat) :=
  [(field, ⟨v, hv⟩)]

def portColumn : Fields String (JsonValue Nat) :=
  column "metadata" (.obj [("port", .obj [("origin", .str "SGP"), ("dest", .num 3)])]) (by decide)

def emptyColumn : Fields String (JsonValue Nat) :=
  column "metadata" (.obj []) (by decide)

/-- From an empty object to a nested one. -/
theorem ports_added_exact : DiffExact wholeNumbers emptyColumn portColumn "metadata" := by
  refine ((field_changes_exact_iff wholeNumbers emptyColumn portColumn []).2 "metadata").2
    (by decide) (by decide) ?_
  unfold Legible
  decide

def dottedColumn : Fields String (JsonValue Nat) :=
  column "metadata" (.obj [("port.dest", .num 3)]) (by decide)

def nestedColumn : Fields String (JsonValue Nat) :=
  column "metadata" (.obj [("port", .obj [("dest", .num 3)])]) (by decide)

def nullColumn : Fields String (JsonValue Nat) :=
  column "metadata" .null (by decide)

def hollowColumn : Fields String (JsonValue Nat) :=
  column "metadata" (.obj [("port", .null)]) (by decide)

/-- A dot in a key, and an object that has a null entry only: a change of the value that is not
reported, twice, and a report without a change. -/
theorem changes_inexact : ¬ DiffExact wholeNumbers dottedColumn nestedColumn "metadata" ∧
    ¬ DiffExact wholeNumbers nullColumn hollowColumn "metadata" ∧
    ¬ DiffExact wholeNumbers emptyColumn hollowColumn "metadata" := by
  refine ⟨fun h => ?_, fun h => ?_, fun h => ?_⟩
  · have hsame := h.reported.mp rfl
    injection hsame with hfields
    injection hfields with hfirst
    injection hfirst with hkey
    exact absurd hkey (by decide)
  · have hsame := h.reported.mp rfl
    cases hsame
  · have hnone := h.reported.mpr rfl
    cases hnone

end Exact

end ChainSettle
