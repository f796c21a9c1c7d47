import ChainSettle.Lib.Fields
import Mathlib.Algebra.Ring.Nat
import Mathlib.Data.List.Lex
import Mathlib.Data.List.Sort

/-!
JSON values and the text of a value. An object is a list of fields in the order of its keys.
Numbers are a parameter: what is used of them is that each has a text of its own.

The text of a value ends itself before a comma or a closing bracket, so values are read back
one after the other. `canonical` sorts the keys at every depth; two values with the same
canonical form differ in the order of their keys only.
-/

namespace Lib

section CodeUnits

/-- The UTF-16 code units of a character. -/
def codeUnit (c : Char) : List Nat :=
  if c.toNat < 0x10000 then [c.toNat]
  else [0xD800 + (c.toNat - 0x10000) / 0x400, 0xDC00 + (c.toNat - 0x10000) % 0x400]

def codeUnits (text : String) : List Nat := text.toList.flatMap codeUnit

/-- The code units of a text are read back one character at a time. -/
theorem codeUnit_append_inj {c d : Char} {x y : List Nat}
    (h : codeUnit c ++ x = codeUnit d ++ y) : c = d ∧ x = y := by
  have hc := c.valid
  have hd := d.valid
  unfold UInt32.isValidChar Nat.isValidChar at hc hd
  change c.toNat < _ ∨ _ < c.toNat ∧ c.toNat < _ at hc
  change d.toNat < _ ∨ _ < d.toNat ∧ d.toNat < _ at hd
  suffices hsame : c.toNat = d.toNat ∧ x = y from ⟨Char.toNat_inj.mp hsame.1, hsame.2⟩
  unfold codeUnit at h
  split at h <;> split at h
  · simpa using h
  · simp only [List.cons_append, List.nil_append, List.cons.injEq] at h
    omega
  · simp only [List.cons_append, List.nil_append, List.cons.injEq] at h
    omega
  · simp only [List.cons_append, List.nil_append, List.cons.injEq] at h
    obtain ⟨hhigh, hlow, hrest⟩ := h
    exact ⟨by omega, hrest⟩

theorem codeUnits_injective : Function.Injective codeUnits := by
  intro a b h
  apply String.toList_injective
  unfold codeUnits at h
  generalize a.toList = cs at h
  generalize b.toList = ds at h
  have hne (c : Char) : codeUnit c ≠ [] := by
    unfold codeUnit
    split <;> simp
  induction cs generalizing ds with
  | nil =>
      cases ds with
      | nil => rfl
      | cons d ds => simp [hne d] at h
  | cons c cs ih =>
      cases ds with
      | nil => simp [hne c] at h
      | cons d ds =>
          obtain ⟨rfl, hrest⟩ := codeUnit_append_inj h
          rw [ih ds hrest]

variable {α : Type}

/-- Fields in the order of their keys, as `sort()` orders texts. -/
def sortKeys (fields : Fields String α) : Fields String α :=
  fields.insertionSort fun e f => codeUnits e.1 ≤ codeUnits f.1

theorem sortKeys_perm (fields : Fields String α) : (sortKeys fields).Perm fields :=
  List.perm_insertionSort _ fields

theorem sortKeys_map {β : Type} (f : α → β) (fields : Fields String α) :
    sortKeys (fields.map fun e => (e.1, f e.2)) = (sortKeys fields).map fun e => (e.1, f e.2) := by
  symm
  apply List.map_insertionSort
  intros
  rfl

/-- With every key at most once, the order is determined by the fields. -/
theorem sortKeys_eq_of_perm {fields others : Fields String α}
    (hkeys : (fields.map Prod.fst).Nodup) (h : fields.Perm others) :
    sortKeys fields = sortKeys others := by
  have hsorted (o : Fields String α) :
      (sortKeys o).Pairwise fun e f => codeUnits e.1 ≤ codeUnits f.1 :=
    List.pairwise_insertionSort _ o
  have hperm : (sortKeys fields).Perm (sortKeys others) :=
    ((sortKeys_perm fields).trans h).trans (sortKeys_perm others).symm
  refine hperm.eq_of_pairwise ?_ (hsorted fields) (hsorted others)
  intro e f he hf hle hge
  have hkey : e.1 = f.1 := codeUnits_injective (le_antisymm hle hge)
  have he' := (sortKeys_perm fields).mem_iff.mp he
  have hf' := h.mem_iff.mpr ((sortKeys_perm others).mem_iff.mp hf)
  exact List.inj_on_of_nodup_map hkeys he' hf' hkey

theorem get?_eq_some_iff {κ : Type} [DecidableEq κ] {fields : Fields κ α}
    (hkeys : (fields.map Prod.fst).Nodup) (key : κ) (value : α) :
    fields.get? key = some value ↔ (key, value) ∈ fields := by
  refine ⟨Fields.mem_of_get?, fun hmem => ?_⟩
  induction fields with
  | nil => cases hmem
  | cons e rest ih =>
      obtain ⟨hfresh, hrest⟩ := List.nodup_cons.mp hkeys
      rw [Fields.get?_cons]
      rcases List.mem_cons.mp hmem with rfl | hmem
      · rw [if_pos rfl]
      · have hne : e.1 ≠ key := by
          rintro rfl
          exact hfresh (List.mem_map.mpr ⟨_, hmem, rfl⟩)
        rw [if_neg hne, ih hrest hmem]

theorem sortKeys_eq_of_get? {fields others : Fields String α}
    (hkeys : (fields.map Prod.fst).Nodup) (hothers : (others.map Prod.fst).Nodup)
    (h : ∀ key, fields.get? key = others.get? key) : sortKeys fields = sortKeys others := by
  refine sortKeys_eq_of_perm hkeys ((List.perm_ext_iff_of_nodup (.of_map _ hkeys)
    (.of_map _ hothers)).mpr ?_)
  rintro ⟨key, value⟩
  rw [← get?_eq_some_iff hkeys, ← get?_eq_some_iff hothers, h]

end CodeUnits

/-- What the text of a number is made of. -/
def isNumberChar (c : Char) : Bool :=
  c.isDigit || c ∈ ['-', '+', '.', 'e']

/-- The numbers of JSON by their texts. -/
structure NumberFormat (ν : Type) where
  format : ν → List Char
  injective : Function.Injective format
  ne_nil : ∀ n, format n ≠ []
  chars : ∀ n, ∀ c ∈ format n, isNumberChar c

inductive JsonTree (ν : Type) where
  | null
  | bool (b : Bool)
  | num (n : ν)
  | str (s : String)
  | arr (items : List (JsonTree ν))
  | obj (fields : List (String × JsonTree ν))

namespace JsonTree

variable {ν : Type}

/-- An array or object after all the values in it. -/
theorem induct {motive : JsonTree ν → Prop} (null : motive .null) (bool : ∀ b, motive (.bool b))
    (num : ∀ n, motive (.num n)) (str : ∀ s, motive (.str s))
    (arr : ∀ items, (∀ v ∈ items, motive v) → motive (.arr items))
    (obj : ∀ fields, (∀ f ∈ fields, motive f.2) → motive (.obj fields)) (v : JsonTree ν) :
    motive v := by
  match v with
  | .null => exact null
  | .bool b => exact bool b
  | .num n => exact num n
  | .str s => exact str s
  | .arr items => exact arr items fun v _ => induct null bool num str arr obj v
  | .obj fields => exact obj fields fun f _ => induct null bool num str arr obj f.2
termination_by v
decreasing_by
  · rename_i hmem
    have := List.sizeOf_lt_of_mem hmem
    simp only [JsonTree.arr.sizeOf_spec]
    omega
  · rename_i hmem
    have := List.sizeOf_lt_of_mem hmem
    obtain ⟨key, value⟩ := f
    simp only [JsonTree.obj.sizeOf_spec, Prod.mk.sizeOf_spec] at this ⊢
    omega

section Depth

/-- The values directly in a value. -/
def children : JsonTree ν → List (JsonTree ν)
  | .arr items => items
  | .obj fields => fields.map Prod.snd
  | .null | .bool _ | .num _ | .str _ => []

/-- An array or an object. -/
def isNested : JsonTree ν → Bool
  | .arr _ | .obj _ => true
  | .null | .bool _ | .num _ | .str _ => false

mutual

/-- How deep arrays and objects are nested. -/
def depth : JsonTree ν → Nat
  | .arr items => depthOfItems items + 1
  | .obj fields => depthOfFields fields + 1
  | .null | .bool _ | .num _ | .str _ => 0

def depthOfItems : List (JsonTree ν) → Nat
  | [] => 0
  | v :: rest => max v.depth (depthOfItems rest)

def depthOfFields : List (String × JsonTree ν) → Nat
  | [] => 0
  | (_, v) :: rest => max v.depth (depthOfFields rest)

end

mutual

/-- The number of values in a value, itself among them. -/
def nodes : JsonTree ν → Nat
  | .arr items => nodesOfItems items + 1
  | .obj fields => nodesOfFields fields + 1
  | .null | .bool _ | .num _ | .str _ => 1

def nodesOfItems : List (JsonTree ν) → Nat
  | [] => 0
  | v :: rest => v.nodes + nodesOfItems rest

def nodesOfFields : List (String × JsonTree ν) → Nat
  | [] => 0
  | (_, v) :: rest => v.nodes + nodesOfFields rest

end

theorem depthOfItems_le_iff {items : List (JsonTree ν)} {n : Nat} :
    depthOfItems items ≤ n ↔ ∀ v ∈ items, v.depth ≤ n := by
  induction items with
  | nil => simp [depthOfItems]
  | cons v rest ih => rw [depthOfItems, Nat.max_le, List.forall_mem_cons, ih]

theorem depthOfFields_eq (fields : List (String × JsonTree ν)) :
    depthOfFields fields = depthOfItems (fields.map Prod.snd) := by
  induction fields with
  | nil => rfl
  | cons f rest ih =>
      obtain ⟨key, v⟩ := f
      rw [depthOfFields, List.map_cons, depthOfItems, ih]

theorem nodesOfItems_eq (items : List (JsonTree ν)) : nodesOfItems items = (items.map nodes).sum := by
  induction items with
  | nil => rfl
  | cons v rest ih => rw [nodesOfItems, List.map_cons, List.sum_cons, ih]

theorem nodesOfFields_eq (fields : List (String × JsonTree ν)) :
    nodesOfFields fields = nodesOfItems (fields.map Prod.snd) := by
  induction fields with
  | nil => rfl
  | cons f rest ih =>
      obtain ⟨key, v⟩ := f
      rw [nodesOfFields, List.map_cons, nodesOfItems, ih]

theorem depth_of_not_isNested {v : JsonTree ν} (h : v.isNested = false) : v.depth = 0 := by
  cases v with
  | arr items => cases h
  | obj fields => cases h
  | null | bool b | num n | str s => rfl

theorem depth_of_isNested {v : JsonTree ν} (h : v.isNested = true) :
    v.depth = depthOfItems v.children + 1 := by
  cases v with
  | arr items => rfl
  | obj fields => rw [depth, depthOfFields_eq]; rfl
  | null | bool b | num n | str s => cases h

theorem nodes_eq (v : JsonTree ν) : v.nodes = (v.children.map nodes).sum + 1 := by
  cases v with
  | arr items => rw [nodes, nodesOfItems_eq]; rfl
  | obj fields => rw [nodes, nodesOfFields_eq, nodesOfItems_eq]; rfl
  | null | bool b | num n | str s => rfl

end Depth

section Canonical

mutual

/-- The keys in order, at every depth. -/
def canonical : JsonTree ν → JsonTree ν
  | .arr items => .arr (canonicalItems items)
  | .obj fields => .obj (sortKeys (canonicalFields fields))
  | v => v

def canonicalItems : List (JsonTree ν) → List (JsonTree ν)
  | [] => []
  | v :: rest => canonical v :: canonicalItems rest

def canonicalFields : List (String × JsonTree ν) → List (String × JsonTree ν)
  | [] => []
  | (key, v) :: rest => (key, canonical v) :: canonicalFields rest

end

theorem canonicalItems_eq (items : List (JsonTree ν)) :
    canonicalItems items = items.map canonical := by
  induction items with
  | nil => rfl
  | cons v rest ih => rw [canonicalItems, ih, List.map_cons]

theorem canonicalFields_eq (fields : List (String × JsonTree ν)) :
    canonicalFields fields = fields.map fun f => (f.1, canonical f.2) := by
  induction fields with
  | nil => rfl
  | cons f rest ih => rw [canonicalFields, ih, List.map_cons]

@[simp] theorem canonical_arr (items : List (JsonTree ν)) :
    canonical (.arr items) = .arr (items.map canonical) := by
  rw [canonical, canonicalItems_eq]

@[simp] theorem canonical_obj (fields : List (String × JsonTree ν)) :
    canonical (.obj fields) = .obj (sortKeys (fields.map fun f => (f.1, canonical f.2))) := by
  rw [canonical, canonicalFields_eq]

end Canonical

section Places

mutual

/-- An object has every key once, at every depth. -/
def keyed : JsonTree ν → Bool
  | .arr items => keyedItems items
  | .obj fields => decide (fields.map Prod.fst).Nodup && keyedFields fields
  | _ => true

def keyedItems : List (JsonTree ν) → Bool
  | [] => true
  | v :: rest => keyed v && keyedItems rest

def keyedFields : List (String × JsonTree ν) → Bool
  | [] => true
  | (_, v) :: rest => keyed v && keyedFields rest

end

theorem keyedFields_iff (fields : List (String × JsonTree ν)) :
    keyedFields fields ↔ ∀ f ∈ fields, keyed f.2 := by
  induction fields with
  | nil => simp [keyedFields]
  | cons f rest ih => simp [keyedFields, ih]

theorem keyed_obj_iff (fields : List (String × JsonTree ν)) :
    keyed (.obj fields) ↔ (fields.map Prod.fst).Nodup ∧ ∀ f ∈ fields, keyed f.2 := by
  rw [keyed, Bool.and_eq_true, decide_eq_true_iff, keyedFields_iff]

def isNull : JsonTree ν → Bool
  | .null => true
  | _ => false

mutual

/-- The value without the entries of objects that are null, and the keys in order. -/
def normal : JsonTree ν → JsonTree ν
  | .arr items => .arr (normalItems items)
  | .obj fields => .obj (sortKeys (normalFields fields))
  | v => v

def normalItems : List (JsonTree ν) → List (JsonTree ν)
  | [] => []
  | v :: rest => normal v :: normalItems rest

def normalFields : List (String × JsonTree ν) → List (String × JsonTree ν)
  | [] => []
  | (key, v) :: rest =>
    if isNull v then normalFields rest else (key, normal v) :: normalFields rest

end

mutual

/-- No entry of an object is null. -/
def nullFree : JsonTree ν → Bool
  | .arr items => nullFreeItems items
  | .obj fields => nullFreeFields fields
  | _ => true

def nullFreeItems : List (JsonTree ν) → Bool
  | [] => true
  | v :: rest => nullFree v && nullFreeItems rest

def nullFreeFields : List (String × JsonTree ν) → Bool
  | [] => true
  | (_, v) :: rest => !isNull v && nullFree v && nullFreeFields rest

end

theorem nullFreeItems_iff (items : List (JsonTree ν)) :
    nullFreeItems items ↔ ∀ v ∈ items, nullFree v := by
  induction items with
  | nil => simp [nullFreeItems]
  | cons v rest ih => simp [nullFreeItems, ih]

theorem nullFreeFields_iff (fields : List (String × JsonTree ν)) :
    nullFreeFields fields ↔ ∀ f ∈ fields, isNull f.2 = false ∧ nullFree f.2 := by
  induction fields with
  | nil => simp [nullFreeFields]
  | cons f rest ih => simp [nullFreeFields, ih]

theorem normal_of_nullFree (v : JsonTree ν) (h : nullFree v) : normal v = canonical v := by
  induction v using induct with
  | arr items ih =>
      rw [nullFree, nullFreeItems_iff] at h
      rw [normal, canonical_arr]
      congr 1
      induction items with
      | nil => rfl
      | cons v rest ih' =>
          rw [normalItems, List.map_cons, ih v (.head _) (h v (.head _)),
            ih' (fun w hw => ih w (.tail _ hw)) fun w hw => h w (.tail _ hw)]
  | obj fields ih =>
      rw [nullFree, nullFreeFields_iff] at h
      rw [normal, canonical_obj]
      congr 2
      induction fields with
      | nil => rfl
      | cons f rest ih' =>
          obtain ⟨key, v⟩ := f
          obtain ⟨hnull, hfree⟩ := h _ (.head _)
          rw [normalFields, if_neg (by simp [hnull]), List.map_cons, ih _ (.head _) hfree,
            ih' (fun w hw => ih w (.tail _ hw)) fun w hw => h w (.tail _ hw)]
  | _ => rfl

mutual

/-- The places at which an object ends, in the order of the keys: values that are no objects,
and empty objects. -/
def leaves : JsonTree ν → List (List String × JsonTree ν)
  | .obj fields => if fields.isEmpty then [([], .obj [])] else leavesFields fields
  | v => [([], v)]

def leavesFields : List (String × JsonTree ν) → List (List String × JsonTree ν)
  | [] => []
  | (key, v) :: rest => (leaves v).map (fun l => (key :: l.1, l.2)) ++ leavesFields rest

end

/-- The leaf at a place, null if there is none. -/
def leafAt (v : JsonTree ν) (place : List String) : JsonTree ν :=
  (Fields.get? (leaves v) place).getD .null

theorem canonical_eq_null {v : JsonTree ν} : canonical v = .null ↔ v = .null := by
  cases v <;> simp [canonical]

theorem get?_map_cons (key : String) (ls : Fields (List String) (JsonTree ν)) (k : String)
    (place : List String) : Fields.get? (ls.map fun l => (key :: l.1, l.2)) (k :: place) =
      if key = k then Fields.get? ls place else none := by
  induction ls with
  | nil => simp
  | cons l rest ih =>
      rw [List.map_cons, Fields.get?_cons, ih, Fields.get?_cons]
      by_cases hkey : key = k
      · simp [hkey]
      · simp [hkey]

theorem get?_leavesFields {fields : List (String × JsonTree ν)}
    (hkeys : (fields.map Prod.fst).Nodup) (key : String) (place : List String) :
    Fields.get? (leavesFields fields) (key :: place) =
      (Fields.get? fields key).bind fun v => Fields.get? (leaves v) place := by
  induction fields with
  | nil => rfl
  | cons f rest ih =>
      obtain ⟨k, v⟩ := f
      obtain ⟨hfresh, hrest⟩ := List.nodup_cons.mp hkeys
      rw [leavesFields, Fields.get?_append, get?_map_cons, Fields.get?_cons, ih hrest]
      by_cases hkey : k = key
      · have hnone : Fields.get? rest key = none := by
          rw [← Option.not_isSome_iff_eq_none, Fields.isSome_get?_iff, ← hkey]
          exact hfresh
        rw [if_pos hkey, if_pos hkey, hnone, Option.bind_none, Option.or_none, Option.bind_some]
      · rw [if_neg hkey, if_neg hkey, Option.none_or]

theorem get?_leavesFields_nil (fields : List (String × JsonTree ν)) :
    Fields.get? (leavesFields fields) [] = none := by
  rw [← Option.not_isSome_iff_eq_none, Fields.isSome_get?_iff]
  induction fields with
  | nil => simp [leavesFields]
  | cons f rest ih =>
      rw [leavesFields, List.map_append, List.mem_append]
      rintro (hfirst | hrest)
      · simp at hfirst
      · exact ih hrest

/-- A value is a leaf itself or an object with fields. -/
theorem leaf_or_fields (v : JsonTree ν) :
    leaves v = [([], v)] ∨ ∃ fields, v = .obj fields ∧ fields ≠ [] := by
  cases v with
  | obj fields =>
      cases fields with
      | nil => exact .inl rfl
      | cons f rest => exact .inr ⟨_, rfl, by simp⟩
  | _ => exact .inl rfl

theorem leafAt_of_leaf {v : JsonTree ν} (h : leaves v = [([], v)]) (place : List String) :
    leafAt v place = if place = [] then v else .null := by
  rw [leafAt, h, Fields.get?_cons]
  cases place <;> rfl

theorem leafAt_nil_of_leaf {v : JsonTree ν} (h : leaves v = [([], v)]) : leafAt v [] = v := by
  rw [leafAt_of_leaf h, if_pos rfl]

theorem leaves_obj {fields : List (String × JsonTree ν)} (h : fields ≠ []) :
    leaves (.obj fields) = leavesFields fields := by
  rw [leaves, if_neg (by simpa using h)]

theorem leafAt_obj_nil {fields : List (String × JsonTree ν)} (h : fields ≠ []) :
    leafAt (.obj fields) [] = .null := by
  rw [leafAt, leaves_obj h, get?_leavesFields_nil]
  rfl

theorem leafAt_obj_cons {fields : List (String × JsonTree ν)} (h : fields ≠ [])
    (hkeys : (fields.map Prod.fst).Nodup) (key : String) (place : List String) :
    leafAt (.obj fields) (key :: place) =
      ((Fields.get? fields key).map fun v => leafAt v place).getD .null := by
  rw [leafAt, leaves_obj h, get?_leavesFields hkeys]
  cases Fields.get? fields key <;> rfl

/-- Every value without null entries, except null, has a leaf that is not null. -/
theorem exists_leaf (v : JsonTree ν) (hkeyed : keyed v) (hfree : nullFree v)
    (hv : v ≠ .null) : ∃ place, leafAt v place ≠ .null := by
  induction v using induct with
  | obj fields ih =>
      cases fields with
      | nil => exact ⟨[], by rw [leafAt_nil_of_leaf rfl]; exact hv⟩
      | cons f rest =>
          obtain ⟨hnodup, hkeyed⟩ := (keyed_obj_iff _).mp hkeyed
          rw [nullFree, nullFreeFields_iff] at hfree
          obtain ⟨hnull, hfree⟩ := hfree f (.head _)
          have hne : f.2 ≠ .null := by
            intro h
            rw [h] at hnull
            cases hnull
          obtain ⟨place, hplace⟩ := ih f (.head _) (hkeyed f (.head _)) hfree hne
          refine ⟨f.1 :: place, ?_⟩
          rw [leafAt_obj_cons (by simp) hnodup, Fields.get?_cons, if_pos rfl]
          exact hplace
  | null => exact absurd rfl hv
  | _ => exact ⟨[], by rw [leafAt_nil_of_leaf rfl]; exact hv⟩

theorem leafAt_null (place : List String) : leafAt (.null : JsonTree ν) place = .null := by
  rw [leafAt_of_leaf rfl, ite_self]

/-- Where one value is a leaf itself. -/
theorem canonical_eq_of_leaf {v w : JsonTree ν} (hleaf : leaves v = [([], v)]) (hw : keyed w)
    (hfree : nullFree w) (h : ∀ place, canonical (leafAt v place) = canonical (leafAt w place)) :
    canonical v = canonical w := by
  have htop := h []
  rw [leafAt_nil_of_leaf hleaf] at htop
  rcases leaf_or_fields w with hleaf' | ⟨fields, rfl, hne⟩
  · rwa [leafAt_nil_of_leaf hleaf'] at htop
  · -- null has no leaf but null, and the object has another one
    rw [leafAt_obj_nil hne] at htop
    obtain rfl := canonical_eq_null.mp htop
    obtain ⟨place, hplace⟩ := exists_leaf (.obj fields) hw hfree (by simp)
    have hnull := h place
    rw [leafAt_null] at hnull
    exact absurd (canonical_eq_null.mp hnull.symm) hplace

/-- Values without null entries and with the same leaves differ in the order of the keys only. -/
theorem canonical_eq_of_leafAt (v : JsonTree ν) : ∀ w : JsonTree ν, keyed v → keyed w →
    nullFree v → nullFree w → (∀ place, canonical (leafAt v place) = canonical (leafAt w place)) →
    canonical v = canonical w := by
  induction v using induct with
  | obj fields ih =>
      intro w hv hw hfv hfw h
      by_cases hne : fields = []
      · exact canonical_eq_of_leaf (by rw [hne]; rfl) hw hfw h
      rcases leaf_or_fields w with hleaf | ⟨others, rfl, hne'⟩
      · exact (canonical_eq_of_leaf hleaf hv hfv fun place => (h place).symm).symm
      obtain ⟨hkeys, hkv⟩ := (keyed_obj_iff _).mp hv
      obtain ⟨hkeys', hkw⟩ := (keyed_obj_iff _).mp hw
      rw [nullFree, nullFreeFields_iff] at hfv hfw
      have hbelow (key : String) (place : List String) :
          canonical (((Fields.get? fields key).map fun v => leafAt v place).getD .null) =
            canonical (((Fields.get? others key).map fun v => leafAt v place).getD .null) := by
        rw [← leafAt_obj_cons hne hkeys, ← leafAt_obj_cons hne' hkeys']
        exact h (key :: place)
      have hsome {o : List (String × JsonTree ν)} (hk : ∀ f ∈ o, keyed f.2)
          (hf : ∀ f ∈ o, isNull f.2 = false ∧ nullFree f.2) {key : String} {x : JsonTree ν}
          (hx : Fields.get? o key = some x) : ∃ place, canonical (leafAt x place) ≠ .null := by
        have hmem := Fields.mem_of_get? hx
        have hnull : x ≠ .null := by
          rintro rfl
          cases (hf _ hmem).1
        obtain ⟨place, hplace⟩ := exists_leaf x (hk _ hmem) (hf _ hmem).2 hnull
        exact ⟨place, fun hcanonical => hplace (canonical_eq_null.mp hcanonical)⟩
      have hmap (o : List (String × JsonTree ν)) (key : String) :
          Fields.get? (o.map fun f => (f.1, canonical f.2)) key =
            (Fields.get? o key).map canonical :=
        Fields.get?_map_value (f := fun _ => canonical) o key
      rw [canonical_obj, canonical_obj]
      congr 1
      apply sortKeys_eq_of_get?
      · rw [List.map_map]
        exact hkeys
      · rw [List.map_map]
        exact hkeys'
      intro key
      rw [hmap, hmap]
      cases hx : Fields.get? fields key with
      | none =>
          cases hy : Fields.get? others key with
          | none => rfl
          | some y =>
              obtain ⟨place, hplace⟩ := hsome hkw hfw hy
              have hsame := hbelow key place
              rw [hx, hy] at hsame
              exact absurd hsame.symm hplace
      | some x =>
          cases hy : Fields.get? others key with
          | none =>
              obtain ⟨place, hplace⟩ := hsome hkv hfv hx
              have hsame := hbelow key place
              rw [hx, hy] at hsame
              exact absurd hsame hplace
          | some y =>
              have hxmem := Fields.mem_of_get? hx
              have hymem := Fields.mem_of_get? hy
              have hsame := ih _ hxmem y (hkv _ hxmem) (hkw _ hymem) (hfv _ hxmem).2
                (hfw _ hymem).2 fun place => by
                  have := hbelow key place
                  rwa [hx, hy] at this
              exact congrArg some hsame
  | _ =>
      intro w hv hw hfv hfw h
      exact canonical_eq_of_leaf rfl hw hfw h

theorem get?_sortKeys {α : Type} {fields : Fields String α}
    (hkeys : (fields.map Prod.fst).Nodup) (key : String) :
    (sortKeys fields).get? key = fields.get? key := by
  have hperm := sortKeys_perm fields
  have hsorted : ((sortKeys fields).map Prod.fst).Nodup := (hperm.map _).nodup_iff.mpr hkeys
  apply Option.ext
  intro value
  rw [get?_eq_some_iff hsorted, get?_eq_some_iff hkeys]
  exact hperm.mem_iff

/-- The order of the keys changes no place. -/
theorem leafAt_canonical (v : JsonTree ν) : ∀ place, keyed v →
    leafAt (canonical v) place = canonical (leafAt v place) := by
  induction v using induct with
  | obj fields ih =>
      intro place hv
      obtain ⟨hkeys, hbelow⟩ := (keyed_obj_iff _).mp hv
      have hkeys' : ((fields.map fun f => (f.1, canonical f.2)).map Prod.fst).Nodup := by
        rw [List.map_map]
        exact hkeys
      by_cases hne : fields = []
      · rw [hne]
        have hempty : canonical (.obj [] : JsonTree ν) = .obj [] := rfl
        rw [hempty, leafAt_of_leaf rfl]
        split <;> rfl
      have hne' : sortKeys (fields.map fun f => (f.1, canonical f.2)) ≠ [] := by
        intro hnil
        have hlength := (sortKeys_perm (fields.map fun f => (f.1, canonical f.2))).length_eq
        rw [hnil, List.length_map] at hlength
        exact hne (List.length_eq_zero_iff.mp hlength.symm)
      rw [canonical_obj]
      cases place with
      | nil =>
          rw [leafAt_obj_nil hne, leafAt_obj_nil hne']
          rfl
      | cons key place =>
          rw [leafAt_obj_cons hne hkeys, leafAt_obj_cons hne' (((sortKeys_perm _).map _).nodup_iff.mpr
            hkeys'), get?_sortKeys hkeys', Fields.get?_map_value (f := fun _ => canonical)]
          cases hx : Fields.get? fields key with
          | none => rfl
          | some x =>
              have hmem := Fields.mem_of_get? hx
              exact ih _ hmem place (hbelow _ hmem)
  | arr items ih =>
      intro place hv
      rw [canonical_arr, leafAt_of_leaf rfl, leafAt_of_leaf rfl]
      split
      · rw [canonical_arr]
      · rfl
  | _ =>
      intro place hv
      cases place <;> rfl

/-- A place is listed once. -/
theorem nodup_places (v : JsonTree ν) (hv : keyed v) : ((leaves v).map Prod.fst).Nodup := by
  induction v using induct with
  | obj fields ih =>
      obtain ⟨hkeys, hbelow⟩ := (keyed_obj_iff _).mp hv
      by_cases hne : fields = []
      · rw [hne]
        exact List.nodup_singleton _
      rw [leaves_obj hne]
      clear hne hv
      induction fields with
      | nil => exact List.nodup_nil
      | cons f rest ih' =>
          obtain ⟨hfresh, hrest⟩ := List.nodup_cons.mp hkeys
          have hfirst := ih f (.head _) (hbelow f (.head _))
          have hothers := ih' (fun g hg => ih g (.tail _ hg)) hrest fun g hg => hbelow g (.tail _ hg)
          rw [leavesFields, List.map_append, List.map_map, List.nodup_append]
          refine ⟨?_, hothers, ?_⟩
          · have hcons := hfirst.map (f := fun place => f.1 :: place) fun p q h => (List.cons.inj h).2
            rwa [List.map_map] at hcons
          · rintro p hp q hq rfl
            obtain ⟨l, hl, rfl⟩ := List.mem_map.mp hp
            rw [← Fields.isSome_get?_iff, Function.comp_apply, get?_leavesFields hrest] at hq
            obtain ⟨found, hfound⟩ := Option.isSome_iff_exists.mp hq
            obtain ⟨v, hv, -⟩ := Option.bind_eq_some_iff.mp hfound
            exact hfresh (List.mem_map.mpr ⟨_, Fields.mem_of_get? hv, rfl⟩)
  | _ => exact List.nodup_singleton _

end Places

section Text

/-- The characters that `JSON.stringify` escapes by a letter. -/
def letterEscapes : List (Char × Char) :=
  [('"', '"'), ('\\', '\\'), ('\x08', 'b'), ('\t', 't'), ('\n', 'n'), ('\x0c', 'f'), ('\r', 'r')]

def escapeChar (c : Char) : List Char :=
  match Fields.get? letterEscapes c with
  | some letter => ['\\', letter]
  | none =>
    if c.toNat < 0x20 then
      ['\\', 'u', '0', '0', Nat.digitChar (c.toNat / 16), Nat.digitChar (c.toNat % 16)]
    else [c]

def quote (s : String) : List Char :=
  '"' :: s.toList.flatMap escapeChar ++ ['"']

/-- `join(',')`. -/
def commas : List (List Char) → List Char
  | [] => []
  | first :: rest => first ++ rest.flatMap (',' :: ·)

variable (numbers : NumberFormat ν)

mutual

def text : JsonTree ν → List Char
  | .null => ['n', 'u', 'l', 'l']
  | .bool b => if b then ['t', 'r', 'u', 'e'] else ['f', 'a', 'l', 's', 'e']
  | .num n => numbers.format n
  | .str s => quote s
  | .arr items => '[' :: commas (texts items) ++ [']']
  | .obj fields => '\x7b' :: commas (fieldTexts fields) ++ ['\x7d']

def texts : List (JsonTree ν) → List (List Char)
  | [] => []
  | v :: rest => text v :: texts rest

def fieldTexts : List (String × JsonTree ν) → List (List Char)
  | [] => []
  | (key, v) :: rest => (quote key ++ ':' :: text v) :: fieldTexts rest

end

theorem texts_eq (items : List (JsonTree ν)) : texts numbers items = items.map (text numbers) := by
  induction items with
  | nil => rfl
  | cons v rest ih => rw [texts, ih, List.map_cons]

def fieldText (f : String × JsonTree ν) : List Char :=
  quote f.1 ++ ':' :: text numbers f.2

theorem fieldTexts_eq (fields : List (String × JsonTree ν)) :
    fieldTexts numbers fields = fields.map (fieldText numbers) := by
  induction fields with
  | nil => rfl
  | cons f rest ih => rw [fieldTexts, ih, List.map_cons, fieldText]

theorem letterEscapes_inj {c d letter : Char} (hc : Fields.get? letterEscapes c = some letter)
    (hd : Fields.get? letterEscapes d = some letter) : c = d := by
  have hnodup : (letterEscapes.map Prod.snd).Nodup := by decide
  have hsame := List.inj_on_of_nodup_map hnodup (Fields.mem_of_get? hc) (Fields.mem_of_get? hd) rfl
  exact congrArg Prod.fst hsame

theorem escapeChar_cases (c : Char) :
    (∃ letter, Fields.get? letterEscapes c = some letter ∧ letter ≠ 'u' ∧
        escapeChar c = ['\\', letter]) ∨
      (c.toNat < 0x20 ∧ escapeChar c =
        ['\\', 'u', '0', '0', Nat.digitChar (c.toNat / 16), Nat.digitChar (c.toNat % 16)]) ∨
      (c ≠ '"' ∧ c ≠ '\\' ∧ escapeChar c = [c]) := by
  unfold escapeChar
  cases hletter : Fields.get? letterEscapes c with
  | some letter =>
      have hu : ∀ e ∈ letterEscapes, e.2 ≠ 'u' := by decide
      exact .inl ⟨letter, rfl, hu _ (Fields.mem_of_get? hletter), rfl⟩
  | none =>
      by_cases hcontrol : c.toNat < 0x20
      · exact .inr (.inl ⟨hcontrol, if_pos hcontrol⟩)
      · refine .inr (.inr ⟨?_, ?_, if_neg hcontrol⟩)
        · rintro rfl
          exact absurd hletter (by decide)
        · rintro rfl
          exact absurd hletter (by decide)

theorem digitChar_inj : ∀ a < 16, ∀ b < 16, Nat.digitChar a = Nat.digitChar b → a = b := by
  decide

theorem escapeChar_append_inj {c d : Char} {x y : List Char}
    (h : escapeChar c ++ x = escapeChar d ++ y) : c = d ∧ x = y := by
  rcases escapeChar_cases c with ⟨l, hl, hu, hc⟩ | ⟨hlow, hc⟩ | ⟨-, hslash, hc⟩ <;>
    rcases escapeChar_cases d with ⟨m, hm, hv, hd⟩ | ⟨hlow', hd⟩ | ⟨-, hslash', hd⟩ <;>
    simp only [hc, hd, List.cons_append, List.nil_append, List.cons.injEq, true_and] at h
  · obtain ⟨rfl, hrest⟩ := h
    exact ⟨letterEscapes_inj hl hm, hrest⟩
  · exact absurd h.1 hu
  · exact absurd h.1.symm hslash'
  · exact absurd h.1.symm hv
  · obtain ⟨hdiv, hmod, hrest⟩ := h
    have hdiv := digitChar_inj _ (by omega) _ (by omega) hdiv
    have hmod := digitChar_inj _ (by omega) _ (by omega) hmod
    exact ⟨Char.toNat_inj.mp (by omega), hrest⟩
  · exact absurd h.1.symm hslash'
  · exact absurd h.1 hslash
  · exact absurd h.1 hslash
  · exact h

theorem head_escapeChar (c : Char) : ∃ d rest, escapeChar c = d :: rest ∧ d ≠ '"' := by
  rcases escapeChar_cases c with ⟨l, -, -, hc⟩ | ⟨-, hc⟩ | ⟨hquote, -, hc⟩
  · exact ⟨_, _, hc, by decide⟩
  · exact ⟨_, _, hc, by decide⟩
  · exact ⟨_, _, hc, hquote⟩

/-- A quoted text ends at its closing quote. -/
theorem quote_append_inj {s t : String} {x y : List Char} (h : quote s ++ x = quote t ++ y) :
    s = t ∧ x = y := by
  suffices hchars : s.toList = t.toList ∧ x = y from
    ⟨String.toList_injective hchars.1, hchars.2⟩
  simp only [quote, List.cons_append, List.append_assoc, List.cons.injEq, true_and,
    List.nil_append] at h
  generalize s.toList = cs at h
  generalize t.toList = ds at h
  induction cs generalizing ds with
  | nil =>
      cases ds with
      | nil => simpa using h
      | cons d ds =>
          obtain ⟨first, rest, hfirst, hne⟩ := head_escapeChar d
          rw [List.flatMap_cons, hfirst] at h
          exact absurd (List.cons.inj h).1.symm hne
  | cons c cs ih =>
      cases ds with
      | nil =>
          obtain ⟨first, rest, hfirst, hne⟩ := head_escapeChar c
          rw [List.flatMap_cons, hfirst] at h
          exact absurd (List.cons.inj h).1 hne
      | cons d ds =>
          simp only [List.flatMap_cons, List.append_assoc] at h
          obtain ⟨rfl, hrest⟩ := escapeChar_append_inj h
          obtain ⟨hsame, hend⟩ := ih ds hrest
          exact ⟨by rw [hsame], hend⟩

/-- The text of a number would go on with a character of numbers. -/
def Ends (rest : List Char) : Prop :=
  ∀ c ∈ rest.head?, ¬ isNumberChar c

theorem commas_append_inj {α : Type} {f : α → List Char} {close : Char} {items others : List α}
    {x y : List Char} (hclose : ¬ isNumberChar close) (hcomma : close ≠ ',')
    (hhead : ∀ a, (f a).head? ≠ none ∧ (f a).head? ≠ some close)
    (hread : ∀ a ∈ items, ∀ b x y, Ends x → Ends y → f a ++ x = f b ++ y → a = b ∧ x = y)
    (h : commas (items.map f) ++ close :: x = commas (others.map f) ++ close :: y) :
    items = others ∧ x = y := by
  have hstart (a : α) (rest rest' : List Char) : f a ++ rest ≠ close :: rest' := by
    intro hsame
    have hfirst := congrArg List.head? hsame
    rw [List.head?_append, List.head?_cons] at hfirst
    cases ha : (f a).head? with
    | none => exact (hhead a).1 ha
    | some c => exact (hhead a).2 (ha.trans (by simpa [ha] using hfirst))
  have hends (rest : List α) (tail : List Char) :
      Ends ((rest.map f).flatMap (',' :: ·) ++ close :: tail) := by
    intro c hc
    cases rest with
    | nil => simpa [← Option.some.inj hc] using hclose
    | cons b rest =>
        rw [← Option.some.inj hc]
        decide
  have htail : ∀ rest others : List α, (∀ a ∈ rest, a ∈ items) →
      (rest.map f).flatMap (',' :: ·) ++ close :: x =
        (others.map f).flatMap (',' :: ·) ++ close :: y → rest = others ∧ x = y := by
    intro rest
    induction rest with
    | nil =>
        intro others _ hsame
        cases others with
        | nil => simpa using hsame
        | cons b others => exact absurd (List.cons.inj hsame).1 hcomma
    | cons a rest ih =>
        intro others hmem hsame
        cases others with
        | nil => exact absurd (List.cons.inj hsame).1.symm hcomma
        | cons b others =>
            simp only [List.map_cons, List.flatMap_cons, List.cons_append, List.append_assoc,
              List.cons.injEq, true_and] at hsame
            obtain ⟨rfl, hrest⟩ := hread a (hmem a (.head _)) b _ _ (hends rest x)
              (hends others y) hsame
            obtain ⟨rfl, hend⟩ := ih others (fun c hc => hmem c (.tail _ hc)) hrest
            exact ⟨rfl, hend⟩
  cases items with
  | nil =>
      cases others with
      | nil => simpa using h
      | cons b others =>
          simp only [List.map_cons, commas, List.append_assoc] at h
          exact absurd h.symm (hstart b _ _)
  | cons a items =>
      cases others with
      | nil =>
          simp only [List.map_cons, commas, List.append_assoc] at h
          exact absurd h (hstart a _ _)
      | cons b others =>
          simp only [List.map_cons, commas, List.append_assoc] at h
          obtain ⟨rfl, hsame⟩ := hread a (.head _) b _ _ (hends items x) (hends others y) h
          obtain ⟨rfl, hend⟩ := htail items others (fun c hc => .tail _ hc) hsame
          exact ⟨rfl, hend⟩

/-- The first character of the text, except for numbers. -/
def opening : JsonTree ν → Option Char
  | .null => some 'n'
  | .bool b => some (if b then 't' else 'f')
  | .num _ => none
  | .str _ => some '"'
  | .arr _ => some '['
  | .obj _ => some '\x7b'

theorem head_text (v : JsonTree ν) : ∃ c rest, text numbers v = c :: rest ∧
    opening v = if isNumberChar c then none else some c := by
  cases v with
  | null => exact ⟨_, _, rfl, rfl⟩
  | bool b => cases b <;> exact ⟨_, _, rfl, rfl⟩
  | num n =>
      obtain ⟨c, rest, hformat⟩ := List.exists_cons_of_ne_nil (numbers.ne_nil n)
      have hc := numbers.chars n c (by rw [hformat]; exact .head _)
      exact ⟨c, rest, hformat, (if_pos hc).symm⟩
  | str s => exact ⟨_, _, rfl, rfl⟩
  | arr items => exact ⟨_, _, rfl, rfl⟩
  | obj fields => exact ⟨_, _, rfl, rfl⟩

theorem opening_eq {v w : JsonTree ν} {x y : List Char}
    (h : text numbers v ++ x = text numbers w ++ y) : opening v = opening w := by
  obtain ⟨c, rest, hv, hopen⟩ := head_text numbers v
  obtain ⟨d, rest', hw, hopen'⟩ := head_text numbers w
  rw [hv, hw] at h
  rw [hopen, hopen', (List.cons.inj h).1]

theorem head_text_ne (v : JsonTree ν) {close : Char} (hclose : ¬ isNumberChar close)
    (hopening : opening v ≠ some close) :
    (text numbers v).head? ≠ none ∧ (text numbers v).head? ≠ some close := by
  obtain ⟨c, rest, hv, hopen⟩ := head_text numbers v
  rw [hv]
  refine ⟨by simp, ?_⟩
  rw [List.head?_cons]
  intro hc
  obtain rfl := Option.some.inj hc
  rw [if_neg hclose] at hopen
  exact hopening hopen

theorem number_append_inj {n m : ν} {x y : List Char} (hx : Ends x) (hy : Ends y)
    (h : numbers.format n ++ x = numbers.format m ++ y) : n = m ∧ x = y := by
  have hend {rest : List Char} (hrest : Ends rest) (n : ν) :
      (numbers.format n ++ rest).takeWhile isNumberChar = numbers.format n := by
    rw [List.takeWhile_append_of_pos (numbers.chars n)]
    cases rest with
    | nil => rw [List.takeWhile_nil, List.append_nil]
    | cons c rest => rw [List.takeWhile_cons_of_neg (hrest c rfl), List.append_nil]
  have hformat := congrArg (List.takeWhile isNumberChar) h
  rw [hend hx, hend hy] at hformat
  rw [hformat] at h
  exact ⟨numbers.injective hformat, List.append_cancel_left h⟩

theorem opening_ne_close (v : JsonTree ν) {close : Char} (h : close = ']' ∨ close = '\x7d') :
    opening v ≠ some close := by
  rcases h with rfl | rfl <;> cases v <;> try (simp [opening])
  all_goals (split <;> decide)

/-- A value is read back from its text, and where it ends. -/
theorem text_append_inj (v : JsonTree ν) : ∀ w x y, Ends x → Ends y →
    text numbers v ++ x = text numbers w ++ y → v = w ∧ x = y := by
  induction v using induct with
  | null =>
      intro w x y hx hy h
      have hopen := opening_eq numbers h
      cases w with
      | null => exact ⟨rfl, List.append_cancel_left h⟩
      | bool b => cases b <;> simp [opening] at hopen
      | _ => simp [opening] at hopen
  | bool b =>
      intro w x y hx hy h
      have hopen := opening_eq numbers h
      cases w with
      | bool d =>
          have hsame : b = d := by cases b <;> cases d <;> simp_all [opening]
          subst hsame
          exact ⟨rfl, List.append_cancel_left h⟩
      | _ => cases b <;> simp [opening] at hopen
  | num n =>
      intro w x y hx hy h
      have hopen := opening_eq numbers h
      cases w with
      | num m =>
          obtain ⟨rfl, hend⟩ := number_append_inj numbers hx hy h
          exact ⟨rfl, hend⟩
      | _ => simp [opening] at hopen
  | str s =>
      intro w x y hx hy h
      have hopen := opening_eq numbers h
      cases w with
      | str t =>
          obtain ⟨rfl, hend⟩ := quote_append_inj h
          exact ⟨rfl, hend⟩
      | bool b => cases b <;> simp [opening] at hopen
      | _ => simp [opening] at hopen
  | arr items ih =>
      intro w x y hx hy h
      have hopen := opening_eq numbers h
      cases w with
      | arr others =>
          simp only [text, texts_eq, List.cons_append, List.append_assoc, List.cons.injEq,
            true_and, List.nil_append] at h
          obtain ⟨rfl, hend⟩ := commas_append_inj (by decide) (by decide)
            (fun v => head_text_ne numbers v (by decide) (opening_ne_close v (.inl rfl))) ih h
          exact ⟨rfl, hend⟩
      | bool b => cases b <;> simp [opening] at hopen
      | _ => simp [opening] at hopen
  | obj fields ih =>
      intro w x y hx hy h
      have hopen := opening_eq numbers h
      cases w with
      | obj others =>
          simp only [text, fieldTexts_eq, List.cons_append, List.append_assoc, List.cons.injEq,
            true_and, List.nil_append] at h
          have hread : ∀ f ∈ fields, ∀ g x y, Ends x → Ends y →
              fieldText numbers f ++ x = fieldText numbers g ++ y → f = g ∧ x = y := by
            rintro ⟨key, v⟩ hv ⟨key', w⟩ x y hx hy hsame
            simp only [fieldText, List.append_assoc, List.cons_append] at hsame
            obtain ⟨rfl, hrest⟩ := quote_append_inj hsame
            obtain ⟨rfl, hend⟩ := ih _ hv w x y hx hy (List.cons.inj hrest).2
            exact ⟨rfl, hend⟩
          obtain ⟨rfl, hend⟩ := commas_append_inj (by decide) (by decide)
            (fun f => ⟨by simp [fieldText, quote], by simp [fieldText, quote]⟩) hread h
          exact ⟨rfl, hend⟩
      | bool b => cases b <;> simp [opening] at hopen
      | _ => simp [opening] at hopen

theorem text_injective : Function.Injective (text numbers) := by
  intro v w h
  have hempty : Ends [] := by
    intro c hc
    cases hc
  exact (text_append_inj numbers v w [] [] hempty hempty (by rw [h])).1

end Text

end JsonTree

end Lib
