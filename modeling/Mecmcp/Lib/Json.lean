import Mathlib

/-!
# Json — JSON trees and struct codecs

JSON documents as trees whose objects keep the order of their members, as the text does.

* `Json` is a document; `Json.depth` counts the containers around its deepest leaf, the number a
  parser's recursion limit is compared with; `Json.mapFloat` changes its floats and nothing else,
  which is all that printing and parsing may do to it.
* `Value` is a dynamically typed value: a tree whose objects have no repeated key.  Reading a
  tree as a value (`Value.ofJson`) keeps the last of several members of one name, at the place of
  the first.
* `Struct.encode` / `Struct.fields` are the two directions of a record codec: members are written
  in declaration order, skipped ones are left out, and reading refuses an unknown or a repeated
  member.  `Struct.fields_encode` is the round trip all record codecs use.
-/

namespace Mecmcp

open List

/-- A JSON number, split the way a parser splits it. -/
inductive Number where
  | posInt (n : UInt64)
  | negInt (n : {n : Int64 // n < 0})
  | float (bits : UInt64)
  deriving DecidableEq

/-- A JSON document; objects keep the order of their members. -/
inductive Json where
  | null
  | bool (b : Bool)
  | num (n : Number)
  | str (s : String)
  | arr (items : List Json)
  | obj (fields : List (String × Json))
  deriving Inhabited

namespace Json

mutual
/-- Number of containers around the deepest leaf. -/
def depth : Json → ℕ
  | .arr items => 1 + depthItems items
  | .obj fields => 1 + depthFields fields
  | _ => 0

/-- Deepest item of an array. -/
def depthItems : List Json → ℕ
  | [] => 0
  | j :: js => max j.depth (depthItems js)

/-- Deepest member of an object. -/
def depthFields : List (String × Json) → ℕ
  | [] => 0
  | (_, j) :: fs => max j.depth (depthFields fs)
end

mutual
/-- The document with every float replaced by its image under `f`. -/
def mapFloat (f : UInt64 → UInt64) : Json → Json
  | .num (.float bits) => .num (.float (f bits))
  | .arr items => .arr (mapFloatItems f items)
  | .obj fields => .obj (mapFloatFields f fields)
  | j => j

def mapFloatItems (f : UInt64 → UInt64) : List Json → List Json
  | [] => []
  | j :: js => j.mapFloat f :: mapFloatItems f js

def mapFloatFields (f : UInt64 → UInt64) : List (String × Json) → List (String × Json)
  | [] => []
  | (k, j) :: fs => (k, j.mapFloat f) :: mapFloatFields f fs
end

variable {n : ℕ} {js : List Json}

theorem depthItems_le_iff :
    depthItems js ≤ n ↔ ∀ j ∈ js, j.depth ≤ n := by
  induction js with
  | nil => simp [depthItems]
  | cons j js ih => simp [depthItems, ih]

variable {fs : List (String × Json)}

theorem depthFields_le_iff :
    depthFields fs ≤ n ↔ ∀ f ∈ fs, f.2.depth ≤ n := by
  induction fs with
  | nil => simp [depthFields]
  | cons f fs ih => simp [depthFields, ih]

theorem mapFloatItems_eq (f : UInt64 → UInt64) (js : List Json) :
    mapFloatItems f js = js.map (mapFloat f) := by
  induction js with
  | nil => rfl
  | cons j js ih => simp [mapFloatItems, ih]

theorem mapFloatFields_eq (f : UInt64 → UInt64) (fs : List (String × Json)) :
    mapFloatFields f fs = fs.map fun p => (p.1, p.2.mapFloat f) := by
  induction fs with
  | nil => rfl
  | cons p fs ih => simp [mapFloatFields, ih]

@[simp] theorem mapFloat_null (f : UInt64 → UInt64) : mapFloat f null = null := rfl
@[simp] theorem mapFloat_bool (f : UInt64 → UInt64) (b : Bool) : mapFloat f (bool b) = bool b := rfl
@[simp] theorem mapFloat_str (f : UInt64 → UInt64) (s : String) : mapFloat f (str s) = str s := rfl

@[simp] theorem mapFloat_arr (f : UInt64 → UInt64) (js : List Json) :
    mapFloat f (arr js) = arr (js.map (mapFloat f)) := by
  rw [mapFloat, mapFloatItems_eq]

@[simp] theorem mapFloat_obj (f : UInt64 → UInt64) (fs : List (String × Json)) :
    mapFloat f (obj fs) = obj (fs.map fun p => (p.1, p.2.mapFloat f)) := by
  rw [mapFloat, mapFloatFields_eq]

@[simp] theorem depth_arr_le :
    (arr js).depth ≤ n + 1 ↔ ∀ j ∈ js, j.depth ≤ n := by
  rw [← depthItems_le_iff, depth]
  omega

@[simp] theorem depth_obj_le :
    (obj fs).depth ≤ n + 1 ↔ ∀ f ∈ fs, f.2.depth ≤ n := by
  rw [← depthFields_le_iff, depth]
  omega

mutual
theorem mapFloat_id : ∀ j : Json, j.mapFloat id = j
  | .null | .bool _ | .str _ | .num (.posInt _) | .num (.negInt _) | .num (.float _) => rfl
  | .arr items => congrArg arr (mapFloatItems_id items)
  | .obj fields => congrArg obj (mapFloatFields_id fields)

theorem mapFloatItems_id : ∀ js : List Json, mapFloatItems id js = js
  | [] => rfl
  | j :: js => by rw [mapFloatItems, mapFloat_id j, mapFloatItems_id js]

theorem mapFloatFields_id : ∀ fs : List (String × Json), mapFloatFields id fs = fs
  | [] => rfl
  | (k, j) :: fs => by rw [mapFloatFields, mapFloat_id j, mapFloatFields_id fs]
end

end Json

/-! ### Dynamically typed values -/

/-- Insert a member: an existing member of the name keeps its place and gets the new value. -/
def upsert {α : Type} (k : String) (v : α) : List (String × α) → List (String × α)
  | [] => [(k, v)]
  | (k', v') :: fs => if k' = k then (k, v) :: fs else (k', v') :: upsert k v fs

namespace Json

mutual
/-- No object of the tree has two members of one name. -/
def uniqueKeys : Json → Bool
  | .arr items => uniqueKeysItems items
  | .obj fields => decide (fields.map Prod.fst).Nodup && uniqueKeysFields fields
  | _ => true

def uniqueKeysItems : List Json → Bool
  | [] => true
  | j :: js => j.uniqueKeys && uniqueKeysItems js

def uniqueKeysFields : List (String × Json) → Bool
  | [] => true
  | (_, j) :: fs => j.uniqueKeys && uniqueKeysFields fs
end

mutual
/-- The tree with repeated members merged, as an insertion-ordered map reads it. -/
def merged : Json → Json
  | .arr items => .arr (mergedItems items)
  | .obj fields => .obj (mergedFields [] fields)
  | .null => .null
  | .bool b => .bool b
  | .num n => .num n
  | .str s => .str s

def mergedItems : List Json → List Json
  | [] => []
  | j :: js => j.merged :: mergedItems js

def mergedFields (acc : List (String × Json)) : List (String × Json) → List (String × Json)
  | [] => acc
  | (k, j) :: fs => mergedFields (upsert k j.merged acc) fs
end

mutual
theorem uniqueKeys_mapFloat (f : UInt64 → UInt64) : ∀ j : Json,
    (j.mapFloat f).uniqueKeys = j.uniqueKeys
  | .null | .bool _ | .str _ | .num (.posInt _) | .num (.negInt _) | .num (.float _) => rfl
  | .arr items => uniqueKeys_mapFloatItems f items
  | .obj fields => by
    have hkeys : (mapFloatFields f fields).map Prod.fst = fields.map Prod.fst := by
      simp [mapFloatFields_eq, Function.comp_def]
    simp only [mapFloat, uniqueKeys, hkeys, uniqueKeys_mapFloatFields f fields]

theorem uniqueKeys_mapFloatItems (f : UInt64 → UInt64) : ∀ js : List Json,
    uniqueKeysItems (mapFloatItems f js) = uniqueKeysItems js
  | [] => rfl
  | j :: js => by
    simp [mapFloatItems, uniqueKeysItems, uniqueKeys_mapFloat f j, uniqueKeys_mapFloatItems f js]

theorem uniqueKeys_mapFloatFields (f : UInt64 → UInt64) : ∀ fs : List (String × Json),
    uniqueKeysFields (mapFloatFields f fs) = uniqueKeysFields fs
  | [] => rfl
  | (_, j) :: fs => by
    simp [mapFloatFields, uniqueKeysFields, uniqueKeys_mapFloat f j,
      uniqueKeys_mapFloatFields f fs]
end

theorem uniqueKeys_str (s : String) : (Json.str s).uniqueKeys = true := rfl

theorem uniqueKeysFields_iff {fs : List (String × Json)} :
    uniqueKeysFields fs = true ↔ ∀ f ∈ fs, f.2.uniqueKeys = true := by
  induction fs with
  | nil => simp [uniqueKeysFields]
  | cons f fs ih => simp [uniqueKeysFields, ih]

end Json

section Upsert
variable {α : Type}
variable {k : String} {v : α} {fs : List (String × α)}

theorem upsert_of_not_mem (h : k ∉ fs.map Prod.fst) : upsert k v fs = fs ++ [(k, v)] := by
  induction fs with
  | nil => rfl
  | cons f fs ih =>
    simp only [map_cons, mem_cons, not_or] at h
    rw [upsert, if_neg (Ne.symm h.1), ih h.2, cons_append]

theorem keys_upsert_of_mem
    (h : k ∈ fs.map Prod.fst) : (upsert k v fs).map Prod.fst = fs.map Prod.fst := by
  induction fs with
  | nil => simp at h
  | cons f fs ih =>
    by_cases hk : f.1 = k
    · simp [upsert, hk]
    · have hmem : k ∈ fs.map Prod.fst := by
        simpa [Ne.symm hk] using h
      simp [upsert, hk, ih hmem]

theorem nodup_keys_upsert (h : (fs.map Prod.fst).Nodup) : ((upsert k v fs).map Prod.fst).Nodup := by
  by_cases hk : k ∈ fs.map Prod.fst
  · rwa [keys_upsert_of_mem hk]
  · rw [upsert_of_not_mem hk, map_append]
    refine nodup_append.mpr ⟨h, by simp, fun a ha b hb hab => hk ?_⟩
    have hbk : b = k := by simpa using hb
    rwa [← hbk, ← hab]

theorem snd_mem_upsert {f : String × α} (h : f ∈ upsert k v fs) : f.2 = v ∨ f ∈ fs := by
  induction fs with
  | nil => left; rw [mem_singleton.mp h]
  | cons g fs ih =>
    rw [upsert] at h
    split at h
    · rcases mem_cons.mp h with rfl | h
      · exact .inl rfl
      · exact .inr (mem_cons_of_mem _ h)
    · rcases mem_cons.mp h with rfl | h
      · exact .inr mem_cons_self
      · exact (ih h).imp_right (mem_cons_of_mem _)

theorem lookup_upsert {key : String} :
    (upsert k v fs).lookup key = if key = k then some v else fs.lookup key := by
  induction fs with
  | nil =>
    by_cases h : key = k
    · simp [upsert, h]
    · have hne : (key == k) = false := by simpa using h
      simp [upsert, h, hne, lookup_cons]
  | cons f fs ih =>
    obtain ⟨k', v'⟩ := f
    rw [upsert]
    by_cases hk : k' = k
    · subst hk
      rw [if_pos rfl, lookup_cons, lookup_cons]
      by_cases h : key = k'
      · simp [h]
      · have hne : (key == k') = false := by simpa using h
        simp [h, hne]
    · rw [if_neg hk, lookup_cons, lookup_cons, ih]
      by_cases h : key = k'
      · subst h
        simp [hk]
      · have hne : (key == k') = false := by simpa using h
        simp [hne]

end Upsert

namespace Json

mutual
theorem uniqueKeys_merged : ∀ j : Json, j.merged.uniqueKeys = true
  | .null | .bool _ | .num _ | .str _ => rfl
  | .arr items => by simpa [merged, uniqueKeys] using uniqueKeys_mergedItems items
  | .obj fields => by
    have h := uniqueKeys_mergedFields fields [] (by simp) (by simp)
    simpa [merged, uniqueKeys, uniqueKeysFields_iff] using h

theorem uniqueKeys_mergedItems : ∀ js : List Json, uniqueKeysItems (mergedItems js) = true
  | [] => rfl
  | j :: js => by
    simp [mergedItems, uniqueKeysItems, uniqueKeys_merged j, uniqueKeys_mergedItems js]

theorem uniqueKeys_mergedFields : ∀ fs acc : List (String × Json),
    (acc.map Prod.fst).Nodup → (∀ f ∈ acc, f.2.uniqueKeys = true) →
    ((mergedFields acc fs).map Prod.fst).Nodup ∧
      ∀ f ∈ mergedFields acc fs, f.2.uniqueKeys = true
  | [], _, hn, hu => ⟨hn, hu⟩
  | (k, j) :: fs, _, hn, hu => by
    refine uniqueKeys_mergedFields fs _ (nodup_keys_upsert hn) fun f hf => ?_
    rcases snd_mem_upsert hf with h | h
    · exact h ▸ uniqueKeys_merged j
    · exact hu f h
end

mutual
theorem merged_of_uniqueKeys : ∀ j : Json, j.uniqueKeys = true → j.merged = j
  | .null, _ | .bool _, _ | .num _, _ | .str _, _ => rfl
  | .arr items, h => by rw [merged, mergedItems_of_uniqueKeys items h]
  | .obj fields, h => by
    simp only [uniqueKeys, Bool.and_eq_true, decide_eq_true_eq] at h
    rw [merged, mergedFields_of_uniqueKeys fields [] (by simpa using h.1) h.2, List.nil_append]

theorem mergedItems_of_uniqueKeys : ∀ js : List Json, uniqueKeysItems js = true →
    mergedItems js = js
  | [], _ => rfl
  | j :: js, h => by
    simp only [uniqueKeysItems, Bool.and_eq_true] at h
    rw [mergedItems, merged_of_uniqueKeys j h.1, mergedItems_of_uniqueKeys js h.2]

theorem mergedFields_of_uniqueKeys : ∀ (fs acc : List (String × Json)),
    ((acc ++ fs).map Prod.fst).Nodup → uniqueKeysFields fs = true →
    mergedFields acc fs = acc ++ fs
  | [], acc, _, _ => by simp [mergedFields]
  | (k, j) :: fs, acc, hn, h => by
    simp only [uniqueKeysFields, Bool.and_eq_true] at h
    have hk : k ∉ acc.map Prod.fst := fun hk =>
      (nodup_append.mp (map_append ▸ hn)).2.2 k hk k (by simp) rfl
    rw [mergedFields, merged_of_uniqueKeys j h.1, upsert_of_not_mem hk,
      mergedFields_of_uniqueKeys fs _ (by simpa using hn) h.2]
    simp
end

end Json

namespace Json

theorem mergedItems_eq (js : List Json) : mergedItems js = js.map merged := by
  induction js with
  | nil => rfl
  | cons j js ih => simp [mergedItems, ih]

theorem lookup_mergedFields (key : String) (fs acc : List (String × Json)) :
    (mergedFields acc fs).lookup key =
      match (fs.filter fun f => f.1 == key).getLast? with
      | some f => some f.2.merged
      | none => acc.lookup key := by
  induction fs generalizing acc with
  | nil => rfl
  | cons f fs ih =>
    obtain ⟨k, j⟩ := f
    rw [mergedFields, ih, lookup_upsert]
    by_cases hk : k = key
    · subst hk
      cases hrest : (fs.filter fun f => f.1 == k).getLast? with
      | none | some => simp [getLast?_cons, hrest]
    · have hne : (k == key) = false := by simpa using hk
      rw [if_neg (Ne.symm hk), filter_cons_of_neg (by simp [hne])]

end Json

/-- A dynamically typed value: a tree without repeated members. -/
structure Value where
  tree : Json
  unique : tree.uniqueKeys = true

namespace Value

/-- Read a tree as a value. -/
def ofJson (j : Json) : Value := ⟨j.merged, j.uniqueKeys_merged⟩

/-- `Json.mapFloat` on values. -/
def mapFloat (f : UInt64 → UInt64) (v : Value) : Value :=
  ⟨v.tree.mapFloat f, by rw [Json.uniqueKeys_mapFloat, v.unique]⟩

@[simp] theorem ofJson_tree (v : Value) : ofJson v.tree = v := by
  obtain ⟨j, hj⟩ := v
  simp [ofJson, Json.merged_of_uniqueKeys j hj]

end Value

/-! ### Leaf codecs -/

namespace Json

/-- The member of an object under a key. -/
def getKey (key : String) : Json → Option Json
  | .obj members => members.lookup key
  | _ => none

def asObject : Json → Option (List (String × Json))
  | .obj members => some members
  | _ => none

def asArray : Json → Option (List Json)
  | .arr items => some items
  | _ => none

def asStr : Json → Option String
  | .str s => some s
  | _ => none

def asBool : Json → Option Bool
  | .bool b => some b
  | _ => none

def asUInt64 : Json → Option UInt64
  | .num (.posInt n) => some n
  | _ => none

def asUInt8 : Json → Option UInt8
  | .num (.posInt n) => if n.toNat < 256 then some n.toUInt8 else none
  | _ => none

def asUInt32 : Json → Option UInt32
  | .num (.posInt n) => if n.toNat < 2 ^ 32 then some n.toUInt32 else none
  | _ => none

/-- Every item of an array, read by `dec`. -/
def asList {α : Type} (dec : Json → Option α) : Json → Option (List α)
  | .arr items => items.mapM dec
  | _ => none

def ofUInt64 (n : UInt64) : Json := .num (.posInt n)
def ofUInt8 (n : UInt8) : Json := ofUInt64 n.toUInt64
def ofUInt32 (n : UInt32) : Json := ofUInt64 n.toUInt64
def ofList {α : Type} (enc : α → Json) (xs : List α) : Json := .arr (xs.map enc)

@[simp] theorem asStr_str (s : String) : asStr (.str s) = some s := rfl
@[simp] theorem asBool_bool (b : Bool) : asBool (.bool b) = some b := rfl
@[simp] theorem asUInt64_ofUInt64 (n : UInt64) : asUInt64 (ofUInt64 n) = some n := rfl

@[simp] theorem asUInt8_ofUInt8 (n : UInt8) : asUInt8 (ofUInt8 n) = some n := by
  simpa [asUInt8, ofUInt8, ofUInt64] using n.toNat_lt

@[simp] theorem asUInt32_ofUInt32 (n : UInt32) : asUInt32 (ofUInt32 n) = some n := by
  simpa [asUInt32, ofUInt32, ofUInt64] using n.toNat_lt

theorem asList_map {α β : Type} {enc : α → Json} {dec : Json → Option β} {f : α → β} {xs : List α}
    (h : ∀ x ∈ xs, dec (enc x) = some (f x)) : asList dec (ofList enc xs) = some (xs.map f) := by
  induction xs with
  | nil => rfl
  | cons x xs ih =>
    have hrest := ih fun y hy => h y (mem_cons_of_mem _ hy)
    simp only [asList, ofList, map_cons, mapM_cons, h x mem_cons_self] at hrest ⊢
    simp [hrest]

theorem asList_ofList {α : Type} {enc : α → Json} {dec : Json → Option α}
    (h : ∀ a, dec (enc a) = some a) (xs : List α) : asList dec (ofList enc xs) = some xs := by
  rw [asList_map fun a _ => h a, map_id']

theorem uniqueKeysItems_iff {js : List Json} :
    uniqueKeysItems js = true ↔ ∀ j ∈ js, j.uniqueKeys = true := by
  induction js with
  | nil => simp [uniqueKeysItems]
  | cons j js ih => simp [uniqueKeysItems, ih]

theorem uniqueKeys_item {items : List Json} (h : (arr items).uniqueKeys = true) {j : Json}
    (hj : j ∈ items) : j.uniqueKeys = true :=
  uniqueKeysItems_iff.mp h j hj

theorem uniqueKeys_member {fs : List (String × Json)} (h : (obj fs).uniqueKeys = true)
    {f : String × Json} (hf : f ∈ fs) : f.2.uniqueKeys = true := by
  simp only [uniqueKeys, Bool.and_eq_true] at h
  exact uniqueKeysFields_iff.mp h.2 f hf

theorem uniqueKeys_getKey {j sub : Json} {key : String} (h : j.uniqueKeys = true)
    (hsub : j.getKey key = some sub) : sub.uniqueKeys = true := by
  cases j with
  | obj fs =>
    obtain ⟨l₁, l₂, rfl, -⟩ := lookup_eq_some_iff.mp hsub
    exact uniqueKeys_member h (f := (key, sub)) (by simp)
  | _ => cases hsub

end Json

/-! ### Record codecs -/

namespace Struct

variable {α : Type} {slots : List (String × Option Json)}
variable {enc : α → Json} {dec : Json → Option α}

/-- Write a record: members in declaration order, those with no value left out. -/
def encode (slots : List (String × Option Json)) : Json :=
  .obj (slots.filterMap fun s => s.2.map (s.1, ·))

/-- The members of an object, by name.  A repeated member is refused, and, where `deny` is set,
so is one whose name is not among `names`. -/
def fields (names : List String) (deny : Bool) : Json → Option (String → Option Json)
  | .obj fs =>
    if ((fs.map Prod.fst).filter (· ∈ names)).Nodup ∧
        (deny = true → ∀ n ∈ fs.map Prod.fst, n ∈ names) then
      some fun n => fs.lookup n
    else none
  | _ => none

/-- The value of a member that may be missing or null. -/
def optional {α : Type} (dec : Json → Option α) : Option Json → Option (Option α)
  | none | some .null => some none
  | some j => (dec j).map some

/-- The value of a member that has a default. -/
def defaulted {α : Type} (default : α) (dec : Json → Option α) : Option Json → Option α
  | none => some default
  | some j => dec j

/-- Read a member that must be there. -/
def req {α : Type} (get : String → Option Json) (name : String) (dec : Json → Option α) :
    Option α :=
  (get name).bind dec

/-- Read a member that may be missing or null. -/
def opt {α : Type} (get : String → Option Json) (name : String) (dec : Json → Option α) :
    Option (Option α) :=
  optional dec (get name)

/-- Read a member that has a default. -/
def dflt {α : Type} (get : String → Option Json) (name : String) (default : α)
    (dec : Json → Option α) : Option α :=
  defaulted default dec (get name)

theorem encode_ne_null (slots : List (String × Option Json)) : encode slots ≠ .null :=
  Json.noConfusion

theorem optional_map
    (hdec : ∀ a, dec (enc a) = some a) (hnull : ∀ a, enc a ≠ .null) (o : Option α) :
    optional dec (o.map enc) = some o := by
  cases o with
  | none => rfl
  | some a =>
    have ha := hnull a
    have hd := hdec a
    cases hj : enc a <;> simp_all [optional]

@[simp] theorem optional_map_str (o : Option String) :
    optional Json.asStr (o.map .str) = some o := by
  cases o <;> rfl

@[simp] theorem optional_map_ofUInt64 (o : Option UInt64) :
    optional Json.asUInt64 (o.map .ofUInt64) = some o := by
  cases o <;> rfl

theorem defaulted_ite [DecidableEq α] {default a : α} (hdec : dec (enc a) = some a) :
    defaulted default dec (if a = default then none else some (enc a)) = some a := by
  by_cases h : a = default
  · simp [h, defaulted]
  · simp [h, defaulted, hdec]

theorem map_fst_filterMap_sublist (slots : List (String × Option Json)) :
    ((slots.filterMap fun s => s.2.map (s.1, ·)).map Prod.fst).Sublist (slots.map Prod.fst) := by
  induction slots with
  | nil => exact List.Sublist.slnil
  | cons s slots ih =>
    obtain ⟨n, _ | j⟩ := s
    · exact ih.cons n
    · exact ih.cons_cons n

theorem lookup_filterMap (h : (slots.map Prod.fst).Nodup) (n : String) :
    (slots.filterMap fun s => s.2.map (s.1, ·)).lookup n = (slots.lookup n).join := by
  induction slots with
  | nil => rfl
  | cons s slots ih =>
    obtain ⟨m, v⟩ := s
    simp only [map_cons, nodup_cons] at h
    cases v with
    | some j =>
      by_cases hn : n = m
      · simp [hn]
      · have hne : (n == m) = false := by simpa using hn
        simpa [hne, lookup_cons] using ih h.2
    | none =>
      by_cases hn : n = m
      · subst hn
        have hnone : slots.lookup n = none := by
          rw [lookup_eq_none_iff]
          rintro p hp
          simpa using fun e : n = p.1 => h.1 (mem_map.mpr ⟨p, hp, e.symm⟩)
        simpa [hnone] using ih h.2
      · have hne : (n == m) = false := by simpa using hn
        simpa [hne, lookup_cons] using ih h.2

theorem getKey_encode (h : (slots.map Prod.fst).Nodup) (name : String) :
    (encode slots).getKey name = (slots.lookup name).join :=
  lookup_filterMap h name

/-- **Round trip of a record codec**: the members read back are the ones written. -/
theorem fields_encode {names : List String} {deny : Bool}
    (hnames : slots.map Prod.fst = names) (hnodup : names.Nodup) :
    fields names deny (encode slots) = some fun n => (slots.lookup n).join := by
  subst hnames
  have hsub := map_fst_filterMap_sublist slots
  have hok : ∀ n ∈ (slots.filterMap fun s => s.2.map (s.1, ·)).map Prod.fst,
      n ∈ slots.map Prod.fst := fun n hn => hsub.subset hn
  rw [encode, fields, if_pos ⟨(hnodup.sublist hsub).filter _, fun _ => hok⟩]
  exact congrArg some (funext fun n => lookup_filterMap hnodup n)

@[simp] theorem mapFloat_encode (f : UInt64 → UInt64) (slots : List (String × Option Json)) :
    (encode slots).mapFloat f = encode (slots.map fun s => (s.1, s.2.map (Json.mapFloat f))) := by
  simp [encode, map_filterMap, filterMap_map, Function.comp_def]

/-! ### What holds of every member -/

theorem forall_members {P : Json → Prop} :
    (∀ f ∈ slots.filterMap fun s => s.2.map (s.1, ·), P f.2) ↔ ∀ s ∈ slots, ∀ j ∈ s.2, P j := by
  constructor
  · intro h s hs j hj
    exact h (s.1, j) (mem_filterMap.mpr ⟨s, hs, by rw [hj]; rfl⟩)
  · intro h f hf
    obtain ⟨s, hs, hvalue⟩ := mem_filterMap.mp hf
    obtain ⟨j, hj, rfl⟩ := Option.map_eq_some_iff.mp hvalue
    exact h s hs j hj

theorem depth_encode_le {n : ℕ} :
    (encode slots).depth ≤ n + 1 ↔ ∀ s ∈ slots, ∀ j ∈ s.2, j.depth ≤ n :=
  Json.depth_obj_le.trans (forall_members (P := fun j => j.depth ≤ n))

theorem uniqueKeys_encode (hnodup : (slots.map Prod.fst).Nodup)
    (h : ∀ s ∈ slots, ∀ j ∈ s.2, j.uniqueKeys = true) : (encode slots).uniqueKeys = true := by
  rw [encode, Json.uniqueKeys, Bool.and_eq_true, decide_eq_true_eq]
  exact ⟨hnodup.sublist (map_fst_filterMap_sublist slots),
    Json.uniqueKeysFields_iff.mpr (forall_members.mpr h)⟩

theorem mapFloat_encode_eq_self {f : UInt64 → UInt64}
    (h : ∀ s ∈ slots, ∀ j ∈ s.2, j.mapFloat f = j) : (encode slots).mapFloat f = encode slots := by
  rw [mapFloat_encode]
  congr 1
  refine (map_congr_left fun s hs => ?_).trans (map_id _)
  obtain ⟨name, value⟩ := s
  cases value with
  | none => rfl
  | some j => simp [h (name, some j) hs j rfl]

end Struct

end Mecmcp
