import Mecmcp.Lib.Assoc
import Mecmcp.Lib.Json

/-!
# JsonOrder — documents up to the order of members

`Json.Same` relates documents that differ in the order of object members only, at any level.
`Json.sorted` puts the members of every object in the order of their keys, and `Json.same_iff` says
that on documents without repeated members it decides `Same`.
-/

namespace Mecmcp.Json

open List

mutual
/-- The document with the members of every object in the order of their keys. -/
def sorted : Json → Json
  | .arr items => .arr (sortedItems items)
  | .obj fields => .obj (Assoc.sorted (sortedFields fields))
  | .null => .null
  | .bool b => .bool b
  | .num n => .num n
  | .str s => .str s

def sortedItems : List Json → List Json
  | [] => []
  | j :: js => j.sorted :: sortedItems js

/-- `sorted` on the values of members, which keep their places. -/
def sortedFields : List (String × Json) → List (String × Json)
  | [] => []
  | (k, j) :: fs => (k, j.sorted) :: sortedFields fs
end

mutual
/-- Equal up to the order of object members, at every level. -/
def Same : Json → Json → Prop
  | .arr items, .arr items' => SameItems items items'
  | .obj fields, .obj fields' => fields.length = fields'.length ∧ SameFields fields fields'
  | .null, .null => True
  | .bool b, .bool b' => b = b'
  | .num n, .num n' => n = n'
  | .str s, .str s' => s = s'
  | _, _ => False

/-- The items of two arrays, one by one. -/
def SameItems : List Json → List Json → Prop
  | [], [] => True
  | j :: js, j' :: js' => Same j j' ∧ SameItems js js'
  | _, _ => False

/-- Every member has its counterpart, wherever that stands. -/
def SameFields : List (String × Json) → List (String × Json) → Prop
  | [], _ => True
  | (k, j) :: fs, fs' => (∃ j', fs'.lookup k = some j' ∧ Same j j') ∧ SameFields fs fs'
end

theorem sortedItems_eq (js : List Json) : sortedItems js = js.map sorted := by
  induction js with
  | nil => rfl
  | cons j js ih => rw [sortedItems, ih, map_cons]

theorem sortedFields_eq (fs : List (String × Json)) :
    sortedFields fs = fs.map fun f => (f.1, f.2.sorted) := by
  induction fs with
  | nil => rfl
  | cons f fs ih => rw [sortedFields, ih, map_cons]

theorem keys_sortedFields (fs : List (String × Json)) :
    (sortedFields fs).map Prod.fst = fs.map Prod.fst := by
  rw [sortedFields_eq, map_map]
  rfl

theorem lookup_sortedFields (fs : List (String × Json)) (key : String) :
    (sortedFields fs).lookup key = (fs.lookup key).map sorted := by
  induction fs with
  | nil => rfl
  | cons f fs ih =>
    obtain ⟨k, j⟩ := f
    rw [sortedFields, lookup_cons, lookup_cons]
    cases key == k with
    | true => rfl
    | false => exact ih

/-- Objects of the same size, each member of the first with a counterpart: every key finds the
same. -/
theorem lookup_sorted_iff {fs fs' : List (String × Json)} (h : (fs.map Prod.fst).Nodup)
    (h' : (fs'.map Prod.fst).Nodup) :
    Assoc.sorted (sortedFields fs) = Assoc.sorted (sortedFields fs') ↔
      fs.length = fs'.length ∧
        ∀ f ∈ fs, ∃ j', fs'.lookup f.1 = some j' ∧ f.2.sorted = j'.sorted := by
  constructor
  · intro heq
    have hlookup := (Assoc.sorted_eq_iff (by rwa [keys_sortedFields])
      (by rwa [keys_sortedFields])).mp heq
    refine ⟨?_, fun f hf => ?_⟩
    · have hlength := congrArg List.length heq
      rwa [(Assoc.sorted_perm _).length_eq, (Assoc.sorted_perm _).length_eq, sortedFields_eq,
        sortedFields_eq, length_map, length_map] at hlength
    · have hfound := hlookup f.1
      rw [lookup_sortedFields, lookup_sortedFields, (Assoc.mem_iff_lookup h).mp hf] at hfound
      obtain ⟨j', hj', hsorted⟩ := Option.map_eq_some_iff.mp hfound.symm
      exact ⟨j', hj', hsorted.symm⟩
  · rintro ⟨hlength, hfound⟩
    have hkeys : ∀ key ∈ fs.map Prod.fst, key ∈ fs'.map Prod.fst := by
      intro key hkey
      obtain ⟨f, hf, rfl⟩ := mem_map.mp hkey
      obtain ⟨j', hj', -⟩ := hfound f hf
      exact mem_map.mpr ⟨(f.1, j'), (Assoc.mem_iff_lookup h').mpr hj', rfl⟩
    -- as many keys and none lost: the same keys
    have hperm : (fs.map Prod.fst).Perm (fs'.map Prod.fst) :=
      (h.subperm hkeys).perm_of_length_le (by simp [hlength])
    refine (Assoc.sorted_eq_iff (by rwa [keys_sortedFields]) (by rwa [keys_sortedFields])).mpr
      fun key => ?_
    rw [lookup_sortedFields, lookup_sortedFields]
    cases hkey : fs.lookup key with
    | some j =>
      obtain ⟨j', hj', hsorted⟩ := hfound (key, j) ((Assoc.mem_iff_lookup h).mpr hkey)
      rw [hj', Option.map_some, Option.map_some, hsorted]
    | none =>
      cases hkey' : fs'.lookup key with
      | none => rfl
      | some j' =>
        have hmem' : key ∈ fs'.map Prod.fst :=
          mem_map.mpr ⟨(key, j'), (Assoc.mem_iff_lookup h').mpr hkey', rfl⟩
        have hmem : key ∈ fs.map Prod.fst := hperm.mem_iff.mpr hmem'
        obtain ⟨f, hf, rfl⟩ := mem_map.mp hmem
        rw [(Assoc.mem_iff_lookup h).mp hf] at hkey
        cases hkey

mutual
/-- **Sorting decides whether documents are the same up to the order of members.** -/
theorem same_iff : ∀ j j' : Json, j.uniqueKeys = true → j'.uniqueKeys = true →
    (Same j j' ↔ j.sorted = j'.sorted)
  | .arr items, .arr items' => fun h h' => by
    rw [Same, sameItems_iff items items' h h', sorted, sorted, Json.arr.injEq]
  | .obj fields, .obj fields' => fun h h' => by
    simp only [uniqueKeys, Bool.and_eq_true, decide_eq_true_eq] at h h'
    rw [Same, sameFields_iff fields fields' h.2 h'.2, sorted, sorted, Json.obj.injEq,
      lookup_sorted_iff h.1 h'.1]
  | .null, j' => fun _ _ => by cases j' <;> simp [Same, sorted]
  | .bool b, j' => fun _ _ => by cases j' <;> simp [Same, sorted]
  | .num n, j' => fun _ _ => by cases j' <;> simp [Same, sorted]
  | .str s, j' => fun _ _ => by cases j' <;> simp [Same, sorted]
  | .arr items, .null | .arr items, .bool _ | .arr items, .num _ | .arr items, .str _
  | .arr items, .obj _ => fun _ _ => by simp [Same, sorted]
  | .obj fields, .null | .obj fields, .bool _ | .obj fields, .num _ | .obj fields, .str _
  | .obj fields, .arr _ => fun _ _ => by simp [Same, sorted]

theorem sameItems_iff : ∀ js js' : List Json, uniqueKeysItems js = true →
    uniqueKeysItems js' = true → (SameItems js js' ↔ sortedItems js = sortedItems js')
  | [], [] => fun _ _ => by simp [SameItems]
  | [], j' :: js' => fun _ _ => by simp [SameItems, sortedItems]
  | j :: js, [] => fun _ _ => by simp [SameItems, sortedItems]
  | j :: js, j' :: js' => fun h h' => by
    simp only [uniqueKeysItems, Bool.and_eq_true] at h h'
    rw [SameItems, same_iff j j' h.1 h'.1, sameItems_iff js js' h.2 h'.2, sortedItems, sortedItems,
      List.cons.injEq]

theorem sameFields_iff : ∀ fs fs' : List (String × Json), uniqueKeysFields fs = true →
    uniqueKeysFields fs' = true → (SameFields fs fs' ↔
      ∀ f ∈ fs, ∃ j', fs'.lookup f.1 = some j' ∧ f.2.sorted = j'.sorted)
  | [], fs' => fun _ _ => by simp [SameFields]
  | (k, j) :: fs, fs' => fun h h' => by
    simp only [uniqueKeysFields, Bool.and_eq_true] at h
    have hvalue : (∃ j', fs'.lookup k = some j' ∧ Same j j') ↔
        ∃ j', fs'.lookup k = some j' ∧ j.sorted = j'.sorted := by
      refine exists_congr fun j' => and_congr_right fun hj' => ?_
      obtain ⟨front, back, rfl, -⟩ := lookup_eq_some_iff.mp hj'
      have hunique := uniqueKeysFields_iff.mp h' (k, j') (by simp)
      exact same_iff j j' h.1 hunique
    rw [SameFields, hvalue, sameFields_iff fs fs' h.2 h', forall_mem_cons]
end

end Mecmcp.Json
