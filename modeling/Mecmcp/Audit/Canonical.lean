import Mecmcp.Lib.JsonOrder
import Mecmcp.Lib.JsonText

/-!
# Canonical — canonical JSON

`canonical.rs`: the members of an object are written in the order of their keys, without incidental
whitespace, and nesting beyond `maxCanonicalDepth` is refused.  How `serde_json` writes strings and
numbers is any `Printer`.  `writeCanonical_eq` splits the writer into sorting and printing, and
`canonical_json_complete_invariant` says that the canonical text tells a value up to the order of
members, and nothing less.
-/

namespace Mecmcp.Audit

def maxCanonicalDepth : ℕ := 128

inductive CanonicalError where
  | tooDeep
  deriving DecidableEq

def checkDepth (depth : ℕ) : Except CanonicalError Unit :=
  if maxCanonicalDepth < depth then .error .tooDeep else .ok ()

/-- The texts with a comma before each but the first. -/
def joinItems : (first : Bool) → List (List UInt8) → List UInt8
  | _, [] => []
  | first, item :: items => (if first then [] else [44]) ++ (item ++ joinItems false items)

variable (P : Printer)

/-- One turn of the loop over the keys: the key as a JSON string, a colon and the value. -/
def writeMember (member : String × Except CanonicalError (List UInt8)) :
    Except CanonicalError (List UInt8) := do
  let text ← member.2
  return P.string member.1 ++ 58 :: text

mutual
def writeCanonical : Json → (depth : ℕ) → Except CanonicalError (List UInt8)
  | .obj map, depth => do
    checkDepth depth
    let texts ← (Assoc.sorted (writeMembers map (depth + 1))).mapM (writeMember P)
    return 123 :: (joinItems true texts ++ [125])
  | .arr items, depth => do
    checkDepth depth
    let texts ← writeItems items (depth + 1)
    return 91 :: (joinItems true texts ++ [93])
  | .null, depth => do checkDepth depth; return P.render .null
  | .bool b, depth => do checkDepth depth; return P.render (.bool b)
  | .num n, depth => do checkDepth depth; return P.render (.num n)
  | .str s, depth => do checkDepth depth; return P.render (.str s)

/-- The items of an array, in their order. -/
def writeItems : List Json → (depth : ℕ) → Except CanonicalError (List (List UInt8))
  | [], _ => .ok []
  | item :: items, depth => do
    let text ← writeCanonical item depth
    let texts ← writeItems items depth
    return text :: texts

/-- What writing each member's value comes to; the loop takes them in the order of the keys. -/
def writeMembers : List (String × Json) → (depth : ℕ) →
    List (String × Except CanonicalError (List UInt8))
  | [], _ => []
  | (key, value) :: members, depth =>
    (key, writeCanonical value depth) :: writeMembers members depth
end

def canonicalJson (value : Value) : Except CanonicalError (List UInt8) :=
  writeCanonical P value.tree 0

/-! ### Nesting -/

end Mecmcp.Audit

namespace Mecmcp.Json

open List

mutual
/-- The number of containers around the deepest value. -/
def nesting : Json → ℕ
  | .arr items => nestingItems items
  | .obj fields => nestingFields fields
  | _ => 0

def nestingItems : List Json → ℕ
  | [] => 0
  | j :: js => max (j.nesting + 1) (nestingItems js)

def nestingFields : List (String × Json) → ℕ
  | [] => 0
  | (_, j) :: fs => max (j.nesting + 1) (nestingFields fs)
end

theorem add_nesting_arr_le {items : List Json} {depth n : ℕ} :
    depth + (arr items).nesting ≤ n ↔
      depth ≤ n ∧ ∀ item ∈ items, depth + 1 + item.nesting ≤ n := by
  rw [nesting]
  induction items with
  | nil => simp [nestingItems]
  | cons item items ih =>
    have hmax : depth + max (item.nesting + 1) (nestingItems items) ≤ n ↔
        depth + 1 + item.nesting ≤ n ∧ depth + nestingItems items ≤ n := by omega
    rw [nestingItems, hmax, ih, forall_mem_cons]
    tauto

theorem add_nesting_obj_le {fields : List (String × Json)} {depth n : ℕ} :
    depth + (obj fields).nesting ≤ n ↔
      depth ≤ n ∧ ∀ field ∈ fields, depth + 1 + field.2.nesting ≤ n := by
  rw [nesting]
  induction fields with
  | nil => simp [nestingFields]
  | cons field fields ih =>
    have hmax : depth + max (field.2.nesting + 1) (nestingFields fields) ≤ n ↔
        depth + 1 + field.2.nesting ≤ n ∧ depth + nestingFields fields ≤ n := by omega
    rw [nestingFields, hmax, ih, forall_mem_cons]
    tauto

end Mecmcp.Json

namespace Mecmcp.Audit

open List

/-! ### Sorting and printing -/

theorem checkDepth_bind {α : Type} (depth : ℕ) (rest : Except CanonicalError α) :
    (do checkDepth depth; rest) = if depth ≤ maxCanonicalDepth then rest else .error .tooDeep := by
  rw [checkDepth]
  by_cases h : maxCanonicalDepth < depth
  · rw [if_pos h, if_neg (Nat.not_le.mpr h)]
    rfl
  · rw [if_neg h, if_pos (Nat.not_lt.mp h)]
    rfl

theorem mapM_ite {α β : Type} {p : α → Prop} [DecidablePred p] {f : α → β} {e : CanonicalError}
    (l : List α) : l.mapM (fun a => if p a then Except.ok (f a) else .error e) =
      if ∀ a ∈ l, p a then .ok (l.map f) else .error e := by
  induction l with
  | nil => simp [pure, Except.pure]
  | cons a l ih =>
    rw [mapM_cons, ih]
    by_cases ha : p a
    · rw [if_pos ha]
      by_cases hl : ∀ b ∈ l, p b
      · rw [if_pos hl, if_pos (forall_mem_cons.mpr ⟨ha, hl⟩)]
        rfl
      · rw [if_neg hl, if_neg fun hall => hl (forall_mem_cons.mp hall).2]
        rfl
    · rw [if_neg ha, if_neg fun hall => ha (forall_mem_cons.mp hall).1]
      rfl

variable (P : Printer)

theorem renderItems_eq (first : Bool) (js : List Json) :
    P.renderItems first js =
      joinItems first (js.map P.render) := by
  induction js generalizing first with
  | nil => rfl
  | cons j js ih => rw [Printer.renderItems, ih, map_cons, joinItems]

theorem renderFields_eq (first : Bool) (fs : List (String × Json)) :
    P.renderFields first fs = joinItems first
      (fs.map fun f => P.string f.1 ++ 58 :: P.render f.2) := by
  induction fs generalizing first with
  | nil => rfl
  | cons f fs ih =>
    rw [Printer.renderFields, ih, map_cons, joinItems, append_assoc, cons_append]

mutual
theorem writeCanonical_eq : ∀ (value : Json) (depth : ℕ), writeCanonical P value depth =
    if depth + value.nesting ≤ maxCanonicalDepth then
      .ok (P.render value.sorted)
    else .error .tooDeep
  | .null, depth | .bool _, depth | .num _, depth | .str _, depth => checkDepth_bind _ _
  | .arr items, depth => by
    rw [writeCanonical, checkDepth_bind, writeItems_eq items (depth + 1)]
    by_cases hdepth : depth ≤ maxCanonicalDepth
    · rw [if_pos hdepth]
      by_cases hitems : ∀ item ∈ items, depth + 1 + item.nesting ≤ maxCanonicalDepth
      · rw [if_pos hitems, if_pos (Json.add_nesting_arr_le.mpr ⟨hdepth, hitems⟩), Json.sorted,
          Json.sortedItems_eq, Printer.render, renderItems_eq, List.map_map]
        rfl
      · rw [if_neg hitems, if_neg fun h => hitems (Json.add_nesting_arr_le.mp h).2]
        rfl
    · rw [if_neg hdepth, if_neg fun h => hdepth (Json.add_nesting_arr_le.mp h).1]
  | .obj map, depth => by
    have hloop : (Assoc.sorted (writeMembers P map (depth + 1))).mapM (writeMember P) =
        if ∀ member ∈ map, depth + 1 + member.2.nesting ≤ maxCanonicalDepth then
          .ok ((Assoc.sorted map).map fun member => P.string member.1 ++
            58 :: P.render member.2.sorted)
        else .error .tooDeep := by
      rw [writeMembers_eq map (depth + 1),
        Assoc.sorted_map (fun value : Json =>
          if depth + 1 + value.nesting ≤ maxCanonicalDepth then
            Except.ok (P.render value.sorted)
          else .error CanonicalError.tooDeep) map,
        mapM_map]
      simp only [← (Assoc.sorted_perm map).mem_iff]
      rw [← mapM_ite]
      refine congrArg (fun write => List.mapM write (Assoc.sorted map)) (funext fun member => ?_)
      dsimp only [Function.comp_apply, writeMember]
      split_ifs <;> rfl
    rw [writeCanonical, checkDepth_bind, hloop]
    by_cases hdepth : depth ≤ maxCanonicalDepth
    · rw [if_pos hdepth]
      by_cases hmap : ∀ member ∈ map, depth + 1 + member.2.nesting ≤ maxCanonicalDepth
      · rw [if_pos hmap, if_pos (Json.add_nesting_obj_le.mpr ⟨hdepth, hmap⟩), Json.sorted,
          Json.sortedFields_eq, Assoc.sorted_map, Printer.render, renderFields_eq, map_map]
        rfl
      · rw [if_neg hmap, if_neg fun h => hmap (Json.add_nesting_obj_le.mp h).2]
        rfl
    · rw [if_neg hdepth, if_neg fun h => hdepth (Json.add_nesting_obj_le.mp h).1]

theorem writeItems_eq : ∀ (items : List Json) (depth : ℕ), writeItems P items depth =
    if ∀ item ∈ items, depth + item.nesting ≤ maxCanonicalDepth then
      .ok (items.map fun item => P.render item.sorted)
    else .error .tooDeep
  | [], depth => by simp [writeItems]
  | item :: items, depth => by
    simp only [writeItems, writeCanonical_eq item depth, writeItems_eq items depth,
      List.forall_mem_cons]
    by_cases hitem : depth + item.nesting ≤ maxCanonicalDepth
    · by_cases hitems : ∀ item ∈ items, depth + item.nesting ≤ maxCanonicalDepth
      · rw [if_pos hitem, if_pos hitems, if_pos ⟨hitem, hitems⟩]
        rfl
      · rw [if_pos hitem, if_neg hitems, if_neg fun h => hitems h.2]
        rfl
    · have hall : ¬ (depth + item.nesting ≤ maxCanonicalDepth ∧
          ∀ item ∈ items, depth + item.nesting ≤ maxCanonicalDepth) := fun h => hitem h.1
      rw [if_neg hitem, if_neg hall]
      rfl

theorem writeMembers_eq : ∀ (members : List (String × Json)) (depth : ℕ),
    writeMembers P members depth = members.map fun member =>
      (member.1, if depth + member.2.nesting ≤ maxCanonicalDepth then
        .ok (P.render member.2.sorted) else .error .tooDeep)
  | [], depth => rfl
  | (key, value) :: members, depth => by
    rw [writeMembers, writeCanonical_eq value depth, writeMembers_eq members depth, List.map_cons]
end

theorem canonicalJson_eq (value : Value) : canonicalJson P value =
    if value.tree.nesting ≤ maxCanonicalDepth then
      .ok (P.render value.tree.sorted)
    else .error .tooDeep := by
  rw [canonicalJson, writeCanonical_eq, Nat.zero_add]

/-- **Canonical JSON is a complete invariant.**  Values within the limit have one canonical text
exactly if they are equal up to the order of members, and a value has none exactly if it is nested
deeper. -/
theorem canonical_json_complete_invariant :
    (∀ v w : Value, v.tree.nesting ≤ maxCanonicalDepth → w.tree.nesting ≤ maxCanonicalDepth →
      (canonicalJson P v = canonicalJson P w ↔ v.tree.Same w.tree)) ∧
    ∀ v : Value, canonicalJson P v = .error .tooDeep ↔ maxCanonicalDepth < v.tree.nesting := by
  constructor
  · intro v w hv hw
    rw [canonicalJson_eq, canonicalJson_eq, if_pos hv, if_pos hw, Except.ok.injEq,
      Printer.render_injective.eq_iff, Json.same_iff _ _ v.unique w.unique]
  · intro v
    rw [canonicalJson_eq]
    by_cases hv : v.tree.nesting ≤ maxCanonicalDepth
    · rw [if_pos hv]
      exact iff_of_false nofun (Nat.not_lt.mpr hv)
    · rw [if_neg hv]
      exact iff_of_true rfl (Nat.not_le.mp hv)

end Mecmcp.Audit
