import Mathlib

/-!
# Assoc — association lists with distinct keys

A map with an iteration order is a list of pairs whose keys are distinct.

* `Assoc.mem_iff_lookup`: being a member and being what the key finds are the same.
* `Assoc.sorted` is the list in the order of its keys; `Assoc.sorted_eq_iff` says it forgets the
  order of the list and nothing else.
* `Assoc.mapValues` reads every value with a partial function, or fails as a whole;
  `Assoc.lookup_mapValues` is what a key then finds.
-/

namespace Mecmcp.Assoc

open List Option

variable {κ α β : Type}
variable {dec : α → Option β} {l : List (κ × α)} {r : List (κ × β)}

section Lookup
variable [DecidableEq κ]

theorem mem_iff_lookup {l : List (κ × α)} (h : (l.map Prod.fst).Nodup) {k : κ} {a : α} :
    (k, a) ∈ l ↔ l.lookup k = some a := by
  induction l with
  | nil => simp
  | cons p l ih =>
    obtain ⟨k', a'⟩ := p
    simp only [map_cons, nodup_cons] at h
    rw [lookup_cons, mem_cons]
    by_cases hk : k = k'
    · subst hk
      have hnot : (k, a) ∉ l := fun hmem => h.1 (List.mem_map_of_mem hmem)
      simp [hnot, eq_comm]
    · have hne : (k == k') = false := by simpa using hk
      simp [hne, hk, ih h.2]

theorem lookup_perm {l l' : List (κ × α)} (hp : l.Perm l') (h : (l.map Prod.fst).Nodup) (k : κ) :
    l.lookup k = l'.lookup k := by
  have h' : (l'.map Prod.fst).Nodup := (hp.map Prod.fst).nodup_iff.mp h
  refine Option.ext fun a => ?_
  rw [← mem_iff_lookup h, ← mem_iff_lookup h', hp.mem_iff]

end Lookup

/-! ### The order of the keys -/

section Sorted
variable [LinearOrder κ]
variable {l : List (κ × α)}

/-- The list in the order of its keys. -/
def sorted (l : List (κ × α)) : List (κ × α) :=
  l.insertionSort fun a b => a.1 ≤ b.1

theorem sorted_perm (l : List (κ × α)) : (sorted l).Perm l :=
  perm_insertionSort _ l

theorem sorted_map (f : α → β) (l : List (κ × α)) :
    sorted (l.map fun p => (p.1, f p.2)) = (sorted l).map fun p => (p.1, f p.2) :=
  (map_insertionSort (fun a b : κ × α => a.1 ≤ b.1) (fun a b : κ × β => a.1 ≤ b.1)
    (fun p => (p.1, f p.2)) l fun _ _ _ _ => Iff.rfl).symm

theorem nodup_keys_sorted (h : (l.map Prod.fst).Nodup) :
    ((sorted l).map Prod.fst).Nodup :=
  ((sorted_perm l).map Prod.fst).nodup_iff.mpr h

theorem lookup_sorted (h : (l.map Prod.fst).Nodup) (k : κ) :
    (sorted l).lookup k = l.lookup k :=
  lookup_perm (sorted_perm l) (nodup_keys_sorted h) k

theorem pairwise_sorted (l : List (κ × α)) : (sorted l).Pairwise fun a b => a.1 ≤ b.1 := by
  have htotal : Std.Total fun a b : κ × α => a.1 ≤ b.1 := ⟨fun a b => le_total a.1 b.1⟩
  have htrans : IsTrans (κ × α) fun a b => a.1 ≤ b.1 := ⟨fun _ _ _ => le_trans⟩
  exact pairwise_insertionSort _ l

theorem sorted_eq_iff {l' : List (κ × α)} (h : (l.map Prod.fst).Nodup)
    (h' : (l'.map Prod.fst).Nodup) :
    sorted l = sorted l' ↔ ∀ k, l.lookup k = l'.lookup k := by
  constructor
  · intro heq k
    rw [← lookup_sorted h, heq, lookup_sorted h']
  · intro hlookup
    have hmem : ∀ p, p ∈ l ↔ p ∈ l' := by
      rintro ⟨k, a⟩
      rw [mem_iff_lookup h, mem_iff_lookup h', hlookup]
    have hperm : l.Perm l' :=
      (perm_ext_iff_of_nodup (h.of_map _) (h'.of_map _)).mpr hmem
    have hsorted : (sorted l).Perm (sorted l') :=
      (sorted_perm l).trans (hperm.trans (sorted_perm l').symm)
    refine hsorted.eq_of_pairwise (fun a b ha hb hab hba => ?_) (pairwise_sorted l)
      (pairwise_sorted l')
    -- two members of one key are one member
    exact inj_on_of_nodup_map (nodup_keys_sorted h) ha (hsorted.mem_iff.mpr hb)
      (le_antisymm hab hba)

end Sorted

/-! ### Reading the values -/

/-- Every value read by `dec`; one that cannot be read fails the whole list. -/
def mapValues (dec : α → Option β) : List (κ × α) → Option (List (κ × β))
  | [] => some []
  | (k, a) :: l => (dec a).bind fun b => (mapValues dec l).map ((k, b) :: ·)

theorem mapValues_isSome_iff :
    (mapValues dec l).isSome ↔ ∀ p ∈ l, (dec p.2).isSome := by
  induction l with
  | nil => simp [mapValues]
  | cons p l ih =>
    obtain ⟨k, a⟩ := p
    cases ha : dec a with
    | none => simp [mapValues, ha]
    | some b => simp [mapValues, ha, ih]

theorem keys_mapValues (h : mapValues dec l = some r) : r.map Prod.fst = l.map Prod.fst := by
  induction l generalizing r with
  | nil => cases h; rfl
  | cons p l ih =>
    obtain ⟨k, a⟩ := p
    simp only [mapValues, bind_eq_some_iff, map_eq_some_iff] at h
    obtain ⟨b, -, r', hr', rfl⟩ := h
    simp [ih hr']

theorem lookup_mapValues [DecidableEq κ] (h : mapValues dec l = some r) (k : κ) :
    r.lookup k = (l.lookup k).bind dec := by
  induction l generalizing r with
  | nil => cases h; rfl
  | cons p l ih =>
    obtain ⟨k', a⟩ := p
    simp only [mapValues, bind_eq_some_iff, map_eq_some_iff] at h
    obtain ⟨b, hb, r', hr', rfl⟩ := h
    rw [lookup_cons, lookup_cons, ih hr']
    cases k == k' with
    | true => exact hb.symm
    | false => rfl

theorem mapValues_append_singleton
    {k : κ} {a : α} {b : β} (h : mapValues dec l = some r) (hb : dec a = some b) :
    mapValues dec (l ++ [(k, a)]) = some (r ++ [(k, b)]) := by
  induction l generalizing r with
  | nil => cases h; simp [mapValues, hb]
  | cons p l ih =>
    obtain ⟨k', a'⟩ := p
    simp only [mapValues, bind_eq_some_iff, map_eq_some_iff] at h
    obtain ⟨b', hb', r', hr', rfl⟩ := h
    simp [mapValues, hb', ih hr']

end Mecmcp.Assoc
