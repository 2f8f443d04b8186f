import Mathlib

/-!
# Paths — paths, their prefixes and their joined form

A path is a list of segments, root first.  `prefixes` lists its non-empty prefixes from the root
down.  A path is printed by joining its segments with a separator; segments without the separator
can be read back (`join_injective`).  `takeWeight` cuts a text after a given weight (the size of its
characters in bytes), and `map_takeWeight_offsets` says that cutting a joined path at its segment
ends gives the joined prefixes.
-/

namespace Mecmcp.Paths

open List

variable {α : Type}

/-! ### Prefixes -/

/-- The non-empty prefixes of a path, shortest first. -/
def prefixes (path : List α) : List (List α) := path.inits.tail

@[simp] theorem prefixes_nil : prefixes ([] : List α) = [] := rfl

theorem prefixes_cons (a : α) (path : List α) :
    prefixes (a :: path) = [a] :: (prefixes path).map (a :: ·) := by
  cases path <;> simp [prefixes]

theorem prefixes_snoc (path : List α) (a : α) :
    prefixes (path ++ [a]) = prefixes path ++ [path ++ [a]] := by
  rw [prefixes, inits_append, tail_append_of_ne_nil (by cases path <;> simp), prefixes]
  simp

theorem mem_prefixes {p path : List α} : p ∈ prefixes path ↔ p ≠ [] ∧ p <+: path := by
  induction path generalizing p with
  | nil =>
    simp only [prefixes_nil, not_mem_nil, prefix_nil, false_iff]
    exact fun h => h.1 h.2
  | cons a path ih =>
    cases p with
    | nil => simp [prefixes_cons]
    | cons b p =>
      cases p with
      | nil => simp [prefixes_cons, eq_comm]
      | cons c p => simp [prefixes_cons, ih, cons_prefix_cons, eq_comm, and_comm]

@[simp] theorem length_prefixes (path : List α) : (prefixes path).length = path.length := by
  rw [prefixes, length_tail, length_inits, Nat.add_sub_cancel]

theorem length_of_getElem?_prefixes {path p : List α} {i : ℕ} (h : (prefixes path)[i]? = some p) :
    p.length = i + 1 := by
  induction path using List.reverseRecOn with
  | nil => simp at h
  | append_singleton path a ih =>
    rw [prefixes_snoc] at h
    rcases Nat.lt_or_ge i (prefixes path).length with hlt | hge
    · rw [getElem?_append_left hlt] at h
      exact ih h
    · rw [getElem?_append_right hge, getElem?_singleton] at h
      split_ifs at h with hzero
      have hi : i = path.length := by rw [length_prefixes] at hge hzero; omega
      rw [← Option.some.inj h, length_append, hi, length_singleton]

theorem pairwise_prefixes (path : List α) :
    (prefixes path).Pairwise fun p q => p <+: q ∧ p ≠ q := by
  induction path using List.reverseRecOn with
  | nil => exact List.Pairwise.nil
  | append_singleton path a ih =>
    rw [prefixes_snoc, pairwise_append]
    refine ⟨ih, pairwise_singleton _ _, fun p hp q hq => ?_⟩
    have hfront := (mem_prefixes.mp hp).2
    rw [mem_singleton.mp hq]
    refine ⟨hfront.trans (prefix_append _ _), fun heq => ?_⟩
    have hlength := hfront.length_le
    rw [heq, length_append, length_singleton] at hlength
    omega

/-! ### Joining -/

/-- The segments with a separator between them. -/
def join (sep : α) (path : List (List α)) : List α := [sep].intercalate path

theorem join_cons (sep : α) (segment : List α) (path : List (List α)) :
    join sep (segment :: path) = segment ++ path.flatMap (sep :: ·) := by
  induction path generalizing segment with
  | nil => simp [join]
  | cons next path ih =>
    have hnext := ih next
    rw [join] at hnext ⊢
    rw [intercalate_cons_cons, hnext]
    simp

theorem join_append (sep : α) {path : List (List α)} (hne : path ≠ []) (more : List (List α)) :
    join sep (path ++ more) = join sep path ++ more.flatMap (sep :: ·) := by
  obtain ⟨segment, path, rfl⟩ := exists_cons_of_ne_nil hne
  rw [cons_append, join_cons, join_cons, flatMap_append, append_assoc]

theorem join_injective [DecidableEq α] {sep : α} {p q : List (List α)} (hp : p ≠ []) (hq : q ≠ [])
    (hpsep : ∀ segment ∈ p, sep ∉ segment) (hqsep : ∀ segment ∈ q, sep ∉ segment)
    (h : join sep p = join sep q) : p = q := by
  rw [← splitOn_intercalate sep hpsep hp, ← splitOn_intercalate sep hqsep hq]
  exact congrArg _ h

/-! ### Offsets -/

variable (size : α → ℕ)

def weight (text : List α) : ℕ := (text.map size).sum

/-- The longest front of a text within a weight. -/
def takeWeight : ℕ → List α → List α
  | _, [] => []
  | n, c :: text => if size c ≤ n then c :: takeWeight (n - size c) text else []

variable {size}

theorem takeWeight_append (hpos : ∀ c, 0 < size c) (front back : List α) :
    takeWeight size (weight size front) (front ++ back) = front := by
  induction front with
  | nil =>
    cases back with
    | nil => rfl
    | cons c back => simp [takeWeight, weight, (hpos c).ne']
  | cons c front ih =>
    have hweight : weight size (c :: front) = size c + weight size front := by simp [weight]
    rw [cons_append, takeWeight, hweight, if_pos (Nat.le_add_right _ _), Nat.add_sub_cancel_left,
      ih]

variable (size)

/-- The ends of the segments in the joined path; `separator` is what stands before a segment. -/
def offsetsFrom (separator endOffset : ℕ) : ℕ → List (List α) → List ℕ
  | _, [] => []
  | i, segment :: path =>
    let endOffset := (if 0 < i then endOffset + separator else endOffset) + weight size segment
    endOffset :: offsetsFrom separator endOffset (i + 1) path

variable {size}

theorem map_takeWeight_offsetsFrom (hpos : ∀ c, 0 < size c) (sep : α) (front path : List (List α)) :
    (offsetsFrom size (size sep) (weight size (join sep front)) front.length path).map
        (fun offset => takeWeight size offset (join sep (front ++ path))) =
      (prefixes path).map fun p => join sep (front ++ p) := by
  induction path generalizing front with
  | nil => rfl
  | cons segment path ih =>
    have hoffset : (if 0 < front.length then weight size (join sep front) + size sep
        else weight size (join sep front)) + weight size segment =
        weight size (join sep (front ++ [segment])) := by
      by_cases hfront : front = []
      · subst hfront
        simp [join, weight]
      · rw [if_pos (length_pos_iff.mpr hfront), join_append sep hfront]
        simp [weight, Nat.add_assoc]
    have hjoin : join sep (front ++ segment :: path) =
        join sep (front ++ [segment]) ++ path.flatMap (sep :: ·) := by
      rw [← join_append sep (by simp), append_assoc, singleton_append]
    have hbehind := ih (front ++ [segment])
    rw [append_assoc, singleton_append, length_append, length_singleton] at hbehind
    simp only [offsetsFrom]
    rw [hoffset, map_cons, hbehind, prefixes_cons, map_cons, map_map, hjoin,
      takeWeight_append hpos]
    simp [Function.comp_def]

end Mecmcp.Paths
