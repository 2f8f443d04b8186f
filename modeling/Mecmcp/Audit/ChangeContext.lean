import Mathlib

/-!
# ChangeContext — what the recorder remembers of a proposal

The recorder keeps the context of a proposed change for the records that follow it: a map by
change-set id, and a queue of the ids for the eviction of the oldest.  The records themselves are
not part of this module; what a call does to the two is.
-/

namespace Mecmcp.Audit

open List

def maxTrackedChanges : ℕ := 1024

structure ChangeContext where
  deviceId : String
  principal : String
  diffHash : String

/-- `context` and `context_order` of the recorder's state. -/
structure ContextIndex where
  context : AList fun _ : String => ChangeContext
  order : List String

/-- A call of the recorder, with what decides about the index. -/
inductive RecorderCall where
  | proposal (changesetId : String) (context : ChangeContext)
  | approval (changesetId decision : String)
  | approvalWaived (changesetId : String)
  | applyIntent (changesetId : String)
  | resultReceipt (changesetId : String)

namespace ContextIndex

def empty : ContextIndex := ⟨∅, []⟩

/-- The eviction loop of `remember`. -/
def evict : List String → AList (fun _ : String => ChangeContext) → ContextIndex
  | [], context => ⟨context, []⟩
  | oldest :: order, context =>
    if maxTrackedChanges ≤ context.keys.length then evict order (context.erase oldest)
    else ⟨context, oldest :: order⟩

def remember (index : ContextIndex) (changesetId : String) (context : ChangeContext) :
    ContextIndex :=
  if changesetId ∈ index.context then
    { index with context := index.context.insert changesetId context }
  else
    let index := evict index.order index.context
    ⟨index.context.insert changesetId context, index.order ++ [changesetId]⟩

def forget (index : ContextIndex) (changesetId : String) : ContextIndex :=
  if changesetId ∈ index.context then
    ⟨index.context.erase changesetId, index.order.filter (· ≠ changesetId)⟩
  else index

def step (index : ContextIndex) : RecorderCall → ContextIndex
  | .proposal changesetId context => index.remember changesetId context
  | .approval changesetId decision =>
    if decision ≠ "approved" then index.forget changesetId else index
  | .approvalWaived _ => index
  | .applyIntent _ => index
  | .resultReceipt changesetId => index.forget changesetId

/-- The index after some calls, the latest first. -/
def run : List RecorderCall → ContextIndex
  | [] => empty
  | call :: calls => (run calls).step call

/-! ### The map and the queue -/

/-- The queue lists the keys of the map, and there are not too many. -/
structure Consistent (index : ContextIndex) : Prop where
  perm : index.context.keys.Perm index.order
  bounded : index.order.length ≤ maxTrackedChanges

variable {index : ContextIndex} {id oldest : String} {rest : List String}

section
variable (h : index.Consistent)
include h

theorem Consistent.mem (id : String) : id ∈ index.order ↔ id ∈ index.context :=
  h.perm.mem_iff.symm.trans AList.mem_keys

theorem Consistent.nodup : index.order.Nodup :=
  h.perm.nodup_iff.mp index.context.keys_nodup

theorem Consistent.forget (id : String) :
    (index.forget id).Consistent ∧ (index.forget id).order.Sublist index.order := by
  unfold ContextIndex.forget
  split_ifs with hid
  · refine ⟨⟨?_, (length_filter_le ..).trans h.bounded⟩, filter_sublist⟩
    have herase : index.order.filter (· ≠ id) = index.order.erase id := by
      rw [h.nodup.erase_eq_filter]
      exact filter_congr fun other _ => by by_cases heq : other = id <;> simp [heq]
    rw [AList.keys_erase, herase]
    exact h.perm.erase id
  · exact ⟨h, .refl _⟩

/-- On a full index the loop runs once. -/
theorem Consistent.evict_full (horder : index.order = oldest :: rest)
    (hfull : index.order.length = maxTrackedChanges) :
    evict index.order index.context = ⟨index.context.erase oldest, rest⟩ ∧
      Consistent ⟨index.context.erase oldest, rest⟩ := by
  have hperm : (index.context.erase oldest).keys.Perm rest := by
    simpa [AList.keys_erase, horder] using h.perm.erase oldest
  rw [horder, length_cons] at hfull
  refine ⟨?_, hperm, by dsimp only; omega⟩
  rw [horder, evict, h.perm.length_eq, horder, length_cons, if_pos hfull.ge]
  cases rest with
  | nil => rfl
  | cons next rest => rw [evict, hperm.length_eq, if_neg (by omega)]

theorem Consistent.evict_short (hshort : index.order.length < maxTrackedChanges) :
    evict index.order index.context = index := by
  have hkeys := h.perm.length_eq
  obtain ⟨context, order⟩ := index
  cases order with
  | nil => rfl
  | cons oldest order => rw [evict, if_neg (by omega)]

theorem Consistent.append (hid : id ∉ index.order)
    (hshort : index.order.length < maxTrackedChanges) (context : ChangeContext) :
    Consistent ⟨index.context.insert id context, index.order ++ [id]⟩ := by
  refine ⟨?_, by rwa [length_append]⟩
  rw [AList.keys_insert, erase_of_not_mem fun hmem => hid (h.perm.mem_iff.mp hmem)]
  exact (h.perm.cons id).trans (perm_append_singleton ..).symm

/-- A proposal of a new id: behind the others, or behind all but the oldest. -/
theorem Consistent.remember (hid : id ∉ index.context) (context : ChangeContext) :
    (index.remember id context).Consistent ∧
      (index.remember id context).order = (if index.order.length = maxTrackedChanges then
        index.order.tail else index.order) ++ [id] := by
  have hnew : id ∉ index.order := fun hmem => hid ((h.mem id).mp hmem)
  unfold ContextIndex.remember
  rw [if_neg hid]
  split_ifs with hfull
  · obtain ⟨oldest, rest, horder⟩ : ∃ oldest rest, index.order = oldest :: rest :=
      exists_cons_of_length_pos (by rw [hfull]; decide)
    obtain ⟨hevict, hrest⟩ := h.evict_full horder hfull
    rw [hevict, horder]
    rw [horder] at hnew hfull
    exact ⟨hrest.append (fun hmem => hnew (.tail _ hmem)) (by rw [← hfull]; simp) context, rfl⟩
  · have hshort := lt_of_le_of_ne h.bounded hfull
    rw [h.evict_short hshort]
    exact ⟨h.append hnew hshort context, rfl⟩

/-- What a call does to the queue: ids leave it, and a proposal may add its own. -/
theorem Consistent.step (call : RecorderCall) :
    (index.step call).Consistent ∧ ∃ kept, kept.Sublist index.order ∧
      ((index.step call).order = kept ∨ ∃ id context, call = .proposal id context ∧
        id ∉ index.context ∧ (index.step call).order = kept ++ [id]) := by
  cases call with
  | proposal id context =>
    by_cases hid : id ∈ index.context
    · rw [ContextIndex.step, ContextIndex.remember, if_pos hid]
      refine ⟨⟨?_, h.bounded⟩, _, .refl _, .inl rfl⟩
      rw [AList.keys_insert]
      exact (perm_cons_erase (AList.mem_keys.mp hid)).symm.trans h.perm
    · obtain ⟨hconsistent, horder⟩ := h.remember hid context
      refine ⟨hconsistent, _, ?_, .inr ⟨id, context, rfl, hid, horder⟩⟩
      split_ifs
      · exact tail_sublist _
      · exact .refl _
  | approval id decision =>
    rw [ContextIndex.step]
    split_ifs
    · exact ⟨(h.forget id).1, _, (h.forget id).2, .inl rfl⟩
    · exact ⟨h, _, .refl _, .inl rfl⟩
  | approvalWaived | applyIntent => exact ⟨h, _, .refl _, .inl rfl⟩
  | resultReceipt id => exact ⟨(h.forget id).1, _, (h.forget id).2, .inl rfl⟩

end

/-! ### Runs -/

theorem run_consistent (calls : List RecorderCall) : (run calls).Consistent := by
  induction calls with
  | nil => exact ⟨.nil, Nat.zero_le _⟩
  | cons call calls ih => exact (ih.step call).1

/-- The index can be as full as it may. -/
theorem exists_run {n : ℕ} (hn : n ≤ maxTrackedChanges) (context : ChangeContext) :
    ∃ calls, (run calls).order.length = n := by
  induction n with
  | zero => exact ⟨[], rfl⟩
  | succ n ih =>
    obtain ⟨calls, hlen⟩ := ih (by omega)
    have : Infinite String := .of_injective (fun n => String.ofList (replicate n 'a'))
      fun m n h => by simpa using congrArg String.length h
    obtain ⟨id, hid⟩ := Infinite.exists_notMem_finset (run calls).order.toFinset
    rw [mem_toFinset, (run_consistent calls).mem] at hid
    refine ⟨.proposal id context :: calls, ?_⟩
    rw [run, ContextIndex.step, ((run_consistent calls).remember hid context).2,
      if_neg (by omega), length_append, hlen, length_singleton]

/-- The number of the call with which the id came into the index. -/
def enteredAt (id : String) : (calls : List RecorderCall) → ℕ
  | [] => 0
  | _ :: calls => if id ∈ (run calls).context then enteredAt id calls else calls.length

/-- That call is a proposal of the id. -/
theorem run_entered {calls : List RecorderCall} (h : id ∈ (run calls).order) :
    ∃ later context earlier, calls = later ++ .proposal id context :: earlier ∧
      id ∉ (run earlier).context ∧ enteredAt id calls = earlier.length := by
  induction calls with
  | nil => cases h
  | cons call calls ih =>
    rw [enteredAt]
    split_ifs with hid
    · obtain ⟨later, context, earlier, rfl, hentered⟩ := ih (((run_consistent calls).mem id).mpr hid)
      exact ⟨call :: later, context, earlier, rfl, hentered⟩
    · obtain ⟨-, kept, hkept, horder⟩ := (run_consistent calls).step call
      have hnew : id ∉ kept := fun hmem =>
        hid (((run_consistent calls).mem id).mp (hkept.subset hmem))
      obtain horder | ⟨other, context, rfl, -, horder⟩ := horder <;> rw [run, horder] at h
      · exact absurd h hnew
      · obtain rfl := mem_singleton.mp ((mem_append.mp h).resolve_left hnew)
        exact ⟨[], context, calls, rfl, hid, rfl⟩

theorem run_sorted (calls : List RecorderCall) :
    (run calls).order.Pairwise fun a b => enteredAt a calls < enteredAt b calls := by
  induction calls with
  | nil => exact .nil
  | cons call calls ih =>
    obtain ⟨-, kept, hkept, horder⟩ := (run_consistent calls).step call
    have hsame : ∀ id ∈ kept, enteredAt id (call :: calls) = enteredAt id calls := fun id hid =>
      if_pos (((run_consistent calls).mem id).mp (hkept.subset hid))
    have hpairs := (ih.sublist hkept).imp_of_mem fun ha hb hlt => by
      rwa [← hsame _ ha, ← hsame _ hb] at hlt
    obtain horder | ⟨id, context, rfl, hid, horder⟩ := horder <;> rw [run, horder]
    · exact hpairs
    · -- the new id is behind all that are kept
      refine pairwise_append.mpr ⟨hpairs, pairwise_singleton _ _, fun a ha b hb => ?_⟩
      obtain rfl := mem_singleton.mp hb
      obtain ⟨later, _, earlier, hcalls, -, hentered⟩ := run_entered (hkept.subset ha)
      rw [hsame a ha, hentered, enteredAt, if_neg hid, hcalls, length_append, length_cons]
      omega

end ContextIndex

open ContextIndex in
/-- **The change-context index.**  After any calls the queue and the map have the same ids, each
once, in the order of the proposals with which they came in, and at most `MAX_TRACKED_CHANGES`.  A
proposal of an id that is there leaves the queue as it is; one of another id evicts the oldest of a
full index and nothing else. -/
theorem context_index_consistent (calls : List RecorderCall) :
    (∀ id, id ∈ (run calls).order ↔ id ∈ (run calls).context) ∧ (run calls).order.Nodup ∧
      (run calls).order.Pairwise (fun a b => enteredAt a calls < enteredAt b calls) ∧
      (∀ id ∈ (run calls).order, ∃ later context earlier,
        calls = later ++ .proposal id context :: earlier ∧ id ∉ (run earlier).context ∧
          enteredAt id calls = earlier.length) ∧
      (run calls).context.keys.length ≤ maxTrackedChanges ∧
      ∀ id context,
        (id ∈ (run calls).context →
          (run (.proposal id context :: calls)).order = (run calls).order) ∧
        (id ∉ (run calls).context → (run calls).context.keys.length = maxTrackedChanges →
          ∃ oldest rest, (run calls).order = oldest :: rest ∧
            (run (.proposal id context :: calls)).order = rest ++ [id]) := by
  have h := run_consistent calls
  rw [h.perm.length_eq]
  refine ⟨h.mem, h.nodup, run_sorted calls, fun id => run_entered, h.bounded, fun id context =>
    ⟨fun hid => ?_, fun hid hfull => ?_⟩⟩
  · rw [run, ContextIndex.step, ContextIndex.remember, if_pos hid]
  · obtain ⟨oldest, rest, horder⟩ : ∃ oldest rest, (run calls).order = oldest :: rest :=
      exists_cons_of_length_pos (by rw [hfull]; decide)
    refine ⟨oldest, rest, horder, ?_⟩
    rw [run, ContextIndex.step, (h.remember hid context).2, if_pos hfull, horder, tail_cons]

/-- A proposal of an id that is tracked already evicts nothing from a full index. -/
theorem reproposal_evicts_nothing : ∃ calls id context,
    (ContextIndex.run calls).context.keys.length = maxTrackedChanges ∧
      (ContextIndex.run (.proposal id context :: calls)).order =
        (ContextIndex.run calls).order := by
  obtain ⟨calls, hlen⟩ := ContextIndex.exists_run le_rfl ⟨"", "", ""⟩
  have h := ContextIndex.run_consistent calls
  obtain ⟨id, hid⟩ := exists_mem_of_length_pos (hlen.trans_gt (by decide))
  refine ⟨calls, id, ⟨"", "", ""⟩, h.perm.length_eq.trans hlen, ?_⟩
  rw [ContextIndex.run, ContextIndex.step, ContextIndex.remember, if_pos ((h.mem id).mp hid)]

end Mecmcp.Audit
