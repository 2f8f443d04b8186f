import Mathlib.Data.List.Permutation
import Mecmcp.Auth.Admin
import Mecmcp.Lib.ReadReplace

/-!
# Concurrent — several administrators of one token file

The mutators of `file.rs` read the file, compute the new entries and rename a new file over it;
nothing is locked in between.  The file is its entries and version, or absent, and a run is a
mutation in the sense of `Mecmcp.Lib.ReadReplace`.  A run that returns between the read and the
rename of another loses its update (`concurrent_administration_serial_iff`).
-/

namespace Mecmcp.Auth

open List

section
variable {G : Type} [Grant G]

abbrev TokenFileContent (G : Type) : Type := Option (List (TokenEntry G) × UInt32)

inductive AdminError where
  | missing
  | refused (source : FileError)

def Mutation.rewrite (mutation : Mutation G) (entries : List (TokenEntry G)) (version : UInt32) :
    Except AdminError (Option (TokenFileContent G)) :=
  match mutation.run entries with
  | .ok written => .ok (written.map fun entries => some (entries, version))
  | .error error => .error (.refused error)

/-- A mutation from the content of the file; only `add` goes on where there is none. -/
def Mutation.administer (mutation : Mutation G) :
    TokenFileContent G → Except AdminError (Option (TokenFileContent G))
  | some (entries, version) => mutation.rewrite entries version
  | none =>
    match mutation with
    | .add _ _ => mutation.rewrite [] defaultStoreVersion
    | _ => .error .missing

/-! ### Two tokens added from the same content -/

def plainEntry (name : String) : TokenEntry G := { aliceFields with name, grant := none }

def addPlain (name : String) : Mutation G := .add (plainEntry name) ⟨none, []⟩

theorem administer_nameless (content : TokenFileContent G) :
    ∃ error, (addPlain "").administer content = .error error := by
  have hrefused : ∀ entries : List (TokenEntry G),
      ∃ error, (addPlain "").run entries = .error error := by
    intro entries
    cases hrun : (addPlain "" : Mutation G).run entries with
    | error error => exact ⟨error, rfl⟩
    | ok written =>
      simp only [addPlain, Mutation.run, bind_ok, mapError_ok] at hrun
      obtain ⟨-, -, updated, hnew, -⟩ := hrun
      have hvalid := (tryNew_iff.mp hnew).2.2.1 (plainEntry "") (by simp)
      exact absurd hvalid (by simp [TokenEntry.validate, plainEntry])
  have hrewrite : ∀ entries version,
      ∃ error, (addPlain "" : Mutation G).rewrite entries version = .error error := by
    intro entries version
    obtain ⟨error, herror⟩ := hrefused entries
    exact ⟨.refused error, by rw [Mutation.rewrite, herror]⟩
  cases content with
  | none => exact hrewrite [] defaultStoreVersion
  | some content => exact hrewrite content.1 content.2

theorem plainEntry_valid {name : String} (hlength : name.isEmpty = false ∧ name.utf8ByteSize ≤ 128)
    (hchars : name.toList.contains '\x00' = false ∧ name.toList.any isWhitespace = false) :
    (plainEntry name : TokenEntry G).validate = .ok () := by
  simp only [TokenEntry.validate, plainEntry, aliceFields, ScopeSet.validate, bind_unit_ok,
    refuseIf_ok, mapError_ok, maxTokenName, hlength, hchars, Bool.false_eq_true, Option.isSome_none,
    Option.any_none, not_or, not_lt, not_false_eq_true, false_and, and_true, true_and]
  simp

theorem administer_addPlain {name : String} {entries : List (TokenEntry G)} {version : UInt32}
    (hnew : tryNew (entries ++ [plainEntry name]) = .ok (entries ++ [plainEntry name]))
    (hplain : ∀ entry ∈ entries, ∃ other, entry = plainEntry other) :
    (addPlain name).rewrite entries version =
      .ok (some (some (entries ++ [plainEntry name], version))) := by
  have hrun : (addPlain name).run entries = .ok (some (entries ++ [plainEntry name])) := by
    have hnodup := (tryNew_iff.mp hnew).2.2.2
    simp only [addPlain, Mutation.run, bind_ok, mapError_ok, validateScopeAgreement, pure,
      Except.pure, Except.ok.injEq, Option.some.injEq]
    refine ⟨(), refuseIf_ok.mpr ?_, _, hnew, (),
      checkAll_ok.mpr fun entry hentry => validateReferences_ok.mpr ?_, (), refuseIf_ok.mpr ?_, rfl⟩
    · intro hany
      obtain ⟨entry, hentry, heq⟩ := any_eq_true.mp hany
      rw [map_append] at hnodup
      exact disjoint_of_nodup_append hnodup (mem_map_of_mem hentry)
        (by simpa using beq_iff_eq.mp heq)
    · -- a plain entry names nothing
      have hplain' : ∃ other, entry = plainEntry other := by
        rcases mem_append.mp hentry with hentry | hentry
        · exact hplain entry hentry
        · exact ⟨name, mem_singleton.mp hentry⟩
      obtain ⟨other, rfl⟩ := hplain'
      simp [ReferencesKnown, plainEntry, aliceFields]
    · simp [plainEntry]
  rw [Mutation.rewrite, hrun]
  rfl

theorem plainEntries_valid {names : List String} (h : names ⊆ ["a", "b"]) (hnodup : names.Nodup) :
    tryNew (names.map plainEntry) = .ok (names.map plainEntry : List (TokenEntry G)) := by
  refine tryNew_iff.mpr ⟨rfl, ?_, ?_, ?_⟩
  · have hlength := (subperm_of_subset hnodup h).length_le
    rw [length_map]
    exact hlength.trans (by decide)
  · intro entry hentry
    obtain ⟨name, hname, rfl⟩ := mem_map.mp hentry
    have hmem := h hname
    simp only [mem_cons, not_mem_nil, or_false] at hmem
    rcases hmem with rfl | rfl
    · exact plainEntry_valid (by decide) (by decide)
    · exact plainEntry_valid (by decide) (by decide)
  · rw [map_map]
    exact (map_id names).symm ▸ hnodup

section
variable {ι : Type} [DecidableEq ι]

/-- Run `i` adds one token and run `j` another; no other run succeeds. -/
def twoAdds (i j : ι) (k : ι) : Mutation G :=
  if k = i then addPlain "a" else if k = j then addPlain "b" else addPlain ""

theorem not_serializable_of_disturbed {before first second after : List (RunEvent ι)} {i j : ι}
    (hcomplete : RunEvent.Complete
      ((before ++ .read i :: first) ++ .replace j :: (second ++ .replace i :: after))) :
    ¬ Serializable (fun k => (twoAdds i j k : Mutation G).administer) none
      ((before ++ .read i :: first) ++ .replace j :: (second ++ .replace i :: after)) := by
  have hadd : ∀ {name : String} {names : List String}, (names ++ [name]) ⊆ ["a", "b"] →
      (names ++ [name]).Nodup → (addPlain name : Mutation G).rewrite (names.map plainEntry) 1 =
        .ok (some (some ((names ++ [name]).map plainEntry, 1))) := by
    intro name names hnames hnodup
    rw [map_append]
    refine administer_addPlain ?_ ?_
    · simpa using plainEntries_valid hnames hnodup
    · intro entry hentry
      obtain ⟨other, -, rfl⟩ := mem_map.mp hentry
      exact ⟨other, rfl⟩
  have ha : (addPlain "a" : Mutation G).administer none =
      .ok (some (some ([plainEntry "a"], 1))) := @hadd "a" [] (by simp) (by simp)
  have hb : (addPlain "b" : Mutation G).administer none =
      .ok (some (some ([plainEntry "b"], 1))) := @hadd "b" [] (by simp) (by simp)
  have hne := hcomplete.ne
  have hi : (twoAdds i j i : Mutation G) = addPlain "a" := if_pos rfl
  have hj : (twoAdds i j j : Mutation G) = addPlain "b" := by
    rw [twoAdds, if_neg hne.symm, if_pos rfl]
  have hothers : ∀ k, k ≠ i → k ≠ j → ∀ content,
      ∃ error, (twoAdds i j k : Mutation G).administer content = .error error := by
    intro k hki hkj content
    rw [twoAdds, if_neg hki, if_neg hkj]
    exact administer_nameless content
  obtain ⟨hcontent, hsucceeded⟩ := runSchedule_disturbed
    (f := fun k => (twoAdds i j k : Mutation G).administer) hcomplete
    ((congrArg (Mutation.administer · none) hi).trans ha)
    ((congrArg (Mutation.administer · none) hj).trans hb) hothers
  rintro ⟨order, hperm, hsequential⟩
  rw [hsucceeded] at hperm
  rw [hcontent] at hsequential
  -- in either order the second token is added to the file of the first
  have hab : (addPlain "b" : Mutation G).administer (some ([plainEntry "a"], 1)) =
      .ok (some (some ([plainEntry "a", plainEntry "b"], 1))) :=
    @hadd "b" ["a"] (by simp) (by simp)
  have hba : (addPlain "a" : Mutation G).administer (some ([plainEntry "b"], 1)) =
      .ok (some (some ([plainEntry "b", plainEntry "a"], 1))) :=
    @hadd "a" ["b"] (by simp) (by simp)
  rcases perm_pair.mp hperm with rfl | rfl
  · simp [runSequential, hi, hj, hb, hba, contentAfter] at hsequential
  · simp [runSequential, hi, hj, ha, hab, contentAfter] at hsequential

/-- Over every schedule in which each run reads once and then returns: the file is that of the
successful runs one after another, whatever the runs and the file are, exactly if no run returns
between the read and the return of another. -/
theorem concurrent_administration_serial_iff (schedule : List (RunEvent ι))
    (hcomplete : RunEvent.Complete schedule) :
    (∀ (mutations : ι → Mutation G) (content : TokenFileContent G),
      Serializable (fun i => (mutations i).administer) content schedule) ↔
      RunEvent.Undisturbed schedule := by
  constructor
  · intro hserial before between after i j hschedule hmem
    obtain ⟨first, second, rfl⟩ := append_of_mem hmem
    have hsplit : schedule = (before ++ .read i :: first) ++
        .replace j :: (second ++ .replace i :: after) := by
      rw [hschedule]
      simp
    rw [hsplit] at hcomplete hserial
    exact not_serializable_of_disturbed hcomplete (hserial (twoAdds i j) none)
  · intro hundisturbed mutations content
    exact serializable_of_undisturbed hcomplete hundisturbed

end

end

/-! ### Two administrators -/

/-- One administrator after the other. -/
def oneByOne : List (RunEvent ℕ) := [.read 0, .replace 0, .read 1, .replace 1]

theorem oneByOne_serial :
    RunEvent.Complete oneByOne ∧ ∀ (mutations : ℕ → Mutation ActionsGrant) content,
      Serializable (fun i => (mutations i).administer) content oneByOne := by
  have hcomplete : RunEvent.Complete oneByOne := by
    intro i
    rcases i with _ | _ | i <;> simp [oneByOne, RunEvent.run]
  refine ⟨hcomplete, (concurrent_administration_serial_iff oneByOne hcomplete).mpr ?_⟩
  intro before between after i j hsplit hmem
  -- the read is the first or the third event, and its return the next one
  rcases before with _ | ⟨_, _ | ⟨_, _ | ⟨_, _ | ⟨_, before⟩⟩⟩⟩ <;>
    rcases between with _ | ⟨_, _ | ⟨_, _ | ⟨_, between⟩⟩⟩ <;> simp [oneByOne] at hsplit hmem
  omega

/-- The second administrator returns between the read and the rename of the first. -/
def overtaken : List (RunEvent ℕ) := [.read 0, .read 1, .replace 1, .replace 0]

/-- The first rotates Bob's token, the second revokes Alice's. -/
def rotateAndRevoke (i : ℕ) : Mutation ActionsGrant :=
  if i = 0 then .rotate "bob" "new" ⟨none, ["get_facts"]⟩ else .revoke "alice" ⟨none, ["get_facts"]⟩

/-- Of two tokens added at once one is lost; and Alice's token, whose revocation succeeded, is still
in the file. -/
theorem overtaken_update_lost :
    RunEvent.Complete overtaken ∧
    ¬ Serializable (fun i => (twoAdds 0 1 i : Mutation ActionsGrant).administer) none overtaken ∧
    (runSchedule (fun i => (rotateAndRevoke i).administer) (some (twoEntries, 1))
      overtaken).succeeded = [1, 0] ∧
    ∃ entries version, (runSchedule (fun i => (rotateAndRevoke i).administer)
      (some (twoEntries, 1)) overtaken).content = some (entries, version) ∧
        ∃ entry ∈ entries, entry.name = "alice" := by
  have hcomplete : RunEvent.Complete overtaken := by
    intro i
    rcases i with _ | _ | i <;> simp [overtaken, RunEvent.run]
  refine ⟨hcomplete, ?_, by rfl, _, _, by rfl, _, mem_cons_self, rfl⟩
  exact @not_serializable_of_disturbed ActionsGrant _ ℕ _ [] [.read 1] [] [] 0 1 hcomplete

end Mecmcp.Auth
