import Mecmcp.Auth.TokenFile

/-!
# Admin — what a mutation of the token file depends on and what it changes

`rotate` and `revoke` check the references of the whole store they are about to write, so a name
that has left the inventory in one entry stops both for every other entry.  What a mutation writes
is to differ from what it read in the one entry it is about (`Mutation.LeavesOthers`).
-/

namespace Mecmcp.Auth

open List

section
variable {G : Type} [Grant G]
variable {entries : List (TokenEntry G)} {known : KnownNames} {digest : String}

/-! ### References -/

/-- Every name the entry's scopes list is known; devices only if those are given. -/
def ReferencesKnown (known : KnownNames) (entry : TokenEntry G) : Prop :=
  (∀ devices knownDevices, entry.devices = .allowlist devices →
    known.devices = some knownDevices → ∀ device ∈ devices, device ∈ knownDevices) ∧
  ∀ tools, entry.tools = .allowlist tools → ∀ tool ∈ tools, tool ∈ known.tools

omit [Grant G] in
theorem validateReferences_ok {entry : TokenEntry G} :
    validateReferences known entry = .ok () ↔ ReferencesKnown known entry := by
  cases hdevices : entry.devices <;> cases hknown : known.devices <;>
    cases htools : entry.tools <;>
    simp [validateReferences, ReferencesKnown, hdevices, hknown, htools]

/-! ### What is written -/

namespace Mutation

/-- The fields that a mutation is documented to change, put back to what they were. -/
def restore : Mutation G → (before after : TokenEntry G) → TokenEntry G
  | .rotate _ _ _, before, after => { after with digest := before.digest }
  | .setScopes _ devices tools grant _, before, after => { after with
      devices := if devices.isSome then before.devices else after.devices
      tools := if tools.isSome then before.tools else after.tools
      grant := if grant.isSome then before.grant else after.grant }
  | .setProvenance _ _ _ _ _, before, after => { after with
      provider := before.provider, providerTier := before.providerTier
      onBehalfOf := before.onBehalfOf, actorType := before.actorType }
  | _, _, after => after

def name : Mutation G → String
  | .add entry _ => entry.name
  | .rotate name _ _ => name
  | .setScopes name _ _ _ _ => name
  | .setProvenance name _ _ _ _ => name
  | .revoke name _ => name

/-- All other entries are as they were, in their order, and of the entry the mutation is about all
fields but the documented ones. -/
def LeavesOthers (mutation : Mutation G) (before after : List (TokenEntry G)) : Prop :=
  match mutation with
  | .add _ _ => ∃ added, after = before ++ [added]
  | .revoke name _ => after = before.filter (·.name != name)
  | _ => List.Forall₂ (fun entry entry' => if entry.name = mutation.name
      then mutation.restore entry entry' = entry else entry' = entry) before after

end Mutation

variable {name : String}

/-! ### When a rotation or a revocation succeeds -/

theorem tryNew_rotated (h : tryNew entries = .ok entries) :
    tryNew (updateEntry name ({ · with digest }) entries) =
      .ok (updateEntry name ({ · with digest }) entries) := by
  obtain ⟨-, hlength, hvalid, hnodup⟩ := tryNew_iff.mp h
  refine tryNew_iff.mpr ⟨rfl, by rwa [updateEntry, length_map], ?_, ?_⟩
  · intro entry hentry
    obtain ⟨before, hbefore, rfl⟩ := mem_map.mp hentry
    -- no check reads the digest
    split_ifs
    · exact hvalid before hbefore
    · exact hvalid before hbefore
  · have hnames : (updateEntry name ({ · with digest }) entries).map (·.name) =
        entries.map (·.name) := by
      rw [updateEntry, map_map]
      refine map_congr_left fun entry _ => ?_
      simp only [Function.comp_apply]
      split_ifs <;> rfl
    rwa [hnames]

theorem tryNew_filter {p : TokenEntry G → Bool}
    (h : tryNew entries = .ok entries) : tryNew (entries.filter p) = .ok (entries.filter p) := by
  obtain ⟨-, hlength, hvalid, hnodup⟩ := tryNew_iff.mp h
  refine tryNew_iff.mpr ⟨rfl, (length_filter_le _ _).trans hlength,
    fun entry hentry => hvalid entry (mem_of_mem_filter hentry), ?_⟩
  exact hnodup.sublist ((filter_sublist).map _)

omit [Grant G] in
theorem referencesKnown_rotated {name digest : String} {known : KnownNames}
    {entries : List (TokenEntry G)} :
    (∀ entry ∈ updateEntry name ({ · with digest }) entries, ReferencesKnown known entry) ↔
      ∀ entry ∈ entries, ReferencesKnown known entry := by
  unfold updateEntry
  rw [forall_mem_map]
  refine forall₂_congr fun entry _ => ?_
  split_ifs <;> rfl

theorem rotate_succeeds_iff (hstore : tryNew entries = .ok entries)
    (hname : ∃ entry ∈ entries, entry.name = name) :
    (∃ written, (Mutation.rotate name digest known).run entries = .ok (some written)) ↔
      ∀ entry ∈ entries, ReferencesKnown known entry := by
  have hexists : refuseMissing name entries = .ok () := by
    simpa [refuseMissing] using hname
  have hrun : (Mutation.rotate name digest known).run entries =
      (checkAll (validateReferences known) (updateEntry name ({ · with digest }) entries) >>=
        fun _ => .ok (some (updateEntry name ({ · with digest }) entries))) := by
    simp only [Mutation.run, hexists, tryNew_rotated hstore]
    rfl
  rw [hrun, ← @referencesKnown_rotated G name digest]
  simp only [bind_unit_ok, checkAll_ok, validateReferences_ok, Except.ok.injEq, Option.some.injEq]
  constructor
  · rintro ⟨_, h, _⟩
    exact h
  · exact fun h => ⟨_, h, rfl⟩

theorem revoke_succeeds_iff (hstore : tryNew entries = .ok entries)
    (hname : ∃ entry ∈ entries, entry.name = name) :
    (∃ written, (Mutation.revoke name known).run entries = .ok (some written)) ↔
      ∀ entry ∈ entries, entry.name ≠ name → ReferencesKnown known entry := by
  have hremoved : ¬(entries.filter (·.name != name)).length = entries.length := by
    intro hlength
    obtain ⟨entry, hentry, heq⟩ := hname
    have hall := length_filter_eq_length_iff.mp hlength entry hentry
    simp [heq] at hall
  have hrun : (Mutation.revoke name known).run entries =
      (checkAll (validateReferences known) (entries.filter (·.name != name)) >>=
        fun _ => .ok (some (entries.filter (·.name != name)))) := by
    simp only [Mutation.run, hremoved, if_false, tryNew_filter hstore]
    rfl
  rw [hrun]
  simp only [bind_unit_ok, checkAll_ok, validateReferences_ok, Except.ok.injEq, Option.some.injEq,
    mem_filter, bne_iff_ne, and_imp]
  constructor
  · rintro ⟨_, h, _⟩
    exact h
  · exact fun h => ⟨_, h, rfl⟩

end

/-- Alice's token names a tool, Bob's has no allowlist. -/
def twoEntries : List (TokenEntry ActionsGrant) :=
  [{ aliceFields with tools := .allowlist ["get_facts"], grant := none },
    { aliceFields with name := "bob", grant := none }]

end Mecmcp.Auth
