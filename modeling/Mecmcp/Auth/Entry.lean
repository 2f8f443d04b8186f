import Mecmcp.Lib.Check
import Mecmcp.Lib.Json
import Mecmcp.Lib.Text

/-!
# Entry — scopes, token entries and the token store

`scope.rs`, `grant.rs`, `entry.rs` and `store.rs` of the auth crate: what one entry of
`tokens.json` holds and which lists of entries form a store.  The grant type is the vendor's own,
known by its checks and by its serde implementation (`Grant`).
-/

namespace Mecmcp.Auth

open List

/-! ### Scopes -/

/-- Wildcard or literal allowlist for device and tool names. -/
inductive ScopeSet where
  | wildcard
  | allowlist (names : List String)
  deriving DecidableEq

namespace ScopeSet

def allows : ScopeSet → String → Bool
  | .wildcard, _ => true
  | .allowlist names, name => names.any (· == name)

def allowsTool : ScopeSet → String → (writeTools : List String) → Bool
  | .wildcard, name, writeTools => !writeTools.contains name
  | .allowlist names, name, _ => names.any (· == name)

def maxScopeNames : ℕ := 256

/-- The names of an allowlist in turn; `seen` are those before. -/
def validateNames (field : String) (seen : List String) : List String → Except String Unit
  | [] => .ok ()
  | name :: names => do
    refuseIf (name = "*") s!"{field} scope may use '*' only as the sole list entry"
    refuseIf (name.isEmpty ∨ 128 < name.utf8ByteSize ∨ name.toList.contains '\x00')
      s!"{field} scope contains an out-of-range name"
    refuseIf (name ∈ seen) s!"duplicate name '{name}' in {field} scope"
    validateNames field (name :: seen) names

def validate (field : String) : ScopeSet → Except String Unit
  | .wildcard => .ok ()
  | .allowlist names => do
    refuseIf (maxScopeNames < names.length)
      s!"{field} scope contains more than {maxScopeNames} names"
    validateNames field [] names

end ScopeSet

/-! ### Grants -/

/-- A vendor's write authority: its structural check, whether its subjects are targets, and the two
directions of its serde implementation, either of which may refuse. -/
class Grant (G : Type) where
  validate : G → Except String Unit
  subjectsAreTargets : G → Bool
  deserialize : Json → Option G
  serialize : G → Option Json

/-! ### Entries -/

inductive Tier where
  | public_
  | private_
  deriving DecidableEq

inductive ActorType where
  | human
  | agent
  | unknown
  deriving DecidableEq

/-- The fields of an entry other than its grant; times are in nanoseconds. -/
structure TokenFields where
  name : String
  digest : String
  devices : ScopeSet
  tools : ScopeSet
  createdAt : ℤ
  expiresAt : Option ℤ
  provider : Option String
  providerTier : Option Tier
  onBehalfOf : Option String
  actorType : ActorType
  deriving DecidableEq

structure TokenEntry (G : Type) extends TokenFields where
  grant : Option G

/-- Whether a text is blank: `v.trim().is_empty()`. -/
def isBlank (text : String) : Bool := text.toList.all isWhitespace

def maxTokenName : ℕ := 128

inductive EntryError where
  | scope (name source : String)
  | grant (name source : String)
  | invalid (message : String)
  deriving DecidableEq

variable {G : Type} [Grant G]

/-- `TokenEntry::validate`: the first failing check. -/
def TokenEntry.validate (entry : TokenEntry G) : Except EntryError Unit := do
  refuseIf (entry.name.isEmpty ∨ maxTokenName < entry.name.utf8ByteSize)
    (.invalid s!"token name must be 1-{maxTokenName} characters")
  refuseIf (entry.name.toList.contains '\x00' ∨ entry.name.toList.any isWhitespace)
    (.invalid s!"token name '{entry.name}' contains whitespace or a null byte")
  (entry.devices.validate "devices").mapError (.scope entry.name)
  (entry.tools.validate "tools").mapError (.scope entry.name)
  match entry.grant with
  | some grant => (Grant.validate grant).mapError (.grant entry.name)
  | none => .ok ()
  refuseIf (entry.provider.isSome ∧ entry.providerTier.isNone)
    (.invalid s!"token '{entry.name}': provider is set but provider_tier is missing")
  refuseIf (entry.provider.isNone ∧ entry.providerTier.isSome)
    (.invalid s!"token '{entry.name}': provider_tier is set but provider is missing")
  refuseIf (entry.provider.any isBlank)
    (.invalid s!"token '{entry.name}': provider is present but empty")
  refuseIf (entry.onBehalfOf.any isBlank)
    (.invalid s!"token '{entry.name}': on_behalf_of is present but empty")
  refuseIf (entry.provider.isSome ∧ entry.actorType = .human)
    (.invalid s!"token '{entry.name}': provider metadata contradicts actor_type \"human\"")

/-! ### The store -/

inductive StoreError where
  | duplicate (message : String)
  | tooMany (count : ℕ)
  | entry (source : EntryError)
  deriving DecidableEq

def maxTokens : ℕ := 1024

/-- The entries in turn; `seen` are the names before. -/
def validateEntries (seen : List String) : List (TokenEntry G) → Except StoreError Unit
  | [] => .ok ()
  | entry :: entries => do
    entry.validate.mapError .entry
    refuseIf (entry.name ∈ seen) (.duplicate entry.name)
    validateEntries (entry.name :: seen) entries

/-- `TokenStore::try_new`: the entries, if they form a store. -/
def tryNew (entries : List (TokenEntry G)) : Except StoreError (List (TokenEntry G)) := do
  refuseIf (maxTokens < entries.length) (.tooMany entries.length)
  validateEntries [] entries
  return entries

theorem validateEntries_ok {seen : List String} {entries : List (TokenEntry G)} :
    validateEntries seen entries = .ok () ↔ (∀ entry ∈ entries, entry.validate = .ok ()) ∧
      (entries.map (·.name)).Nodup ∧ ∀ entry ∈ entries, entry.name ∉ seen := by
  induction entries generalizing seen with
  | nil => simp [validateEntries]
  | cons entry entries ih =>
    simp only [validateEntries, bind_unit_ok, mapError_ok, refuseIf_ok, ih, mem_cons,
      forall_eq_or_imp, map_cons, nodup_cons, mem_map, not_or, not_exists, not_and]
    constructor
    · rintro ⟨hvalid, hseen, hrest, hnodup, hnames⟩
      exact ⟨⟨hvalid, hrest⟩, ⟨fun e he => (hnames e he).1, hnodup⟩, hseen,
        fun e he => (hnames e he).2⟩
    · rintro ⟨⟨hvalid, hrest⟩, ⟨hname, hnodup⟩, hseen, hnames⟩
      exact ⟨hvalid, hseen, hrest, hnodup, fun e he => ⟨hname e he, hnames e he⟩⟩

theorem tryNew_iff {entries store : List (TokenEntry G)} :
    tryNew entries = .ok store ↔ store = entries ∧ entries.length ≤ maxTokens ∧
      (∀ entry ∈ entries, entry.validate = .ok ()) ∧ (entries.map (·.name)).Nodup := by
  unfold tryNew
  simp only [bind_unit_ok, refuseIf_ok, validateEntries_ok, pure, Except.pure, Except.ok.injEq,
    not_lt, not_mem_nil, not_false_eq_true, implies_true, and_true]
  constructor
  · rintro ⟨hlength, ⟨hvalid, hnodup⟩, rfl⟩
    exact ⟨rfl, hlength, hvalid, hnodup⟩
  · rintro ⟨rfl, hlength, hvalid, hnodup⟩
    exact ⟨hlength, ⟨hvalid, hnodup⟩, rfl⟩

theorem tryNew_ok {entries store : List (TokenEntry G)} (h : tryNew entries = .ok store) :
    store = entries :=
  (tryNew_iff.mp h).1

end Mecmcp.Auth
