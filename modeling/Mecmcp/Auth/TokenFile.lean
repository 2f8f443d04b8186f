import Mecmcp.Auth.Entry

/-!
# TokenFile — reading and rewriting `tokens.json`

`file.rs` of the auth crate.  `readStore` deserializes the whole file into entries and then compares
each grant of the file with what serializing the parsed grant gives (`firstDroppedKey`), so that a
mutation does not rewrite the file with less than it held.  The comparison reads the raw file by
itself: it looks for the key `grant` of an object, while the derived deserializer also takes the
alias `mutation` and the positional form of both records.

`fromStr` stands for `serde_json`'s parser, `deserializeFields` for the derived deserializer of the
fields other than the grant.
-/

namespace Mecmcp.Auth

open List Option

open Json (getKey asArray)

variable {G : Type} {entry : TokenEntry G}

/-! ### The comparison of two values -/

mutual
/-- First key present in `raw` but gone after a round trip, as a dotted path. -/
def firstDroppedKey : (raw roundTripped : Json) → Option String
  | .obj before, .obj after => firstDroppedMember after before
  | .arr before, .arr after => firstDroppedItem 0 before after
  | _, _ => none

/-- The members in turn, each looked up among those of the other side. -/
def firstDroppedMember (after : List (String × Json)) : List (String × Json) → Option String
  | [] => none
  | (key, value) :: before =>
    match after.lookup key with
    | none => some key
    | some kept =>
      match firstDroppedKey value kept with
      | some nested => some s!"{key}.{nested}"
      | none => firstDroppedMember after before

/-- The items in turn, as far as both sides have them. -/
def firstDroppedItem (index : ℕ) : (before after : List Json) → Option String
  | b :: before, a :: after =>
    match firstDroppedKey b a with
    | some nested => some s!"[{index}].{nested}"
    | none => firstDroppedItem (index + 1) before after
  | _, _ => none
end

/-! ### Reading -/

structure TokenDocument (G : Type) where
  version : UInt32
  tokens : List (TokenEntry G)

inductive FileError where
  | parse
  | store (source : StoreError)
  deriving DecidableEq

def FileError.invalid (message : String) : FileError := .store (.entry (.invalid message))

def defaultStoreVersion : UInt32 := 1

def checkSupportedVersion (version : UInt32) : Except FileError Unit :=
  refuseIf (version ≠ 1 ∧ version ≠ 2)
    (.invalid s!"unsupported store version {version}, supported versions: 1, 2")

/-- What the derived deserializer reads as the grant of an entry: the member `grant` or `mutation`
of an object (two are refused), the seventh element of an array; the inner `none` is a missing
field. -/
def entryGrant : (entry : Json) → Option (Option Json)
  | .obj members =>
    match members.filter fun m => m.1 == "grant" || m.1 == "mutation" with
    | [] => some none
    | [m] => some (some m.2)
    | _ => none
  | .arr items => some items[6]?
  | _ => none

/-- The members of a document: the version, which may be missing, and the tokens. -/
def documentParts : (file : Json) → Option (Option Json × Json)
  | .obj members =>
    match members.filter (·.1 == "version"), members.filter (·.1 == "tokens") with
    | [], [t] => some (none, t.2)
    | [v], [t] => some (some v.2, t.2)
    | _, _ => none
  | .arr [version, tokens] => some (some version, tokens)
  | _ => none

/-- A missing version is the default one. -/
def deserializeVersion : Option Json → Option UInt32
  | none => some defaultStoreVersion
  | some version => Json.asUInt32 version

section Read

variable [Grant G] (deserializeFields : Json → Option TokenFields)

/-- `Option<G>` with its default: a missing or null grant is none. -/
def deserializeGrant : Option Json → Option (Option G)
  | none => some none
  | some .null => some none
  | some value => (Grant.deserialize value).map some

def TokenEntry.deserialize (entry : Json) : Option (TokenEntry G) := do
  let fields ← deserializeFields entry
  let value ← entryGrant entry
  let grant ← deserializeGrant value
  return { fields with grant }

def TokenDocument.deserialize (file : Json) : Option (TokenDocument G) := do
  let parts ← documentParts file
  let version ← deserializeVersion parts.1
  let tokens ← Json.asList (TokenEntry.deserialize deserializeFields) parts.2
  return { version, tokens }

/-- The check of one entry: `rawToken` is its value in the raw file. -/
def checkGrantKept (rawToken : Json) (entry : TokenEntry G) : Except FileError Unit :=
  match getKey "grant" rawToken with
  | none | some .null => .ok ()
  | some rawGrant =>
    match entry.grant with
    | none => .error (.invalid
        s!"token '{entry.name}' carries a grant this build cannot represent;                      refusing to rewrite the file and drop it")
    | some grant =>
      match Grant.serialize grant with
      | none => .error (.invalid s!"token '{entry.name}' grant is not serializable")
      | some roundTripped =>
        match firstDroppedKey rawGrant roundTripped with
        | some field => .error (.invalid <|
            s!"token '{entry.name}' grant has field '{field}' that this build does not                      understand and would discard on the next write. " ++
            "Upgrade the binary,                      or add #[serde(deny_unknown_fields)] to the grant so this fails at                      parse time")
        | none => .ok ()

/-- The entries in turn; a raw token without a parsed one is passed over. -/
def checkGrantsKept : (rawTokens : List Json) → (tokens : List (TokenEntry G)) →
    Except FileError Unit
  | rawToken :: rawTokens, entry :: tokens => do
    checkGrantKept rawToken entry
    checkGrantsKept rawTokens tokens
  | _, _ => .ok ()

/-- Refuse a store holding a grant field this binary would silently drop. -/
def rejectDroppedGrantFields (raw : Value) (document : TokenDocument G) : Except FileError Unit :=
  match (getKey "tokens" raw.tree).bind asArray with
  | none => .ok ()
  | some rawTokens => checkGrantsKept rawTokens document.tokens

variable (fromStr : List UInt8 → Option Json)

/-- `read_store`: the entries and the version of the file. -/
def readStore (body : List UInt8) : Except FileError (List (TokenEntry G) × UInt32) :=
  match fromStr body with
  | none => .error .parse
  | some file =>
    match TokenDocument.deserialize deserializeFields file with
    | none => .error .parse
    | some document => do
      checkSupportedVersion document.version
      rejectDroppedGrantFields (Value.ofJson file) document
      let store ← (tryNew document.tokens).mapError .store
      return (store, document.version)

end Read

/-! ### Mutations -/

/-- The names a token's scopes may refer to; without devices those are not checked. -/
structure KnownNames where
  devices : Option (List String)
  tools : List String

section Mutate

variable [Grant G]

def validateReferences (known : KnownNames) (entry : TokenEntry G) : Except FileError Unit := do
  match entry.devices, known.devices with
  | .allowlist devices, some knownDevices => checkAll (fun device =>
      refuseIf (device ∉ knownDevices)
        (.invalid s!"token '{entry.name}' references unknown device '{device}'")) devices
  | _, _ => .ok ()
  match entry.tools with
  | .allowlist tools => checkAll (fun tool => refuseIf (tool ∉ known.tools)
        (.invalid s!"token '{entry.name}' references unknown tool '{tool}'")) tools
  | .wildcard => .ok ()

def validateScopeAgreement (entry : TokenEntry G) : Except FileError Unit :=
  refuseIf (entry.grant.any Grant.subjectsAreTargets ∧ entry.devices = .wildcard)
    (.invalid <| s!"token '{entry.name}' pairs a wildcard target scope with a grant that names " ++
      "specific targets; narrow the scope to the grant's subjects so both layers agree")

/-- A mutation of the file; a minted digest and time are its arguments. -/
inductive Mutation (G : Type) where
  | add (entry : TokenEntry G) (known : KnownNames)
  | rotate (name digest : String) (known : KnownNames)
  | setScopes (name : String) (devices tools : Option ScopeSet) (grant : Option G)
      (known : KnownNames)
  | setProvenance (name : String) (provider : Option String) (providerTier : Option Tier)
      (onBehalfOf : Option String) (actorType : Option ActorType)
  | revoke (name : String) (known : KnownNames)

def updateEntry (name : String) (change : TokenEntry G → TokenEntry G)
    (entries : List (TokenEntry G)) : List (TokenEntry G) :=
  entries.map fun entry => if entry.name = name then change entry else entry

def refuseMissing (name : String) (entries : List (TokenEntry G)) : Except FileError Unit :=
  refuseIf (¬entries.any (·.name == name)) (.invalid s!"token '{name}' does not exist")

/-- The entries a mutation writes in the place of those read; `none` where it writes nothing. -/
def Mutation.run (entries : List (TokenEntry G)) :
    Mutation G → Except FileError (Option (List (TokenEntry G)))
  | .add entry known => do
    refuseIf (entries.any (·.name == entry.name))
      (.store (.duplicate s!"token '{entry.name}' already exists"))
    let updated ← (tryNew (entries ++ [entry])).mapError .store
    checkAll (validateReferences known) updated
    validateScopeAgreement entry
    return some updated
  | .rotate name digest known => do
    refuseMissing name entries
    let updated ← (tryNew (updateEntry name ({ · with digest }) entries)).mapError .store
    checkAll (validateReferences known) updated
    return some updated
  | .setScopes name devices tools grant known => do
    refuseMissing name entries
    let updated ← (tryNew (updateEntry name (fun entry => { entry with
      devices := devices.getD entry.devices
      tools := tools.getD entry.tools
      grant := grant <|> entry.grant }) entries)).mapError .store
    checkAll (validateReferences known) updated
    checkAll validateScopeAgreement ((updated.find? (·.name == name)).toList)
    return some updated
  | .setProvenance name provider providerTier onBehalfOf actorType => do
    refuseMissing name entries
    let updated ← (tryNew (updateEntry name (fun entry => { entry with
      provider, providerTier, onBehalfOf
      actorType := actorType.getD .unknown }) entries)).mapError .store
    return some updated
  | .revoke name known => do
    let kept := entries.filter (·.name != name)
    if kept.length = entries.length then return none
    let updated ← (tryNew kept).mapError .store
    checkAll (validateReferences known) updated
    return some updated

/-- The mutation names the entry whose grant it is meant to replace or remove. -/
def Mutation.Replaces : Mutation G → String → Prop
  | .setScopes name _ _ (some _) _, token => token = name
  | .revoke name _, token => token = name
  | _, _ => False

end Mutate

/-! ### What a round trip keeps -/

mutual
/-- Every key, at every depth, and every array element of the first value is in the second. -/
def Keeps : (raw roundTripped : Json) → Prop
  | .obj before, w => ∃ after, w = .obj after ∧ KeepsMembers after before
  | .arr before, w => ∃ after, w = .arr after ∧ KeepsItems before after
  | _, _ => True

def KeepsMembers (after : List (String × Json)) : List (String × Json) → Prop
  | [] => True
  | (key, value) :: before =>
    (∃ kept, after.lookup key = some kept ∧ Keeps value kept) ∧ KeepsMembers after before

def KeepsItems : (before after : List Json) → Prop
  | [], _ => True
  | _ :: _, [] => False
  | b :: before, a :: after => Keeps b a ∧ KeepsItems before after
end

mutual
/-- Wherever both values are objects, the second has the keys of the first; of two arrays, this holds
of the items both have. -/
def KeysKept : (raw roundTripped : Json) → Prop
  | .obj before, .obj after => KeysKeptMembers after before
  | .arr before, .arr after => KeysKeptItems before after
  | _, _ => True

def KeysKeptMembers (after : List (String × Json)) : List (String × Json) → Prop
  | [] => True
  | (key, value) :: before =>
    (∃ kept, after.lookup key = some kept ∧ KeysKept value kept) ∧ KeysKeptMembers after before

def KeysKeptItems : (before after : List Json) → Prop
  | b :: before, a :: after => KeysKept b a ∧ KeysKeptItems before after
  | _, _ => True
end

mutual
theorem firstDroppedKey_eq_none : ∀ raw roundTripped : Json,
    firstDroppedKey raw roundTripped = none ↔ KeysKept raw roundTripped
  | .obj before, .obj after => by
    rw [firstDroppedKey, KeysKept]
    exact firstDroppedMember_eq_none after before
  | .arr before, .arr after => by
    rw [firstDroppedKey, KeysKept]
    exact firstDroppedItem_eq_none 0 before after
  | .null, _ | .bool _, _ | .num _, _ | .str _, _ => by simp [KeysKept, firstDroppedKey]
  | .obj _, .null | .obj _, .bool _ | .obj _, .num _ | .obj _, .str _ | .obj _, .arr _ => by
    simp [KeysKept, firstDroppedKey]
  | .arr _, .null | .arr _, .bool _ | .arr _, .num _ | .arr _, .str _ | .arr _, .obj _ => by
    simp [KeysKept, firstDroppedKey]

theorem firstDroppedMember_eq_none (after : List (String × Json)) :
    ∀ before : List (String × Json),
      firstDroppedMember after before = none ↔ KeysKeptMembers after before
  | [] => by simp [KeysKeptMembers, firstDroppedMember]
  | (key, value) :: before => by
    rw [KeysKeptMembers, firstDroppedMember, ← firstDroppedMember_eq_none after before]
    cases after.lookup key with
    | none => simp
    | some kept =>
      have hvalue := firstDroppedKey_eq_none value kept
      cases hdropped : firstDroppedKey value kept with
      | none => simp [← hvalue, hdropped]
      | some nested => simp [← hvalue, hdropped]

theorem firstDroppedItem_eq_none (index : ℕ) : ∀ before after : List Json,
    firstDroppedItem index before after = none ↔ KeysKeptItems before after
  | [], _ => by simp [KeysKeptItems, firstDroppedItem]
  | _ :: _, [] => by simp [KeysKeptItems, firstDroppedItem]
  | b :: before, a :: after => by
    rw [KeysKeptItems, firstDroppedItem, ← firstDroppedItem_eq_none (index + 1) before after]
    have hitem := firstDroppedKey_eq_none b a
    cases hdropped : firstDroppedKey b a with
    | none => simp [← hitem, hdropped]
    | some nested => simp [← hitem, hdropped]
end

/-! ### From the file to its entries -/

section Entries

variable [Grant G] {deserializeFields : Json → Option TokenFields}
variable {file raw value roundTripped : Json} {document : TokenDocument G}
  {members : List (String × Json)} {i : ℕ} {grant : G}

def fileEntries (file : Json) : List Json :=
  match documentParts file with
  | some (_, .arr items) => items
  | _ => []

/-- The check looks at the grant: document and entry are objects, and the key is `grant`. -/
def CheckedSpelling (file entry : Json) : Prop :=
  (∃ members, file = .obj members) ∧
    ∃ members, entry = .obj members ∧ "grant" ∈ members.map Prod.fst

theorem forall₂_of_mapM {α β : Type} {f : α → Option β} {xs : List α} {ys : List β}
    (h : xs.mapM f = some ys) : List.Forall₂ (fun x y => f x = some y) xs ys := by
  induction xs generalizing ys with
  | nil =>
    have hnil : ys = [] := by simpa using h.symm
    rw [hnil]
    exact .nil
  | cons x xs ih =>
    simp only [mapM_cons, bind_eq_bind, bind_eq_some_iff] at h
    obtain ⟨y, hy, ys', hys, hcons⟩ := h
    rw [← Option.some.inj hcons]
    exact .cons hy (ih hys)

theorem deserialize_entries (h : TokenDocument.deserialize deserializeFields file = some document) :
    List.Forall₂ (fun raw entry => TokenEntry.deserialize deserializeFields raw = some entry)
      (fileEntries file) document.tokens := by
  simp only [TokenDocument.deserialize, bind_eq_bind, bind_eq_some_iff] at h
  obtain ⟨⟨version, tokens⟩, hparts, n, -, entries, hentries, hdocument⟩ := h
  rw [← Option.some.inj hdocument]
  cases tokens with
  | arr items =>
    simp only [fileEntries, hparts]
    exact forall₂_of_mapM hentries
  | _ => simp [Json.asList] at hentries

theorem deserialize_grant (h : TokenEntry.deserialize deserializeFields raw = some entry) :
    ∃ value, entryGrant raw = some value ∧ deserializeGrant value = some entry.grant := by
  simp only [TokenEntry.deserialize, bind_eq_bind, bind_eq_some_iff] at h
  obtain ⟨fields, -, value, hvalue, grant, hgrant, hentry⟩ := h
  exact ⟨value, hvalue, by rw [hgrant, ← Option.some.inj hentry]⟩

theorem deserializeGrant_some {grant : Option G} (hnull : value ≠ .null)
    (h : deserializeGrant (some value) = some grant) : ∃ g, grant = some g := by
  cases value <;> first | exact absurd rfl hnull | skip
  all_goals
    obtain ⟨g, -, hg⟩ := map_eq_some_iff.mp h
    exact ⟨g, hg.symm⟩

/-- The raw value of a token under `tokens`, with repeated members merged, is what the comparison
is given. -/
theorem getKey_tokens_merged
    (hfile : file = .obj members) {items : List Json} {version : Option Json}
    (hparts : documentParts file = some (version, .arr items)) :
    (getKey "tokens" file.merged).bind asArray = some (items.map Json.merged) := by
  subst hfile
  obtain ⟨t, ht, hitems⟩ : ∃ t, members.filter (·.1 == "tokens") = [t] ∧ t.2 = .arr items := by
    simp only [documentParts] at hparts
    split at hparts
    · rename_i t _ ht
      exact ⟨t, ht, congrArg Prod.snd (Option.some.inj hparts)⟩
    · rename_i t _ ht
      exact ⟨t, ht, congrArg Prod.snd (Option.some.inj hparts)⟩
    · simp at hparts
  rw [Json.merged, getKey, Json.lookup_mergedFields, ht, getLast?_singleton]
  simp [hitems, Json.merged, Json.mergedItems_eq, asArray]

theorem getKey_grant_merged (hvalue : entryGrant (.obj members) = some (some value))
    (hgrant : "grant" ∈ members.map Prod.fst) :
    getKey "grant" (Json.obj members).merged = some value.merged := by
  simp only [entryGrant] at hvalue
  split at hvalue
  · simp at hvalue
  · rename_i m hm
    -- the only member of either name is the one called `grant`
    have hfilter : members.filter (·.1 == "grant") = [m].filter (·.1 == "grant") := by
      rw [← hm, List.filter_filter]
      congr 1
      funext f
      cases hf : f.1 == "grant" <;> simp
    obtain ⟨f, hf, hname⟩ := List.mem_map.mp hgrant
    have hmem : f ∈ [m].filter (·.1 == "grant") := by
      rw [← hfilter]
      exact mem_filter.mpr ⟨hf, by simp [hname]⟩
    have hfm : f = m := by simpa using mem_of_mem_filter hmem
    have hone : members.filter (·.1 == "grant") = [m] := by
      rw [hfilter, ← hfm]
      simp [hname]
    have hvalue : m.2 = value := by simpa using hvalue
    rw [Json.merged, getKey, Json.lookup_mergedFields, hone, getLast?_singleton, ← hvalue]
  · simp at hvalue

theorem checkGrantsKept_get {rawTokens : List Json} {tokens : List (TokenEntry G)}
    (h : checkGrantsKept rawTokens tokens = .ok ())
    (hraw : rawTokens[i]? = some raw) (hentry : tokens[i]? = some entry) :
    checkGrantKept raw entry = .ok () := by
  induction rawTokens generalizing tokens i with
  | nil => simp at hraw
  | cons r rawTokens ih =>
    cases tokens with
    | nil => simp at hentry
    | cons e tokens =>
      rw [checkGrantsKept, bind_unit_ok] at h
      cases i with
      | zero =>
        simp only [getElem?_cons_zero, Option.some.injEq] at hraw hentry
        rw [← hraw, ← hentry]
        exact h.1
      | succ i => exact ih h.2 (by simpa using hraw) (by simpa using hentry)

theorem checkGrantKept_ok {rawGrant : Json}
    (h : checkGrantKept raw entry = .ok ()) (hraw : getKey "grant" raw = some rawGrant)
    (hnull : rawGrant ≠ .null) (hgrant : entry.grant = some grant)
    (hserialize : Grant.serialize grant = some roundTripped) :
    firstDroppedKey rawGrant roundTripped = none := by
  unfold checkGrantKept at h
  simp only [hraw, hgrant, hserialize] at h
  cases rawGrant <;> first | exact absurd rfl hnull | skip
  all_goals
    cases hdropped : firstDroppedKey _ roundTripped with
    | none => rfl
    | some field => simp [hdropped] at h

theorem merged_eq_null (h : value.merged = .null) : value = .null := by
  cases value <;> simp [Json.merged] at h ⊢

theorem readStore_ok {fromStr : List UInt8 → Option Json} {body : List UInt8}
    {entries : List (TokenEntry G)} {version : UInt32}
    (h : readStore deserializeFields fromStr body = .ok (entries, version)) :
    ∃ file, fromStr body = some file ∧
      TokenDocument.deserialize deserializeFields file = some ⟨version, entries⟩ ∧
      checkSupportedVersion version = .ok () ∧
      rejectDroppedGrantFields (Value.ofJson file) ⟨version, entries⟩ = .ok () ∧
      tryNew entries = .ok entries := by
  unfold readStore at h
  cases hfile : fromStr body with
  | none => simp [hfile] at h
  | some file =>
    cases hdocument : @TokenDocument.deserialize G _ deserializeFields file with
    | none => simp [hfile, hdocument] at h
    | some document =>
      simp only [hfile, hdocument, bind_ok, mapError_ok, pure, Except.pure, Except.ok.injEq,
        Prod.mk.injEq] at h
      obtain ⟨_, hversion, _, hreject, store, hstore, rfl, rfl⟩ := h
      obtain rfl := tryNew_ok hstore
      exact ⟨file, rfl, hdocument, hversion, hreject, hstore⟩

theorem keysKept_of_checked
    (hreject : rejectDroppedGrantFields (Value.ofJson file) document = .ok ())
    (hchecked : CheckedSpelling file raw) (hraw : (fileEntries file)[i]? = some raw)
    (hvalue : entryGrant raw = some (some value)) (hnull : value ≠ .null)
    (hentry : document.tokens[i]? = some entry) (hgrant : entry.grant = some grant)
    (hserialize : Grant.serialize grant = some roundTripped) :
    KeysKept value.merged roundTripped := by
  obtain ⟨⟨members, hfile⟩, rawMembers, rfl, hkey⟩ := hchecked
  obtain ⟨version, items, hparts, hitems⟩ : ∃ version items,
      documentParts file = some (version, .arr items) ∧ fileEntries file = items := by
    unfold fileEntries at hraw ⊢
    split at hraw
    · rename_i version items hparts
      exact ⟨version, items, hparts, rfl⟩
    · simp at hraw
  have hcheck : checkGrantsKept (items.map Json.merged) document.tokens = .ok () := by
    unfold rejectDroppedGrantFields at hreject
    rw [Value.ofJson, getKey_tokens_merged hfile hparts] at hreject
    exact hreject
  have hrawMerged : (items.map Json.merged)[i]? = some (Json.obj rawMembers).merged := by
    rw [getElem?_map, ← hitems, hraw, map_some]
  rw [← firstDroppedKey_eq_none]
  exact checkGrantKept_ok (checkGrantsKept_get hcheck hrawMerged hentry)
    (getKey_grant_merged hvalue hkey) (fun h => hnull (merged_eq_null h)) hgrant hserialize

end Entries

/-! ### Mutations keep the grants they are not about -/

section Mutations

variable {entries written : List (TokenEntry G)} {mutation : Mutation G}

theorem mem_updateEntry {name : String} {change : TokenEntry G → TokenEntry G}
    (hentry : entry ∈ entries)
    (hname : (change entry).name = entry.name)
    (hgrant : entry.name = name → (change entry).grant = entry.grant) :
    ∃ entry' ∈ updateEntry name change entries,
      entry'.name = entry.name ∧ entry'.grant = entry.grant := by
  refine ⟨_, List.mem_map.mpr ⟨entry, hentry, rfl⟩, ?_, ?_⟩
  · split_ifs
    · exact hname
    · rfl
  · split_ifs with h
    · exact hgrant h
    · rfl

/-- The entries a mutation makes of those read, before they are checked. -/
def Mutation.updated (entries : List (TokenEntry G)) : Mutation G → List (TokenEntry G)
  | .add entry _ => entries ++ [entry]
  | .rotate name digest _ => updateEntry name ({ · with digest }) entries
  | .setScopes name devices tools grant _ => updateEntry name (fun entry => { entry with
      devices := devices.getD entry.devices
      tools := tools.getD entry.tools
      grant := grant <|> entry.grant }) entries
  | .setProvenance name provider providerTier onBehalfOf actorType =>
    updateEntry name (fun entry => { entry with
      provider, providerTier, onBehalfOf
      actorType := actorType.getD .unknown }) entries
  | .revoke name _ => entries.filter (·.name != name)

theorem run_written [Grant G] (h : mutation.run entries = .ok (some written)) :
    tryNew (mutation.updated entries) = .ok written := by
  cases mutation <;> simp only [Mutation.run, bind_ok, mapError_ok, pure, Except.pure,
    Except.ok.injEq, Option.some.injEq] at h
  case add | setScopes =>
    obtain ⟨_, -, updated, hnew, _, -, _, -, rfl⟩ := h
    exact hnew
  case rotate =>
    obtain ⟨_, -, updated, hnew, _, -, rfl⟩ := h
    exact hnew
  case setProvenance =>
    obtain ⟨_, -, updated, hnew, rfl⟩ := h
    exact hnew
  case revoke =>
    split_ifs at h
    · cases h
    · simp only [bind_ok, mapError_ok, Except.ok.injEq, Option.some.injEq] at h
      obtain ⟨updated, hnew, _, -, rfl⟩ := h
      exact hnew

theorem run_keeps_grants [Grant G] (h : mutation.run entries = .ok (some written))
    (hentry : entry ∈ entries) (hother : ¬mutation.Replaces entry.name) :
    ∃ entry' ∈ written, entry'.name = entry.name ∧ entry'.grant = entry.grant := by
  rw [tryNew_ok (run_written h)]
  cases mutation with
  | add minted known => exact ⟨entry, mem_append_left _ hentry, rfl, rfl⟩
  | rotate name digest known => exact mem_updateEntry hentry rfl fun _ => rfl
  | setScopes name devices tools grant known =>
    refine mem_updateEntry hentry rfl fun hname => ?_
    cases grant with
    | none => rfl
    | some grant => exact absurd hname hother
  | setProvenance name provider providerTier onBehalfOf actorType =>
    exact mem_updateEntry hentry rfl fun _ => rfl
  | revoke name known =>
    have hne : entry.name ≠ name := hother
    exact ⟨entry, mem_filter.mpr ⟨hentry, by simpa using hne⟩, rfl, rfl⟩

end Mutations

/-! ### No grant data is dropped -/

section Result

variable [Grant G]

/-- The `i`-th entry of the file is `raw`, its grant in the file is `value`, and the parsed grant
serializes to `roundTripped`. -/
structure GrantAt (file : Json) (entries : List (TokenEntry G)) (i : ℕ)
    (raw value roundTripped : Json) : Prop where
  raw_eq : (fileEntries file)[i]? = some raw
  value_eq : entryGrant raw = some (some value)
  parsed : ∃ entry grant, entries[i]? = some entry ∧ entry.grant = some grant ∧
    Grant.serialize grant = some roundTripped

/-- `read_store` accepts the file, whatever the parser and the deserializer of the other fields. -/
def Accepted (file : Json) (entries : List (TokenEntry G)) : Prop :=
  ∃ deserializeFields fromStr body version, fromStr body = some file ∧
    readStore deserializeFields fromStr body = .ok (entries, version)

/-- In every accepted file, serializing a parsed grant keeps what the file holds of it, where the
file spells the field so. -/
def KeepsGrants (G : Type) [Grant G] (spelling : (file entry : Json) → Prop) : Prop :=
  ∀ (file : Json) (entries : List (TokenEntry G)), Accepted file entries →
    ∀ i raw value roundTripped, GrantAt file entries i raw value roundTripped →
      spelling file raw → Keeps value.merged roundTripped

/-- `G` takes the value for a valid grant, and serializes that grant as the other value. -/
def RoundTrip (G : Type) [Grant G] (value roundTripped : Json) : Prop :=
  value ≠ .null ∧ ∃ grant : G, Grant.deserialize value = some grant ∧
    Grant.validate grant = .ok () ∧ Grant.serialize grant = some roundTripped

theorem parsed_at {deserializeFields : Json → Option TokenFields} {file : Json}
    {document : TokenDocument G}
    (hdocument : TokenDocument.deserialize deserializeFields file = some document) {i : ℕ}
    {raw : Json} (hraw : (fileEntries file)[i]? = some raw) :
    ∃ entry value, document.tokens[i]? = some entry ∧ entryGrant raw = some value ∧
      deserializeGrant value = some entry.grant := by
  obtain ⟨hlength, hget⟩ := forall₂_iff_get.mp (deserialize_entries hdocument)
  obtain ⟨hi, hraw⟩ := List.getElem?_eq_some_iff.mp hraw
  obtain ⟨value, hvalue, hgrant⟩ := deserialize_grant (hget i hi (hlength ▸ hi))
  have hvalue : entryGrant raw = some value := by rwa [← hraw]
  exact ⟨_, value, List.getElem?_eq_some_iff.mpr ⟨hlength ▸ hi, rfl⟩, hvalue, hgrant⟩

theorem grant_of_validate {grant : G} (h : entry.validate = .ok ())
    (hgrant : entry.grant = some grant) : Grant.validate grant = .ok () := by
  unfold TokenEntry.validate at h
  simp only [bind_unit_ok, mapError_ok, hgrant] at h
  exact h.2.2.2.2.1

theorem deserialize_of_some {value : Json} {grant : G}
    (h : deserializeGrant (some value) = some (some grant)) :
    value ≠ .null ∧ Grant.deserialize value = some grant := by
  cases value <;> simp_all [deserializeGrant]

variable {file raw value roundTripped : Json} {entries : List (TokenEntry G)} {i : ℕ}

/-- A grant of an accepted file is one that `G` takes for valid, and under the checked spelling its
round trip keeps its keys. -/
theorem Accepted.roundTrip (h : Accepted file entries)
    (hat : GrantAt file entries i raw value roundTripped) :
    RoundTrip G value roundTripped ∧
      (CheckedSpelling file raw → KeysKept value.merged roundTripped) := by
  obtain ⟨deserializeFields, fromStr, body, version, hfile, hread⟩ := h
  obtain ⟨file', hfile', hdocument, -, hreject, hstore⟩ := readStore_ok hread
  cases hfile.symm.trans hfile'
  obtain ⟨entry, grant, hentry, hgrant, hserialize⟩ := hat.parsed
  obtain ⟨entry', value', hentry', hvalue', hparsed⟩ := parsed_at hdocument hat.raw_eq
  cases hat.value_eq.symm.trans hvalue'
  cases hentry.symm.trans hentry'
  rw [hgrant] at hparsed
  obtain ⟨hnull, hdeserialize⟩ := deserialize_of_some hparsed
  have hvalid := (tryNew_iff.mp hstore).2.2.1 entry (mem_of_getElem? hentry)
  exact ⟨⟨hnull, grant, hdeserialize, grant_of_validate hvalid hgrant, hserialize⟩,
    fun hchecked => keysKept_of_checked hreject hchecked hat.raw_eq hat.value_eq hnull hentry hgrant
      hserialize⟩

def aliceFields : TokenFields :=
  ⟨"alice", "digest", .wildcard, .wildcard, 0, none, none, none, none, .unknown⟩

/-- An entry whose grant stands under `key`. -/
def aliceToken (key : String) (grant : Json) : Json := .obj [("name", .str "alice"), (key, grant)]

/-- One token whose grant stands under `key`. -/
def aliceFile (key : String) (grant : Json) : Json :=
  .obj [("tokens", .arr [aliceToken key grant])]

theorem accepted_aliceFile {key : String} {grant : G} (hkey : key = "grant" ∨ key = "mutation")
    (h : deserializeGrant (some value) = some (some grant)) (hvalid : Grant.validate grant = .ok ())
    (hkept : checkGrantKept (aliceToken key value).merged { aliceFields with grant := some grant } =
      .ok ()) :
    Accepted (aliceFile key value) [{ aliceFields with grant := some grant }] := by
  refine ⟨fun _ => some aliceFields, fun _ => some (aliceFile key value), [], 1, rfl, ?_⟩
  have hgrant : entryGrant (aliceToken key value) = some (some value) := by
    obtain rfl | rfl := hkey <;> rfl
  have hparts : documentParts (aliceFile key value) =
    some (none, .arr [aliceToken key value]) := rfl
  have hdocument : TokenDocument.deserialize (fun _ => some aliceFields) (aliceFile key value) =
      some ⟨1, [{ aliceFields with grant := some grant }]⟩ := by
    simp [TokenDocument.deserialize, hparts, deserializeVersion, defaultStoreVersion, Json.asList,
      TokenEntry.deserialize, hgrant, h]
  have hreject : rejectDroppedGrantFields (Value.ofJson (aliceFile key value))
      ⟨1, [{ aliceFields with grant := some grant }]⟩ = .ok () := by
    have htokens : (getKey "tokens" (Value.ofJson (aliceFile key value)).tree).bind asArray =
      some [(aliceToken key value).merged] := getKey_tokens_merged rfl hparts
    simp only [rejectDroppedGrantFields, htokens, checkGrantsKept, bind_unit_ok]
    exact ⟨hkept, trivial⟩
  have hentry : ({ aliceFields with grant := some grant } : TokenEntry G).validate = .ok () := by
    have hname : "alice".utf8ByteSize ≤ maxTokenName ∧ "alice".toList.any isWhitespace = false := by
      decide
    simpa [TokenEntry.validate, aliceFields, ScopeSet.validate, hvalid] using hname
  have hstore : tryNew [{ aliceFields with grant := some grant }] =
      .ok [{ aliceFields with grant := some grant }] :=
    tryNew_iff.mpr ⟨rfl, by simp [maxTokens], by simpa using hentry, by simp⟩
  have hversion : checkSupportedVersion 1 = .ok () := by decide
  simp only [readStore, hdocument, hversion, hreject, hstore]
  rfl

theorem grantAt_aliceFile {key : String} {grant : G} (hkey : key = "grant" ∨ key = "mutation")
    (hserialize : Grant.serialize grant = some roundTripped) :
    GrantAt (aliceFile key value) [{ aliceFields with grant := some grant }] 0
      (aliceToken key value) value roundTripped := by
  refine ⟨rfl, ?_, _, grant, rfl, rfl, hserialize⟩
  obtain rfl | rfl := hkey <;> rfl

theorem getKey_aliceToken_mutation : getKey "grant" (aliceToken "mutation" value).merged = none := by
  rw [aliceToken, Json.merged, getKey, Json.lookup_mergedFields]
  rfl

/-- What holds of the grants of all files under a spelling holds of every round trip. -/
theorem KeepsGrants.roundTrip {spelling : Json → Json → Prop} {key : String}
    (h : KeepsGrants G spelling) (hkey : key = "grant" ∨ key = "mutation")
    (hspelling : spelling (aliceFile key value) (aliceToken key value))
    (htrip : RoundTrip G value roundTripped)
    (hkept : key = "grant" → KeysKept value.merged roundTripped) :
    Keeps value.merged roundTripped := by
  obtain ⟨hnull, grant, hdeserialize, hvalid, hserialize⟩ := htrip
  have hgrant : deserializeGrant (some value) = some (some grant) := by
    cases value <;> simp_all [deserializeGrant]
  refine h _ _ (accepted_aliceFile hkey hgrant hvalid ?_) 0 _ value roundTripped
    (grantAt_aliceFile hkey hserialize) hspelling
  obtain rfl | rfl := hkey
  · have hmerged : getKey "grant" (aliceToken "grant" value).merged = some value.merged :=
      getKey_grant_merged rfl (by simp)
    have hdropped := (firstDroppedKey_eq_none _ _).mpr (hkept rfl)
    have hne : value.merged ≠ .null := fun heq => hnull (merged_eq_null heq)
    rw [checkGrantKept, hmerged]
    generalize value.merged = rawGrant at hdropped hne
    cases rawGrant <;> first | exact absurd rfl hne | simp only [hserialize, hdropped]
  · rw [checkGrantKept, getKey_aliceToken_mutation]

/-- **No token mutation drops part of a grant, as far as `G` allows.**  Under the key `grant` of an
object exactly if a round trip through `G` that keeps the keys loses nothing else, and under the
other spellings exactly if no round trip through `G` loses anything.  Each grant of an accepted file
is parsed, and every mutation writes each entry it is not asked to replace with the grant that was
read. -/
theorem grant_data_kept (G : Type) [Grant G] :
    (KeepsGrants G CheckedSpelling ↔ ∀ value roundTripped, RoundTrip G value roundTripped →
      KeysKept value.merged roundTripped → Keeps value.merged roundTripped) ∧
    (KeepsGrants G (fun file entry => ¬CheckedSpelling file entry) ↔
      ∀ value roundTripped, RoundTrip G value roundTripped → Keeps value.merged roundTripped) ∧
    (∀ (file : Json) (entries : List (TokenEntry G)), Accepted file entries →
      ∀ (i : ℕ) raw value, (fileEntries file)[i]? = some raw →
        entryGrant raw = some (some value) → value ≠ .null →
        ∃ (entry : TokenEntry G) (grant : G), entries[i]? = some entry ∧
          entry.grant = some grant) ∧
    (∀ (mutation : Mutation G) (entries written : List (TokenEntry G)),
      mutation.run entries = .ok (some written) →
      ∀ entry ∈ entries, ¬mutation.Replaces entry.name →
        ∃ entry' ∈ written, entry'.name = entry.name ∧ entry'.grant = entry.grant) := by
  refine ⟨⟨fun h value roundTripped htrip hkept => ?_, fun hlaw file entries h i raw value
    roundTripped hat hchecked => ?_⟩, ⟨fun h value roundTripped htrip => ?_, fun hlaw file entries h
    i raw value roundTripped hat _ => ?_⟩, fun file entries h i raw value hraw hvalue hnull => ?_,
    fun mutation entries written hrun entry hentry hother => run_keeps_grants hrun hentry hother⟩
  · exact h.roundTrip (.inl rfl) ⟨⟨_, rfl⟩, _, rfl, by simp⟩ htrip fun _ => hkept
  · obtain ⟨htrip, hkept⟩ := h.roundTrip hat
    exact hlaw value roundTripped htrip (hkept hchecked)
  · refine h.roundTrip (.inr rfl) ?_ htrip (fun heq => absurd heq (by decide))
    rintro ⟨-, members, hmembers, hkey⟩
    cases hmembers
    simp at hkey
  · exact hlaw value roundTripped (h.roundTrip hat).1
  · obtain ⟨deserializeFields, fromStr, body, version, hfile, hread⟩ := h
    obtain ⟨file', hfile', hdocument, -⟩ := readStore_ok hread
    cases hfile.symm.trans hfile'
    obtain ⟨entry, value', hentry, hvalue', hparsed⟩ := parsed_at hdocument hraw
    cases hvalue.symm.trans hvalue'
    obtain ⟨grant, hgrant⟩ := deserializeGrant_some hnull hparsed
    exact ⟨entry, grant, hentry, hgrant⟩

end Result

/-- A grant type with the one field `actions` that denies unknown fields and writes a default for
`deny_roots`. -/
structure StrictGrant where
  actions : String

instance : Grant StrictGrant where
  validate _ := .ok ()
  subjectsAreTargets _ := false
  deserialize
    | .obj [("actions", .str actions)] => some ⟨actions⟩
    | _ => none
  serialize grant := some (.obj [("actions", .str grant.actions), ("deny_roots", .arr [])])

/-- Nothing of such a grant is dropped, under any spelling. -/
theorem strict_grant_kept : KeepsGrants StrictGrant CheckedSpelling ∧
    KeepsGrants StrictGrant fun file entry => ¬CheckedSpelling file entry := by
  have hlaw : ∀ value roundTripped, RoundTrip StrictGrant value roundTripped →
      Keeps value.merged roundTripped := by
    rintro value roundTripped ⟨-, grant, hdeserialize, -, ⟨⟩⟩
    simp only [Grant.deserialize] at hdeserialize
    split at hdeserialize
    · cases hdeserialize
      simp [Json.merged, Json.mergedFields, upsert, Keeps, KeepsMembers]
    · cases hdeserialize
  exact ⟨(grant_data_kept StrictGrant).1.mpr fun value roundTripped htrip _ =>
    hlaw value roundTripped htrip, (grant_data_kept StrictGrant).2.1.mpr hlaw⟩

/-- A grant type that knows the field `actions` and ignores any other. -/
structure ActionsGrant where
  actions : Json

instance : Grant ActionsGrant where
  validate _ := .ok ()
  subjectsAreTargets _ := false
  deserialize value := (getKey "actions" value).map ActionsGrant.mk
  serialize grant := some (.obj [("actions", grant.actions)])

def readAlice (file : Json) : Except FileError (List (TokenEntry ActionsGrant) × UInt32) :=
  readStore (fun _ => some aliceFields) (fun _ => some file) []

/-- Under the alias the same loss goes through that is refused under `grant`: the restriction
`deny_roots` of the file is not among what serializing the parsed grant gives. -/
theorem mutation_alias_drops_key :
    ∃ (grant : Json) (entry : TokenEntry ActionsGrant) (roundTripped : Json),
      readAlice (aliceFile "mutation" grant) = .ok ([entry], 1) ∧
      (∃ error, readAlice (aliceFile "grant" grant) = .error error) ∧
      GrantAt (aliceFile "mutation" grant) [entry] 0
        (.obj [("name", .str "alice"), ("mutation", grant)]) grant roundTripped ∧
      ¬Keeps grant.merged roundTripped := by
  refine ⟨.obj [("actions", .arr []), ("deny_roots", .arr [.str "/config"])],
    { aliceFields with grant := some ⟨.arr []⟩ }, .obj [("actions", .arr [])], by rfl, ⟨_, by rfl⟩,
    ⟨rfl, rfl, _, _, rfl, rfl, rfl⟩, ?_⟩
  simp [Json.merged, Json.mergedFields, Json.mergedItems, upsert, Keeps, KeepsMembers,
    lookup_cons]

end Mecmcp.Auth
