import Mecmcp.Auth.Concurrent
import Mecmcp.Changeset.Preimage
import Mecmcp.Lib.Assoc
import Mecmcp.Lib.Pool

/-!
# StoreFile — what is written to `tokens.json` and what is read from it

The derived serializers of `TokenEntry` and `TokenDocument` (`entry.rs`, `file.rs`), their readers
with the aliases, `write_atomic` and `load` with its size limit.  `StoreText` stands for
`serde_json` and `chrono`; the grant is the vendor's, and `LawfulGrant` says that its two serde
directions fit together.

What is written is read back but for two things: a file above the limit is refused, and a grant that
serializes to null is read as no grant.
-/

namespace Mecmcp.Auth

open List Option

open Json (getKey asArray asStr)

/-! ### Texts -/

/-- Printing and parsing of documents and times. -/
structure StoreText where
  /-- `to_vec_pretty` -/
  pretty : Json → List UInt8
  /-- the check for UTF-8 and `from_str` -/
  fromStr : List UInt8 → Option Json
  fromStr_pretty : ∀ j, j.depth ≤ 127 → (∀ f, j.mapFloat f = j) → fromStr (pretty j) = some j
  /-- `to_rfc3339` -/
  time : ℤ → String
  parseTime : String → Option ℤ
  parseTime_time : ∀ t, parseTime (time t) = some t
  /-- `DateTime::from_timestamp` -/
  fromTimestamp : ℤ → Option ℤ
  /-- the fields of an entry that is not an object -/
  positional : Json → Option TokenFields

/-! ### Members -/

/-- What a derived reader finds under a name and its aliases: two are refused, and the inner `none`
is a missing member. -/
def fieldOf (names : List String) (members : List (String × Json)) : Option (Option Json) :=
  match members.filter fun m => names.contains m.1 with
  | [] => some none
  | [m] => some (some m.2)
  | _ => none

section
variable {α : Type}

/-- A member without a default. -/
def required (names : List String) (read : Json → Option α) (members : List (String × Json)) :
    Option α :=
  (fieldOf names members).bind fun value => value.bind read

def defaulted (names : List String) (default : α) (read : Json → Option α)
    (members : List (String × Json)) : Option α :=
  (fieldOf names members).bind (Struct.defaulted default read)

/-- A member that may be missing or null. -/
def nullable (names : List String) (read : Json → Option α) (members : List (String × Json)) :
    Option (Option α) :=
  (fieldOf names members).bind (Struct.optional read)

end

/-! ### Entries -/

def ScopeSet.serialize : ScopeSet → Json
  | .wildcard => .arr [.str "*"]
  | .allowlist names => .arr (names.map .str)

def ScopeSet.deserialize (value : Json) : Option ScopeSet :=
  (Json.asList asStr value).map fun names => if names = ["*"] then .wildcard else .allowlist names

def Tier.serialize : Tier → Json
  | .public_ => .str "public"
  | .private_ => .str "private"

def Tier.deserialize : Json → Option Tier
  | .str "public" => some .public_
  | .str "private" => some .private_
  | _ => none

def ActorType.serialize : ActorType → Json
  | .human => .str "human"
  | .agent => .str "agent"
  | .unknown => .str "unknown"

def ActorType.deserialize : Json → Option ActorType
  | .str "human" => some .human
  | .str "agent" => some .agent
  | .str "unknown" => some .unknown
  | _ => none

def digestPrefix : String := "sha256:"

def deserializeDigest (value : Json) : Option String :=
  (asStr value).filter fun digest => digestPrefix.toList.isPrefixOf digest.toList

section
variable (text : StoreText)

def deserializeTime : Json → Option ℤ
  | .str s => text.parseTime s
  | .num (.posInt n) => if n.toNat < 2 ^ 63 then text.fromTimestamp n.toNat else none
  | .num (.negInt n) => text.fromTimestamp n.1.toInt
  | _ => none

/-- The members of an entry in their order; `grant` is the serialized grant. -/
def entryTable (fields : TokenFields) (grant : Option Json) : List (String × Option Json) :=
  [("name", some (.str fields.name)),
   ("digest", some (.str fields.digest)),
   ("devices", some fields.devices.serialize),
   ("tools", some fields.tools.serialize),
   ("created_at", some (.str (text.time fields.createdAt))),
   ("expires_at", fields.expiresAt.map fun t => .str (text.time t)),
   ("grant", grant),
   ("provider", fields.provider.map .str),
   ("provider_tier", fields.providerTier.map Tier.serialize),
   ("on_behalf_of", fields.onBehalfOf.map .str),
   ("actor_type", if fields.actorType = .unknown then none else some fields.actorType.serialize)]

/-- The fields of an entry other than the grant. -/
def deserializeFields : Json → Option TokenFields
  | .obj members => do
    let name ← required ["name"] asStr members
    let digest ← required ["digest", "hash"] deserializeDigest members
    let devices ← defaulted ["devices", "routers", "targets"] .wildcard ScopeSet.deserialize members
    let tools ← defaulted ["tools"] .wildcard ScopeSet.deserialize members
    let createdAt ← required ["created_at", "created_at_unix"] (deserializeTime text) members
    let expiresAt ← nullable ["expires_at", "expires_at_unix"] (deserializeTime text) members
    let provider ← nullable ["provider"] asStr members
    let providerTier ← nullable ["provider_tier"] Tier.deserialize members
    let onBehalfOf ← nullable ["on_behalf_of"] asStr members
    let actorType ← defaulted ["actor_type"] .unknown ActorType.deserialize members
    return ⟨name, digest, devices, tools, createdAt, expiresAt, provider, providerTier, onBehalfOf,
      actorType⟩
  | value => text.positional value

end

/-! ### Reading a table back -/

variable {slots : List (String × Option Json)}

theorem filter_members (p : String → Bool) :
    (slots.filterMap fun s => s.2.map (s.1, ·)).filter (fun m => p m.1) =
      (slots.filter fun s => p s.1).filterMap fun s => s.2.map (s.1, ·) := by
  rw [filter_filterMap, filterMap_filter]
  congr 1
  funext s
  obtain ⟨key, value⟩ := s
  cases value <;> cases hkey : p key <;> simp [hkey]

theorem fieldOf_members {names : List String} {key : String} {value : Option Json}
    (h : slots.filter (fun s => names.contains s.1) = [(key, value)]) :
    fieldOf names (slots.filterMap fun s => s.2.map (s.1, ·)) = some value := by
  rw [fieldOf, filter_members, h]
  cases value <;> rfl

section
variable {text : StoreText} {fields : TokenFields} {grant : Option Json}

theorem scope_round_trip {scope : ScopeSet} {field : String} (h : scope.validate field = .ok ()) :
    ScopeSet.deserialize scope.serialize = some scope := by
  cases scope with
  | wildcard => rfl
  | allowlist names =>
    have hstar : names ≠ ["*"] := by
      rintro rfl
      simp [ScopeSet.validate, ScopeSet.validateNames, ScopeSet.maxScopeNames] at h
    have hnames : Json.asList asStr (.arr (names.map .str)) = some names :=
      @Json.asList_ofList _ Json.str _ (fun _ => rfl) names
    rw [ScopeSet.deserialize, ScopeSet.serialize, hnames, map_some, if_neg hstar]

theorem deserializeFields_entryTable
    (hdigest : digestPrefix.toList.isPrefixOf fields.digest.toList = true)
    (hdevices : ScopeSet.deserialize fields.devices.serialize = some fields.devices)
    (htools : ScopeSet.deserialize fields.tools.serialize = some fields.tools) :
    deserializeFields text (Struct.encode (entryTable text fields grant)) = some fields := by
  -- each group of names picks one row of the table
  have hfield (names : List String) {key : String} {value : Option Json}
      (h : (entryTable text fields grant).filter (fun s => names.contains s.1) = [(key, value)]) :
      fieldOf names ((entryTable text fields grant).filterMap fun s => s.2.map (s.1, ·)) =
        some value := fieldOf_members h
  have hdigest' : deserializeDigest (.str fields.digest) = some fields.digest := by
    rw [deserializeDigest, asStr, filter_some, if_pos hdigest]
  have hdevices' : Struct.defaulted .wildcard ScopeSet.deserialize
    (some fields.devices.serialize) = some fields.devices := hdevices
  have htools' : Struct.defaulted .wildcard ScopeSet.deserialize (some fields.tools.serialize) =
    some fields.tools := htools
  have htime (t : ℤ) : deserializeTime text (.str (text.time t)) = some t := text.parseTime_time t
  have hexpires : Struct.optional (deserializeTime text)
      (fields.expiresAt.map fun t => .str (text.time t)) = some fields.expiresAt :=
    Struct.optional_map htime (by simp) _
  have htier : Struct.optional Tier.deserialize (fields.providerTier.map Tier.serialize) =
      some fields.providerTier :=
    Struct.optional_map (by rintro ⟨⟩ <;> rfl) (by rintro ⟨⟩ <;> simp [Tier.serialize]) _
  have hactor : Struct.defaulted .unknown ActorType.deserialize (if fields.actorType = .unknown
      then none else some fields.actorType.serialize) = some fields.actorType :=
    Struct.defaulted_ite (by cases fields.actorType <;> rfl)
  simp only [Struct.encode, deserializeFields, required, defaulted, nullable, hfield ["name"] rfl,
    hfield ["digest", "hash"] rfl, hfield ["devices", "routers", "targets"] rfl,
    hfield ["tools"] rfl, hfield ["created_at", "created_at_unix"] rfl,
    hfield ["expires_at", "expires_at_unix"] rfl, hfield ["provider"] rfl,
    hfield ["provider_tier"] rfl, hfield ["on_behalf_of"] rfl, hfield ["actor_type"] rfl, bind_some,
    Json.asStr_str, hdigest', hdevices', htools', htime, hexpires, Struct.optional_map_str, htier,
    hactor]
  rfl

theorem entryGrant_entryTable :
    entryGrant (Struct.encode (entryTable text fields grant)) = some grant := by
  have hfilter := @filter_members (entryTable text fields grant)
    fun key => key == "grant" || key == "mutation"
  have htable : (entryTable text fields grant).filter
    (fun field => field.1 == "grant" || field.1 == "mutation") = [("grant", grant)] := rfl
  rw [Struct.encode, entryGrant, hfilter, htable]
  cases grant <;> rfl

theorem nodup_entryTable : ((entryTable text fields grant).map Prod.fst).Nodup := by
  simp [entryTable]

theorem getKey_entryTable : getKey "grant" (Struct.encode (entryTable text fields grant)) = grant := by
  rw [Struct.getKey_encode nodup_entryTable]
  cases grant <;> rfl

theorem forall_entryTable {P : Json → Prop} (hstr : ∀ s, P (.str s))
    (hscope : ∀ scope : ScopeSet, P scope.serialize) (hgrant : ∀ value ∈ grant, P value) :
    ∀ slot ∈ entryTable text fields grant, ∀ value ∈ slot.2, P value := by
  have htier : ∀ tier : Tier, P tier.serialize := fun tier => by cases tier <;> exact hstr _
  have hactor : ∀ actor : ActorType, P actor.serialize :=
    fun actor => by cases actor <;> exact hstr _
  simp only [entryTable, forall_mem_cons, mem_some_iff, forall_eq', hstr, hscope, true_and]
  refine ⟨?_, hgrant, ?_, ?_, ?_, ?_, forall_mem_nil _⟩
  all_goals
    intro value hvalue
    first
    | obtain ⟨_, -, rfl⟩ := Option.mem_map.mp hvalue
      first | exact hstr _ | exact htier _
    | split at hvalue
      · cases hvalue
      · cases hvalue
        exact hactor _

end

/-! ### Plain values -/

/-- A value without floats, repeated keys or nesting beyond the depth. -/
def Plain (depth : ℕ) (value : Json) : Prop :=
  value.depth ≤ depth ∧ (∀ f, value.mapFloat f = value) ∧ value.uniqueKeys = true

variable {depth : ℕ}

theorem plain_encode (hkeys : (slots.map Prod.fst).Nodup)
    (h : ∀ slot ∈ slots, ∀ value ∈ slot.2, Plain depth value) :
    Plain (depth + 1) (Struct.encode slots) :=
  ⟨Struct.depth_encode_le.mpr fun slot hs value hv => (h slot hs value hv).1,
    fun _ => Struct.mapFloat_encode_eq_self fun slot hs value hv => (h slot hs value hv).2.1 _,
    Struct.uniqueKeys_encode hkeys fun slot hs value hv => (h slot hs value hv).2.2⟩

theorem plain_arr {items : List Json} (h : ∀ item ∈ items, Plain depth item) :
    Plain (depth + 1) (.arr items) := by
  refine ⟨Json.depth_arr_le.mpr fun item hi => (h item hi).1, fun f => ?_, ?_⟩
  · have hmap : items.map (Json.mapFloat f) = items.map id :=
      map_congr_left fun item hi => (h item hi).2.1 f
    rw [Json.mapFloat_arr, hmap, List.map_id]
  · exact Json.uniqueKeysItems_iff.mpr fun item hi => (h item hi).2.2

theorem plain_str (s : String) : Plain depth (.str s) :=
  ⟨Nat.zero_le _, fun _ => rfl, rfl⟩

theorem plain_scope (scope : ScopeSet) : Plain 124 scope.serialize := by
  cases scope with
  | wildcard =>
    refine plain_arr fun item hi => ?_
    obtain rfl := mem_singleton.mp hi
    exact plain_str _
  | allowlist names =>
    refine plain_arr fun item hi => ?_
    obtain ⟨name, -, rfl⟩ := List.mem_map.mp hi
    exact plain_str _

/-! ### The file -/

section
variable {G : Type} [Grant G] (text : StoreText)

/-- The two directions of the vendor's serde implementation fit together: a grant can be written,
without floats, repeated keys or deep nesting, and is read from what was written. -/
class LawfulGrant (G : Type) [Grant G] : Prop where
  round_trip : ∀ g : G, ∃ value, Grant.serialize g = some value ∧
    Grant.deserialize value = some g ∧ Plain 124 value

def TokenEntry.serialize (entry : TokenEntry G) : Option Json :=
  match entry.grant with
  | none => some (Struct.encode (entryTable text entry.toTokenFields none))
  | some grant => (Grant.serialize grant).map fun value =>
      Struct.encode (entryTable text entry.toTokenFields (some value))

/-- `TokenDocument` as it is written. -/
def serializeDocument (entries : List (TokenEntry G)) (version : UInt32) : Option Json :=
  (entries.mapM (TokenEntry.serialize text)).map fun tokens =>
    .obj [("version", Json.ofUInt32 version), ("tokens", .arr tokens)]

/-- The bytes `write_atomic` puts in the place of the file. -/
def writeBody (entries : List (TokenEntry G)) (version : UInt32) : Option (List UInt8) :=
  (serializeDocument text entries version).map text.pretty

/-- `FileLimits::default`. -/
def maxFileBytes : ℕ := 1024 * 1024

/-- `TokenStoreFile::load`: the entries and version, where the file is accepted. -/
def load (body : List UInt8) : Option (List (TokenEntry G) × UInt32) :=
  if maxFileBytes < body.length then none
  else (readStore (deserializeFields text) text.fromStr body).toOption

/-- What an entry is read back as: a grant written as null is none. -/
def TokenEntry.reread (entry : TokenEntry G) : TokenEntry G :=
  { entry with grant := entry.grant.bind fun grant =>
      match Grant.serialize grant with
      | some .null => none
      | _ => some grant }

/-! ### Reading what was written -/

variable {text} [LawfulGrant G]

/-- The value of an entry in the written document. -/
def entryJson (text : StoreText) (entry : TokenEntry G) : Json :=
  Struct.encode (entryTable text entry.toTokenFields (entry.grant.bind Grant.serialize))

def documentJson (text : StoreText) (entries : List (TokenEntry G)) (version : UInt32) : Json :=
  .obj [("version", Json.ofUInt32 version), ("tokens", .arr (entries.map (entryJson text)))]

theorem serialize_eq (entry : TokenEntry G) :
    entry.serialize text = some (entryJson text entry) := by
  unfold TokenEntry.serialize entryJson
  cases entry.grant with
  | none => rfl
  | some grant =>
    obtain ⟨value, hvalue, -⟩ := LawfulGrant.round_trip grant
    simp [hvalue]

theorem writeBody_eq (entries : List (TokenEntry G)) (version : UInt32) :
    writeBody text entries version = some (text.pretty (documentJson text entries version)) := by
  have htokens : entries.mapM (TokenEntry.serialize text) =
      some (entries.map (entryJson text)) := by
    induction entries with
    | nil => rfl
    | cons entry entries ih => simp [mapM_cons, serialize_eq, ih]
  rw [writeBody, serializeDocument, htokens]
  rfl

theorem plain_entryJson (entry : TokenEntry G) : Plain 125 (entryJson text entry) := by
  refine plain_encode nodup_entryTable (forall_entryTable plain_str plain_scope ?_)
  intro value hvalue
  obtain ⟨grant, -, hserialize⟩ := bind_eq_some_iff.mp hvalue
  obtain ⟨written, hwritten, -, hplain⟩ := LawfulGrant.round_trip grant
  rw [hserialize] at hwritten
  cases hwritten
  exact hplain

theorem plain_documentJson (entries : List (TokenEntry G)) (version : UInt32) :
    Plain 127 (documentJson text entries version) := by
  have htokens : Plain 126 (.arr (entries.map (entryJson text))) := plain_arr fun item hi => by
    obtain ⟨entry, -, rfl⟩ := List.mem_map.mp hi
    exact plain_entryJson entry
  have hversion : Plain 126 (Json.ofUInt32 version) := ⟨Nat.zero_le _, fun _ => rfl, rfl⟩
  exact @plain_encode [("version", some (.ofUInt32 version)),
    ("tokens", some (.arr (entries.map (entryJson text))))] _ (by simp) (by simp [hversion, htokens])

structure Storable (entries : List (TokenEntry G)) (version : UInt32) : Prop where
  store : tryNew entries = .ok entries
  version : version = 1 ∨ version = 2
  digests : ∀ entry ∈ entries, digestPrefix.toList.isPrefixOf entry.digest.toList = true

variable {entry : TokenEntry G}

omit [LawfulGrant G] in
theorem scopes_of_validate (h : entry.validate = .ok ()) :
    entry.devices.validate "devices" = .ok () ∧ entry.tools.validate "tools" = .ok () := by
  unfold TokenEntry.validate at h
  simp only [bind_unit_ok, mapError_ok] at h
  obtain ⟨-, -, hdevices, htools, -⟩ := h
  exact ⟨hdevices, htools⟩

omit [LawfulGrant G] in
theorem TokenEntry.reread_cases (entry : TokenEntry G) :
    entry.reread = entry ∨ entry.reread = { entry with grant := none } := by
  obtain ⟨fields, grant⟩ := entry
  cases grant with
  | none => exact Or.inl rfl
  | some grant =>
    unfold TokenEntry.reread
    simp only [bind_some]
    split
    · exact Or.inr rfl
    · exact Or.inl rfl

omit [LawfulGrant G] in
theorem validate_reread (h : entry.validate = .ok ()) :
    entry.reread.validate = .ok () := by
  rcases entry.reread_cases with heq | heq
  · rwa [heq]
  · rw [heq]
    unfold TokenEntry.validate at h ⊢
    simp only [bind_unit_ok, mapError_ok] at h ⊢
    obtain ⟨hname, hspace, hdevices, htools, hrest⟩ := h
    refine ⟨hname, hspace, hdevices, htools, ?_⟩
    cases hgrant : entry.grant with
    | none => simpa only [hgrant, bind_unit_ok] using hrest
    | some grant =>
      simp only [hgrant, bind_unit_ok] at hrest
      exact ⟨trivial, hrest.2⟩

theorem deserializeGrant_written (entry : TokenEntry G) :
    deserializeGrant (entry.grant.bind Grant.serialize) = some entry.reread.grant := by
  unfold TokenEntry.reread
  cases entry.grant with
  | none => rfl
  | some grant =>
    obtain ⟨value, hvalue, hread, -⟩ := LawfulGrant.round_trip grant
    simp only [bind_some, hvalue]
    cases value <;> simp [deserializeGrant, hread]

theorem deserialize_entryJson (hvalid : entry.validate = .ok ())
    (hdigest : digestPrefix.toList.isPrefixOf entry.digest.toList = true) :
    TokenEntry.deserialize (deserializeFields text) (entryJson text entry) = some entry.reread := by
  obtain ⟨hdevices, htools⟩ := scopes_of_validate hvalid
  have hfields : deserializeFields text (entryJson text entry) = some entry.toTokenFields :=
    deserializeFields_entryTable hdigest (scope_round_trip hdevices) (scope_round_trip htools)
  have hgrant : entryGrant (entryJson text entry) = some (entry.grant.bind Grant.serialize) :=
    entryGrant_entryTable
  simp only [TokenEntry.deserialize, hfields, hgrant, deserializeGrant_written, bind_eq_bind,
    bind_some]
  rfl

variable {entries : List (TokenEntry G)} {version : UInt32}

theorem deserialize_documentJson (h : Storable entries version) :
    TokenDocument.deserialize (deserializeFields text) (documentJson text entries version) =
      some ⟨version, entries.map TokenEntry.reread⟩ := by
  have hvalid := (tryNew_iff.mp h.store).2.2.1
  have htokens : Json.asList (TokenEntry.deserialize (deserializeFields text))
      (.arr (entries.map (entryJson text))) = some (entries.map TokenEntry.reread) :=
    Json.asList_map fun entry hentry =>
      deserialize_entryJson (hvalid entry hentry) (h.digests entry hentry)
  have hparts : documentParts (documentJson text entries version) =
    some (some (Json.ofUInt32 version), .arr (entries.map (entryJson text))) := rfl
  simp only [TokenDocument.deserialize, hparts, deserializeVersion, Json.asUInt32_ofUInt32, htokens,
    bind_eq_bind, bind_some]
  rfl

mutual
theorem firstDroppedKey_self : ∀ value : Json, value.uniqueKeys = true →
    firstDroppedKey value value = none
  | .null, _ | .bool _, _ | .num _, _ | .str _, _ => by simp [firstDroppedKey]
  | .arr items, h => by
    rw [firstDroppedKey]
    exact firstDroppedItem_self items 0 h
  | .obj members, h => by
    rw [Json.uniqueKeys, Bool.and_eq_true, decide_eq_true_eq] at h
    rw [firstDroppedKey]
    exact firstDroppedMember_self members members h.2 fun member hm =>
      (Assoc.mem_iff_lookup h.1).mp hm

theorem firstDroppedItem_self : ∀ (items : List Json) (index : ℕ),
    Json.uniqueKeysItems items = true → firstDroppedItem index items items = none
  | [], _, _ => rfl
  | item :: items, index, h => by
    rw [Json.uniqueKeysItems, Bool.and_eq_true] at h
    rw [firstDroppedItem, firstDroppedKey_self item h.1]
    exact firstDroppedItem_self items (index + 1) h.2

theorem firstDroppedMember_self : ∀ (members after : List (String × Json)),
    Json.uniqueKeysFields members = true →
    (∀ member ∈ members, after.lookup member.1 = some member.2) →
    firstDroppedMember after members = none
  | [], _, _, _ => rfl
  | (key, value) :: members, after, h, hafter => by
    rw [Json.uniqueKeysFields, Bool.and_eq_true] at h
    have hkept : after.lookup key = some value := hafter (key, value) List.mem_cons_self
    rw [firstDroppedMember, hkept]
    simp only [firstDroppedKey_self value h.1]
    exact firstDroppedMember_self members after h.2 fun member hm =>
      hafter member (List.mem_cons_of_mem _ hm)
end

theorem checkGrantKept_written (entry : TokenEntry G) :
    checkGrantKept (entryJson text entry) entry.reread = .ok () := by
  have hkey : getKey "grant" (entryJson text entry) = entry.grant.bind Grant.serialize :=
    getKey_entryTable
  rw [checkGrantKept, hkey]
  cases hgrant : entry.grant with
  | none => rfl
  | some grant =>
    obtain ⟨value, hvalue, -, -, -, hunique⟩ := LawfulGrant.round_trip grant
    by_cases hnull : value = .null
    · subst hnull
      simp [hvalue]
    · have hreread : entry.reread.grant = some grant := by
        simp [TokenEntry.reread, hgrant, hvalue, hnull]
      simp only [bind_some, hvalue, hreread, firstDroppedKey_self value hunique]

theorem checkGrantsKept_written (entries : List (TokenEntry G)) :
    checkGrantsKept (entries.map (entryJson text)) (entries.map TokenEntry.reread) = .ok () := by
  induction entries with
  | nil => rfl
  | cons entry entries ih =>
    rw [map_cons, map_cons, checkGrantsKept, bind_unit_ok]
    exact ⟨checkGrantKept_written entry, ih⟩

theorem readStore_written (h : Storable entries version) :
    readStore (deserializeFields text) text.fromStr
        (text.pretty (documentJson text entries version)) =
      .ok (entries.map TokenEntry.reread, version) := by
  obtain ⟨hdepth, hfloats, hunique⟩ := @plain_documentJson G _ text _ entries version
  have hversion : checkSupportedVersion version = .ok () := by
    rw [checkSupportedVersion, refuseIf_ok]
    rcases h.version with rfl | rfl <;> decide
  have hkept : rejectDroppedGrantFields (Value.ofJson (documentJson text entries version))
      ⟨version, entries.map TokenEntry.reread⟩ = .ok () := by
    have htokens : (getKey "tokens" (Value.ofJson (documentJson text entries version)).tree).bind
        asArray = some (entries.map (entryJson text)) := by
      have htree : (Value.ofJson (documentJson text entries version)).tree =
        documentJson text entries version := Json.merged_of_uniqueKeys _ hunique
      rw [htree]
      rfl
    rw [rejectDroppedGrantFields, htokens]
    exact checkGrantsKept_written entries
  have hstore : tryNew (entries.map TokenEntry.reread) = .ok (entries.map TokenEntry.reread) := by
    obtain ⟨-, hlength, hvalid, hnames⟩ := tryNew_iff.mp h.store
    refine tryNew_iff.mpr ⟨rfl, by rwa [length_map], fun entry hentry => ?_, ?_⟩
    · obtain ⟨before, hbefore, rfl⟩ := List.mem_map.mp hentry
      exact validate_reread (hvalid before hbefore)
    · rwa [List.map_map]
  simp only [readStore, text.fromStr_pretty _ hdepth hfloats, deserialize_documentJson h, hversion,
    hkept, hstore]
  rfl

theorem load_written (h : Storable entries version) :
    (writeBody text entries version).bind (load text) =
      if (text.pretty (documentJson text entries version)).length ≤ maxFileBytes then
        some (entries.map TokenEntry.reread, version)
      else none := by
  rw [writeBody_eq, bind_some, load, readStore_written h]
  split_ifs with hlarge hsmall hsmall
  · omega
  · rfl
  · rfl
  · omega

omit [LawfulGrant G] in
theorem reread_eq_self :
    entry.reread = entry ↔
      ∀ grant, entry.grant = some grant → Grant.serialize grant ≠ some .null := by
  obtain ⟨fields, grant⟩ := entry
  cases grant with
  | none => simp [TokenEntry.reread]
  | some grant =>
    unfold TokenEntry.reread
    simp only [bind_some, Option.some.injEq, forall_eq']
    split <;> simp_all

omit [LawfulGrant G] in
theorem map_reread_eq_self :
    entries.map TokenEntry.reread = entries ↔ ∀ entry ∈ entries, entry.reread = entry := by
  nth_rewrite 2 [← List.map_id entries]
  exact map_inj_left

/-! ### Runs of token administration -/

/-- The digests a mutation mints have the prefix (`TokenDigest::from_secret`). -/
def Mutation.Minted : Mutation G → Prop
  | .add entry _ => digestPrefix.toList.isPrefixOf entry.digest.toList = true
  | .rotate _ digest _ => digestPrefix.toList.isPrefixOf digest.toList = true
  | _ => True

/-- A successful call: the file that is there is loaded, and what the mutation computes from it is
written.  The state is what was last written. -/
def adminStep (text : StoreText) (content : TokenFileContent G) (mutation : Mutation G) :
    Option (TokenFileContent G) :=
  let read : Option (TokenFileContent G) :=
    match content with
    | none => some none
    | some (entries, version) => ((writeBody text entries version).bind (load text)).map some
  read.bind fun found => (mutation.administer found).toOption.map fun written =>
    written.getD content

omit [Grant G] [LawfulGrant G] in
theorem forall_updateEntry {P : TokenEntry G → Prop} {name : String}
    {change : TokenEntry G → TokenEntry G}
    (h : ∀ entry ∈ entries, P entry) (hchange : ∀ entry, P entry → P (change entry)) :
    ∀ entry ∈ updateEntry name change entries, P entry := by
  intro entry hentry
  obtain ⟨before, hbefore, rfl⟩ := List.mem_map.mp hentry
  split_ifs
  · exact hchange before (h before hbefore)
  · exact h before hbefore

omit [LawfulGrant G] in
/-- What a mutation writes is a store, with the digests there were and the one that was minted. -/
theorem run_storable {mutation : Mutation G} {entries written : List (TokenEntry G)}
    (hversion : version = 1 ∨ version = 2)
    (hdigests : ∀ entry ∈ entries, digestPrefix.toList.isPrefixOf entry.digest.toList = true)
    (hminted : mutation.Minted) (h : mutation.run entries = .ok (some written)) :
    Storable written version := by
  have hnew := run_written h
  obtain rfl := tryNew_ok hnew
  refine ⟨hnew, hversion, ?_⟩
  cases mutation with
  | add entry known =>
    intro other hother
    rcases mem_append.mp hother with hother | hother
    · exact hdigests other hother
    · obtain rfl := mem_singleton.mp hother
      exact hminted
  | rotate name digest known => exact forall_updateEntry hdigests fun _ _ => hminted
  | setScopes name devices tools grant known => exact forall_updateEntry hdigests fun _ h => h
  | setProvenance name provider providerTier onBehalfOf actorType =>
    exact forall_updateEntry hdigests fun _ h => h
  | revoke name known => exact fun other hother => hdigests other (mem_of_mem_filter hother)

omit [LawfulGrant G] in
theorem rewrite_storable {mutation : Mutation G} {written : TokenFileContent G}
    (hversion : version = 1 ∨ version = 2)
    (hdigests : ∀ entry ∈ entries, digestPrefix.toList.isPrefixOf entry.digest.toList = true)
    (hminted : mutation.Minted) (h : mutation.rewrite entries version = .ok (some written)) :
    ∀ content ∈ written, Storable content.1 content.2 := by
  unfold Mutation.rewrite at h
  cases hrun : mutation.run entries with
  | error error => simp [hrun] at h
  | ok result =>
    cases result with
    | none => simp [hrun] at h
    | some updated =>
      simp only [hrun, map_some, Except.ok.injEq, Option.some.injEq] at h
      subst h
      rintro content ⟨⟩
      exact run_storable hversion hdigests hminted hrun

theorem adminStep_storable {content content' : TokenFileContent G} {mutation : Mutation G}
    (hcontent : ∀ written ∈ content, Storable written.1 written.2) (hminted : mutation.Minted)
    (h : adminStep text content mutation = some content') :
    ∀ written ∈ content', Storable written.1 written.2 := by
  obtain ⟨found, hfound, h⟩ := bind_eq_some_iff.mp h
  obtain ⟨result, hresult, rfl⟩ := map_eq_some_iff.mp h
  cases result with
  | none => exact hcontent
  | some written =>
    have hok : mutation.administer found = .ok (some written) := by
      cases hadmin : mutation.administer found with
      | error error => simp [hadmin, Except.toOption] at hresult
      | ok outcome => simpa [hadmin, Except.toOption] using hresult
    rw [getD_some]
    cases content with
    | none =>
      cases hfound
      cases mutation with
      | add entry known =>
        exact rewrite_storable (Or.inl rfl) (fun _ h => absurd h not_mem_nil) hminted hok
      | _ => simp [Mutation.administer] at hok
    | some stored =>
      obtain ⟨entries, version⟩ := stored
      have hstored : Storable entries version := hcontent _ rfl
      obtain ⟨loaded, hloaded, rfl⟩ := map_eq_some_iff.mp hfound
      rw [load_written hstored] at hloaded
      split_ifs at hloaded
      cases hloaded
      refine rewrite_storable hstored.version (fun entry hentry => ?_) hminted hok
      obtain ⟨before, hbefore, rfl⟩ := List.mem_map.mp hentry
      exact hstored.digests before hbefore

/-- For every run of successful calls from an absent file: what was written is accepted by `load`
with exactly its entries and version if and only if the bytes stay within the limit of the reader
and no entry carries a grant that serializes to null. -/
theorem administration_read_back_iff (text : StoreText) (entries : List (TokenEntry G))
    (version : UInt32)
    (hrun : Reachable (adminStep text) none (fun _ mutation => mutation.Minted)
      (some (entries, version))) :
    (writeBody text entries version).bind (load text) = some (entries, version) ↔
      (∀ body, writeBody text entries version = some body → body.length ≤ maxFileBytes) ∧
      ∀ entry ∈ entries, ∀ grant, entry.grant = some grant →
        Grant.serialize grant ≠ some .null := by
  have hstorable : ∀ written ∈ some (entries, version), Storable written.1 written.2 :=
    Reachable.invariant (P := fun content : TokenFileContent G =>
        ∀ written ∈ content, Storable written.1 written.2)
      (fun _ h => absurd h (by simp))
      (fun _ _ _ hcontent hminted hstep => adminStep_storable hcontent hminted hstep) hrun
  have hself : entries.map TokenEntry.reread = entries ↔ ∀ entry ∈ entries, ∀ grant,
      entry.grant = some grant → Grant.serialize grant ≠ some .null := by
    rw [map_reread_eq_self]
    exact forall₂_congr fun entry _ => reread_eq_self
  rw [load_written (hstorable _ rfl), writeBody_eq, ← hself]
  simp only [Option.some.injEq, forall_eq']
  split_ifs with hsize <;> simp [hsize]

/-! ### What a mutation leaves in the file -/

omit [LawfulGrant G] in
theorem digest_of_deserialize
    (hpositional : ∀ value fields, text.positional value = some fields →
      digestPrefix.toList.isPrefixOf fields.digest.toList = true)
    {raw : Json} (h : TokenEntry.deserialize (deserializeFields text) raw = some entry) :
    digestPrefix.toList.isPrefixOf entry.digest.toList = true := by
  simp only [TokenEntry.deserialize, bind_eq_bind, bind_eq_some_iff] at h
  obtain ⟨fields, hfields, _, -, _, -, heq⟩ := h
  rw [← Option.some.inj heq]
  cases raw with
  | obj members =>
    simp only [deserializeFields, bind_eq_bind, bind_eq_some_iff] at hfields
    obtain ⟨_, -, digest, hdigest, _, -, _, -, _, -, _, -, _, -, _, -, _, -, _, -, hfields⟩ := hfields
    rw [← Option.some.inj hfields]
    obtain ⟨value, -, hdigest⟩ := bind_eq_some_iff.mp hdigest
    obtain ⟨json, -, hdigest⟩ := bind_eq_some_iff.mp hdigest
    exact (filter_eq_some_iff.mp hdigest).2
  | _ => exact hpositional _ fields hfields

omit [LawfulGrant G] in
/-- What is loaded can be written again. -/
theorem storable_of_load
    (hpositional : ∀ value fields, text.positional value = some fields →
      digestPrefix.toList.isPrefixOf fields.digest.toList = true)
    {body : List UInt8} (h : load text body = some (entries, version)) :
    Storable entries version := by
  unfold load at h
  split_ifs at h
  have hread : readStore (deserializeFields text) text.fromStr body = .ok (entries, version) := by
    cases hread : readStore (G := G) (deserializeFields text) text.fromStr body with
    | error error => simp [hread, Except.toOption] at h
    | ok result => simpa [hread, Except.toOption] using h
  obtain ⟨file, -, hdocument, hversion, -, hstore⟩ := readStore_ok hread
  refine ⟨hstore, ?_, fun entry hentry => ?_⟩
  · by_contra hother
    obtain ⟨hne, hne'⟩ := not_or.mp hother
    exact refuseIf_ok.mp hversion ⟨hne, hne'⟩
  · obtain ⟨i, hi, rfl⟩ := List.getElem_of_mem hentry
    obtain ⟨hlength, hget⟩ := forall₂_iff_get.mp (deserialize_entries hdocument)
    exact digest_of_deserialize hpositional (hget i (hlength ▸ hi) hi)

omit [LawfulGrant G] in
theorem forall₂_reread {name : String} {change : TokenEntry G → TokenEntry G}
    {restore : TokenEntry G → TokenEntry G → TokenEntry G} :
    List.Forall₂ (fun entry entry' => if entry.name = name then restore entry entry' = entry
      else entry' = entry) entries ((updateEntry name change entries).map TokenEntry.reread) ↔
    ∀ entry ∈ entries, if entry.name = name then restore entry (change entry).reread = entry
      else entry.reread = entry := by
  rw [updateEntry, List.map_map, forall₂_map_right_iff, forall₂_same]
  refine forall₂_congr fun entry _ => ?_
  by_cases hname : entry.name = name <;> simp [hname]

omit [LawfulGrant G] in
/-- What a mutation writes is read back with the other entries as they were exactly if none of their
grants is read as none. -/
theorem leavesOthers_reread {mutation : Mutation G} {written : List (TokenEntry G)}
    (h : mutation.run entries = .ok (some written)) :
    mutation.LeavesOthers entries (written.map TokenEntry.reread) ↔
      ∀ entry ∈ entries, ¬mutation.Replaces entry.name → entry.reread = entry := by
  rw [tryNew_ok (run_written h)]
  cases mutation with
  | add minted known =>
    have hadd : (∃ added, (entries ++ [minted]).map TokenEntry.reread = entries ++ [added]) ↔
        entries.map TokenEntry.reread = entries := by
      rw [map_append]
      constructor
      · rintro ⟨added, heq⟩
        exact (append_inj heq (length_map _)).1
      · intro heq
        exact ⟨minted.reread, by rw [heq]; rfl⟩
    exact hadd.trans (map_reread_eq_self.trans (by simp [Mutation.Replaces]))
  | revoke name known =>
    refine Iff.trans map_reread_eq_self ?_
    simp [Mutation.Replaces, Mutation.updated]
  | rotate name digest known =>
    refine forall₂_reread.trans (forall₂_congr fun entry _ => ?_)
    simp [Mutation.restore, Mutation.Replaces, TokenEntry.reread]
  | setScopes name devices tools grant known =>
    refine forall₂_reread.trans (forall₂_congr fun entry _ => ?_)
    cases devices <;> cases tools <;> cases grant <;>
      simp [Mutation.restore, Mutation.Replaces, Mutation.name, TokenEntry.reread]
  | setProvenance name provider providerTier onBehalfOf actorType =>
    refine forall₂_reread.trans (forall₂_congr fun entry _ => ?_)
    simp [Mutation.restore, Mutation.Replaces, TokenEntry.reread]

/-- **What a mutation depends on and what it touches.**  For a file that is loaded, known names and
the name of an entry of it: a rotation succeeds exactly if the references of all entries are known, a
revocation exactly if those of all other entries are.  What a mutation writes is loaded again with
all but the documented changes as it was exactly if the bytes stay within the limit of the reader and
no grant that is to stay serializes to null. -/
theorem rotate_and_revoke_succeed_iff (text : StoreText)
    (hpositional : ∀ value fields, text.positional value = some fields →
      digestPrefix.toList.isPrefixOf fields.digest.toList = true)
    (body : List UInt8) (entries : List (TokenEntry G)) (version : UInt32)
    (hload : load text body = some (entries, version)) (known : KnownNames) (name : String)
    (hname : ∃ entry ∈ entries, entry.name = name) :
    (∀ digest, (∃ written, (Mutation.rotate name digest known).run entries = .ok (some written)) ↔
      ∀ entry ∈ entries, ReferencesKnown known entry) ∧
    ((∃ written, (Mutation.revoke name known).run entries = .ok (some written)) ↔
      ∀ entry ∈ entries, entry.name ≠ name → ReferencesKnown known entry) ∧
    ∀ (mutation : Mutation G) (written : List (TokenEntry G)), mutation.Minted →
      mutation.run entries = .ok (some written) →
      ((∃ after, (writeBody text written version).bind (load text) = some (after, version) ∧
          mutation.LeavesOthers entries after) ↔
        (∀ body, writeBody text written version = some body → body.length ≤ maxFileBytes) ∧
        ∀ entry ∈ entries, ¬mutation.Replaces entry.name →
          ∀ grant, entry.grant = some grant → Grant.serialize grant ≠ some .null) := by
  have hstorable := storable_of_load hpositional hload
  refine ⟨fun _ => rotate_succeeds_iff hstorable.store hname,
    revoke_succeeds_iff hstorable.store hname, fun mutation written hminted hrun => ?_⟩
  have hwritten : Storable written version :=
    run_storable hstorable.version hstorable.digests hminted hrun
  have hgrants : mutation.LeavesOthers entries (written.map TokenEntry.reread) ↔
      ∀ entry ∈ entries, ¬mutation.Replaces entry.name →
        ∀ grant, entry.grant = some grant → Grant.serialize grant ≠ some .null :=
    (leavesOthers_reread hrun).trans
      (forall₂_congr fun entry _ => imp_congr_right fun _ => reread_eq_self)
  rw [load_written hwritten, writeBody_eq, ← hgrants]
  simp only [Option.some.injEq, forall_eq']
  split_ifs with hsize <;> simp [hsize]

end

/-! ### A token without a grant, and one with none -/

/-- The grant of servers without write authority. -/
structure NoGrant where

/-- A unit struct is written as null. -/
instance : Grant NoGrant where
  validate _ := .ok ()
  subjectsAreTargets _ := false
  deserialize
    | .null => some ⟨⟩
    | _ => none
  serialize _ := some .null

instance : LawfulGrant NoGrant where
  round_trip _ := ⟨.null, rfl, rfl, Nat.zero_le _, fun _ => rfl, rfl⟩

/-- An instance of the laws: compact JSON in the place of `to_vec_pretty`, and a time as so many
strokes in the place of RFC 3339. -/
noncomputable def StoreText.sample : StoreText where
  pretty := Changeset.samplePrinter.render
  fromStr := Function.partialInv Changeset.samplePrinter.render
  fromStr_pretty j _ _ := Function.partialInv_left Printer.render_injective j
  time t := String.ofList (List.replicate (Encodable.encode t) '|')
  parseTime s := Encodable.decode s.length
  parseTime_time t := by
    rw [String.length_ofList, List.length_replicate, Encodable.encodek]
  fromTimestamp t := some t
  positional _ := none

def firstEntry (grant : Option NoGrant) : TokenEntry NoGrant :=
  { aliceFields with digest := "sha256:00", grant }

theorem firstEntry_minted (grant : Option NoGrant) :
    (Mutation.add (firstEntry grant) ⟨none, []⟩).Minted := by
  show digestPrefix.toList.isPrefixOf "sha256:00".toList = true
  decide

theorem firstEntry_added : ∀ grant : Option NoGrant,
    (Mutation.add (firstEntry grant) ⟨none, []⟩).run [] = .ok (some [firstEntry grant])
  | none => rfl
  | some ⟨⟩ => rfl

theorem firstEntry_reachable (grant : Option NoGrant) :
    Reachable (adminStep StoreText.sample) none (fun _ mutation => mutation.Minted)
      (some ([firstEntry grant], 1)) := by
  have hstep : adminStep StoreText.sample none (.add (firstEntry grant) ⟨none, []⟩) =
      some (some ([firstEntry grant], 1)) := by
    rw [adminStep, bind_some, Mutation.administer, Mutation.rewrite, firstEntry_added]
    rfl
  exact .next .start (firstEntry_minted grant) hstep

/-- Without a grant the token is read back. -/
theorem firstEntry_read_back :
    (writeBody StoreText.sample [firstEntry none] 1).bind (load StoreText.sample) =
      some ([firstEntry none], 1) := by
  refine (administration_read_back_iff StoreText.sample _ 1 (firstEntry_reachable none)).mpr
    ⟨fun body hbody => ?_, fun entry hentry grant hgrant => ?_⟩
  · rw [writeBody_eq] at hbody
    cases hbody
    decide +kernel
  · obtain rfl := mem_singleton.mp hentry
    cases hgrant

/-- A token added with `Some(NoGrant)` is read back without a grant. -/
theorem noGrant_read_as_none :
    Reachable (adminStep StoreText.sample) none (fun _ mutation => mutation.Minted)
      (some ([firstEntry (some ⟨⟩)], 1)) ∧
    (writeBody StoreText.sample [firstEntry (some ⟨⟩)] 1).bind (load StoreText.sample) =
      some ([firstEntry none], 1) ∧
    firstEntry none ≠ firstEntry (some ⟨⟩) := by
  have hstorable : Storable [firstEntry (some ⟨⟩)] 1 :=
    run_storable (Or.inl rfl) (fun _ h => absurd h not_mem_nil) (firstEntry_minted _)
      (firstEntry_added _)
  refine ⟨firstEntry_reachable _, ?_, fun h => ?_⟩
  · rw [load_written hstorable, if_pos (by decide +kernel)]
    rfl
  · cases congrArg TokenEntry.grant h

/-! ### Two tokens -/

/-- Alice's token names a tool, Bob's has no allowlist. -/
def storedTokens : List (TokenEntry NoGrant) :=
  [{ firstEntry none with tools := .allowlist ["get_facts"] }, { firstEntry none with name := "bob" }]

noncomputable def storedBody : List UInt8 :=
  StoreText.sample.pretty (documentJson StoreText.sample storedTokens 1)

theorem storedTokens_loaded : load StoreText.sample storedBody = some (storedTokens, 1) := by
  have hstorable : Storable storedTokens 1 := ⟨by rfl, .inl rfl, by decide⟩
  have hload := @load_written _ _ StoreText.sample _ _ _ hstorable
  rwa [writeBody_eq, bind_some, if_pos (by decide +kernel)] at hload

/-- While the tool is known, Bob's token can be rotated and revoked, and the rotation leaves Alice's
as it was. -/
theorem bob_rotated_and_revoked :
    (∃ written after,
      (Mutation.rotate "bob" "sha256:01" ⟨none, ["get_facts"]⟩).run storedTokens =
        .ok (some written) ∧
      (writeBody StoreText.sample written 1).bind (load StoreText.sample) = some (after, 1) ∧
      (Mutation.rotate "bob" "sha256:01" ⟨none, ["get_facts"]⟩).LeavesOthers storedTokens after) ∧
    ∃ written, (Mutation.revoke "bob" ⟨none, ["get_facts"]⟩).run storedTokens =
      .ok (some written) := by
  have hknown : ∀ entry ∈ storedTokens, ReferencesKnown ⟨none, ["get_facts"]⟩ entry := by
    simp [storedTokens, ReferencesKnown, firstEntry, aliceFields]
  obtain ⟨-, hrevoke, hleaves⟩ := rotate_and_revoke_succeed_iff StoreText.sample
    (by simp [StoreText.sample]) storedBody storedTokens 1 storedTokens_loaded ⟨none, ["get_facts"]⟩ "bob"
    ⟨_, mem_cons_of_mem _ mem_cons_self, rfl⟩
  refine ⟨?_, hrevoke.mpr fun entry hentry _ => hknown entry hentry⟩
  have hrun : (Mutation.rotate "bob" "sha256:01" ⟨none, ["get_facts"]⟩).run storedTokens =
    .ok (some [storedTokens[0], { storedTokens[1] with digest := "sha256:01" }]) := rfl
  have hminted : (Mutation.rotate (G := NoGrant) "bob" "sha256:01" ⟨none, ["get_facts"]⟩).Minted := by
    show digestPrefix.toList.isPrefixOf "sha256:01".toList = true
    decide
  have hbare : ∀ entry ∈ storedTokens, entry.grant = none := by simp [storedTokens, firstEntry]
  obtain ⟨after, hload, hothers⟩ := (hleaves _ _ hminted hrun).mpr
    ⟨fun body hbody => by
      rw [writeBody_eq] at hbody
      cases hbody
      decide +kernel,
    fun entry hentry _ grant hgrant => by
      rw [hbare entry hentry] at hgrant
      cases hgrant⟩
  exact ⟨_, after, hrun, hload, hothers⟩

/-- When the tool Alice's token names is gone, Bob's can neither be rotated nor revoked. -/
theorem unknown_tool_of_alice_stops_bob :
    load StoreText.sample storedBody = some (storedTokens, 1) ∧
    (∃ error, (Mutation.rotate "bob" "sha256:01" ⟨none, ["ping"]⟩).run storedTokens =
      .error error) ∧
    ∃ error, (Mutation.revoke "bob" ⟨none, ["ping"]⟩).run storedTokens = .error error :=
  ⟨storedTokens_loaded, ⟨_, by rfl⟩, ⟨_, by rfl⟩⟩

end Mecmcp.Auth
