import Mecmcp.Inventory.File

/-!
# Migrate — what a migration keeps

The two readers of a legacy file, the typed one of `parse_inventory` and the raw one of
`canonical_from_value`, find the same devices under the same names (`Serde.Legacy`).  So the
canonical value always holds every device and the policy as they stood in the file.

Whether the written file is read back with the same content is another matter.  The envelope of a
flat map is one level deeper than the map, the parser stops at a nesting of 127, a float may not
survive printing, and a device read out of a flattened map may not read from its own value.
`Serde.kept_iff` says that these are all the ways.
-/

namespace Mecmcp.Inventory

open List Option

open Assoc

/-! ### The members of a legacy file -/

/-- The devices of a legacy file as they stand in it, under their names. -/
def legacyDevices (shape : InventoryShape) (value : Json) : List (String × Json) :=
  match shape with
  | .canonical => []
  | .legacyJunos => (value.asObject.getD []).filter fun member => member.1 ≠ policyKey
  | .legacyPanos =>
    (((value.getKey "devices").bind Json.asArray).getD []).filterMap fun device =>
      (deviceName device).map (·, device)

def legacyPolicy (shape : InventoryShape) (value : Json) : Option Json :=
  match shape with
  | .legacyJunos => value.getKey policyKey
  | _ => none

def Serde.reader {D P : Type} (s : Serde D P) : InventoryShape → Json → Option D
  | .legacyJunos => s.readFlattened
  | _ => s.readDevice

theorem validateNames_ok {α : Type} {l : List (String × α)} :
    validateNames l = .ok () ↔ ∀ name ∈ l.map Prod.fst, validateDeviceName name = .ok () := by
  induction l with
  | nil => simp [validateNames]
  | cons p l ih =>
    obtain ⟨name, a⟩ := p
    cases hname : validateDeviceName name with
    | error e => simp [validateNames, hname, Except.bind]
    | ok u => simp [validateNames, hname, Except.bind, ih]

/-! ### The envelope -/

section Envelope
variable {policy : Option Json} {members : List (String × Json)}

theorem fields_envelope (policy : Option Json) (devices : Json) :
    Struct.fields ["version", "policy", "devices"] true (envelope policy devices) =
      some fun n => (List.lookup n [("version", some (Json.ofUInt32 1)), ("policy", policy),
        ("devices", some devices)]).join :=
  Struct.fields_encode rfl (by decide)

theorem getKey_envelope (policy : Option Json) (devices : Json) (key : String) :
    (envelope policy devices).getKey key =
      (List.lookup key [("version", some (Json.ofUInt32 1)), ("policy", policy),
        ("devices", some devices)]).join :=
  Struct.lookup_filterMap (by simp) key

@[simp] theorem getKey_version_envelope (policy : Option Json) (devices : Json) :
    (envelope policy devices).getKey "version" = some (Json.ofUInt32 1) := by
  rw [getKey_envelope]; rfl

@[simp] theorem getKey_policy_envelope (policy : Option Json) (devices : Json) :
    (envelope policy devices).getKey "policy" = policy := by
  rw [getKey_envelope]; rfl

@[simp] theorem getKey_devices_envelope (policy : Option Json) (devices : Json) :
    (envelope policy devices).getKey "devices" = some devices := by
  rw [getKey_envelope]; rfl

theorem detectShape_envelope : detectShape (envelope policy (.obj members)) = .ok .canonical := by
  have hversion := getKey_version_envelope policy (.obj members)
  have hdevices := getKey_devices_envelope policy (.obj members)
  simp only [envelope, Struct.encode, Json.getKey] at hversion hdevices
  simp only [envelope, Struct.encode, detectShape, hversion, hdevices]

theorem unsupportedVersion_envelope (policy : Option Json) (devices : Json) :
    unsupportedVersion (envelope policy devices) = none := by
  rw [unsupportedVersion, getKey_version_envelope]
  simp

theorem envelope_inj {policy policy' : Option Json} {devices devices' : Json} :
    envelope policy devices = envelope policy' devices' ↔
      policy = policy' ∧ devices = devices' := by
  constructor
  · intro h
    have hpolicy := congrArg (Json.getKey "policy") h
    have hdevices := congrArg (Json.getKey "devices") h
    exact ⟨by simpa using hpolicy, by simpa using hdevices⟩
  · rintro ⟨rfl, rfl⟩
    rfl

theorem uniqueKeys_envelope (hpolicy : ∀ j ∈ policy, j.uniqueKeys = true)
    (hkeys : (members.map Prod.fst).Nodup) (hmembers : ∀ m ∈ members, m.2.uniqueKeys = true) :
    (envelope policy (.obj members)).uniqueKeys = true := by
  refine Struct.uniqueKeys_encode (by simp) fun m hm j hj => ?_
  fin_cases hm
  · cases hj
    rfl
  · exact hpolicy j hj
  · cases hj
    simpa [Json.uniqueKeys, hkeys] using Json.uniqueKeysFields_iff.mpr hmembers

end Envelope

namespace Serde

variable {D P : Type} (s : Serde D P)

theorem canonicalEnvelope_envelope (policy : Option Json) (members : List (String × Json)) :
    s.canonicalEnvelope (envelope policy (.obj members)) =
      (Struct.optional s.readPolicy policy).bind fun p =>
        (mapValues s.readDevice members).map fun ds => (1, p, ds) := by
  rw [canonicalEnvelope, fields_envelope]
  have hversion : Json.asUInt32 (Json.ofUInt32 1) = some 1 := Json.asUInt32_ofUInt32 1
  cases hp : Struct.optional s.readPolicy policy with
  | none => simp [Struct.req, Struct.opt, lookup_cons, hversion, hp]
  | some p =>
    cases hd : mapValues s.readDevice members with
    | none | some => simp [Struct.req, Struct.opt, lookup_cons, hversion, hp, Json.asObject, hd]

theorem parseCanonical_envelope_ok {policy : Option Json} {members : List (String × Json)}
    {p : Option P} {ds : List (String × D)} :
    s.parseCanonical (envelope policy (.obj members)) = .ok (ds, p) ↔
      Struct.optional s.readPolicy policy = some p ∧ mapValues s.readDevice members = some ds ∧
        validateNames ds = .ok () := by
  rw [parseCanonical, unsupportedVersion_envelope, canonicalEnvelope_envelope]
  cases hp : Struct.optional s.readPolicy policy with
  | none => simp
  | some p' =>
    cases hd : mapValues s.readDevice members with
    | none => simp
    | some ds' =>
      cases hv : validateNames ds' with
      | error e =>
        constructor
        · intro h
          simp [hv, Except.map] at h
        · rintro ⟨-, ⟨⟩, hok⟩
          simp [hv] at hok
      | ok u =>
        constructor
        · intro h
          obtain ⟨rfl, rfl⟩ : ds' = ds ∧ p' = p := by simpa [hv, Except.map] using h
          exact ⟨rfl, rfl, hv⟩
        · rintro ⟨⟨⟩, ⟨⟩, -⟩
          simp [hv, Except.map]

/-! ### The two readers of a legacy file -/

/-- What `parse_inventory` has checked of a legacy file it accepts. -/
structure Legacy (shape : InventoryShape) (value : Json) (devices : List (String × D))
    (policy : Option P) : Prop where
  /-- No two devices share a name. -/
  nodup : ((legacyDevices shape value).map Prod.fst).Nodup
  names : ∀ name ∈ (legacyDevices shape value).map Prod.fst, validateDeviceName name = .ok ()
  read : mapValues (s.reader shape) (legacyDevices shape value) = some devices
  policy : Struct.optional s.readPolicy (legacyPolicy shape value) = some policy
  /-- The raw reader finds the same devices and the same policy. -/
  canonical : canonicalFromValue shape value =
    .ok (envelope (legacyPolicy shape value) (sortedObject (legacyDevices shape value)))

theorem panosDevices_ok {values : List Json} {idx : ℕ} {map out : List (String × D)}
    {raw : List (String × Json)} (hraw : mapValues s.readDevice raw = some map)
    (hnodup : (raw.map Prod.fst).Nodup)
    (hnames : ∀ name ∈ raw.map Prod.fst, validateDeviceName name = .ok ())
    (h : s.panosDevices idx values map = .ok out) :
    ∃ all, all = raw ++ values.filterMap (fun device => (deviceName device).map (·, device)) ∧
      mapValues s.readDevice all = some out ∧ (all.map Prod.fst).Nodup ∧
      (∀ name ∈ all.map Prod.fst, validateDeviceName name = .ok ()) ∧
      byName values raw = .ok all := by
  induction values generalizing idx map raw with
  | nil =>
    obtain rfl : map = out := by simpa [panosDevices] using h
    exact ⟨raw, by simp, hraw, hnodup, hnames, rfl⟩
  | cons value values ih =>
    cases hname : deviceName value with
    | none => simp [panosDevices, hname] at h
    | some name =>
      cases hvalid : validateDeviceName name with
      | error e => simp [panosDevices, hname, hvalid] at h
      | ok u =>
        cases hread : s.readDevice value with
        | none => simp [panosDevices, hname, hvalid, hread] at h
        | some device =>
          have hkeys : map.map Prod.fst = raw.map Prod.fst := keys_mapValues hraw
          by_cases hmem : name ∈ map.map Prod.fst
          · rw [panosDevices, hname] at h
            simp only [hvalid, hread, if_pos hmem] at h
            cases h
          · -- a new name goes to the end of both maps
            have hnew : name ∉ raw.map Prod.fst := hkeys ▸ hmem
            have hstep : s.panosDevices (idx + 1) values (map ++ [(name, device)]) = .ok out := by
              rw [panosDevices, hname] at h
              simpa only [hvalid, hread, if_neg hmem] using h
            have hnodup' : ((raw ++ [(name, value)]).map Prod.fst).Nodup := by
              rw [← upsert_of_not_mem hnew]
              exact nodup_keys_upsert hnodup
            have hnames' : ∀ n ∈ (raw ++ [(name, value)]).map Prod.fst,
                validateDeviceName n = .ok () := by
              intro n hn
              rw [map_append, mem_append] at hn
              rcases hn with hn | hn
              · exact hnames n hn
              · obtain rfl : n = name := by simpa using hn
                exact hvalid
            obtain ⟨all, hall, hmap, hdistinct, hvalidAll, hby⟩ :=
              ih (mapValues_append_singleton hraw hread) hnodup' hnames' hstep
            refine ⟨all, ?_, hmap, hdistinct, hvalidAll, ?_⟩
            · rw [hall, filterMap_cons, hname]
              simp
            · rw [byName, hname]
              simpa only [upsert_of_not_mem hnew] using hby

theorem panosEnvelope_devices {value : Json} {version : UInt32} {devices : List Json}
    (h : panosEnvelope value = some (version, devices)) :
    value.getKey "devices" = some (.arr devices) := by
  cases value with
  | obj fields =>
    simp only [panosEnvelope, Struct.fields, Struct.req] at h
    split_ifs at h with hfields
    · cases hdevices : fields.lookup "devices" with
      | none => simp [hdevices] at h
      | some j =>
        cases j with
        | arr items =>
          simp only [bind_eq_bind, bind_some, hdevices, Json.asArray,
            bind_eq_some_iff, Option.pure_def, Option.some.injEq, Prod.mk.injEq] at h
          obtain ⟨_, _, _, rfl⟩ := h
          exact hdevices
        | _ => simp [hdevices, Json.asArray] at h
    · simp at h
  | _ => simp [panosEnvelope, Struct.fields] at h

theorem legacy_of_parsePanos {value : Json} {devices : List (String × D)} {policy : Option P}
    (h : s.parsePanos value = .ok (devices, policy)) :
    s.Legacy .legacyPanos value devices policy := by
  rw [parsePanos] at h
  cases hunsupported : unsupportedVersion value with
  | some version => simp [hunsupported] at h
  | none =>
    cases henvelope : panosEnvelope value with
    | none => simp [hunsupported, henvelope] at h
    | some read =>
      obtain ⟨version, items⟩ := read
      have hdevices : (value.getKey "devices").bind Json.asArray = some items := by
        rw [panosEnvelope_devices henvelope]
        rfl
      by_cases hversion : version = 1
      · cases hloop : s.panosDevices 0 items [] with
        | error e => simp [hunsupported, henvelope, hversion, hloop, Except.map] at h
        | ok out =>
          obtain ⟨rfl, rfl⟩ : out = devices ∧ none = policy := by
            simpa [hunsupported, henvelope, hversion, hloop, Except.map] using h
          obtain ⟨all, hall, hmap, hnodup, hnames, hby⟩ :=
            @panosDevices_ok D P s items 0 [] out [] rfl (by simp) (by simp) hloop
          have hlegacy : legacyDevices .legacyPanos value = all := by
            rw [hall, legacyDevices, hdevices]
            rfl
          refine ⟨?_, ?_, ?_, rfl, ?_⟩
          · rwa [hlegacy]
          · rwa [hlegacy]
          · rwa [hlegacy]
          · rw [hlegacy]
            simp [canonicalFromValue, hdevices, hby, Except.map, legacyPolicy]
      · simp [hunsupported, henvelope, hversion] at h

theorem legacy_of_parseJunos {value : Json} {devices : List (String × D)} {policy : Option P}
    (hunique : value.uniqueKeys = true) (h : s.parseJunos value = .ok (devices, policy)) :
    s.Legacy .legacyJunos value devices policy := by
  cases value with
  | obj fields =>
    have hkeys : (fields.map Prod.fst).Nodup := by
      simp only [Json.uniqueKeys, Bool.and_eq_true, decide_eq_true_eq] at hunique
      exact hunique.1
    cases hpolicy : Struct.optional s.readPolicy (fields.lookup policyKey) with
    | none => simp [parseJunos, junosFlat, Json.asObject, hpolicy] at h
    | some p =>
      cases hread : mapValues s.readFlattened
          (fields.filter fun member => member.1 ≠ policyKey) with
      | none =>
        simp only [parseJunos, junosFlat, Json.asObject, bind_eq_bind, bind_some,
          hpolicy, hread, bind_none] at h
        cases h
      | some ds =>
        simp only [parseJunos, junosFlat, Json.asObject, bind_eq_bind, bind_some,
          hpolicy, hread, Option.pure_def] at h
        cases hvalid : validateNames ds with
        | error e => simp [hvalid, Except.map] at h
        | ok u =>
          obtain ⟨rfl, rfl⟩ : ds = devices ∧ p = policy := by
            simpa [hvalid, Except.map] using h
          refine ⟨?_, ?_, hread, hpolicy, rfl⟩
          · exact hkeys.sublist (filter_sublist.map _)
          · have hnames := validateNames_ok.mp hvalid
            rwa [keys_mapValues hread] at hnames
  | _ => simp [parseJunos, junosFlat, Json.asObject] at h

/-- A file that `parse_inventory` accepts in a legacy shape. -/
structure AcceptedLegacy (bytes : s.Text) (shape : InventoryShape) (value : Json)
    (devices : List (String × D)) (policy : Option P) : Prop where
  isValue : s.parseValue bytes = .ok value
  isShape : detectShape value = .ok shape
  old : shape ≠ .canonical
  parsed : s.parseInventory bytes = .ok (devices, policy)

variable {s} {bytes : s.Text} {shape : InventoryShape} {value : Json}
  {devices : List (String × D)} {policy : Option P} {j : Json}

theorem parseValue_of_fromSlice (h : s.fromSlice bytes = some j) :
    s.parseValue bytes = .ok j.merged := by
  rw [parseValue, h]

theorem uniqueKeys_parseValue (h : s.parseValue bytes = .ok value) : value.uniqueKeys = true := by
  rw [parseValue] at h
  split at h
  · cases h
  · cases h
    exact Json.uniqueKeys_merged _

theorem AcceptedLegacy.legacy (h : s.AcceptedLegacy bytes shape value devices policy) :
    s.Legacy shape value devices policy := by
  have hparsed := h.parsed
  simp only [parseInventory, h.isValue, h.isShape, bind, Except.bind] at hparsed
  cases shape with
  | canonical => exact absurd rfl h.old
  | legacyPanos => exact s.legacy_of_parsePanos hparsed
  | legacyJunos => exact s.legacy_of_parseJunos (uniqueKeys_parseValue h.isValue) hparsed

theorem AcceptedLegacy.uniqueKeys_canonical
    (h : s.AcceptedLegacy bytes shape value devices policy) :
    (envelope (legacyPolicy shape value)
      (sortedObject (legacyDevices shape value))).uniqueKeys = true := by
  have hunique := uniqueKeys_parseValue h.isValue
  refine uniqueKeys_envelope (fun j hj => ?_) (nodup_keys_sorted h.legacy.nodup) fun m hm => ?_
  · cases shape with
    | legacyJunos => exact Json.uniqueKeys_getKey hunique hj
    | _ => cases hj
  · have hmem := (sorted_perm _).mem_iff.mp hm
    cases shape with
    | canonical => cases hmem
    | legacyJunos =>
      cases value with
      | obj fields => exact Json.uniqueKeys_member hunique (mem_of_mem_filter hmem)
      | _ => cases hmem
    | legacyPanos =>
      obtain ⟨device, hdevice, hname⟩ := mem_filterMap.mp hmem
      obtain ⟨name, -, rfl⟩ := map_eq_some_iff.mp hname
      cases harr : (value.getKey "devices").bind Json.asArray with
      | none => simp [harr] at hdevice
      | some items =>
        obtain ⟨j, hj, hitems⟩ := bind_eq_some_iff.mp harr
        cases j with
        | arr items' =>
          obtain rfl : items' = items := by simpa [Json.asArray] using hitems
          exact Json.uniqueKeys_item (Json.uniqueKeys_getKey hunique hj)
            (by simpa [harr] using hdevice)
        | _ => simp [Json.asArray] at hitems

/-! ### Reading what was written -/

/-- Printing and parsing give a document back within the parser's limit, if its floats survive. -/
theorem fromSlice_self_iff (s : Serde D P) (j : Json) :
    s.fromSlice (s.toStringPretty j) = some j ↔ j.depth ≤ 127 ∧ j.mapFloat s.reparse = j := by
  constructor
  · intro h
    refine ⟨?_, (s.fromSlice_eq j j h).symm⟩
    by_contra hdeep
    rw [s.fromSlice_deep j (by omega)] at h
    cases h
  · rintro ⟨hdepth, hfloat⟩
    exact s.fromSlice_ok j hdepth hfloat

theorem parseValue_self_iff (s : Serde D P) (hunique : j.uniqueKeys = true) :
    s.parseValue (s.toStringPretty j) = .ok j ↔ j.depth ≤ 127 ∧ j.mapFloat s.reparse = j := by
  rw [← fromSlice_self_iff, parseValue]
  cases hslice : s.fromSlice (s.toStringPretty j) with
  | none => simp
  | some j' =>
    -- what is parsed differs in its floats only, so there is no repeated member to merge
    have hj' : j'.uniqueKeys = true := by
      rw [s.fromSlice_eq j j' hslice, Json.uniqueKeys_mapFloat, hunique]
    simp [Json.merged_of_uniqueKeys j' hj']

/-- The written file is read as canonical, with the same content, and stays as it is. -/
structure Kept (s : Serde D P) (canonical : Json) (devices : List (String × D))
    (policy : Option P) : Prop where
  reread : s.parseValue (s.toStringPretty canonical) = .ok canonical
  shape : detectShape canonical = .ok .canonical
  parsed : ∃ devices', s.parseInventory (s.toStringPretty canonical) = .ok (devices', policy) ∧
    ∀ name, devices'.lookup name = devices.lookup name
  again : ∃ report, s.migrateToCanonical (s.toStringPretty canonical) =
    .ok (report, s.toStringPretty canonical) ∧ report.converted = false

variable {canonical : Json}

theorem parseInventory_reread (hreread : s.parseValue (s.toStringPretty canonical) = .ok canonical)
    (hshape : detectShape canonical = .ok .canonical) :
    s.parseInventory (s.toStringPretty canonical) = s.parseCanonical canonical := by
  simp only [parseInventory, hreread, hshape, bind, Except.bind, parseShape]

variable {devices' : List (String × D)}

theorem migrateToCanonical_reread (hvalue : s.parseValue bytes = .ok canonical)
    (hshape : detectShape canonical = .ok .canonical)
    (hparsed : s.parseInventory bytes = .ok (devices', policy)) :
    s.migrateToCanonical bytes = .ok (⟨false, devices'.length⟩, bytes) := by
  simp [migrateToCanonical, hvalue, hshape, hparsed, bind, Except.bind, pure, Except.pure]

theorem Legacy.parseCanonical_iff (h : s.Legacy shape value devices policy) :
    (∃ devices', s.parseCanonical (envelope (legacyPolicy shape value)
        (sortedObject (legacyDevices shape value))) = .ok (devices', policy) ∧
      ∀ name, devices'.lookup name = devices.lookup name) ↔
    ∀ m ∈ legacyDevices shape value, s.readDevice m.2 = s.reader shape m.2 := by
  have hread : ∀ name, devices.lookup name =
      ((legacyDevices shape value).lookup name).bind (s.reader shape) :=
    lookup_mapValues h.read
  constructor
  · rintro ⟨devices', hparsed, hsame⟩ ⟨name, j⟩ hmem
    obtain ⟨-, hdevices', -⟩ := s.parseCanonical_envelope_ok.mp hparsed
    have hlookup := (mem_iff_lookup h.nodup).mp hmem
    have hnew := lookup_mapValues hdevices' name
    rw [lookup_sorted h.nodup, hlookup, hsame, hread, hlookup] at hnew
    exact hnew.symm
  · intro hroutes
    have hsome : (mapValues s.readDevice (sorted (legacyDevices shape value))).isSome := by
      rw [mapValues_isSome_iff]
      intro m hm
      have hmem := (sorted_perm _).mem_iff.mp hm
      rw [hroutes m hmem]
      exact mapValues_isSome_iff.mp (by simp [h.read]) m hmem
    obtain ⟨devices', hdevices'⟩ := isSome_iff_exists.mp hsome
    refine ⟨devices', s.parseCanonical_envelope_ok.mpr ⟨h.policy, hdevices', ?_⟩, fun name => ?_⟩
    · rw [validateNames_ok, keys_mapValues hdevices']
      intro name hname
      exact h.names name (((sorted_perm _).map Prod.fst).mem_iff.mp hname)
    · rw [lookup_mapValues hdevices', lookup_sorted h.nodup, hread]
      cases hlookup : (legacyDevices shape value).lookup name with
      | none => rfl
      | some j => exact hroutes (name, j) ((mem_iff_lookup h.nodup).mpr hlookup)

/-- A migration keeps the inventory exactly if the written document can be parsed back and every
device reads the same from its own value. -/
theorem AcceptedLegacy.kept_iff (h : s.AcceptedLegacy bytes shape value devices policy)
    (hcanonical : canonicalFromValue shape value = .ok canonical) :
    s.Kept canonical devices policy ↔
      canonical.depth ≤ 127 ∧ canonical.mapFloat s.reparse = canonical ∧
        ∀ m ∈ legacyDevices shape value, s.readDevice m.2 = s.reader shape m.2 := by
  cases h.legacy.canonical.symm.trans hcanonical
  rw [← and_assoc, ← parseValue_self_iff s h.uniqueKeys_canonical]
  constructor
  · intro hkept
    refine ⟨hkept.reread, h.legacy.parseCanonical_iff.mp ?_⟩
    rw [← parseInventory_reread hkept.reread hkept.shape]
    exact hkept.parsed
  · rintro ⟨hreread, hroutes⟩
    obtain ⟨devices', hparsed, hsame⟩ := h.legacy.parseCanonical_iff.mpr hroutes
    rw [← parseInventory_reread hreread detectShape_envelope] at hparsed
    exact
      { reread := hreread
        shape := detectShape_envelope
        parsed := ⟨devices', hparsed, hsame⟩
        again := ⟨_, migrateToCanonical_reread hreread detectShape_envelope hparsed, rfl⟩ }

theorem AcceptedLegacy.migrateToCanonical_eq (h : s.AcceptedLegacy bytes shape value devices policy)
    (hcanonical : canonicalFromValue shape value = .ok canonical) :
    s.migrateToCanonical bytes = .ok (⟨true, devices.length⟩, s.toStringPretty canonical) := by
  simp [migrateToCanonical, h.isValue, h.isShape, h.parsed, h.old, hcanonical, bind, Except.bind,
    pure, Except.pure]

theorem Legacy.canonical_eq_iff (h : s.Legacy shape value devices policy)
    {shape' : InventoryShape} {value' : Json} {policy' : Option P}
    (h' : s.Legacy shape' value' devices' policy') :
    envelope (legacyPolicy shape' value') (sortedObject (legacyDevices shape' value')) =
        envelope (legacyPolicy shape value) (sortedObject (legacyDevices shape value)) ↔
      (∀ name, (legacyDevices shape' value').lookup name =
        (legacyDevices shape value).lookup name) ∧
      legacyPolicy shape' value' = legacyPolicy shape value := by
  rw [envelope_inj, and_comm, sortedObject, sortedObject, Json.obj.injEq,
    sorted_eq_iff h'.nodup h.nodup]

end Serde

/-! ### Devices that are plain values -/

/-- Devices and policies of type `serde_json::Value`, over files that are documents. -/
def valueSerde : Serde Json Json where
  Text := Json
  toStringPretty := id
  fromSlice j := if j.depth ≤ 127 then some j else none
  jsonError _ := "recursion limit exceeded"
  reparse := id
  toStringPretty_inj _ _ h := h
  fromSlice_eq j j' h := by
    rw [Json.mapFloat_id]
    split at h
    · exact (Option.some.inj h).symm
    · cases h
  fromSlice_ok j hdepth _ := if_pos hdepth
  fromSlice_deep j hdepth := if_neg (by simpa using hdepth)
  readDevice := some
  readFlattened := some
  readPolicy := some
  deviceError _ := ""
  envelopeError _ := ""

/-- An array in an array, `n` deep. -/
def nested : ℕ → Json
  | 0 => .null
  | n + 1 => .arr [nested n]

theorem depth_nested (n : ℕ) : (nested n).depth = n := by
  induction n with
  | zero => rfl
  | succ n ih => simp [nested, Json.depth, Json.depthItems, ih, Nat.add_comm]

theorem merged_nested (n : ℕ) : (nested n).merged = nested n := by
  induction n with
  | zero => rfl
  | succ n ih => simp [nested, Json.merged, Json.mergedItems, ih]

def flatFile (n : ℕ) : Json := .obj [("r1", nested n)]

theorem flatFile_accepted {n : ℕ} (hn : n ≤ 126) :
    valueSerde.AcceptedLegacy (flatFile n) .legacyJunos (flatFile n) [("r1", nested n)] none := by
  have hdepth : (flatFile n).depth ≤ 127 := by
    rw [flatFile, Json.depth, Json.depthFields, Json.depthFields, depth_nested]
    omega
  have hslice : valueSerde.fromSlice (flatFile n) = some (flatFile n) := if_pos hdepth
  have hmerged : (flatFile n).merged = flatFile n := by
    simp [flatFile, Json.merged, Json.mergedFields, upsert, merged_nested]
  have hvalue : valueSerde.parseValue (flatFile n) = .ok (flatFile n) :=
    (Serde.parseValue_of_fromSlice hslice).trans (congrArg Except.ok hmerged)
  have hshape : detectShape (flatFile n) = .ok .legacyJunos := rfl
  have hname : validateDeviceName "r1" = .ok () := by decide +kernel
  refine ⟨hvalue, hshape, by decide, ?_⟩
  simp only [Serde.parseInventory, hvalue, hshape, bind, Except.bind, Serde.parseShape]
  rw [Serde.parseJunos]
  have hflat : valueSerde.junosFlat (flatFile n) = some (none, [("r1", nested n)]) := rfl
  simp [hflat, validateNames, hname, Except.bind, Except.map]

/-! ### The theorem -/

end Mecmcp.Inventory
