import Mecmcp.Lib.Assoc
import Mecmcp.Lib.Json

/-!
# File — the three shapes of an inventory file

`mecmcp-inventory` reads a device inventory in three shapes: the canonical envelope
`version, policy, devices`, the PAN-OS envelope with an array of devices, and the Junos flat map
whose key `_blocklist_defaults` is the policy.  `migrateToCanonical` rewrites the last two as the
first, from the parsed JSON and not from the typed devices.

`Serde D P` is what `serde` does for a device type `D` and a policy type `P`.  A device is read
by two routes: from its own value (`readDevice`), and, where the map is flattened, out of the
buffer `#[serde(flatten)]` collects (`readFlattened`).  Objects keep the order of their members:
`mecmcp-changeset` turns on `serde_json/preserve_order` for every crate it is built with.

The copy kept beside the file, its mode and its owner are left out: the file is its content.
-/

namespace Mecmcp.Inventory

/-- `InventoryError`, without the variants that reading and migrating never raise. -/
inductive InventoryError where
  | invalidName (message : String)
  | duplicateName (name : String)
  | parseError (message : String)
  | unsupportedVersion (version : UInt32)
  deriving DecidableEq

/-- `validate_device_name`: 1 to 64 bytes, ASCII alphanumeric, `_`, `.` or `-`, no leading `-`. -/
def validateDeviceName (name : String) : Except InventoryError Unit :=
  if name.isEmpty ∨ name.utf8ByteSize > 64 then
    .error (.invalidName "device name must be 1-64 bytes")
  else if name.toList.head? = some '-' then
    .error (.invalidName "device name cannot start with '-'")
  else if name.toList.all (fun c => c.isAlphanum || c == '_' || c == '.' || c == '-') then
    .ok ()
  else
    .error (.invalidName "device name may only contain ASCII alphanumeric, '_', '.', or '-'")

/-- Every name of a map is checked, in the order the map is walked. -/
def validateNames {α : Type} : List (String × α) → Except InventoryError Unit
  | [] => .ok ()
  | (name, _) :: rest => (validateDeviceName name).bind fun _ => validateNames rest

/-! ### Shapes -/

inductive InventoryShape where
  | canonical
  | legacyPanos
  | legacyJunos
  deriving DecidableEq

def detectShape : Json → Except InventoryError InventoryShape
  | .obj fields =>
    match fields.lookup "version", fields.lookup "devices" with
    | some _, some (.obj _) => .ok .canonical
    | some _, some (.arr _) => .ok .legacyPanos
    | some _, some _ => .error (.parseError
        "found \"version\" and \"devices\" but \"devices\" is not an object or array")
    | some _, none => .error (.parseError
        ("found \"version\" but no \"devices\" key (found keys: " ++
          String.intercalate ", " (fields.map Prod.fst) ++
          ") — expected canonical envelope \x7b\"version\":1,\"devices\":\x7b...\x7d\x7d" ++
          " or legacy PAN-OS \x7b\"version\":1,\"devices\":[...]\x7d"))
    | none, some _ => .error (.parseError
        ("found \"devices\" but no \"version\" key — ambiguous shape " ++
          "(canonical envelope requires \"version\")"))
    | none, none => .ok .legacyJunos
  | _ => .error (.parseError "inventory must be a JSON object, found array or primitive")

/-- `unsupported_version`: the version, where it is a `u32` other than 1. -/
def unsupportedVersion (value : Json) : Option UInt32 :=
  ((value.getKey "version").bind Json.asUInt32).filter (· ≠ 1)

/-- The key of the Junos flat map that is not a device. -/
def policyKey : String := "_blocklist_defaults"

def deviceName (device : Json) : Option String :=
  (device.getKey "name").bind Json.asStr

/-! ### Rewriting -/

def sortedObject (map : List (String × Json)) : Json :=
  .obj (Assoc.sorted map)

def envelope (policy : Option Json) (devices : Json) : Json :=
  Struct.encode [("version", some (Json.ofUInt32 1)), ("policy", policy),
    ("devices", some devices)]

/-- The loop of `canonical_from_value` over the PAN-OS devices. -/
def byName : List Json → List (String × Json) → Except InventoryError (List (String × Json))
  | [], map => .ok map
  | device :: rest, map =>
    match deviceName device with
    | none => .error (.parseError "legacy PAN-OS device has no name")
    | some name => byName rest (upsert name device map)

def canonicalFromValue (shape : InventoryShape) (value : Json) : Except InventoryError Json :=
  match shape with
  | .canonical => .ok value
  | .legacyJunos =>
    match value with
    | .obj map =>
      .ok (envelope (map.lookup policyKey)
        (sortedObject (map.filter fun member => member.1 ≠ policyKey)))
    | _ => .error (.parseError "legacy Junos inventory is not an object")
  | .legacyPanos =>
    match (value.getKey "devices").bind Json.asArray with
    | none => .error (.parseError "legacy PAN-OS inventory has no devices array")
    | some devices => (byName devices []).map fun map => envelope none (sortedObject map)

/-! ### Reading -/

/-- What `serde` and `serde_json` do for a device type and a policy type. -/
structure Serde (D P : Type) where
  /-- What a file holds. -/
  Text : Type
  /-- `serde_json::to_string_pretty` and the line end `write_atomic` adds. -/
  toStringPretty : Json → Text
  /-- `serde_json::from_slice`, up to the document; `none` is a text that is not JSON, or one
  nested beyond the parser's limit. -/
  fromSlice : Text → Option Json
  jsonError : Text → String
  /-- What a float is after printing and best-effort parsing. -/
  reparse : UInt64 → UInt64
  /-- Different documents print differently. -/
  toStringPretty_inj : ∀ j j', toStringPretty j = toStringPretty j' → j = j'
  /-- Parsing what was printed gives the document back, floats apart. -/
  fromSlice_eq : ∀ j j', fromSlice (toStringPretty j) = some j' → j' = j.mapFloat reparse
  /-- The parser accepts what was printed, to a nesting of 127. -/
  fromSlice_ok : ∀ j, j.depth ≤ 127 → j.mapFloat reparse = j →
    fromSlice (toStringPretty j) = some j
  /-- The parser refuses what is nested deeper. -/
  fromSlice_deep : ∀ j, 127 < j.depth → fromSlice (toStringPretty j) = none
  /-- `serde_json::from_value::<D>`. -/
  readDevice : Json → Option D
  /-- `D` read out of the buffer of a flattened map. -/
  readFlattened : Json → Option D
  /-- `P` read from a value that is not null. -/
  readPolicy : Json → Option P
  /-- The error text of a device that does not read as `D`. -/
  deviceError : Json → String
  envelopeError : Json → String

namespace Serde

variable {D P : Type} (s : Serde D P)

/-- `serde_json::from_slice::<Value>`. -/
def parseValue (bytes : s.Text) : Except InventoryError Json :=
  match s.fromSlice bytes with
  | none => .error (.parseError (s.jsonError bytes))
  | some j => .ok j.merged

/-- `CanonicalEnvelope<D, P>` from a value. -/
def canonicalEnvelope (value : Json) : Option (UInt32 × Option P × List (String × D)) := do
  let get ← Struct.fields ["version", "policy", "devices"] true value
  let version ← Struct.req get "version" Json.asUInt32
  let policy ← Struct.opt get "policy" s.readPolicy
  let devices ← Struct.req get "devices" fun j => j.asObject.bind (Assoc.mapValues s.readDevice)
  return (version, policy, devices)

/-- `PanosEnvelope<Value>` from a value. -/
def panosEnvelope (value : Json) : Option (UInt32 × List Json) := do
  let get ← Struct.fields ["version", "devices"] true value
  let version ← Struct.req get "version" Json.asUInt32
  let devices ← Struct.req get "devices" Json.asArray
  return (version, devices)

/-- `JunosFlat<D, P>` from a value: what is not the policy is a device. -/
def junosFlat (value : Json) : Option (Option P × List (String × D)) := do
  let map ← value.asObject
  let policy ← Struct.optional s.readPolicy (map.lookup policyKey)
  let devices ← Assoc.mapValues s.readFlattened
    (map.filter fun member => member.1 ≠ policyKey)
  return (policy, devices)

/-- The loop of `parse_inventory` over the PAN-OS devices. -/
def panosDevices : ℕ → List Json → List (String × D) →
    Except InventoryError (List (String × D))
  | _, [], map => .ok map
  | idx, value :: rest, map =>
    match deviceName value with
    | none => .error (.parseError ("legacy PAN-OS envelope: device at index " ++ toString idx ++
        " missing \"name\" field"))
    | some name =>
      match validateDeviceName name with
      | .error e => .error e
      | .ok () =>
        match s.readDevice value with
        | none => .error (.parseError ("legacy PAN-OS envelope: device \"" ++ name ++ "\": " ++
            s.deviceError value))
        | some device =>
          if name ∈ map.map Prod.fst then .error (.duplicateName name)
          else panosDevices (idx + 1) rest (map ++ [(name, device)])

/-- The canonical arm of `parse_inventory`. -/
def parseCanonical (value : Json) : Except InventoryError (List (String × D) × Option P) :=
  match unsupportedVersion value with
  | some version => .error (.unsupportedVersion version)
  | none =>
    match s.canonicalEnvelope value with
    | none => .error (.parseError ("canonical envelope: " ++ s.envelopeError value))
    | some (version, policy, devices) =>
      if version ≠ 1 then .error (.unsupportedVersion version)
      else (validateNames devices).map fun _ => (devices, policy)

/-- The PAN-OS arm of `parse_inventory`; this shape has no policy. -/
def parsePanos (value : Json) : Except InventoryError (List (String × D) × Option P) :=
  match unsupportedVersion value with
  | some version => .error (.unsupportedVersion version)
  | none =>
    match panosEnvelope value with
    | none => .error (.parseError ("legacy PAN-OS envelope: " ++ s.envelopeError value))
    | some (version, devices) =>
      if version ≠ 1 then .error (.unsupportedVersion version)
      else (s.panosDevices 0 devices []).map fun map => (map, none)

/-- The Junos arm of `parse_inventory`. -/
def parseJunos (value : Json) : Except InventoryError (List (String × D) × Option P) :=
  match s.junosFlat value with
  | none => .error (.parseError ("legacy Junos flat map: " ++ s.envelopeError value))
  | some (policy, devices) => (validateNames devices).map fun _ => (devices, policy)

/-- The second phase of `parse_inventory`. -/
def parseShape (shape : InventoryShape) (value : Json) :
    Except InventoryError (List (String × D) × Option P) :=
  match shape with
  | .canonical => s.parseCanonical value
  | .legacyPanos => s.parsePanos value
  | .legacyJunos => s.parseJunos value

def parseInventory (bytes : s.Text) : Except InventoryError (List (String × D) × Option P) := do
  let value ← s.parseValue bytes
  let shape ← detectShape value
  s.parseShape shape value

/-- `MigrationReport`, without the path of the copy. -/
structure MigrationReport where
  converted : Bool
  devices : ℕ
  deriving DecidableEq

/-- `migrate_to_canonical`: the report, and what the file holds afterwards. -/
def migrateToCanonical (bytes : s.Text) : Except InventoryError (MigrationReport × s.Text) := do
  let value ← s.parseValue bytes
  let (devices, _policy) ← s.parseInventory bytes
  let shape ← detectShape value
  if shape = .canonical then
    return (⟨false, devices.length⟩, bytes)
  let canonical ← canonicalFromValue shape value
  return (⟨true, devices.length⟩, s.toStringPretty canonical)

end Serde

end Mecmcp.Inventory
