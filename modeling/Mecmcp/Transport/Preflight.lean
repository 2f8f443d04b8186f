import Mecmcp.Auth.Entry

/-!
# Preflight — the scope preflight and the target permits

Two readers of one request body.  `ToolScopePreflight::check` of `preflight.rs` decides whether the
caller may make the call; `extract_targets` of `target.rs` names the devices whose permits
`target_concurrency_middleware` then takes.  Both parse the body with `serde_json`, which is the
parameter `fromSlice` here.
-/

namespace Mecmcp.Transport

open List

open Auth (ScopeSet)
open Json (getKey asObject asArray)

variable {x : String} {targets targetKeys : List String} {value request : Json}

/-! ### The fields a preflight looks at -/

/-- What a preflight sees of the caller. -/
structure CallerScopes where
  devices : ScopeSet
  tools : ScopeSet

inductive MalformedArgumentsPolicy where
  | deny
  | ignore
  deriving DecidableEq

inductive MalformedTargetPolicy where
  | deny
  | ignore
  deriving DecidableEq

inductive TargetValueShape where
  | scalar
  | nonEmptyArray
  deriving DecidableEq

structure TargetField where
  name : String
  shape : TargetValueShape
  malformed : MalformedTargetPolicy

def TargetField.scalar (name : String) : TargetField := ⟨name, .scalar, .deny⟩

structure ToolScopePreflight where
  writeTools : List String
  targetFields : List TargetField
  malformedArguments : MalformedArgumentsPolicy

/-! ### Looking into a parsed value -/

/-- `value.get(key).and_then(Value::as_str)`. -/
def getStr (key : String) (value : Json) : Option String := (getKey key value).bind Json.asStr

/-! ### The preflight -/

def valueHasShape (value : Json) : TargetValueShape → Bool
  | .scalar => (Json.asStr value).isSome
  | .nonEmptyArray => (asArray value).any fun values =>
      !values.isEmpty && values.all fun v => (Json.asStr v).isSome

def targetValueInScope (value : Json) (field : TargetField) (devices : ScopeSet) : Bool :=
  let valid := match field.shape with
    | .scalar => (Json.asStr value).any devices.allows
    | .nonEmptyArray => (asArray value).any fun names =>
        !names.isEmpty && names.all fun name => (Json.asStr name).any devices.allows
  valid || (decide (field.malformed = .ignore) && !valueHasShape value field.shape)

/-- Whether one JSON-RPC request is to be rejected. -/
def ToolScopePreflight.requestExceedsScope (preflight : ToolScopePreflight)
    (caller : CallerScopes) (value : Json) : Bool :=
  if getStr "method" value ≠ some "tools/call" then false
  else match getKey "params" value with
    | none => false
    | some params =>
      match getStr "name" params with
      | none => false
      | some tool =>
        if !caller.tools.allowsTool tool preflight.writeTools then true
        else match getKey "arguments" params with
          | none => false
          | some argumentsValue =>
            match asObject argumentsValue with
            | none => decide (preflight.malformedArguments = .deny)
            | some arguments => preflight.targetFields.any fun field =>
                (arguments.lookup field.name).any fun value =>
                  !targetValueInScope value field caller.devices

/-- The requests of a body: the elements of a batch, or the value itself. -/
def requestsOf : Json → List Json
  | .arr requests => requests
  | request => [request]

variable (fromSlice : List UInt8 → Option Value)

/-- `ToolScopePreflight::check`; a batch is denied if any of its requests is. -/
def ToolScopePreflight.check (preflight : ToolScopePreflight) (body : List UInt8)
    (caller : CallerScopes) : Except String Unit :=
  if body.isEmpty then .ok ()
  else match fromSlice body with
    | none => .ok ()
    | some value =>
      if (requestsOf value.tree).any (preflight.requestExceedsScope caller) then
        .error "insufficient_scope"
      else .ok ()

/-! ### The targets of a body -/

/-- `BTreeSet::insert`. -/
def insertTarget (target : String) : List String → List String
  | [] => [target]
  | t :: ts =>
    if target = t then t :: ts
    else if target < t then target :: t :: ts
    else t :: insertTarget target ts

def collectFieldTargets (value : Json) (targets : List String) : List String :=
  match value with
  | .str target => insertTarget target targets
  | .arr targetList => (targetList.filterMap Json.asStr).foldl (fun ts t => insertTarget t ts) targets
  | _ => targets

/-- The `arguments` object of a `tools/call` request. -/
def callArguments (request : Json) : Option (List (String × Json)) := do
  let members ← asObject request
  if (members.lookup "method").bind Json.asStr ≠ some "tools/call" then none
  let params ← (members.lookup "params").bind asObject
  (params.lookup "arguments").bind asObject

def collectRequestTargets (targetKeys : List String) (targets : List String) (request : Json) :
    List String :=
  match callArguments request with
  | none => targets
  | some arguments => targetKeys.foldl (fun targets key =>
      match arguments.lookup key with
      | some value => collectFieldTargets value targets
      | none => targets) targets

/-- Sorted, unique device names of the body's `tools/call` arguments. -/
def extractTargets (body : List UInt8) (targetKeys : List String) : List String :=
  match fromSlice body with
  | none => []
  | some value => (requestsOf value.tree).foldl (collectRequestTargets targetKeys) []

/-! ### The permits -/

/-- One permit for each target in turn; `held` are the permits out, by target. -/
def acquireAll (max : ℕ) (held : List String) : List String → Except String (List String)
  | [] => .ok []
  | target :: targets =>
    if held.count target < Nat.max max 1 then
      (acquireAll max (target :: held) targets).map (target :: ·)
    else .error target

/-- `TargetLimiter::try_acquire`: the targets a permit was taken for, or the exhausted one. -/
def tryAcquire (max : ℕ) (held targets : List String) : Except String (List String) :=
  if max = 0 ∨ targets.isEmpty then .ok [] else acquireAll max held targets

/-- `target_concurrency_middleware`: the permits a request goes on with. -/
def targetConcurrencyMiddleware (maxPerTarget : ℕ) (targetKeys held : List String)
    (body : List UInt8) : Except String (List String) :=
  if 0 < maxPerTarget then tryAcquire maxPerTarget held (extractTargets fromSlice body targetKeys)
  else .ok []

/-! ### What the two readers see -/

theorem mem_insertTarget {target : String} :
    x ∈ insertTarget target targets ↔ x = target ∨ x ∈ targets := by
  induction targets with
  | nil => simp [insertTarget]
  | cons t ts ih =>
    rw [insertTarget]
    split_ifs with heq hlt
    · subst heq
      simp
    · simp
    · rw [mem_cons, ih, mem_cons]
      tauto

/-- The names in a target value: the string itself, or the strings of an array. -/
def namesOf : Json → List String
  | .str target => [target]
  | .arr targetList => targetList.filterMap Json.asStr
  | _ => []

theorem mem_foldl_insertTarget {names : List String} :
    x ∈ names.foldl (fun ts t => insertTarget t ts) targets ↔ x ∈ names ∨ x ∈ targets := by
  induction names generalizing targets with
  | nil => simp
  | cons name names ih =>
    rw [foldl_cons, ih, mem_insertTarget, mem_cons]
    tauto

theorem mem_collectFieldTargets :
    x ∈ collectFieldTargets value targets ↔ x ∈ namesOf value ∨ x ∈ targets := by
  unfold collectFieldTargets namesOf
  split
  · simp [mem_insertTarget]
  · exact mem_foldl_insertTarget
  · simp

def requestNames (targetKeys : List String) (request : Json) : List String :=
  match callArguments request with
  | none => []
  | some arguments => targetKeys.flatMap fun key => ((arguments.lookup key).map namesOf).getD []

theorem mem_collectRequestTargets : x ∈ collectRequestTargets targetKeys targets request ↔
      x ∈ requestNames targetKeys request ∨ x ∈ targets := by
  unfold collectRequestTargets requestNames
  cases callArguments request with
  | none => simp
  | some arguments =>
    dsimp only
    induction targetKeys generalizing targets with
    | nil => simp
    | cons key keys ih =>
      rw [foldl_cons, ih, flatMap_cons, mem_append]
      cases arguments.lookup key with
      | none => simp
      | some value =>
        simp only [mem_collectFieldTargets, Option.map_some, Option.getD_some]
        tauto

theorem mem_foldl_collectRequestTargets {requests : List Json} :
    x ∈ requests.foldl (collectRequestTargets targetKeys) targets ↔
      (∃ request ∈ requests, x ∈ requestNames targetKeys request) ∨ x ∈ targets := by
  induction requests generalizing targets with
  | nil => simp
  | cons request requests ih =>
    rw [foldl_cons, ih, mem_collectRequestTargets, exists_mem_cons_iff, or_assoc,
      or_left_comm]

theorem allows_of_targetValueInScope {field : TargetField} {devices : ScopeSet}
    (hdeny : field.malformed = .deny) (hvalue : targetValueInScope value field devices = true) :
    ∀ name ∈ namesOf value, devices.allows name = true := by
  unfold targetValueInScope at hvalue
  have hignore : decide (field.malformed = .ignore) = false := by simp [hdeny]
  simp only [hignore, Bool.false_and, Bool.or_false] at hvalue
  intro name hname
  cases hshape : field.shape with
  | scalar =>
    cases value <;> simp_all [Json.asStr, namesOf]
  | nonEmptyArray =>
    rw [hshape] at hvalue
    cases value with
    | arr items =>
      simp only [asArray, Option.any_some, Bool.and_eq_true, all_eq_true] at hvalue
      obtain ⟨item, hitem, hstr⟩ := mem_filterMap.mp hname
      simpa [hstr] using hvalue.2 item hitem
    | _ => simp [asArray] at hvalue

/-! ### A request outside the scope takes no permit -/

def RequestInScope (devices : ScopeSet) (targetKeys : List String) (request : Json) : Prop :=
  ∀ name ∈ requestNames targetKeys request, devices.allows name = true

/-- The request's `params` have no string `name`. -/
def Nameless (request : Json) : Prop := (getKey "params" request).bind (getStr "name") = none

instance (request : Json) : Decidable (Nameless request) :=
  inferInstanceAs (Decidable (_ = none))

theorem callArguments_eq_some {arguments : List (String × Json)}
    (h : callArguments request = some arguments) :
    getStr "method" request = some "tools/call" ∧
      ∃ params, getKey "params" request = some params ∧
        getKey "arguments" params = some (.obj arguments) := by
  unfold callArguments at h
  cases request with
  | obj members =>
    simp only [asObject, Option.bind_eq_bind, Option.bind_some] at h
    split_ifs at h with hmethod
    · simp at h
    · obtain ⟨-, -, params, hparams, hargs⟩ : ∃ _ : Unit, True ∧ ∃ params,
          (members.lookup "params").bind asObject = some params ∧
            (params.lookup "arguments").bind asObject = some arguments := by
        simpa [Option.bind_eq_some_iff] using h
      obtain ⟨p, hp, hpobj⟩ := Option.bind_eq_some_iff.mp hparams
      obtain ⟨a, ha, haobj⟩ := Option.bind_eq_some_iff.mp hargs
      refine ⟨by simpa [getStr, getKey] using hmethod, p, hp, ?_⟩
      cases p <;> simp [asObject] at hpobj
      cases a <;> simp [asObject] at haobj
      subst hpobj haobj
      exact ha
  | _ => simp [asObject] at h

section Scope

variable {preflight : ToolScopePreflight} {caller : CallerScopes}

theorem requestInScope_of_named
    (hfields : ∀ field ∈ preflight.targetFields, field.malformed = .deny)
    (hkeys : ∀ key ∈ targetKeys, ∃ field ∈ preflight.targetFields, field.name = key)
    {request : Json} (hnamed : ¬Nameless request)
    (hpass : preflight.requestExceedsScope caller request = false) :
    RequestInScope caller.devices targetKeys request := by
  intro name hname
  unfold requestNames at hname
  cases hcall : callArguments request with
  | none => simp [hcall] at hname
  | some arguments =>
    obtain ⟨hmethod, params, hparams, hargs⟩ := callArguments_eq_some hcall
    simp only [hcall, mem_flatMap] at hname
    obtain ⟨key, hkey, hname⟩ := hname
    obtain ⟨field, hfield, rfl⟩ := hkeys key hkey
    cases hvalue : arguments.lookup field.name with
    | none => simp [hvalue] at hname
    | some value =>
      rw [hvalue, Option.map_some, Option.getD_some] at hname
      -- the checks before the target fields have all passed
      obtain ⟨tool, htool⟩ : ∃ tool, getStr "name" params = some tool := by
        simpa [Nameless, hparams, Option.ne_none_iff_exists'] using hnamed
      simp only [ToolScopePreflight.requestExceedsScope, hmethod, hparams, htool, hargs, asObject,
        ne_eq, not_true_eq_false, if_false] at hpass
      split_ifs at hpass
      have hscope := any_eq_false.mp hpass field hfield
      simp only [hvalue, Option.any_some, Bool.not_eq_true', Bool.not_eq_false] at hscope
      exact allows_of_targetValueInScope (hfields field hfield) hscope name hname

end Scope

def NamelessInScope (body : List UInt8) (devices : ScopeSet) (targetKeys : List String) : Prop :=
  ∀ value, fromSlice body = some value → ∀ request ∈ requestsOf value.tree, Nameless request →
    RequestInScope devices targetKeys request

variable {fromSlice} {body : List UInt8} {held permits : List String}

theorem mem_extractTargets {x : String} :
    x ∈ extractTargets fromSlice body targetKeys ↔
      ∃ value, fromSlice body = some value ∧ ∃ request ∈ requestsOf value.tree,
        x ∈ requestNames targetKeys request := by
  unfold extractTargets
  cases fromSlice body with
  | none => simp
  | some value => simp [mem_foldl_collectRequestTargets]

theorem check_ok {preflight : ToolScopePreflight} {caller : CallerScopes} {value : Value}
    (hne : body ≠ []) (hvalue : fromSlice body = some value)
    (hcheck : preflight.check fromSlice body caller = .ok ()) :
    ∀ request ∈ requestsOf value.tree, preflight.requestExceedsScope caller request = false := by
  have hbody : body.isEmpty = false := by simpa using hne
  unfold ToolScopePreflight.check at hcheck
  rw [hbody, hvalue] at hcheck
  simp only [Bool.false_eq_true, if_false] at hcheck
  split_ifs at hcheck with hany
  simpa using hany

theorem acquireAll_eq {max : ℕ} {targets : List String}
    (h : acquireAll max held targets = .ok permits) : permits = targets := by
  induction targets generalizing held permits with
  | nil =>
    simp only [acquireAll, Except.ok.injEq] at h
    exact h.symm
  | cons target targets ih =>
    rw [acquireAll] at h
    split_ifs at h
    cases hrest : acquireAll max (target :: held) targets with
    | error e => simp [hrest, Except.map] at h
    | ok rest =>
      simp only [hrest, Except.map, Except.ok.injEq] at h
      rw [← h, ih hrest]

theorem mem_extractTargets_of_permit {maxPerTarget : ℕ}
    (h : targetConcurrencyMiddleware fromSlice maxPerTarget targetKeys held body = .ok permits) :
    ∀ target ∈ permits, target ∈ extractTargets fromSlice body targetKeys := by
  unfold targetConcurrencyMiddleware tryAcquire at h
  intro target htarget
  split_ifs at h
  · rw [← Except.ok.inj h] at htarget
    simp at htarget
  · rwa [acquireAll_eq h] at htarget
  · rw [← Except.ok.inj h] at htarget
    simp at htarget

/-- When the preflight passes a body, the targets extracted from it are in the caller's scope
exactly if the requests without a tool name carry no other; permits are then taken for devices in
scope only.  The policy for malformed arguments plays no part: they hold no target. -/
theorem permits_in_scope (fromSlice : List UInt8 → Option Value) (preflight : ToolScopePreflight)
    (caller : CallerScopes) (targetKeys : List String) (body : List UInt8)
    (hempty : fromSlice [] = none)
    (hfields : ∀ field ∈ preflight.targetFields, field.malformed = .deny)
    (hkeys : ∀ key ∈ targetKeys, ∃ field ∈ preflight.targetFields, field.name = key)
    (hcheck : preflight.check fromSlice body caller = .ok ()) :
    ((∀ target ∈ extractTargets fromSlice body targetKeys, caller.devices.allows target = true) ↔
      NamelessInScope fromSlice body caller.devices targetKeys) ∧
    (NamelessInScope fromSlice body caller.devices targetKeys →
      ∀ (maxPerTarget : ℕ) (held permits : List String),
        targetConcurrencyMiddleware fromSlice maxPerTarget targetKeys held body = .ok permits →
        ∀ target ∈ permits, caller.devices.allows target = true) := by
  have hiff : (∀ target ∈ extractTargets fromSlice body targetKeys,
      caller.devices.allows target = true) ↔
        NamelessInScope fromSlice body caller.devices targetKeys := by
    constructor
    · intro hall value hvalue request hrequest _ name hname
      exact hall name (mem_extractTargets.mpr ⟨value, hvalue, request, hrequest, hname⟩)
    · intro hnameless target htarget
      obtain ⟨value, hvalue, request, hrequest, hname⟩ := mem_extractTargets.mp htarget
      have hne : body ≠ [] := by
        rintro rfl
        rw [hempty] at hvalue
        exact absurd hvalue (by simp)
      by_cases hn : Nameless request
      · exact hnameless value hvalue request hrequest hn target hname
      · exact requestInScope_of_named hfields hkeys hn
          (check_ok hne hvalue hcheck request hrequest) target hname
  exact ⟨hiff, fun hnameless _ _ _ hpermits target htarget =>
    hiff.mpr hnameless target (mem_extractTargets_of_permit hpermits target htarget)⟩

/-- A `tools/call` with the given `params`. -/
def toolsCall (params : List (String × Json)) : Json :=
  .obj [("method", .str "tools/call"), ("params", .obj params)]

/-- `device` checked and limited; the caller may read `edge1`. -/
def devicePreflight : ToolScopePreflight := ⟨[], [.scalar "device"], .deny⟩

def edgeCaller : CallerScopes := ⟨.allowlist ["edge1"], .wildcard⟩

def infoOnEdge1 : List UInt8 :=
  ("\x7b\"method\":\"tools/call\",\"params\":\x7b\"name\":\"get_info\"," ++
    "\"arguments\":\x7b\"device\":\"edge1\"\x7d\x7d\x7d").toUTF8.data.toList

def namelessOnEdge2 : List UInt8 :=
  ("\x7b\"method\":\"tools/call\",\"params\":\x7b" ++
    "\"arguments\":\x7b\"device\":\"edge2\"\x7d\x7d\x7d").toUTF8.data.toList

/-- A parser that knows one text. -/
def readOnly (text : List UInt8) (value : Value) (body : List UInt8) : Option Value :=
  if body = text then some value else none

/-- The call of `get_info` on `edge1` goes on with the permit of `edge1`. -/
theorem permits_in_scope_edge :
    let value : Value := ⟨toolsCall [("name", .str "get_info"),
      ("arguments", .obj [("device", .str "edge1")])], by decide⟩
    targetConcurrencyMiddleware (readOnly infoOnEdge1 value) 1 ["device"] [] infoOnEdge1 =
        .ok ["edge1"] ∧
      edgeCaller.devices.allows "edge1" = true := by
  intro value
  have hread : readOnly infoOnEdge1 value infoOnEdge1 = some value := if_pos rfl
  have hpermits : targetConcurrencyMiddleware (readOnly infoOnEdge1 value) 1 ["device"] []
      infoOnEdge1 = .ok ["edge1"] := by
    rw [targetConcurrencyMiddleware, extractTargets, hread]
    rfl
  refine ⟨hpermits, (permits_in_scope (readOnly infoOnEdge1 value) devicePreflight edgeCaller
    ["device"] infoOnEdge1 (if_neg (by decide)) ?_ ?_ ?_).2 ?_ 1 [] ["edge1"] hpermits "edge1"
    (by simp)⟩
  · simp [devicePreflight, TargetField.scalar]
  · simp [devicePreflight, TargetField.scalar]
  · rw [ToolScopePreflight.check, hread]
    rfl
  · intro v hv request hrequest hnameless
    have hvalue : value = v := Option.some.inj (hread.symm.trans hv)
    subst hvalue
    have hrequest : request = value.tree := by simpa [value, toolsCall, requestsOf] using hrequest
    subst hrequest
    exact absurd hnameless (by decide)

/-- A `tools/call` without a tool name passes the preflight and takes the permit of a device the
caller may not address. -/
theorem nameless_call_takes_permit :
    ∃ (fromSlice : List UInt8 → Option Value) (permits : List String),
      fromSlice [] = none ∧
      fromSlice namelessOnEdge2 = some
        ⟨toolsCall [("arguments", .obj [("device", .str "edge2")])], by decide⟩ ∧
      devicePreflight.check fromSlice namelessOnEdge2 edgeCaller = .ok () ∧
      targetConcurrencyMiddleware fromSlice 1 ["device"] [] namelessOnEdge2 = .ok permits ∧
      "edge2" ∈ extractTargets fromSlice namelessOnEdge2 ["device"] ∧ "edge2" ∈ permits ∧
      edgeCaller.devices.allows "edge2" = false :=
  ⟨readOnly namelessOnEdge2 ⟨toolsCall [("arguments", .obj [("device", .str "edge2")])], by decide⟩,
    ["edge2"], if_neg (by decide), if_pos rfl, rfl, rfl, by decide, by decide, by decide⟩

end Mecmcp.Transport
