import Mecmcp.Changeset.Threads

/-!
# Lifecycle — operations over whole runs

What became of an operation between two held states is one relation, `Continues`: its id, device and
endpoint are fixed and a terminal state is final.  `NewState.operations` says that every state a step
produces has the operations of one held state, continued, and at most one fresh reservation, which
`insert` checked against every operation that is not terminal.

From it: no two operations that are not terminal share a device or an endpoint
(`one_unreconciled_operation`).
-/

namespace Mecmcp.Changeset

variable {C : Crates} {V : Vendor} {path : Option String} {w : World C V} {record : OperationRecord}
  {text endpoint : String}
variable {request : Request V} {h : History V}

/-! ### What becomes of an operation -/

structure Continues (record next : OperationRecord) : Prop where
  id : next.id = record.id
  device : next.device = record.device
  endpoint : next.endpoint = record.endpoint
  terminal : record.state.terminal = true → next.state = record.state

theorem continues_refl (record : OperationRecord) : Continues record record :=
  ⟨rfl, rfl, rfl, fun _ => rfl⟩

theorem OperationWrite.continues
    {before after : OperationRecord} (hw : OperationWrite request h before after) :
    Continues before after where
  id := hw.id
  device := hw.device
  endpoint := hw.endpoint
  terminal hterminal := by
    rw [World.lifecycleEdge_source hw.edge] at hterminal
    cases hterminal

theorem readBack_continues (f : UInt64 → UInt64) (record : OperationRecord) :
    Continues record (record.mapFloat f) := ⟨rfl, rfl, rfl, fun _ => rfl⟩

theorem recoverOperation_eq (stagedRecovery : StagedRecovery) (record : OperationRecord) :
    ∃ state details, recoverOperation stagedRecovery record = { record with state, details } ∧
      (state = record.state ∨ state = .indeterminate ∧ record.state.terminal = false) := by
  unfold recoverOperation
  split
  · exact ⟨_, _, rfl, .inl rfl⟩
  · split
    case h_5 => exact ⟨_, _, rfl, .inl rfl⟩
    all_goals
      next hstate => exact ⟨_, _, rfl, .inr ⟨rfl, by rw [hstate]; rfl⟩⟩

theorem recovered_continues (stagedRecovery : StagedRecovery) (f : UInt64 → UInt64)
    (record : OperationRecord) :
    Continues record (recoverOperation stagedRecovery (record.mapFloat f)) := by
  obtain ⟨state, details, heq, hstate⟩ := recoverOperation_eq stagedRecovery (record.mapFloat f)
  rw [heq]
  refine ⟨rfl, rfl, rfl, fun hterminal => ?_⟩
  obtain rfl | ⟨-, hopen⟩ := hstate
  · rfl
  · rw [show record.state.terminal = false from hopen] at hterminal
    cases hterminal

theorem resolved_continues {f : UInt64 → UInt64}
    (disposition : RecoveryDisposition) (hopen : record.state.terminal = false) :
    Continues record ((record.mapFloat f).resolvedAs disposition) :=
  ⟨rfl, rfl, rfl, fun hterminal => by rw [hopen] at hterminal; cases hterminal⟩

def CanonicalEndpoint (C : Crates) (endpoint : String) : Prop :=
  ∃ text url host, C.urlParse text = .ok url ∧ url.host = some host ∧ endpoint = url.canonical host

theorem canonicalizeEndpoint_ok
    (h : canonicalizeEndpoint C text = .ok endpoint) : CanonicalEndpoint C endpoint := by
  unfold canonicalizeEndpoint at h
  split at h
  · cases h
  · next url hurl =>
    split at h
    · cases h
    · next host hhost => exact ⟨text, url, host, hurl, hhost, (Except.ok.inj h).symm⟩

theorem canonicalizeHttpsEndpoint_ok
    (h : canonicalizeHttpsEndpoint C text = .ok endpoint) : CanonicalEndpoint C endpoint := by
  unfold canonicalizeHttpsEndpoint at h
  split at h
  · cases h
  · split at h
    · cases h
    · next url hurl =>
      split at h
      · cases h
      · split at h
        · cases h
        · next host hhost => exact ⟨text, url, host, hurl, hhost, (Except.ok.inj h).symm⟩

theorem Reserves.canonical (hr : Reserves C request h record) :
    CanonicalEndpoint C record.endpoint := by
  cases hr with
  | stage args operationId endpoint values onError hrequest hendpoint =>
    exact canonicalizeHttpsEndpoint_ok hendpoint
  | apply args operationId endpoint changeSet actions hrequest hendpoint =>
    exact canonicalizeEndpoint_ok hendpoint

namespace World

section
variable {a : Action V} {state : ChangesetState}

inductive OperationsFrom (w : World C V) (state : ChangesetState) : Prop where
  | kept (held : ChangesetState) (hheld : w.Holds held)
      (h : ∀ (id : String) next, state.operations[id]? = some next →
        ∃ record, held.operations[id]? = some record ∧ Continues record next)
  /-- a reservation: no operation that is not terminal blocks it -/
  | inserted (record : OperationRecord) (request : Request V) (known : History V)
      (hreserves : Reserves C request known record) (hnew : ¬ Introduced w.trace record.id)
      (h : ∀ (id : String) next, state.operations[id]? = some next →
        id = record.id ∧ next = record ∨
        w.store.mem.operations[id]? = some next ∧ next.blocks record = false)

theorem operationsFrom_empty : OperationsFrom w .empty :=
  .kept w.store.mem (.inl rfl) fun id next h => by simp [ChangesetState.empty] at h

theorem operationsFrom_call {self : Config} {t : ℕ} {request : Request V} {c : Call V}
    {answer : c.Answer} {mid : World C V} {events : List Event} (hc : Conducted w)
    (hkeyed : Keyed w.store.mem) (ha : Agrees w t (historyOf w.trace t))
    (hj : Justified C self request (historyOf w.trace t) c)
    (hexec : Executed w self t c answer mid events)
    (hl : state = mid.store.mem ∨ .wrote state ∈ events) : OperationsFrom w state := by
  have hmoves := (exec_moves hkeyed hexec hl).operations
  have hmoved := operation_moved hmoves hj ha hc.fresh
  -- an insert that put its record is the only way a record appears
  have hkept : (∀ record : OperationRecord, c = .insert record →
      state.operations[record.id]? ≠ some record) → OperationsFrom w state := by
    intro hno
    refine .kept w.store.mem (.inl rfl) fun id next hnext => ?_
    have hm := hmoved id
    rw [hnext] at hm
    generalize hbefore : w.store.mem.operations[id]? = before at hm
    cases hm with
    | same => exact ⟨next, rfl, continues_refl next⟩
    | updated before _ _ _ _ hwrite => exact ⟨before, rfl, hwrite.continues⟩
    | inserted _ hcall hid => exact absurd (hid ▸ hnext) (hno next hcall)
  by_cases hinsert : ∃ record, c = .insert record ∧ state.operations[record.id]? = some record
  · obtain ⟨record, rfl, hput⟩ := hinsert
    have hj' := hj
    obtain ⟨-, hnone, hreserves⟩ := hj'
    have hfresh := hc.fresh.unheld (reserves_drawn hreserves) hnone (.inl rfl)
    cases hmoves with
    | same heq =>
      rw [heq, hfresh] at hput
      cases hput
    | evicted _ _ heq =>
      have hold : w.store.mem.operations[record.id]? = some record := by
        obtain heq | heq := heq
        · exact evictTerminal_some (heq ▸ hput)
        · rw [heq, getElem?_eraseOperation] at hput
          split at hput
          · cases hput
          · exact evictTerminal_some hput
      rw [hfresh] at hold
      cases hold
    | updated _ hcall | removed _ hcall => cases hcall
    | inserted _ hcall hfree heq =>
      cases hcall
      refine .inserted record request _ hreserves
        (hc.fresh.unintroduced (reserves_drawn hreserves) hnone) fun id next hnext => ?_
      rw [heq, getElem?_putOperation] at hnext
      split at hnext
      · next hid => exact .inl ⟨hid, (Option.some.inj hnext).symm⟩
      · exact .inr ⟨evictTerminal_some hnext, anyOperation_false hfree hnext⟩
  · exact hkept fun record hcall hput => hinsert ⟨record, hcall, hput⟩

/-- **Where the operations of a run come from.** -/
theorem NewState.operations {ok : World C V → Action V → Prop} (hr : Reached path ok w)
    (hn : NewState path w a state) : OperationsFrom w state := by
  cases hn with
  | stopped => exact operationsFrom_empty
  | executed t choice self request c next answer mid events _ hself hthread hexec hl =>
    have hkeyed := reached_keyed hr (.inl rfl)
    obtain ⟨ha, hj, -⟩ := (reached_conducted hr).advance hkeyed hself hthread hexec
    exact operationsFrom_call (reached_conducted hr) hkeyed ha hj hexec hl
  | recovered args env hself hloads =>
    cases him : w.image with
    | none =>
      refine .kept _ (.inl rfl) fun id next hnext => ?_
      obtain ⟨held, -, hheld, -⟩ := recovered_operation hnext
      rw [him] at hheld
      cases hheld
    | some held =>
      refine .kept held (.inr him) fun id next hnext => ?_
      obtain ⟨held', record, hheld, hrecord, rfl⟩ := recovered_operation hnext
      cases him.symm.trans hheld
      exact ⟨record, hrecord, recovered_continues _ _ record⟩
  | resolved operationId disposition confirmation limits env found hfound hopen hloads =>
    obtain ⟨held, original, him, horiginal, rfl⟩ := readBack_operation hfound
    refine .kept held (.inr him) fun id next hnext => ?_
    rw [getElem?_putOperation] at hnext
    split at hnext
    · next hid =>
      cases hnext
      exact ⟨original, hid ▸ horiginal, resolved_continues disposition hopen⟩
    · obtain ⟨held', record, hheld, hrecord, rfl⟩ := readBack_operation hnext
      cases him.symm.trans hheld
      exact ⟨record, hrecord, readBack_continues _ record⟩

end

end World

/-! ### Exclusivity -/

/-- No two operations that are not terminal share a device or a canonical endpoint. -/
structure OneUnreconciled (C : Crates) (state : ChangesetState) : Prop where
  canonical : ∀ (id : String) record, state.operations[id]? = some record →
    CanonicalEndpoint C record.endpoint
  apart : ∀ (id₁ id₂ : String) r₁ r₂, state.operations[id₁]? = some r₁ →
    state.operations[id₂]? = some r₂ → id₁ ≠ id₂ →
    r₁.state.terminal = false → r₂.state.terminal = false →
    r₁.device ≠ r₂.device ∧ r₁.endpoint ≠ r₂.endpoint

theorem Continues.open {record next : OperationRecord} (h : Continues record next)
    (hopen : next.state.terminal = false) : record.state.terminal = false := by
  cases hterminal : record.state.terminal with
  | false => rfl
  | true =>
    rw [h.terminal hterminal, hterminal] at hopen
    cases hopen

theorem not_blocks {existing record : OperationRecord} (h : existing.blocks record = false)
    (hopen : existing.state.terminal = false) :
    existing.device ≠ record.device ∧ existing.endpoint ≠ record.endpoint := by
  simpa [OperationRecord.blocks, hopen] using h

theorem oneUnreconciled_of_from {state : ChangesetState} (hfrom : w.OperationsFrom state)
    (hheld : ∀ held, w.Holds held → OneUnreconciled C held) : OneUnreconciled C state := by
  cases hfrom with
  | kept held hholds h =>
    have hold := hheld held hholds
    refine ⟨fun id next hnext => ?_, fun id₁ id₂ n₁ n₂ h₁ h₂ hne ho₁ ho₂ => ?_⟩
    · obtain ⟨record, hrecord, hcontinues⟩ := h id next hnext
      rw [hcontinues.endpoint]
      exact hold.canonical id record hrecord
    · obtain ⟨r₁, hr₁, hc₁⟩ := h id₁ n₁ h₁
      obtain ⟨r₂, hr₂, hc₂⟩ := h id₂ n₂ h₂
      rw [hc₁.device, hc₂.device, hc₁.endpoint, hc₂.endpoint]
      exact hold.apart id₁ id₂ r₁ r₂ hr₁ hr₂ hne (hc₁.open ho₁) (hc₂.open ho₂)
  | inserted record request known hreserves hnew h =>
    have hold := hheld w.store.mem (.inl rfl)
    refine ⟨fun id next hnext => ?_, fun id₁ id₂ n₁ n₂ h₁ h₂ hne ho₁ ho₂ => ?_⟩
    · obtain ⟨-, rfl⟩ | ⟨hnext, -⟩ := h id next hnext
      · exact hreserves.canonical
      · exact hold.canonical id next hnext
    · obtain ⟨rfl, rfl⟩ | ⟨hr₁, hb₁⟩ := h id₁ n₁ h₁
      · obtain ⟨rfl, -⟩ | ⟨hr₂, hb₂⟩ := h id₂ n₂ h₂
        · exact absurd rfl hne
        · exact (not_blocks hb₂ ho₂).imp Ne.symm Ne.symm
      · obtain ⟨rfl, rfl⟩ | ⟨hr₂, -⟩ := h id₂ n₂ h₂
        · exact not_blocks hb₁ ho₁
        · exact hold.apart id₁ id₂ n₁ n₂ hr₁ hr₂ hne ho₁ ho₂

/-- **One unreconciled operation per device and per endpoint**, in memory and in the file, in every
run of the system. -/
theorem one_unreconciled_operation (h : World.Reached path (fun _ _ => True) w)
    {state : ChangesetState} (hheld : w.Holds state) : OneUnreconciled C state := by
  refine World.reached_holds ?_ ?_ h hheld
  · constructor
    · intro id record hr
      simp [ChangesetState.empty] at hr
    · intro id₁ id₂ r₁ r₂ hr
      simp [ChangesetState.empty] at hr
  · intro w a state hreached hheld _ hnew
    exact oneUnreconciled_of_from (hnew.operations hreached) hheld

def sampleFingerprint : String := "sha256:" ++ String.ofList (List.replicate 64 '0')

def answerFingerprint (t : ℕ) : List (Action Vendor.sample) :=
  [.advance t .go, .advance t (.device (.fingerprint (.ok sampleFingerprint)))]

/-- A change of `alice` to be staged on a device. -/
def StageArgs.sample (device endpoint : String) : StageArgs Vendor.sample where
  device
  owner := "alice"
  expectedFingerprint := sampleFingerprint
  endpoint
  actions := ["set"]
  primaryActionDiscriminator := "set"
  vendorPrimaryTarget := none
  policySignature := "policy"
  configAuthority := none

def sampleId (byte : UInt8) : String := bytesHex (List.replicate 32 byte)

/-- The call numbered `t` reserves a device under the id that repeats one byte. -/
def reserveDevice (t : ℕ) (args : StageArgs Vendor.sample) (byte : UInt8) :
    List (Action Vendor.sample) :=
  [.spawn (.stageOperation args), .advance t .go, .advance t (.flag false),
    .advance t (.random (.ok (List.replicate 32 byte))), .advance t (.write none)]

def startCoordinator : List (Action Vendor.sample) := [.tick (some 100), .load .sample .quiet]

def twoReservations : List (Action Vendor.sample) :=
  startCoordinator ++ reserveDevice 0 (.sample "edge1" "https://a") 1 ++
    reserveDevice 1 (.sample "edge2" "https://b") 2

theorem twoReservations_open : ((sampleRun none twoReservations).any fun w =>
    w.store.mem.operations[sampleId 1]?.any (!·.state.terminal) &&
      w.store.mem.operations[sampleId 2]?.any (!·.state.terminal)) = true := by decide

/-- Two devices are reserved at the same time. -/
theorem twoReservations_apart : ∃ w : World Crates.sample Vendor.sample,
    World.Reached none (fun _ _ => True) w ∧
      (w.store.mem.operations[sampleId 1]?.any (!·.state.terminal) &&
        w.store.mem.operations[sampleId 2]?.any (!·.state.terminal)) = true ∧
      OneUnreconciled Crates.sample w.store.mem := by
  obtain ⟨w, hreached, hopen⟩ := sampleRun_reached twoReservations_open
  exact ⟨w, hreached, hopen, one_unreconciled_operation hreached (.inl rfl)⟩

/-! ### Guards -/

namespace World

/-- The step leaves every operation that is not terminal as it is, unless the coordinator stops or
the step is one of the thread that holds the guard of its device. -/
def GuardedStep (w w' : World C V) (a : Action V) : Prop :=
  ∀ (id : String) record, w.store.mem.operations[id]? = some record →
    record.state.terminal = false → w'.store.mem.operations[id]? = some record ∨ a = .crash ∨
      ∃ t choice, a = .advance t choice ∧ w.guards record.device = some t

/-- **No thread changes an operation on a device whose guard it does not hold.** -/
theorem operations_guarded {ok : World C V → Action V → Prop} {w' : World C V} {a : Action V}
    (hr : Reached path ok w) (hstep : w.step path a = some w') : GuardedStep w w' a := by
  intro id record hrecord hopen
  have hg := reached_grounded hr
  -- where no coordinator runs, memory is empty
  have hself : w.self ≠ none := by
    intro hself
    rw [(hg.stopped hself).1] at hrecord
    simp [ChangesetState.empty] at hrecord
  cases step_case hg hstep with
  | crash => exact .inr (.inl rfl)
  | advance t choice self request c next answer mid events hself hthread hexec =>
    have hkeyed := reached_keyed hr (.inl rfl)
    obtain ⟨ha, hj, -⟩ := (reached_conducted hr).advance hkeyed hself hthread hexec
    have hmoved := operation_moved (exec_moves hkeyed hexec (.inl rfl)).operations hj ha
      (reached_conducted hr).fresh id
    rw [hrecord] at hmoved
    obtain hsame | ⟨hguarded, -⟩ := hmoved.stays hopen
    · exact .inl hsame
    · exact .inr (.inr ⟨t, choice, rfl, ha.guarded _ hguarded⟩)
  | tick | spawn | finish => exact .inl hrecord
  | _ => exact absurd ‹_› hself

/-- Of two reserved devices the first has its lock recorded, by the thread that reserved it. -/
theorem twoReservations_guarded : ∃ w w' : World Crates.sample Vendor.sample,
    Reached none (fun _ _ => True) w ∧ w.step none (.advance 0 (.write none)) = some w' ∧
      (w.store.mem.operations[sampleId 1]?.any (!·.configLockHeld) &&
        w'.store.mem.operations[sampleId 1]?.any (·.configLockHeld)) = true ∧
      GuardedStep w w' (.advance 0 (.write none)) := by
  obtain ⟨w, hreached, hmoved⟩ := sampleRun_reached (show ((sampleRun none
    (twoReservations ++ .advance 0 (.flag false) :: answerFingerprint 0)).any fun w =>
      (w.step none (.advance 0 (.write none))).any fun w' =>
        w.store.mem.operations[sampleId 1]?.any (!·.configLockHeld) &&
          w'.store.mem.operations[sampleId 1]?.any (·.configLockHeld)) = true by decide)
  obtain ⟨w', hstep, hmoved⟩ := (Option.any_eq_true _ _).mp hmoved
  exact ⟨w, w', hreached, hstep, hmoved, operations_guarded hreached hstep⟩

end World

end Mecmcp.Changeset
