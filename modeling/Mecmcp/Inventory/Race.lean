import Mecmcp.Inventory.Migrate

/-!
# Race — a migration among other writers

`migrate_to_canonical` reads the file three times: for what it installs, for the copy it keeps, and
to compare.  Others may replace the whole file between these steps.  The copy and the content that
was compared are the same; what is installed comes from the first read, which nothing compares.
-/

namespace Mecmcp.Inventory

/-- What others wrote before each step of a migration, in order: an interleaving puts every
replacement of the file before one of the steps. -/
structure ForeignWrites (T : Type) where
  beforeRead : List T
  beforeCopy : List T
  beforeBackup : List T
  beforeCompare : List T

def replaced {T : Type} (file : T) (writes : List T) : T := writes.getLast?.getD file

namespace ForeignWrites

variable {T : Type} (writes : ForeignWrites T) (file : T)

/-- What the first read gives: what is parsed and converted. -/
def first : T := replaced file writes.beforeRead

/-- What the second read gives: what goes into the copy. -/
def second : T := replaced (writes.first file) writes.beforeCopy

/-- What the comparison reads. -/
def third : T := replaced (replaced (writes.second file) writes.beforeBackup) writes.beforeCompare

end ForeignWrites

/-- The disk when a migration returns, with the content the comparison read. -/
structure Migrated (T : Type) where
  result : Except InventoryError Serde.MigrationReport
  file : T
  backup : Option T
  compared : Option T

/-- A migration that reports a conversion. -/
def Migrated.Converted {T : Type} (run : Migrated T) : Prop :=
  ∃ report, run.result = .ok report ∧ report.converted = true

namespace Serde

variable {D P : Type} (s : Serde D P)

/-- The file a migration of `bytes` leaves. -/
def canonicalForm (bytes : s.Text) : Except InventoryError s.Text :=
  (s.migrateToCanonical bytes).map Prod.snd

/-- The text of a legacy file's devices and policy in the canonical shape. -/
def canonicalText (shape : InventoryShape) (value : Json) : s.Text :=
  s.toStringPretty (envelope (legacyPolicy shape value) (sortedObject (legacyDevices shape value)))

/-- A file that `parse_inventory` accepts in the canonical shape. -/
def AcceptedCanonical (bytes : s.Text) : Prop :=
  ∃ value inventory, s.parseValue bytes = .ok value ∧ detectShape value = .ok .canonical ∧
    s.parseInventory bytes = .ok inventory

/-- The file holds the devices and the policy of a legacy document: in a legacy shape, each name with
the same value, or in the canonical shape, to the byte. -/
def SameInventory (bytes : s.Text) (shape : InventoryShape) (value : Json) : Prop :=
  (∃ shape' value' devices policy, s.AcceptedLegacy bytes shape' value' devices policy ∧
    (∀ name, (legacyDevices shape' value').lookup name =
      (legacyDevices shape value).lookup name) ∧
    legacyPolicy shape' value' = legacyPolicy shape value) ∨
  s.AcceptedCanonical bytes ∧ bytes = s.canonicalText shape value

variable {s} in
theorem canonicalForm_ok {bytes text : s.Text} (h : s.canonicalForm bytes = .ok text) :
    (∃ shape value devices policy, s.AcceptedLegacy bytes shape value devices policy ∧
      s.canonicalText shape value = text) ∨
    s.AcceptedCanonical bytes ∧ bytes = text := by
  simp only [canonicalForm, migrateToCanonical, bind, Except.bind] at h
  cases hvalue : s.parseValue bytes with
  | error e => simp [hvalue, Except.map] at h
  | ok value =>
    cases hparsed : s.parseInventory bytes with
    | error e => simp [hvalue, hparsed, Except.map] at h
    | ok inventory =>
      cases hshape : detectShape value with
      | error e => simp [hvalue, hparsed, hshape, Except.map] at h
      | ok shape =>
        by_cases hcanonical : shape = .canonical
        · subst hcanonical
          refine .inr ⟨⟨value, inventory, hvalue, hshape, hparsed⟩, ?_⟩
          simpa [hvalue, hparsed, hshape, Except.map, pure, Except.pure] using h
        · have haccepted : s.AcceptedLegacy bytes shape value inventory.1 inventory.2 :=
            ⟨hvalue, hshape, hcanonical, hparsed⟩
          refine .inl ⟨shape, value, _, _, haccepted, ?_⟩
          simpa [hvalue, hparsed, hshape, hcanonical, haccepted.legacy.canonical, canonicalText,
            Except.map, pure, Except.pure] using h

variable {s} in
theorem AcceptedLegacy.canonicalForm_eq {bytes : s.Text} {shape : InventoryShape} {value : Json}
    {devices : List (String × D)} {policy : Option P}
    (h : s.AcceptedLegacy bytes shape value devices policy) :
    s.canonicalForm bytes = .ok (s.canonicalText shape value) := by
  rw [canonicalForm, h.migrateToCanonical_eq h.legacy.canonical]
  rfl

variable {s} in
theorem AcceptedCanonical.migrateToCanonical_eq {bytes : s.Text} (h : s.AcceptedCanonical bytes) :
    ∃ n, s.migrateToCanonical bytes = .ok (⟨false, n⟩, bytes) := by
  obtain ⟨value, inventory, hvalue, hshape, hparsed⟩ := h
  exact ⟨_, migrateToCanonical_reread hvalue hshape hparsed⟩

/-- What a legacy file is turned into is the canonical form of the files with the same inventory. -/
theorem AcceptedLegacy.canonicalForm_iff {first second : s.Text} {shape : InventoryShape}
    {value : Json} {devices : List (String × D)} {policy : Option P}
    (h : s.AcceptedLegacy first shape value devices policy) :
    s.canonicalForm second = .ok (s.canonicalText shape value) ↔
      s.SameInventory second shape value := by
  constructor
  · intro hform
    obtain ⟨shape', value', devices', policy', h', htext⟩ | hcanonical := canonicalForm_ok hform
    · exact .inl ⟨shape', value', devices', policy', h',
        (h.legacy.canonical_eq_iff h'.legacy).mp (s.toStringPretty_inj _ _ htext)⟩
    · exact .inr hcanonical
  · rintro (⟨shape', value', devices', policy', h', hsame⟩ | ⟨hcanonical, heq⟩)
    · rw [h'.canonicalForm_eq, canonicalText, (h.legacy.canonical_eq_iff h'.legacy).mpr hsame,
        canonicalText]
    · obtain ⟨n, hmigrate⟩ := hcanonical.migrateToCanonical_eq
      rw [canonicalForm, hmigrate, ← heq]
      rfl

section

variable [DecidableEq s.Text] (path backupError : String)

/-- `migrate_to_canonical` with the writes of others; `backup` is a copy from before, and
`backupError` says that it is in the way. -/
def migrateAmong (writes : ForeignWrites s.Text) (file : s.Text) (backup : Option s.Text) :
    Migrated s.Text :=
  let original := writes.second file
  let now := writes.third file
  match s.migrateToCanonical (writes.first file) with
  | .error e => ⟨.error e, now, backup, none⟩
  | .ok (report, canonical) =>
    if report.converted = false then ⟨.ok report, now, backup, none⟩
    else if backup.isSome then ⟨.error (.parseError backupError), now, backup, none⟩
    else if now ≠ original then
      ⟨.error (.parseError (path ++ " changed while migrating; nothing was written")), now, none,
        some now⟩
    else ⟨.ok report, canonical, some original, some now⟩

/-- What a migration installs is the canonical form of what it compared, and the copy holds that. -/
def InstallsCompared (run : Migrated s.Text) : Prop :=
  run.Converted → ∃ seen, run.compared = some seen ∧ run.backup = some seen ∧
    s.canonicalForm seen = .ok run.file

variable {writes : ForeignWrites s.Text}

variable {file : s.Text} {backup : Option s.Text} {shape : InventoryShape} {value : Json}
  {devices : List (String × D)} {policy : Option P}

theorem migrateAmong_eq (h : s.AcceptedLegacy (writes.first file) shape value devices policy)
    (hsame : writes.third file = writes.second file) :
    s.migrateAmong path backupError writes file none =
      ⟨.ok ⟨true, devices.length⟩, s.canonicalText shape value, some (writes.second file),
        some (writes.second file)⟩ := by
  simp [migrateAmong, h.migrateToCanonical_eq h.legacy.canonical, hsame, canonicalText]

/-- A migration converts only if its first read gives a legacy file, no copy is in the way, and the
comparison reads what was copied. -/
theorem of_converted (h : (s.migrateAmong path backupError writes file backup).Converted) :
    (∃ shape value devices policy,
      s.AcceptedLegacy (writes.first file) shape value devices policy) ∧
    backup = none ∧ writes.third file = writes.second file := by
  obtain ⟨report, hresult, hconverted⟩ := h
  simp only [migrateAmong] at hresult
  cases hmigrate : s.migrateToCanonical (writes.first file) with
  | error e => simp [hmigrate] at hresult
  | ok migrated =>
    obtain ⟨report', canonical⟩ := migrated
    simp only [hmigrate] at hresult
    split_ifs at hresult with hsame hbackup hchanged
    · cases hresult
      simp [hsame] at hconverted
    · refine ⟨?_, by simpa using hbackup, not_not.mp hchanged⟩
      have hform : s.canonicalForm (writes.first file) = .ok canonical := by
        rw [canonicalForm, hmigrate]
        rfl
      obtain ⟨shape, value, devices, policy, haccepted, -⟩ | ⟨haccepted, -⟩ := canonicalForm_ok hform
      · exact ⟨shape, value, devices, policy, haccepted⟩
      · obtain ⟨n, heq⟩ := haccepted.migrateToCanonical_eq
        cases heq.symm.trans hmigrate
        exact absurd rfl hsame

/-- **A migration among other writers.**  It keeps to what it compared exactly if the file of its
second read has the devices and the policy of the one of its first, wherever the first is a legacy
file, no copy is in the way and the comparison reads what was copied; so it does if nobody writes
between the two. -/
theorem migration_installs_compared_iff (writes : ForeignWrites s.Text) (file : s.Text)
    (backup : Option s.Text) :
    (s.InstallsCompared (s.migrateAmong path backupError writes file backup) ↔
      ∀ shape value devices policy,
        s.AcceptedLegacy (writes.first file) shape value devices policy → backup = none →
        writes.third file = writes.second file →
        s.SameInventory (writes.second file) shape value) ∧
    (writes.beforeCopy = [] →
      s.InstallsCompared (s.migrateAmong path backupError writes file backup)) := by
  have hiff : s.InstallsCompared (s.migrateAmong path backupError writes file backup) ↔
      ∀ shape value devices policy,
        s.AcceptedLegacy (writes.first file) shape value devices policy → backup = none →
        writes.third file = writes.second file →
        s.SameInventory (writes.second file) shape value := by
    constructor
    · rintro hinstalls shape value devices policy h rfl hsame
      rw [s.migrateAmong_eq path backupError h hsame] at hinstalls
      obtain ⟨seen, ⟨⟩, -, hform⟩ := hinstalls ⟨_, rfl, rfl⟩
      exact (h.canonicalForm_iff).mp hform
    · intro hinputs hconverted
      obtain ⟨⟨shape, value, devices, policy, h⟩, rfl, hsame⟩ :=
        s.of_converted path backupError hconverted
      rw [s.migrateAmong_eq path backupError h hsame]
      exact ⟨_, rfl, rfl, h.canonicalForm_iff.mpr (hinputs _ _ _ _ h rfl hsame)⟩
  refine ⟨hiff, fun hnone => hiff.mpr fun shape value devices policy h _ _ => ?_⟩
  have hsecond : writes.second file = writes.first file := by
    rw [ForeignWrites.second, hnone]
    rfl
  exact .inl ⟨shape, value, devices, policy, hsecond ▸ h, fun _ => rfl, rfl⟩

end

end Serde

noncomputable instance : DecidableEq valueSerde.Text := Classical.decEq _

/-- A device changes between the first read and the second: the migration converts, and the change
is in the copy only. -/
theorem change_after_first_read_lost :
    (valueSerde.migrateAmong "" "" ⟨[], [flatFile 2], [], []⟩ (flatFile 1) none).Converted ∧
    (valueSerde.migrateAmong "" "" ⟨[], [flatFile 2], [], []⟩ (flatFile 1) none).file =
      envelope none (.obj [("r1", nested 1)]) ∧
    ¬valueSerde.InstallsCompared
      (valueSerde.migrateAmong "" "" ⟨[], [flatFile 2], [], []⟩ (flatFile 1) none) := by
  have hfirst := flatFile_accepted (n := 1) (by decide)
  have hrun : valueSerde.migrateAmong "" "" ⟨[], [flatFile 2], [], []⟩ (flatFile 1) none =
      ⟨.ok ⟨true, 1⟩, envelope none (.obj [("r1", nested 1)]), some (flatFile 2),
        some (flatFile 2)⟩ :=
    @Serde.migrateAmong_eq _ _ valueSerde _ "" "" ⟨[], [flatFile 2], [], []⟩ (flatFile 1) _ _ _ _
      hfirst rfl
  rw [hrun]
  refine ⟨⟨_, rfl, rfl⟩, rfl, fun hinstalls => ?_⟩
  obtain ⟨seen, ⟨⟩, -, hform⟩ := hinstalls ⟨_, rfl, rfl⟩
  have hsecond := (flatFile_accepted (n := 2) (by decide)).canonicalForm_eq
  have htext := Except.ok.inj (hsecond.symm.trans hform)
  have hsame : Json.obj [("r1", nested 2)] = .obj [("r1", nested 1)] :=
    (envelope_inj.mp (valueSerde.toStringPretty_inj _ _ htext)).2
  simp [nested] at hsame

end Mecmcp.Inventory
