/-
  The migration from command subentries to targets (`migration.py`).

  Removing a subentry takes with it the entity records that are attached to it, so they are detached
  first.  The migration is a list of steps, read off the entry and the registry once; what it makes of
  a home is `migrated`, which every step on the way leaves as it was.  So it can be stopped at any
  step and run again from there.
-/
import RfCloner.Hass.Targets

namespace RfCloner

/-- `ENTRY_VERSION`. -/
def entryVersion : Int := 2
/-- `ENTRY_MINOR_VERSION`. -/
def entryMinorVersion : Int := 1
/-- `SUBENTRY_TYPE_COMMAND`. -/
def subentryTypeCommand : Str := str "command"

/-! ## Home Assistant -/

/-- A record of the entity registry.  `custom` is whatever else is in it: the name, the icon and the
    area that the user chose. -/
structure EntityRecord (γ : Type) where
  entityId : Str
  uniqueId : Str
  configEntryId : Option Str
  configSubentryId : Option Str
  deviceId : Option Str
  custom : γ
  deriving DecidableEq

/-- A record of the device registry. -/
structure DeviceRecord where
  id : Str
  configEntryId : Str
  configSubentryId : Option Str
  deriving DecidableEq

/-- The config entry, with its version, and the registries.  Both are dictionaries: of the subentries
    by their ids, and of the entity records by theirs. -/
structure Home (γ : Type) where
  entry : ConfigEntry
  version : Int
  minorVersion : Int
  records : List (EntityRecord γ)
  devices : List DeviceRecord
  subentryIds : (entry.subentries.map ConfigSubentry.subentryId).Nodup
  entityIds : (records.map EntityRecord.entityId).Nodup

/-- The record with the fields that `async_update_entity` is given. -/
def EntityRecord.detached {γ : Type} (r : EntityRecord γ) : EntityRecord γ :=
  { r with configSubentryId := none, deviceId := none }

namespace Home

variable {γ : Type}

@[ext] theorem ext {h h' : Home γ} (hentry : h.entry = h'.entry) (hversion : h.version = h'.version)
    (hminor : h.minorVersion = h'.minorVersion) (hrecords : h.records = h'.records)
    (hdevices : h.devices = h'.devices) : h = h' := by
  cases h
  cases h'
  cases hentry
  cases hversion
  cases hminor
  cases hrecords
  cases hdevices
  rfl

/-- `async_update_entity(entity_id, config_subentry_id=None, device_id=None)`. -/
def detach (h : Home γ) (entityId : Str) : Home γ :=
  { h with
    records := h.records.map fun r =>
      if r.entityId = entityId then r.detached else r
    entityIds := by
      rw [List.map_map]
      refine (congrArg List.Nodup (List.map_congr_left fun r _ => ?_)).mpr h.entityIds
      show (if r.entityId = entityId then _ else r).entityId = r.entityId
      split <;> rfl }

/-- `async_remove_subentry`: the records and the devices attached to it go with it. -/
def removeSubentry (h : Home γ) (subentryId : Str) : Home γ :=
  { h with
    entry := { h.entry with
      subentries := h.entry.subentries.filter fun subentry => subentry.subentryId ≠ subentryId }
    records := h.records.filter fun r =>
      ¬ (r.configEntryId = some h.entry.entryId ∧ r.configSubentryId = some subentryId)
    devices := h.devices.filter fun d =>
      ¬ (d.configEntryId = h.entry.entryId ∧ d.configSubentryId = some subentryId)
    subentryIds := (List.filter_sublist.map ConfigSubentry.subentryId).nodup h.subentryIds
    entityIds := (List.filter_sublist.map EntityRecord.entityId).nodup h.entityIds }

/-- `async_update_entry(entry, version=..., minor_version=...)`. -/
def setVersion (h : Home γ) : Home γ :=
  { h with version := entryVersion, minorVersion := entryMinorVersion }

end Home

/-! ## The migration -/

/-- What the migration does to the home, one call at a time. -/
inductive MigrationStep where
  | detach (entityId : Str)
  | removeSubentry (subentryId : Str)
  | setVersion
  deriving DecidableEq

namespace Home

variable {γ : Type} (h : Home γ)

/-- One call. -/
def run (h : Home γ) : MigrationStep → Home γ
  | .detach entityId => h.detach entityId
  | .removeSubentry subentryId => h.removeSubentry subentryId
  | .setVersion => h.setVersion

/-- `command_subentry_ids`. -/
def commandSubentryIds : List Str :=
  (h.entry.subentries.filter fun subentry => subentry.subentryType = subentryTypeCommand).map
    ConfigSubentry.subentryId

/-- The record belongs to a command subentry of the entry. -/
def Retiring (r : EntityRecord γ) : Prop :=
  r.configEntryId = some h.entry.entryId ∧
    ∃ subentryId ∈ h.commandSubentryIds, r.configSubentryId = some subentryId

instance (r : EntityRecord γ) : Decidable (h.Retiring r) :=
  inferInstanceAs (Decidable (_ ∧ _))

/-- `_async_migrate_to_targets`. -/
def targetSteps : List MigrationStep :=
  if h.commandSubentryIds.isEmpty then []
  else
    (h.records.filter fun r => h.Retiring r).map (fun r => .detach r.entityId)
      ++ h.commandSubentryIds.map .removeSubentry

/-- The calls of `async_migrate_entry`. -/
def migrationSteps : List MigrationStep :=
  if h.version > entryVersion then []
  else (if h.version < 2 then h.targetSteps else []) ++ [.setVersion]

/-- The home after the first calls. -/
def stopped (k : Nat) : Home γ := (h.migrationSteps.take k).foldl run h

/-- `async_migrate_entry`, and what it returns. -/
def asyncMigrateEntry : Bool × Home γ :=
  (decide (h.version ≤ entryVersion), h.migrationSteps.foldl run h)

/-! ## What it comes to -/

/-- The device is attached to a command subentry of the entry. -/
def DeviceRetiring (d : DeviceRecord) : Prop :=
  d.configEntryId = h.entry.entryId ∧
    ∃ subentryId ∈ h.commandSubentryIds, d.configSubentryId = some subentryId

instance (d : DeviceRecord) : Decidable (h.DeviceRetiring d) :=
  inferInstanceAs (Decidable (_ ∧ _))

/-- The home with the migration made: the records of the command subentries detached, those
    subentries gone, with the devices that were attached to them, and the version set. -/
def migrated : Home γ where
  entry := { h.entry with
    subentries := h.entry.subentries.filter fun subentry =>
      subentry.subentryType ≠ subentryTypeCommand }
  version := entryVersion
  minorVersion := entryMinorVersion
  records := h.records.map fun r => if h.Retiring r then r.detached else r
  devices := h.devices.filter fun d => ¬ h.DeviceRetiring d
  subentryIds := (List.filter_sublist.map ConfigSubentry.subentryId).nodup h.subentryIds
  entityIds := by
    rw [List.map_map]
    refine (congrArg List.Nodup (List.map_congr_left fun r _ => ?_)).mpr h.entityIds
    show (if h.Retiring r then r.detached else r).entityId = r.entityId
    split <;> rfl

/-! ### One step -/

variable {h}

theorem not_retiring_detached (r : EntityRecord γ) : ¬ h.Retiring r.detached :=
  fun hr => nomatch hr.2

/-- Detaching a record that is to be detached is on the way. -/
theorem migrated_detach {entityId : Str}
    (hretiring : ∀ r ∈ h.records, r.entityId = entityId → h.Retiring r) :
    (h.detach entityId).migrated = h.migrated := by
  refine Home.ext rfl rfl rfl ?_ rfl
  show (h.records.map _).map _ = h.records.map _
  rw [List.map_map]
  refine List.map_congr_left fun r hr => ?_
  have hiff : ∀ r, (h.detach entityId).Retiring r ↔ h.Retiring r := fun _ => Iff.rfl
  simp only [Function.comp_apply, hiff]
  by_cases hid : r.entityId = entityId
  · rw [if_pos hid, if_neg (not_retiring_detached r), if_pos (hretiring r hr hid)]
  · rw [if_neg hid]

theorem mem_commandSubentryIds {subentryId : Str} : subentryId ∈ h.commandSubentryIds ↔
    ∃ subentry ∈ h.entry.subentries,
      subentry.subentryType = subentryTypeCommand ∧ subentry.subentryId = subentryId := by
  unfold commandSubentryIds
  simp only [List.mem_map, List.mem_filter, decide_eq_true_eq, and_assoc]

theorem mem_commandSubentryIds_removeSubentry {subentryId other : Str} :
    other ∈ (h.removeSubentry subentryId).commandSubentryIds ↔
      other ∈ h.commandSubentryIds ∧ other ≠ subentryId := by
  rw [mem_commandSubentryIds, mem_commandSubentryIds]
  show (∃ subentry ∈ h.entry.subentries.filter _, _) ↔ _
  simp only [List.mem_filter, decide_eq_true_eq, and_assoc]
  constructor
  · rintro ⟨subentry, hmem, hne, hcommand, rfl⟩
    exact ⟨⟨subentry, hmem, hcommand, rfl⟩, hne⟩
  · rintro ⟨⟨subentry, hmem, hcommand, rfl⟩, hne⟩
    exact ⟨subentry, hmem, hne, hcommand, rfl⟩

/-- The subentries of other types stay. -/
theorem others_removeSubentry {subentryId : Str} (hcommand : subentryId ∈ h.commandSubentryIds) :
    (h.removeSubentry subentryId).entry.subentries.filter
        (fun subentry => decide (subentry.subentryType ≠ subentryTypeCommand))
      = h.entry.subentries.filter fun subentry =>
        decide (subentry.subentryType ≠ subentryTypeCommand) := by
  obtain ⟨found, hfound, htype, hid⟩ := mem_commandSubentryIds.mp hcommand
  show (h.entry.subentries.filter _).filter _ = _
  rw [List.filter_filter]
  refine List.filter_congr fun subentry hmem => ?_
  by_cases htarget : subentry.subentryType = subentryTypeCommand
  · simp [htarget]
  · -- a subentry of another type has another id
    have hother : subentry.subentryId ≠ subentryId := by
      intro heq
      have hsame := List.inj_on_of_nodup_map h.subentryIds hmem hfound (heq.trans hid.symm)
      exact htarget (hsame ▸ htype)
    simp [htarget, hother]

/-- A record that is not attached to the subentry is to be detached as before. -/
theorem retiring_removeSubentry {subentryId : Str} {r : EntityRecord γ}
    (hvacant : ¬ (r.configEntryId = some h.entry.entryId ∧ r.configSubentryId = some subentryId)) :
    (h.removeSubentry subentryId).Retiring r ↔ h.Retiring r := by
  refine and_congr_right fun hentry => ?_
  simp only [mem_commandSubentryIds_removeSubentry, and_assoc]
  refine exists_congr fun other => and_congr_right fun _ => and_iff_right_of_imp ?_
  rintro hother rfl
  exact hvacant ⟨hentry, hother⟩

/-- The devices that are to go are those of the subentry and those that are to go after it. -/
theorem deviceRetiring_iff_removeSubentry {subentryId : Str} {d : DeviceRecord}
    (hcommand : subentryId ∈ h.commandSubentryIds) :
    h.DeviceRetiring d ↔ (h.removeSubentry subentryId).DeviceRetiring d ∨
      d.configEntryId = h.entry.entryId ∧ d.configSubentryId = some subentryId := by
  unfold DeviceRetiring
  simp only [mem_commandSubentryIds_removeSubentry]
  constructor
  · rintro ⟨hentry, other, hmem, hother⟩
    by_cases heq : other = subentryId
    · exact .inr ⟨hentry, heq ▸ hother⟩
    · exact .inl ⟨hentry, other, ⟨hmem, heq⟩, hother⟩
  · rintro (⟨hentry, other, ⟨hmem, -⟩, hother⟩ | ⟨hentry, hthis⟩)
    · exact ⟨hentry, other, hmem, hother⟩
    · exact ⟨hentry, subentryId, hcommand, hthis⟩

/-- So is removing a command subentry that nothing is attached to. -/
theorem migrated_removeSubentry {subentryId : Str} (hcommand : subentryId ∈ h.commandSubentryIds)
    (hvacant : ∀ r ∈ h.records, ¬ (r.configEntryId = some h.entry.entryId ∧
      r.configSubentryId = some subentryId)) :
    (h.removeSubentry subentryId).migrated = h.migrated := by
  have hrecords : (h.removeSubentry subentryId).records = h.records := by
    refine List.filter_eq_self.mpr fun r hr => ?_
    exact decide_eq_true (hvacant r hr)
  refine Home.ext ?_ rfl rfl ?_ ?_
  · exact congrArg (fun subentries => { h.entry with subentries := subentries })
      (others_removeSubentry hcommand)
  · show (h.removeSubentry subentryId).records.map _ = h.records.map _
    rw [hrecords]
    refine List.map_congr_left fun r hr => ?_
    simp only [retiring_removeSubentry (hvacant r hr)]
  · show (h.devices.filter _).filter _ = h.devices.filter _
    rw [List.filter_filter]
    refine List.filter_congr fun d _ => ?_
    rw [← Bool.decide_and, decide_eq_decide, deviceRetiring_iff_removeSubentry hcommand]
    exact not_or.symm

/-! ### The loops -/

/-- After any of the steps, the home is still to be migrated to the same. -/
def OnTheWay (h : Home γ) (steps : List MigrationStep) : Prop :=
  ∀ k, ((steps.take k).foldl run h).migrated = h.migrated ∧
    ((steps.take k).foldl run h).version = h.version

theorem OnTheWay.nil : OnTheWay h [] := fun k => by rw [List.take_nil]; exact ⟨rfl, rfl⟩

theorem OnTheWay.cons {step : MigrationStep} {steps : List MigrationStep}
    (hfirst : (h.run step).migrated = h.migrated ∧ (h.run step).version = h.version)
    (hrest : OnTheWay (h.run step) steps) : OnTheWay h (step :: steps) := by
  intro k
  cases k with
  | zero => exact ⟨rfl, rfl⟩
  | succ k => exact ⟨(hrest k).1.trans hfirst.1, (hrest k).2.trans hfirst.2⟩

theorem OnTheWay.whole {steps : List MigrationStep} (hsteps : OnTheWay h steps) :
    (steps.foldl run h).migrated = h.migrated ∧ (steps.foldl run h).version = h.version := by
  have hall := hsteps steps.length
  rwa [List.take_length] at hall

theorem OnTheWay.append {xs ys : List MigrationStep} (hxs : OnTheWay h xs)
    (hys : OnTheWay (xs.foldl run h) ys) : OnTheWay h (xs ++ ys) := by
  intro k
  rw [List.take_append, List.foldl_append]
  by_cases hk : k ≤ xs.length
  · rw [Nat.sub_eq_zero_of_le hk, List.take_zero]
    exact hxs k
  · rw [List.take_of_length_le (by omega)]
    exact ⟨(hys _).1.trans hxs.whole.1, (hys _).2.trans hxs.whole.2⟩

/-- The first loop, over distinct records that are to be detached. -/
theorem onTheWay_detach (ids : List Str) : ∀ h : Home γ, ids.Nodup →
    (∀ id ∈ ids, ∀ r ∈ h.records, r.entityId = id → h.Retiring r) →
    OnTheWay h (ids.map .detach) ∧ ((ids.map .detach).foldl run h).entry = h.entry ∧
      ((ids.map .detach).foldl run h).records
        = h.records.map fun r => if r.entityId ∈ ids then r.detached else r := by
  induction ids with
  | nil =>
    intro h _ _
    refine ⟨.nil, rfl, ?_⟩
    simp
  | cons id ids ih =>
    intro h hnodup hretiring
    obtain ⟨hfresh, hrest⟩ := List.nodup_cons.mp hnodup
    have hlater : ∀ other ∈ ids, ∀ r ∈ (h.detach id).records, r.entityId = other →
        (h.detach id).Retiring r := by
      intro other hother r hr hid
      obtain ⟨old, hold, rfl⟩ := List.mem_map.mp hr
      by_cases hsame : old.entityId = id
      · rw [if_pos hsame] at hid
        exact absurd (hsame.symm.trans hid ▸ hother) hfresh
      · rw [if_neg hsame] at hid ⊢
        exact hretiring other (List.mem_cons_of_mem _ hother) old hold hid
    obtain ⟨hway, hentry, hrecords⟩ := ih (h.detach id) hrest hlater
    refine ⟨.cons ⟨migrated_detach (hretiring id List.mem_cons_self), rfl⟩ hway, hentry, ?_⟩
    refine hrecords.trans ?_
    show (h.records.map _).map _ = h.records.map _
    rw [List.map_map]
    refine List.map_congr_left fun r _ => ?_
    by_cases hsame : r.entityId = id
    · have hdetached : r.detached.entityId = id := hsame
      simp only [Function.comp_apply, hsame, if_true, hdetached, hfresh, if_false, List.mem_cons,
        true_or]
    · simp only [Function.comp_apply, hsame, if_false, List.mem_cons, false_or]

/-- The second loop, over command subentries that nothing is attached to. -/
theorem onTheWay_removeSubentry (ids : List Str) : ∀ h : Home γ, ids.Nodup →
    (∀ id ∈ ids, id ∈ h.commandSubentryIds) → (∀ r ∈ h.records, ¬ h.Retiring r) →
    OnTheWay h (ids.map .removeSubentry) ∧
      ((ids.map .removeSubentry).foldl run h).records = h.records ∧
      ∀ id, id ∈ ((ids.map .removeSubentry).foldl run h).commandSubentryIds ↔
        id ∈ h.commandSubentryIds ∧ id ∉ ids := by
  induction ids with
  | nil =>
    intro h _ _ _
    refine ⟨.nil, rfl, fun id => ?_⟩
    simp
  | cons id ids ih =>
    intro h hnodup hcommand hvacant
    obtain ⟨hfresh, hrest⟩ := List.nodup_cons.mp hnodup
    have hnone : ∀ r ∈ h.records, ¬ (r.configEntryId = some h.entry.entryId ∧
        r.configSubentryId = some id) := fun r hr hattached =>
      hvacant r hr ⟨hattached.1, id, hcommand id List.mem_cons_self, hattached.2⟩
    have hrecords : (h.removeSubentry id).records = h.records :=
      List.filter_eq_self.mpr fun r hr => decide_eq_true (hnone r hr)
    have hlater : ∀ other ∈ ids, other ∈ (h.removeSubentry id).commandSubentryIds := fun other hmem =>
      mem_commandSubentryIds_removeSubentry.mpr ⟨hcommand other (List.mem_cons_of_mem _ hmem),
        fun heq => hfresh (heq ▸ hmem)⟩
    have hstill : ∀ r ∈ (h.removeSubentry id).records, ¬ (h.removeSubentry id).Retiring r := by
      rintro r hr ⟨hentry, other, hother, hattached⟩
      rw [hrecords] at hr
      exact hvacant r hr ⟨hentry, other, (mem_commandSubentryIds_removeSubentry.mp hother).1, hattached⟩
    obtain ⟨hway, hkept, hids⟩ := ih (h.removeSubentry id) hrest hlater hstill
    refine ⟨.cons ⟨migrated_removeSubentry (hcommand id List.mem_cons_self) hnone, rfl⟩ hway,
      hkept.trans hrecords, fun other => (hids other).trans ?_⟩
    rw [mem_commandSubentryIds_removeSubentry, List.mem_cons, not_or, and_assoc]

/-! ### The whole -/

theorem nodup_commandSubentryIds : h.commandSubentryIds.Nodup :=
  (List.filter_sublist.map ConfigSubentry.subentryId).nodup h.subentryIds

/-- Without command subentries, only the version is left to set. -/
theorem migrated_of_no_commands (hnone : h.commandSubentryIds = []) : h.migrated = h.setVersion := by
  have hretiring : ∀ r, ¬ h.Retiring r := by
    rintro r ⟨-, id, hid, -⟩
    rw [hnone] at hid
    exact absurd hid List.not_mem_nil
  have hdevice : ∀ d, ¬ h.DeviceRetiring d := by
    rintro d ⟨-, id, hid, -⟩
    rw [hnone] at hid
    exact absurd hid List.not_mem_nil
  refine Home.ext ?_ rfl rfl ?_ ?_
  · have hall : (h.entry.subentries.filter fun subentry =>
        decide (subentry.subentryType ≠ subentryTypeCommand)) = h.entry.subentries := by
      refine List.filter_eq_self.mpr fun subentry hmem => decide_eq_true fun htype => ?_
      have hid : subentry.subentryId ∈ h.commandSubentryIds :=
        mem_commandSubentryIds.mpr ⟨subentry, hmem, htype, rfl⟩
      rw [hnone] at hid
      exact absurd hid List.not_mem_nil
    exact congrArg (fun subentries => { h.entry with subentries := subentries }) hall
  · show h.records.map _ = h.records
    refine (List.map_congr_left fun r _ => if_neg (hretiring r)).trans (List.map_id _)
  · exact List.filter_eq_self.mpr fun d _ => decide_eq_true (hdevice d)

/-- **`_async_migrate_to_targets` is on the way**, and leaves only the version to set. -/
theorem onTheWay_targetSteps (h : Home γ) :
    OnTheWay h h.targetSteps ∧ (h.targetSteps.foldl run h).commandSubentryIds = [] := by
  unfold targetSteps
  split
  · rename_i hempty
    exact ⟨.nil, List.isEmpty_iff.mp hempty⟩
  · have hids : ((h.records.filter fun r => h.Retiring r).map EntityRecord.entityId).Nodup :=
      (List.filter_sublist.map EntityRecord.entityId).nodup h.entityIds
    have hretiring : ∀ id ∈ (h.records.filter fun r => h.Retiring r).map EntityRecord.entityId,
        ∀ r ∈ h.records, r.entityId = id → h.Retiring r := by
      intro id hid r hr heq
      obtain ⟨found, hfound, hfoundId⟩ := List.mem_map.mp hid
      obtain ⟨hmem, hdecide⟩ := List.mem_filter.mp hfound
      have hsame := List.inj_on_of_nodup_map h.entityIds hr hmem (heq.trans hfoundId.symm)
      exact hsame ▸ of_decide_eq_true hdecide
    obtain ⟨hdetach, hentry, hrecords⟩ := onTheWay_detach _ h hids hretiring
    rw [List.map_map] at hdetach hentry hrecords
    generalize hmid : List.foldl run h (List.map _ (h.records.filter fun r => h.Retiring r)) = mid
      at hentry hrecords
    have hcommands : mid.commandSubentryIds = h.commandSubentryIds := by
      unfold commandSubentryIds
      rw [hentry]
    -- every record that was attached is among those of the first loop
    have hvacant : ∀ r ∈ mid.records, ¬ mid.Retiring r := by
      intro r hr
      have hiff : mid.Retiring r ↔ h.Retiring r := by
        unfold Retiring
        rw [hcommands, hentry]
      rw [hiff]
      rw [hrecords] at hr
      obtain ⟨old, hold, rfl⟩ := List.mem_map.mp hr
      split
      · exact not_retiring_detached old
      · rename_i hout
        intro hattached
        exact hout (List.mem_map.mpr ⟨old, List.mem_filter.mpr ⟨hold, decide_eq_true hattached⟩, rfl⟩)
    obtain ⟨hremove, -, hleft⟩ := onTheWay_removeSubentry h.commandSubentryIds mid
      nodup_commandSubentryIds (fun id hid => by rwa [hcommands]) hvacant
    refine ⟨hdetach.append ?_, ?_⟩
    · rw [← hmid] at hremove
      exact hremove
    · rw [List.foldl_append]
      refine List.eq_nil_iff_forall_not_mem.mpr fun id hid => ?_
      have hmem := (hleft id).mp (by rw [← hmid]; exact hid)
      rw [hcommands] at hmem
      exact hmem.2 hmem.1

theorem migrationSteps_of_old (hold : h.version < 2) :
    h.migrationSteps = h.targetSteps ++ [.setVersion] := by
  have hnewer : ¬ h.version > entryVersion := not_lt.mpr hold.le
  unfold migrationSteps
  rw [if_neg hnewer, if_pos hold]

theorem asyncMigrateEntry_of_old (hold : h.version < 2) : h.asyncMigrateEntry = (true, h.migrated) := by
  obtain ⟨hway, hnone⟩ := onTheWay_targetSteps h
  have hversion : decide (h.version ≤ entryVersion) = true := decide_eq_true hold.le
  unfold asyncMigrateEntry
  rw [hversion, migrationSteps_of_old hold, List.foldl_append]
  exact congrArg (Prod.mk true) ((migrated_of_no_commands hnone).symm.trans hway.whole.1)

/-- A home that has been migrated is left as it is. -/
theorem asyncMigrateEntry_migrated (h : Home γ) : h.migrated.asyncMigrateEntry = (true, h.migrated) :=
  rfl

/-- **The migration can be stopped and run again.** -/
theorem asyncMigrateEntry_stopped (hold : h.version < 2) (k : Nat) :
    (h.stopped k).asyncMigrateEntry = (true, h.migrated) := by
  obtain ⟨hway, hnone⟩ := onTheWay_targetSteps h
  unfold stopped
  rw [migrationSteps_of_old hold, List.take_append]
  by_cases hk : k ≤ h.targetSteps.length
  · rw [Nat.sub_eq_zero_of_le hk, List.take_zero, List.append_nil]
    obtain ⟨hmigrated, hversion⟩ := hway k
    rw [asyncMigrateEntry_of_old (hversion.trans_lt hold), hmigrated]
  · -- the last step has been made
    have hend : (List.take k h.targetSteps ++ List.take (k - h.targetSteps.length) [MigrationStep.setVersion]).foldl
        run h = h.migrated := by
      rw [List.take_of_length_le (by omega), List.take_of_length_le (by simp; omega),
        List.foldl_append]
      exact (migrated_of_no_commands hnone).symm.trans hway.whole.1
    rw [hend]
    exact asyncMigrateEntry_migrated h

end Home

/-- **The migration loses no record, wherever it is stopped.**  From a version before 2, every record
    stays, those of the command subentries without a subentry and a device, and exactly the command
    subentries go.  Stopped after any of its steps and run again, it comes to the same.  A newer
    version is refused and left alone. -/
theorem migration_loses_nothing {γ : Type} (h : Home γ) :
    (h.version < 2 →
      (h.asyncMigrateEntry.1 = true ∧
        h.asyncMigrateEntry.2.records = h.records.map (fun r =>
          if h.Retiring r then { r with configSubentryId := none, deviceId := none } else r) ∧
        h.asyncMigrateEntry.2.entry = { h.entry with
          subentries := h.entry.subentries.filter fun subentry =>
            subentry.subentryType ≠ subentryTypeCommand } ∧
        h.asyncMigrateEntry.2.devices = h.devices.filter (fun d => ¬ h.DeviceRetiring d) ∧
        h.asyncMigrateEntry.2.version = entryVersion ∧
        h.asyncMigrateEntry.2.minorVersion = entryMinorVersion) ∧
      ∀ k, (h.stopped k).asyncMigrateEntry = h.asyncMigrateEntry) ∧
    (h.version > entryVersion → h.asyncMigrateEntry = (false, h)) := by
  refine ⟨fun hold => ?_, fun hnewer => ?_⟩
  · have hout := Home.asyncMigrateEntry_of_old hold
    refine ⟨?_, fun k => (Home.asyncMigrateEntry_stopped hold k).trans hout.symm⟩
    rw [hout]
    exact ⟨rfl, rfl, rfl, rfl, rfl, rfl⟩
  · unfold Home.asyncMigrateEntry Home.migrationSteps
    rw [if_pos hnewer, decide_eq_false (not_le.mpr hnewer)]
    rfl

/-- An entry of version 1 with a command, a target and another subentry, and a record under each. -/
def versionOne : Home Str where
  entry := ⟨str "e", none, [], [⟨str "c", subentryTypeCommand, [], []⟩,
    ⟨str "t", subentryTypeTarget, [], []⟩, ⟨str "o", str "other", [], []⟩]⟩
  version := 1
  minorVersion := 1
  records := [⟨str "button.a", str "b_1", some (str "e"), some (str "c"), some (str "d"), str "A"⟩,
    ⟨str "button.b", str "b_2", some (str "e"), some (str "t"), some (str "f"), str "B"⟩,
    ⟨str "button.c", str "b_3", some (str "e"), none, none, str "C"⟩]
  devices := [⟨str "d", str "e", some (str "c")⟩, ⟨str "f", str "e", some (str "t")⟩]
  subentryIds := by decide
  entityIds := by decide

/-- Its records, once a migration that was cut after the first detachment is run again. -/
theorem version_one_migrates :
    (versionOne.stopped 1).asyncMigrateEntry.2.records
      = [⟨str "button.a", str "b_1", some (str "e"), none, none, str "A"⟩,
        ⟨str "button.b", str "b_2", some (str "e"), some (str "t"), some (str "f"), str "B"⟩,
        ⟨str "button.c", str "b_3", some (str "e"), none, none, str "C"⟩] := by
  obtain ⟨⟨-, hrecords, -⟩, hrestart⟩ := (migration_loses_nothing versionOne).1 (by decide)
  rw [hrestart 1, hrecords]
  decide

end RfCloner
