/-
  The reconciler (`reconcile.py`): a status, and what Home Assistant keeps about the commands in it.

  Records of commands that are no longer listed are purged from the entity registry, and the
  metadata in the options is pruned.  Both trust the listing as soon as the status carries the
  identity of the entry and no restore is open; `mem_records_asyncReconcile` and
  `metaFor_asyncReconcile` say exactly what is then left.

  The entity registry is Home Assistant's own.  What is relied on is that it is keyed by entity id,
  and that removing an entity id removes its record and no other.
-/
import RfCloner.Hass.Targets

namespace RfCloner

/-! ## The entity registry -/

/-- `RegistryEntry`, as far as it is looked at. -/
structure RegistryEntry where
  entityId : Str
  uniqueId : Str
  configEntryId : Str
  deriving DecidableEq

/-- Home Assistant's entity registry. -/
structure EntityRegistry (ρ : Type) where
  /-- `async_entries_for_config_entry`. -/
  entriesFor : ρ → Str → List RegistryEntry
  /-- `async_remove`. -/
  remove : ρ → Str → ρ
  mem_remove : ∀ {registry : ρ} {entryId entityId : Str} {x : RegistryEntry},
    x ∈ entriesFor (remove registry entityId) entryId ↔
      x ∈ entriesFor registry entryId ∧ x.entityId ≠ entityId
  entityId_inj : ∀ {registry : ρ} {entryId : Str} {x y : RegistryEntry},
    x ∈ entriesFor registry entryId → y ∈ entriesFor registry entryId →
      x.entityId = y.entityId → x = y

/-- A registry that is a list of records. -/
def EntityRegistry.listed :
    EntityRegistry { l : List RegistryEntry // (l.map RegistryEntry.entityId).Nodup } where
  entriesFor registry entryId := registry.1.filter fun x => x.configEntryId = entryId
  remove registry entityId :=
    ⟨registry.1.filter fun x => x.entityId ≠ entityId,
      (List.Sublist.map _ List.filter_sublist).nodup registry.2⟩
  mem_remove := by
    intro registry entryId entityId x
    simp only [List.mem_filter, decide_eq_true_eq]
    exact and_right_comm
  entityId_inj := by
    intro registry entryId x y hx hy h
    exact List.inj_on_of_nodup_map registry.2 (List.mem_of_mem_filter hx)
      (List.mem_of_mem_filter hy) h

/-! ## Unique ids -/

/-- `f"{bridge_id}_"`. -/
def uniqueIdPrefix (bridgeId : Str) : Str := bridgeId ++ ['_']

/-- `command_id_from_unique_id`. -/
def commandIdFromUniqueId (bridgeId uniqueId : Str) : Option Int :=
  if (uniqueIdPrefix bridgeId).isPrefixOf uniqueId then
    Decimal.ofText (uniqueId.drop (uniqueIdPrefix bridgeId).length)
  else none

/-- `command_unique_id`. -/
def commandUniqueId (bridgeId : Str) (commandId : Int) : Str :=
  uniqueIdPrefix bridgeId ++ Decimal.toText commandId

/-- **A command's unique id names it.** -/
theorem commandIdFromUniqueId_commandUniqueId (bridgeId : Str) {commandId : Int}
    (h : commandId.natAbs < 10 ^ Decimal.maxDigits) :
    commandIdFromUniqueId bridgeId (commandUniqueId bridgeId commandId) = some commandId := by
  unfold commandIdFromUniqueId commandUniqueId
  rw [if_pos (List.isPrefixOf_iff_prefix.mpr (List.prefix_append _ _)), List.drop_left]
  exact Decimal.ofText_toText h

/-! ## The reconciler -/

/-- `CommandReconciler`, with what it works on.  Of a claim on a name only the name is kept. -/
structure CommandReconciler (ρ : Type) where
  entry : ConfigEntry
  registry : ρ
  reserved : List Str
  identityMismatch : Bool
  knownTargets : List Str

namespace CommandReconciler

variable {ρ : Type} (R : EntityRegistry ρ) (r : CommandReconciler ρ)

/-- `async_listed_commands`: `none` is not an empty listing. -/
def asyncListedCommands (status : Option BridgeStatus) : Option (List Int) :=
  match status with
  | none => none
  | some status =>
    if r.identityMismatch || status.restoreIncomplete then none
    else some (status.commands.map CommandInfo.commandId)

/-- `async_snapshot_targets`. -/
def asyncSnapshotTargets : CommandReconciler ρ :=
  { r with knownTargets := (targets r.entry).map fun target => target.2.subentryId }

/-- The body of the loop of `_async_purge_removed_commands`. -/
def purgeRecord (bridgeId : Str) (listed : List Int) (registry : ρ) (record : RegistryEntry) : ρ :=
  match commandIdFromUniqueId bridgeId record.uniqueId with
  | none => registry
  | some commandId => if commandId ∈ listed then registry else R.remove registry record.entityId

/-- `_async_purge_removed_commands`. -/
def asyncPurgeRemovedCommands (listed : Option (List Int)) : CommandReconciler ρ :=
  match listed, r.entry.uniqueId with
  | some listed, some bridgeId =>
    { r with
      registry := (R.entriesFor r.registry r.entry.entryId).foldl (purgeRecord R bridgeId listed)
        r.registry }
  | _, _ => r

/-- `async_reconcile`. -/
def asyncReconcile (status : BridgeStatus) : CommandReconciler ρ :=
  if r.entry.uniqueId.any fun expected => status.bridgeId != expected then
    { r with identityMismatch := true }
  else
    -- from here on the listing is of this bridge
    let r := { r with identityMismatch := false }
    if status.restoreIncomplete then r
    else
      let r := { r with
        reserved := r.reserved.filter fun name => name ∉ status.commands.map CommandInfo.name }
      let listed := r.asyncListedCommands (some status)
      let r := r.asyncPurgeRemovedCommands R listed
      let r := { r with entry := r.entry.prunedTo listed none }
      r.asyncSnapshotTargets

/-! ## What it leaves -/

/-- The entity records of the entry. -/
def records : List RegistryEntry := R.entriesFor r.registry r.entry.entryId

variable {R r} {status : BridgeStatus} {B : Str} {x : RegistryEntry}

variable (bridgeId : Str) (listed : List Int) in
/-- One round of the purge: the record it looks at goes unless it is listed or not a command's. -/
theorem mem_purgeRecord {entryId : Str} {registry : ρ} {y : RegistryEntry} (hinj : x ∈ R.entriesFor registry entryId → x.entityId = y.entityId → x = y) :
    x ∈ R.entriesFor (purgeRecord R bridgeId listed registry y) entryId ↔
      x ∈ R.entriesFor registry entryId ∧
        (x = y → ∀ id, commandIdFromUniqueId bridgeId x.uniqueId = some id → id ∈ listed) := by
  unfold purgeRecord
  split
  · rename_i hnone
    refine ⟨fun h => ⟨h, ?_⟩, And.left⟩
    rintro rfl id hid
    rw [hnone] at hid
    cases hid
  · rename_i commandId hsome
    split
    · rename_i hlisted
      refine ⟨fun h => ⟨h, ?_⟩, And.left⟩
      rintro rfl id hid
      obtain rfl := Option.some.inj (hsome.symm.trans hid)
      exact hlisted
    · rename_i hlisted
      rw [R.mem_remove]
      refine and_congr_right fun hx => ⟨fun hne => ?_, fun h heq => ?_⟩
      · rintro rfl
        exact absurd rfl hne
      · obtain rfl := hinj hx heq
        exact hlisted (h rfl commandId hsome)

theorem mem_foldl_purgeRecord {bridgeId entryId : Str} {listed : List Int} {l : List RegistryEntry}
    {registry : ρ}
    (hinj : x ∈ R.entriesFor registry entryId → ∀ y ∈ l, x.entityId = y.entityId → x = y) :
    x ∈ R.entriesFor (l.foldl (purgeRecord R bridgeId listed) registry) entryId ↔
      x ∈ R.entriesFor registry entryId ∧
        (x ∈ l → ∀ id, commandIdFromUniqueId bridgeId x.uniqueId = some id → id ∈ listed) := by
  induction l generalizing registry with
  | nil => exact ⟨fun h => ⟨h, fun hmem => absurd hmem List.not_mem_nil⟩, And.left⟩
  | cons y l ih =>
    have hstep := mem_purgeRecord bridgeId listed fun hx => hinj hx y List.mem_cons_self
    have hrest : x ∈ R.entriesFor (purgeRecord R bridgeId listed registry y) entryId →
        ∀ z ∈ l, x.entityId = z.entityId → x = z := fun hx z hz =>
      hinj (hstep.mp hx).1 z (List.mem_cons_of_mem y hz)
    rw [List.foldl_cons, ih hrest, hstep, List.mem_cons]
    constructor
    · rintro ⟨⟨hx, hhead⟩, htail⟩
      exact ⟨hx, fun hmem => hmem.elim hhead htail⟩
    · rintro ⟨hx, h⟩
      exact ⟨⟨hx, fun heq => h (Or.inl heq)⟩, fun hmem => h (Or.inr hmem)⟩

/-- Under a foreign identity nothing is touched. -/
theorem asyncReconcile_of_foreign (hB : r.entry.uniqueId = some B) (hid : status.bridgeId ≠ B) :
    r.asyncReconcile R status = { r with identityMismatch := true } := by
  unfold asyncReconcile
  rw [hB, Option.any_some, if_pos (bne_iff_ne.mpr hid)]

/-- While a restore is open nothing is touched. -/
theorem asyncReconcile_of_incomplete (hB : r.entry.uniqueId = some B) (hid : status.bridgeId = B)
    (hopen : status.restoreIncomplete = true) :
    r.asyncReconcile R status = { r with identityMismatch := false } := by
  unfold asyncReconcile
  rw [hB, Option.any_some, if_neg (by simp [hid]), if_pos hopen]

section Trusted

variable (hB : r.entry.uniqueId = some B) (hid : status.bridgeId = B)
  (hopen : status.restoreIncomplete = false)
include hB hid hopen

theorem asyncReconcile_eq :
    let listed := status.commands.map CommandInfo.commandId
    (r.asyncReconcile R status).registry
      = (R.entriesFor r.registry r.entry.entryId).foldl (purgeRecord R B listed) r.registry ∧
    (r.asyncReconcile R status).entry = r.entry.prunedTo (some listed) none := by
  intro listed
  have hlisted : ({ r with
      reserved := r.reserved.filter fun name => name ∉ status.commands.map CommandInfo.name
      identityMismatch := false } : CommandReconciler ρ).asyncListedCommands (some status)
      = some listed := by
    unfold asyncListedCommands
    simp only [hopen, Bool.or_false, Bool.false_eq_true, if_false]
    rfl
  unfold asyncReconcile
  rw [hB, Option.any_some, if_neg (by simp [hid])]
  simp only [hopen, Bool.false_eq_true, if_false, hlisted]
  unfold asyncPurgeRemovedCommands asyncSnapshotTargets
  simp only [hB]
  exact ⟨trivial, trivial⟩

omit hB hid hopen in
theorem entryId_prunedTo (entry : ConfigEntry) (commandIds : Option (List Int))
    (listedBelow : Option Int) :
    (entry.prunedTo commandIds listedBelow).entryId = entry.entryId ∧
    (entry.prunedTo commandIds listedBelow).uniqueId = entry.uniqueId ∧
    (entry.prunedTo commandIds listedBelow).subentries = entry.subentries := by
  unfold ConfigEntry.prunedTo
  split <;> exact ⟨rfl, rfl, rfl⟩

/-- **The records that a trusted listing leaves**: those of the commands it lists, and those that
    are not a command's. -/
theorem mem_records_asyncReconcile :
    x ∈ (r.asyncReconcile R status).records R ↔ x ∈ r.records R ∧
      ∀ id, commandIdFromUniqueId B x.uniqueId = some id →
        id ∈ status.commands.map CommandInfo.commandId := by
  obtain ⟨hregistry, hentry⟩ := asyncReconcile_eq hB hid hopen
  unfold records
  rw [hregistry, hentry, (entryId_prunedTo _ _ _).1]
  rw [mem_foldl_purgeRecord fun hx y hy heq => R.entityId_inj hx hy heq]
  exact and_congr_right fun hx => ⟨fun h => h hx, fun h _ => h⟩

/-- **The metadata that a trusted listing leaves.** -/
theorem metaFor_asyncReconcile (id : Int) :
    metaFor (r.asyncReconcile R status).entry id
      = match metaFor r.entry id with
        | none => none
        | some m =>
          if id ∉ status.commands.map CommandInfo.commandId then none
          else if danglingTarget r.entry m then
            if m.icon.isNone then none else some { m with targetId := none }
          else some m := by
  obtain ⟨-, hentry⟩ := asyncReconcile_eq hB hid hopen
  rw [hentry, metaFor_prunedTo]
  cases metaFor r.entry id with
  | none => rfl
  | some m =>
    unfold absentFrom
    simp only [Option.all_none, Bool.and_true, decide_eq_true_eq]

end Trusted

/-! ## What it keeps -/

/-- Home Assistant has an entity record or metadata of the command. -/
def Organised (R : EntityRegistry ρ) (B : Str) (r : CommandReconciler ρ) (id : Int) : Prop :=
  (∃ x ∈ r.records R, commandIdFromUniqueId B x.uniqueId = some id) ∨ (metaFor r.entry id).isSome

/-- The entity records and the metadata of some commands are as they were. -/
structure Keeps (R : EntityRegistry ρ) (B : Str) (commands : Int → Prop)
    (before after : CommandReconciler ρ) : Prop where
  records : ∀ x ∈ before.records R, ∀ id, commandIdFromUniqueId B x.uniqueId = some id →
    commands id → x ∈ after.records R
  metadata : ∀ id, commands id → metaFor after.entry id = metaFor before.entry id

variable {commands : Int → Prop}

theorem keeps_self (r : CommandReconciler ρ) (identityMismatch : Bool) :
    Keeps R B commands r { r with identityMismatch := identityMismatch } :=
  ⟨fun _ hx _ _ _ => hx, fun _ _ => rfl⟩

/-- **A trusted listing keeps exactly what it lists**, and an assignment only if its target is
    there. -/
theorem keeps_asyncReconcile_iff (hB : r.entry.uniqueId = some B) (hid : status.bridgeId = B)
    (hopen : status.restoreIncomplete = false) :
    Keeps R B commands r (r.asyncReconcile R status) ↔
      (∀ id, commands id → id ∉ status.commands.map CommandInfo.commandId → ¬ Organised R B r id) ∧
      ∀ id m, commands id → metaFor r.entry id = some m → danglingTarget r.entry m = false := by
  constructor
  · rintro ⟨hrecords, hmeta⟩
    constructor
    · rintro id hcommand hlisted (⟨x, hx, hxid⟩ | hsome)
      · have hkept := hrecords x hx id hxid hcommand
        rw [mem_records_asyncReconcile hB hid hopen] at hkept
        exact hlisted (hkept.2 id hxid)
      · obtain ⟨m, hm⟩ := Option.isSome_iff_exists.mp hsome
        have hkept := hmeta id hcommand
        rw [metaFor_asyncReconcile hB hid hopen, hm] at hkept
        simp only [if_pos hlisted] at hkept
        cases hkept
    · intro id m hcommand hm
      by_contra hdangling
      rw [Bool.not_eq_false] at hdangling
      have hkept := hmeta id hcommand
      rw [metaFor_asyncReconcile hB hid hopen, hm] at hkept
      simp only [if_pos hdangling] at hkept
      split at hkept
      · cases hkept
      split at hkept
      · cases hkept
      · have htarget : m.targetId = none := (congrArg CommandMeta.targetId (Option.some.inj hkept)).symm
        unfold danglingTarget at hdangling
        rw [htarget] at hdangling
        cases hdangling
  · -- what has nothing to lose is kept whether or not it is listed
    rintro ⟨hlisted, hdangling⟩
    constructor
    · intro x hx id hxid hcommand
      rw [mem_records_asyncReconcile hB hid hopen]
      refine ⟨hx, fun id' hid' => ?_⟩
      obtain rfl := Option.some.inj (hxid.symm.trans hid')
      by_contra hnot
      exact hlisted id hcommand hnot (Or.inl ⟨x, hx, hxid⟩)
    · intro id hcommand
      rw [metaFor_asyncReconcile hB hid hopen]
      cases hm : metaFor r.entry id with
      | none => rfl
      | some m =>
        have hmem : ¬ id ∉ status.commands.map CommandInfo.commandId := fun hnot =>
          hlisted id hcommand hnot (Or.inr (by rw [hm]; rfl))
        simp only [if_neg hmem, hdangling id m hcommand hm, Bool.false_eq_true, if_false]

end CommandReconciler

end RfCloner
