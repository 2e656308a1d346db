/-
  Home Assistant's side of a bridge while it runs (`__init__.py`, `reconcile.py`).

  Two things make it look at the commands again: a status that the coordinator delivers, and an
  update of the config entry.  The first trusts what has just been read; the second works on what
  the coordinator last held, which may be older than the metadata it prunes.
-/
import RfCloner.Hass.Reconcile
import RfCloner.Hass.Snapshot

namespace RfCloner

namespace CommandReconciler

variable {ρ : Type} (r : CommandReconciler ρ)

/-- A reconciler that has read no status yet. -/
def new (entry : ConfigEntry) (registry : ρ) : CommandReconciler ρ where
  entry := entry
  registry := registry
  reserved := []
  identityMismatch := false
  knownTargets := []

/-- `async_handle_entry_update`, with the last status, and whether removals are accepted. -/
def asyncHandleEntryUpdate (data : Option BridgeStatus) (acceptsUserRemovals : Bool) :
    CommandReconciler ρ :=
  if !acceptsUserRemovals then r.asyncSnapshotTargets
  else
    let r := r.asyncSnapshotTargets
    { r with
      entry := r.entry.prunedTo (r.asyncListedCommands data) (data.map BridgeStatus.nextCommandId) }

/-- Home Assistant adds, changes or removes targets.  The records of a removed one go with it, before
    the listeners are called. -/
def changeTargets (subentries : List ConfigSubentry) (touch : ρ → ρ) : CommandReconciler ρ :=
  { r with
    entry := { r.entry with subentries := subentries }
    registry := touch r.registry }

/-! ## What a listing covers -/

/-- The listing names every command that has metadata. -/
def Covers (entry : ConfigEntry) (listed : List Int) : Prop :=
  ∀ id m, metaFor entry id = some m → id ∈ listed

variable {r} {entry : ConfigEntry} {listed : List Int}

theorem metaFor_eq_some_iff {id : Int} {m : CommandMeta} :
    metaFor entry id = some m ↔ (id, m) ∈ commandMeta entry :=
  (unique_commandMeta entry).get_eq_some_iff

/-- **Against a listing that covers the metadata, a prune does what it does without one.** -/
theorem Covers.prunedTo_eq (h : Covers entry listed) (below below' : Option Int) :
    entry.prunedTo (some listed) below = entry.prunedTo none below' := by
  have hselect : Dict.select (staleUpdate entry (some listed) below) (commandMeta entry)
      = Dict.select (staleUpdate entry none below') (commandMeta entry) := by
    unfold Dict.select
    refine List.filterMap_congr fun p hp => ?_
    have hmem : p.1 ∈ listed := h p.1 p.2 (metaFor_eq_some_iff.mpr hp)
    have hpresent : absentFrom (some listed) below p.1 = absentFrom none below' p.1 := by
      unfold absentFrom
      dsimp only
      rw [decide_eq_false (not_not_intro hmem), Bool.false_and]
    unfold staleUpdate
    rw [hpresent]
  unfold ConfigEntry.prunedTo optionsPrunedTo
  rw [hselect]

/-- A prune makes no metadata. -/
theorem Covers.prunedTo (h : Covers entry listed) (commandIds : Option (List Int))
    (below : Option Int) : Covers (entry.prunedTo commandIds below) listed := by
  intro id m hm
  rw [metaFor_prunedTo] at hm
  cases hbefore : metaFor entry id with
  | none =>
    rw [hbefore] at hm
    cases hm
  | some m' => exact h id m' hbefore

/-- A trusted status ends the mismatch. -/
theorem identityMismatch_asyncReconcile {R : EntityRegistry ρ} {status : BridgeStatus} {B : Str}
    (hB : r.entry.uniqueId = some B) (hid : status.bridgeId = B) :
    (r.asyncReconcile R status).identityMismatch = false := by
  unfold asyncReconcile asyncPurgeRemovedCommands asyncSnapshotTargets
  rw [hB, Option.any_some, if_neg (by simp [hid])]
  dsimp only
  split
  · rfl
  · split <;> rfl

/-- What a trusted listing leaves, it covers. -/
theorem covers_asyncReconcile {R : EntityRegistry ρ} {status : BridgeStatus} {B : Str}
    (hB : r.entry.uniqueId = some B) (hid : status.bridgeId = B)
    (hopen : status.restoreIncomplete = false) :
    Covers (r.asyncReconcile R status).entry (status.commands.map CommandInfo.commandId) := by
  intro id m hm
  rw [metaFor_asyncReconcile hB hid hopen] at hm
  by_contra hnot
  cases hbefore : metaFor r.entry id with
  | none =>
    rw [hbefore] at hm
    cases hm
  | some m' =>
    rw [hbefore] at hm
    simp only [if_pos hnot] at hm
    cases hm

end CommandReconciler

/-! ## Metadata that is kept -/

/-- `meta_for`. -/
def metaOf (entry : ConfigEntry) (commandId : UInt32) : CommandMeta :=
  (metaFor entry commandId.toNat).getD {}

/-- The icon is the same, and so is the target unless it is one of those that have gone. -/
def CommandMeta.Kept (gone : Str → Prop) (was m : CommandMeta) : Prop :=
  m.icon = was.icon ∧ (m.targetId = was.targetId ∨ ∃ t, was.targetId = some t ∧ gone t)

theorem CommandMeta.Kept.mono {gone gone' : Str → Prop} {was m : CommandMeta} (h : was.Kept gone m)
    (hsub : ∀ t, gone t → gone' t) : was.Kept gone' m :=
  ⟨h.1, h.2.imp_right fun ⟨t, ht, hgone⟩ => ⟨t, ht, hsub t hgone⟩⟩

theorem CommandMeta.Kept.trans {gone gone' : Str → Prop} {was m m' : CommandMeta}
    (h : was.Kept gone m) (h' : m.Kept gone' m') : was.Kept (fun t => gone t ∨ gone' t) m' := by
  refine ⟨h'.1.trans h.1, ?_⟩
  rcases h.2 with hsame | ⟨t, ht, hgone⟩
  · rcases h'.2 with hsame' | ⟨t, ht, hgone⟩
    · exact Or.inl (hsame'.trans hsame)
    · exact Or.inr ⟨t, hsame.symm.trans ht, Or.inr hgone⟩
  · exact Or.inr ⟨t, ht, Or.inl hgone⟩

/-- The target does not exist. -/
def Missing (entry : ConfigEntry) (t : Str) : Prop := Dict.get (targets entry) t = none

/-- **A prune of a command that is not absent** clears its assignment to a target that is missing, and
    nothing else. -/
theorem kept_prunedTo (entry : ConfigEntry) {commandIds : Option (List Int)} {below : Option Int}
    {id : UInt32} (hlisted : absentFrom commandIds below id.toNat = false) :
    (metaOf entry id).Kept (Missing entry) (metaOf (entry.prunedTo commandIds below) id) := by
  unfold metaOf
  rw [metaFor_prunedTo, hlisted]
  cases metaFor entry id.toNat with
  | none => exact ⟨rfl, Or.inl rfl⟩
  | some m =>
    obtain ⟨targetId, icon⟩ := m
    unfold danglingTarget
    cases targetId with
    | none => exact ⟨rfl, Or.inl rfl⟩
    | some t =>
      cases hget : Dict.get (targets entry) t with
      | some target =>
        simp only [hget]
        exact ⟨rfl, Or.inl rfl⟩
      | none =>
        cases icon with
        | none =>
          simp only [hget]
          exact ⟨rfl, Or.inr ⟨t, rfl, hget⟩⟩
        | some i =>
          simp only [hget]
          exact ⟨rfl, Or.inr ⟨t, rfl, hget⟩⟩

/-- What is absent loses its metadata. -/
theorem metaOf_prunedTo_of_absent (entry : ConfigEntry) {commandIds : Option (List Int)}
    {below : Option Int} {id : UInt32} (habsent : absentFrom commandIds below id.toNat = true) :
    metaOf (entry.prunedTo commandIds below) id = {} := by
  unfold metaOf
  rw [metaFor_prunedTo, habsent]
  cases metaFor entry id.toNat <;> rfl

theorem missing_prunedTo (entry : ConfigEntry) (commandIds : Option (List Int)) (below : Option Int) :
    Missing (entry.prunedTo commandIds below) = Missing entry := by
  unfold Missing targets
  rw [(CommandReconciler.entryId_prunedTo _ _ _).2.2]

/-! ## The mirror -/

/-- What Home Assistant holds of a bridge: the reconciler, the replica, and the coordinator's last
    data. -/
structure Mirror (ρ : Type) where
  reconciler : CommandReconciler ρ
  snapshots : SnapshotManager
  data : Option BridgeStatus

namespace Mirror

variable {ρ : Type} (R : EntityRegistry ρ)

/-- `_async_handle_status`, with an atomic refresh of the replica. -/
def handleStatus (x : Mirror ρ) (now : Timestamp) (answers : Nat → Int → ExportResult) : Mirror ρ :=
  match x.data with
  | none => x
  | some current =>
    { x with
      reconciler := x.reconciler.asyncReconcile R current
      snapshots := x.snapshots.asyncRefresh current now answers }

/-- A successful poll. -/
def poll (x : Mirror ρ) (status : BridgeStatus) (now : Timestamp)
    (answers : Nat → Int → ExportResult) : Mirror ρ :=
  handleStatus R { x with data := some status } now answers

/-- The targets change, and the entry's listeners are called. -/
def update (x : Mirror ρ) (subentries : List ConfigSubentry) (touch : ρ → ρ)
    (acceptsUserRemovals : Bool) : Mirror ρ :=
  { x with
    reconciler := (x.reconciler.changeTargets subentries touch).asyncHandleEntryUpdate x.data
      acceptsUserRemovals }

variable {R} {x : Mirror ρ} {B : Str} {status : BridgeStatus} {now : Timestamp}
  {answers : Nat → Int → ExportResult}

/-- What the status of the bridge itself leaves of the entry. -/
theorem entry_handleStatus (hB : x.reconciler.entry.uniqueId = some B) (hdata : x.data = some status)
    (hid : status.bridgeId = B) :
    (x.handleStatus R now answers).reconciler.entry
      = if status.restoreIncomplete then x.reconciler.entry
        else x.reconciler.entry.prunedTo (some (status.commands.map CommandInfo.commandId)) none := by
  unfold handleStatus
  rw [hdata]
  dsimp only
  cases hopen : status.restoreIncomplete with
  | true =>
    rw [CommandReconciler.asyncReconcile_of_incomplete hB hid hopen]
    rfl
  | false =>
    rw [(CommandReconciler.asyncReconcile_eq hB hid hopen).2]
    rfl

@[simp] theorem data_handleStatus : (x.handleStatus R now answers).data = x.data := by
  unfold handleStatus
  split <;> rfl

/-- Under a foreign identity a poll leaves a mark and nothing else. -/
theorem poll_of_foreign (hB : x.reconciler.entry.uniqueId = some B)
    (hmanager : x.snapshots.bridgeId = B) (hid : status.bridgeId ≠ B) :
    x.poll R status now answers
      = ⟨{ x.reconciler with identityMismatch := true }, x.snapshots, some status⟩ := by
  unfold poll handleStatus
  dsimp only
  rw [CommandReconciler.asyncReconcile_of_foreign hB hid,
    SnapshotManager.asyncRefresh_of_not_considers fun h => hid (h.own.trans hmanager)]

/-- While a restore is open a poll clears the mark and does nothing else. -/
theorem poll_of_incomplete (hB : x.reconciler.entry.uniqueId = some B) (hid : status.bridgeId = B)
    (hopen : status.restoreIncomplete = true) :
    x.poll R status now answers
      = ⟨{ x.reconciler with identityMismatch := false }, x.snapshots, some status⟩ := by
  unfold poll handleStatus
  dsimp only
  rw [CommandReconciler.asyncReconcile_of_incomplete hB hid hopen,
    SnapshotManager.asyncRefresh_of_not_considers fun h => by
      rw [h.complete] at hopen
      cases hopen]

end Mirror

end RfCloner
