/-
  The replica of a bridge, and when it is rewritten (`snapshot.py`).

  A refresh looks at three fields of the status, exports every listed command one call at a time,
  and replaces the replica with what it got.  The listing and the exports are separate round trips:
  the answers are therefore indexed by the number of the call, and nothing ties them to the status.
-/
import RfCloner.Hass.Models

namespace RfCloner

/-- What an `async_export` comes to: it raises, the id is unknown, or a command. -/
inductive ExportResult where
  | raises
  | unknown
  | command (command : ExportedCommand)
  deriving DecidableEq

/-- `SnapshotManager`. -/
structure SnapshotManager where
  bridgeId : Str
  snapshot : Option Snapshot
  deriving DecidableEq

namespace SnapshotManager

/-- The loop of `_async_export_all`, from call number `k` on.  `error` is an exception that leaves
    it, `none` a command that has disappeared. -/
def asyncExportAll (answers : Nat → Int → ExportResult) :
    Nat → List CommandInfo → Except Unit (Option (List ExportedCommand))
  | _, [] => .ok (some [])
  | k, info :: listing =>
    match answers k info.commandId with
    | .raises => .error ()
    -- the command has gone since the status was read
    | .unknown => .ok none
    | .command command =>
      match asyncExportAll answers (k + 1) listing with
      | .error e => .error e
      | .ok exported => .ok (exported.map (command :: ·))

/-- The replica is of another revision or another bridge, or there is none. -/
def Outdated (m : SnapshotManager) (status : BridgeStatus) : Prop :=
  ∀ current, m.snapshot = some current →
    ¬(current.bridgeId = status.bridgeId ∧ current.revision = status.revision)

instance (m : SnapshotManager) (status : BridgeStatus) : Decidable (m.Outdated status) :=
  match h : m.snapshot with
  | none => isTrue fun current hcurrent => by
      rw [h] at hcurrent
      cases hcurrent
  | some current =>
    if hsame : current.bridgeId = status.bridgeId ∧ current.revision = status.revision then
      isFalse fun houtdated => houtdated current h hsame
    else
      isTrue fun other hother => by
        obtain rfl := Option.some.inj (h.symm.trans hother)
        exact hsame

/-- `async_refresh`, at time `now`. -/
def asyncRefresh (m : SnapshotManager) (status : BridgeStatus) (now : Timestamp)
    (answers : Nat → Int → ExportResult) : SnapshotManager :=
  if status.bridgeId ≠ m.bridgeId then m
  else if status.restoreIncomplete then m
  -- the same revision is not exported again
  else if ¬ m.Outdated status then m
  else
    match asyncExportAll answers 0 status.commands with
    | .error _ => m
    | .ok none => m
    | .ok (some commands) =>
      { m with
        snapshot := some
          { bridgeId := status.bridgeId
            revision := status.revision
            nextCommandId := status.nextCommandId
            capturedAt := now
            commands := commands } }

/-! ## What a refresh comes to -/

variable {m : SnapshotManager} {status : BridgeStatus} {now : Timestamp}
  {answers : Nat → Int → ExportResult}

/-- **Everything was exported exactly if every call answered with a command**, and what was exported
    is the answers in order.  Induction on the listing, with the number of the call. -/
theorem asyncExportAll_eq_some {k : Nat} {listing : List CommandInfo}
    {commands : List ExportedCommand} :
    asyncExportAll answers k listing = .ok (some commands) ↔
      (listing.zipIdx k).map (fun p => answers p.2 p.1.commandId)
        = commands.map ExportResult.command := by
  induction listing generalizing k commands with
  | nil =>
    unfold asyncExportAll
    constructor
    · intro h
      obtain rfl := Option.some.inj (Except.ok.inj h)
      rfl
    · intro h
      rw [List.zipIdx_nil, List.map_nil] at h
      rw [List.map_eq_nil_iff.mp h.symm]
  | cons info listing ih =>
    unfold asyncExportAll
    rw [List.zipIdx_cons, List.map_cons]
    cases commands with
    | nil =>
      constructor
      · intro h
        split at h
        · cases h
        · cases h
        · split at h
          · cases h
          · rename_i exported _
            cases exported <;> cases h
      · intro h
        cases h
    | cons command commands =>
      rw [List.map_cons, List.cons.injEq, ← ih]
      cases answers k info.commandId with
      | raises => simp
      | unknown => simp
      | command answer =>
        cases asyncExportAll answers (k + 1) listing with
        | error e => simp
        | ok exported => cases exported <;> simp

/-- The manager considers the status: it is of its own bridge, complete, and news to it. -/
structure Considers (m : SnapshotManager) (status : BridgeStatus) : Prop where
  own : status.bridgeId = m.bridgeId
  complete : status.restoreIncomplete = false
  outdated : m.Outdated status

theorem asyncRefresh_of_not_considers (h : ¬ m.Considers status) :
    m.asyncRefresh status now answers = m := by
  unfold asyncRefresh
  split
  · rfl
  rename_i hown
  split
  · rfl
  rename_i hcomplete
  split
  · rfl
  rename_i houtdated
  exact absurd ⟨not_not.mp hown, Bool.eq_false_iff.mpr hcomplete, not_not.mp houtdated⟩ h

/-- **A refresh replaces the replica with what was exported, or does nothing.** -/
theorem asyncRefresh_of_considers (h : m.Considers status) :
    m.asyncRefresh status now answers
      = match asyncExportAll answers 0 status.commands with
        | .ok (some commands) =>
          { m with
            snapshot := some ⟨status.bridgeId, status.revision, status.nextCommandId, now, commands⟩ }
        | _ => m := by
  unfold asyncRefresh
  rw [if_neg (not_not_intro h.own), if_neg (by rw [h.complete]; exact Bool.false_ne_true),
    if_neg (not_not_intro h.outdated)]
  rcases asyncExportAll answers 0 status.commands with e | ⟨_ | commands⟩ <;> rfl

@[simp] theorem bridgeId_asyncRefresh : (m.asyncRefresh status now answers).bridgeId = m.bridgeId := by
  by_cases h : m.Considers status
  · rw [asyncRefresh_of_considers h]
    split <;> rfl
  · rw [asyncRefresh_of_not_considers h]

/-- The replica is replaced by that of the exported commands. -/
def Replaces (m : SnapshotManager) (status : BridgeStatus) (answers : Nat → Int → ExportResult)
    (commands : List ExportedCommand) : Prop :=
  m.Considers status ∧ (status.commands.zipIdx).map (fun p => answers p.2 p.1.commandId)
    = commands.map ExportResult.command

/-- **What a refresh did**: nothing, or the replacement. -/
theorem asyncRefresh_cases (m : SnapshotManager) (status : BridgeStatus) (now : Timestamp)
    (answers : Nat → Int → ExportResult) :
    (m.asyncRefresh status now answers = m ∧ ∀ commands, ¬ m.Replaces status answers commands) ∨
    ∃ commands, m.Replaces status answers commands ∧
      m.asyncRefresh status now answers = { m with
        snapshot := some ⟨status.bridgeId, status.revision, status.nextCommandId, now, commands⟩ } := by
  by_cases h : m.Considers status
  · rw [asyncRefresh_of_considers h]
    split
    · rename_i commands hexported
      exact Or.inr ⟨commands, ⟨h, asyncExportAll_eq_some.mp hexported⟩, rfl⟩
    · rename_i hfailed
      refine Or.inl ⟨rfl, fun commands hreplaces => ?_⟩
      exact hfailed commands (asyncExportAll_eq_some.mpr hreplaces.2)
  · rw [asyncRefresh_of_not_considers h]
    exact Or.inl ⟨rfl, fun commands hreplaces => h hreplaces.1⟩

/-- The replacement, call by call. -/
theorem replaces_iff {commands : List ExportedCommand} : m.Replaces status answers commands ↔
    m.Considers status ∧ ∀ k : Nat,
      (status.commands[k]?).map (fun info => answers k info.commandId)
        = (commands[k]?).map ExportResult.command := by
  unfold Replaces
  rw [List.ext_getElem?_iff]
  refine and_congr_right fun _ => forall_congr' fun k => ?_
  rw [List.getElem?_map, List.getElem?_map, List.getElem?_zipIdx, Option.map_map]
  simp [Function.comp_def]

/-- A refresh that replaces the replica is seen to do so. -/
theorem asyncRefresh_ne_iff :
    m.asyncRefresh status now answers ≠ m ↔ ∃ commands, m.Replaces status answers commands := by
  rcases asyncRefresh_cases m status now answers with ⟨hsame, hnone⟩ | ⟨commands, hreplaces, hnew⟩
  · constructor
    · intro h
      exact absurd hsame h
    · rintro ⟨commands, hreplaces⟩
      exact absurd hreplaces (hnone commands)
  · refine ⟨fun _ => ⟨commands, hreplaces⟩, fun _ hsame => ?_⟩
    rw [hnew] at hsame
    have hsnapshot := (congrArg SnapshotManager.snapshot hsame).symm
    exact hreplaces.1.outdated _ hsnapshot ⟨rfl, rfl⟩

end SnapshotManager

end RfCloner
