/-
  Pointing a bridge at another node (`config_flow.py`).

  The reconfigure flow probes the node that is picked.  If it reports the identity of the entry, the
  entry is bound to it and nothing else is looked at; otherwise the replica is restored onto it, once
  that is confirmed.  So what the flow says of a node under the identity of the entry is that it is
  the bridge, restored or not: `reconfigure_whole_iff`.
-/
import RfCloner.System.Verdict

namespace RfCloner

open CommandStore

/-- What an entry is bound to: the ESPHome entry of a node, and what its actions are prefixed with. -/
structure NodeRef where
  esphomeEntryId : Str
  actionPrefix : Str

/-- A config entry, as far as the flow looks at it: its identity, its data, and the snapshots of its
    runtime data, once it has been set up. -/
structure BridgeEntry where
  uniqueId : Option Str
  data : NodeRef
  snapshots : Option SnapshotManager

/-- `runtime.snapshots.snapshot if runtime is not None else None`. -/
def BridgeEntry.snapshot (entry : BridgeEntry) : Option Snapshot :=
  entry.snapshots.bind SnapshotManager.snapshot

/-- How a step ends: the flow is aborted, with the error that is its detail if there is one, or one of
    its two forms is shown. -/
inductive StepResult where
  | abort (reason : Str) (detail : Option RestoreError)
  | reconfigureForm (error : Option Str)
  | replaceForm (bridgeId foundBridgeId commands : Str)
  deriving DecidableEq

/-- A flow: the entry it is about, the node that a restore is considered for, and the device that is
    reached through the node that was picked. -/
structure ReconfigureFlow where
  entry : BridgeEntry
  replacement : Option (NodeRef × BridgeStatus)
  device : Cloner

namespace ReconfigureFlow

/-- `_rebind`. -/
def rebind (flow : ReconfigureFlow) (node : NodeRef) (reason : Str) : StepResult × ReconfigureFlow :=
  (.abort reason none, { flow with entry := { flow.entry with data := node } })

/-- `async_step_replace`, shown or confirmed.  Without a replacement it fails an assertion, and the
    flow shows nothing. -/
def asyncStepReplace (w : Wire) (line : Nat → Fate) (confirmed : Bool) (flow : ReconfigureFlow) :
    Option (StepResult × ReconfigureFlow) :=
  flow.replacement.map fun (node, status) =>
    match flow.entry.snapshot with
    | none => (.abort (str "no_snapshot") none, flow)
    | some snapshot =>
      match checkRestoreTarget status snapshot with
      | .error e => (.abort (str "restore_not_possible") (some e), flow)
      | .ok () =>
        if confirmed then
          match asyncRestore w line snapshot flow.device with
          | (.error e, device) =>
            (.abort (str "restore_failed") (some e), { flow with device := device })
          | (.ok (), device) =>
            { flow with device := device }.rebind node (str "restore_successful")
        else
          (.replaceForm snapshot.bridgeId status.bridgeId (num snapshot.commands.length), flow)

/-- `async_step_reconfigure`, shown or submitted with a node, on what the probe of the node comes to. -/
def asyncStepReconfigure (w : Wire) (line : Nat → Fate) (choices : List Str)
    (input : Option (NodeRef × Except Str BridgeStatus)) (flow : ReconfigureFlow) :
    Option (StepResult × ReconfigureFlow) :=
  if choices.isEmpty then some (.abort (str "no_esphome_entries") none, flow)
  else
    match input with
    | none => some (.reconfigureForm none, flow)
    | some (_, .error problem) => some (.reconfigureForm (some problem), flow)
    | some (node, .ok status) =>
      if some status.bridgeId = flow.entry.uniqueId then
        some (flow.rebind node (str "reconfigure_successful"))
      else
        { flow with replacement := some (node, status) }.asyncStepReplace w line false

/-- A whole flow onto a node that can be probed: the node is submitted, and the restore is confirmed
    if it is offered. -/
def run (w : Wire) (line : Nat → Fate) (choices : List Str) (node : NodeRef)
    (flow : ReconfigureFlow) : Option (StepResult × ReconfigureFlow) :=
  match flow.asyncStepReconfigure w line choices (some (node, .ok flow.device.rfStatus)) with
  | some (.replaceForm .., flow) => flow.asyncStepReplace w line true
  | done => done

end ReconfigureFlow

/-- The flow reports success. -/
def StepResult.Succeeds (result : StepResult) : Prop :=
  ∃ reason ∈ [str "reconfigure_successful", str "restore_successful"], result = .abort reason none

/-! ## A flow in which nothing fails -/

section Flow

variable {w : Wire} {line : Nat → Fate} {flow : ReconfigureFlow} {choices : List Str}
  {node : NodeRef} {snapshot : Snapshot}

/-- **A node under the identity of the entry** is taken for the bridge. -/
theorem run_of_own (hchoices : choices ≠ [])
    (hown : some flow.device.rfStatus.bridgeId = flow.entry.uniqueId) :
    flow.run w line choices node = some (flow.rebind node (str "reconfigure_successful")) := by
  have hsome : choices.isEmpty = false := List.isEmpty_eq_false_iff.mpr hchoices
  unfold ReconfigureFlow.run ReconfigureFlow.asyncStepReconfigure
  simp only [hsome, Bool.false_eq_true, if_false, if_pos hown]
  rfl

variable (w line node) in
/-- A node under another identity is restored onto, if it passes the checks. -/
theorem run_of_other (hchoices : choices ≠ []) (hsnapshot : flow.entry.snapshot = some snapshot)
    (hother : some flow.device.rfStatus.bridgeId ≠ flow.entry.uniqueId) :
    ∃ result flow', flow.run w line choices node = some (result, flow') ∧
      ((∃ e, checkRestoreTarget flow.device.rfStatus snapshot = .error e ∧
          result = .abort (str "restore_not_possible") (some e) ∧ flow'.device = flow.device) ∨
        checkRestoreTarget flow.device.rfStatus snapshot = .ok () ∧
          flow'.device = (asyncRestore w line snapshot flow.device).2 ∧
          ((∃ e, (asyncRestore w line snapshot flow.device).1 = .error e ∧
              result = .abort (str "restore_failed") (some e)) ∨
            (asyncRestore w line snapshot flow.device).1 = .ok () ∧
              result = .abort (str "restore_successful") none)) := by
  have hsome : choices.isEmpty = false := List.isEmpty_eq_false_iff.mpr hchoices
  unfold ReconfigureFlow.run ReconfigureFlow.asyncStepReconfigure
  simp only [hsome, Bool.false_eq_true, if_false, if_neg hother]
  unfold ReconfigureFlow.asyncStepReplace
  simp only [Option.map_some, hsnapshot]
  cases hcheck : checkRestoreTarget flow.device.rfStatus snapshot with
  | error e => exact ⟨_, _, rfl, Or.inl ⟨e, rfl, rfl, rfl⟩⟩
  | ok =>
    simp only [Bool.false_eq_true, if_false, Option.map_some, hcheck, if_true, hsnapshot]
    cases hrestore : asyncRestore w line snapshot flow.device with
    | mk result device =>
      cases result with
      | error e => exact ⟨_, _, rfl, Or.inr ⟨trivial, rfl, Or.inl ⟨e, rfl, rfl⟩⟩⟩
      | ok => exact ⟨_, _, rfl, Or.inr ⟨trivial, rfl, Or.inr ⟨rfl, rfl⟩⟩⟩

/-- What the flow says is true of the device it ends with. -/
def ReconfigureFlow.Whole (snapshot : Snapshot) (outcome : Option (StepResult × ReconfigureFlow)) :
    Prop :=
  ∀ result flow, outcome = some (result, flow) → result.Succeeds → IsSnapshot snapshot flow.device

theorem not_succeeds_of_detail {reason : Str} {e : RestoreError} :
    ¬ (StepResult.abort reason (some e)).Succeeds := by
  rintro ⟨_, -, h⟩
  cases h

variable (w node) in
/-- **When a flow that meets no failure is right**: the device is not under the identity of the entry
    yet, or it is the snapshot. -/
theorem reconfigure_whole_iff (hchoices : choices ≠ []) (hsnapshot : flow.entry.snapshot = some snapshot)
    (hreal : Real snapshot) (hentry : flow.entry.uniqueId = some snapshot.bridgeId)
    (hbackend : flow.device.store.backend = true)
    (hsound : flow.device.store.readOnly = false → flow.device.store.Sound) :
    ReconfigureFlow.Whole snapshot (flow.run w (fun _ => {}) choices node) ↔
      (flow.device.store.bridgeId.hex = snapshot.bridgeId → IsSnapshot snapshot flow.device) := by
  by_cases hown : flow.device.store.bridgeId.hex = snapshot.bridgeId
  · have hsame : some flow.device.rfStatus.bridgeId = flow.entry.uniqueId := by
      rw [hentry]
      exact congrArg some hown
    rw [run_of_own hchoices hsame]
    constructor
    · intro hwhole _
      let bound := flow.rebind node (str "reconfigure_successful")
      exact hwhole bound.1 bound.2 rfl ⟨_, List.mem_cons_self, rfl⟩
    · rintro hdevice _ _ ⟨⟩ -
      exact hdevice hown
  · refine iff_of_true (fun result flow' hrun hsucceeds => ?_) fun h => absurd h hown
    have hother : some flow.device.rfStatus.bridgeId ≠ flow.entry.uniqueId := by
      rw [hentry]
      exact fun h => hown (Option.some.inj h)
    obtain ⟨_, _, hrun', houtcome⟩ :=
      run_of_other w (fun _ => {}) node hchoices hsnapshot hother
    obtain ⟨rfl, rfl⟩ := Prod.mk.inj (Option.some.inj (hrun'.symm.trans hrun))
    rcases houtcome with ⟨e, -, rfl, -⟩ | ⟨hcheck, hdevice, ⟨e, -, rfl⟩ | ⟨hok, -⟩⟩
    · exact absurd hsucceeds not_succeeds_of_detail
    · exact absurd hsucceeds not_succeeds_of_detail
    · rw [hdevice]
      have h : Restorable flow.device.store := Restorable.of_check hcheck hbackend hsound
      by_cases hbegins : ∃ arg B, Begins w {} snapshot.bridgeId snapshot.nextCommandId
          flow.device.store.revision arg B
      · obtain ⟨arg, B, hbegins⟩ := hbegins
        exact isSnapshot_of_begun hreal h hcheck hbegins hok
      · -- a restore that does not begin succeeds under the identity of the snapshot only
        have hnot := (ok_of_not_begun_iff (fun _ => {}) h hcheck
          fun arg B h => hbegins ⟨arg, B, h⟩).mp hok
        exact absurd hnot.2.1 hown

end Flow

end RfCloner
