/-
  A restore that is begun on other hardware, and abandoned.

  `restore_begin` makes the device adopt the identity of the replica, and `clear_all` closes the
  restore without giving that identity up, so that it can be tried again.  From then on the device
  reports the right identity, no open restore, and an empty registry.  `abandoned_restore_safe_iff`
  is what that means for the replica and the organisation in Home Assistant.
-/
import RfCloner.System.StaleListing
import RfCloner.System.Replica

namespace RfCloner

open CommandStore CommandReconciler

/-- What happens to a device that is being restored, up to the commit. -/
inductive RestoreEvent
  | begin (saves : Bool) (bridgeId : Bytes) (nextCommandId : Int32)
  | import (saves : Bool) (args : Cloner.ImportArgs)
  | clear (saves : Bool)
  | poll (now : Timestamp) (answers : Nat → Int → ExportResult)

namespace Installation

variable {ρ : Type} (R : EntityRegistry ρ)

/-- One event of a restore. -/
def restoring (x : Installation ρ) : RestoreEvent → Installation ρ
  | .begin saves adopted nextCommandId =>
    { x with device := x.device.rfRestoreBegin saves adopted nextCommandId }
  | .import saves args => { x with device := x.device.rfImport saves args }
  | .clear saves => { x with device := x.device.rfClear saves }
  | .poll now answers => x.step R (.refreshed now answers)

/-- The installation after the first `k` events of a restore. -/
def tried (x : Installation ρ) (events : List RestoreEvent) (k : Nat) : Installation ρ :=
  (events.take k).foldl (restoring R) x

/-- The replica has a command of the id. -/
def InReplica (S : Snapshot) (id : Int) : Prop := id ∈ S.commands.map ExportedCommand.commandId

/-- The replica that is held has every command of `S`, and their records and metadata are as they
    were. -/
structure Safe (B : BridgeId) (S : Snapshot) (before : CommandReconciler ρ) (x : Installation ρ) :
    Prop where
  replica : ∃ S', x.mirror.snapshots.snapshot = some S' ∧ ∀ c ∈ S.commands, c ∈ S'.commands
  organisation : Keeps R B.hex (InReplica S) before x.mirror.reconciler

/-- A status of the device would not be taken for news of the bridge `B`: it has another identity, or
    its restore is open; or it is of the replica's revision, and there is nothing else to lose. -/
def Unnoticed (B : BridgeId) (S : Snapshot) (before : CommandReconciler ρ) (x : Installation ρ) : Prop :=
  x.device.store.bridgeId ≠ B ∨ x.device.store.restoreState ≠ 0 ∨
    (S.revision = x.device.store.revision.toNat ∧
      ∀ id, InReplica S id → ¬ Organised R B.hex before id)

/-! ## What holds throughout -/

/-- Under the identity `B` the device has commands only while its restore is open. -/
def Vacant (B : BridgeId) (c : Cloner) : Prop :=
  c.store.bridgeId = B → c.store.restoreState = 0 → c.store.commands = []

/-- The mirror is that of `B`, and has the replica it started with or one without commands. -/
structure Attempted (B : BridgeId) (S : Snapshot) (x : Installation ρ) : Prop where
  vacant : Vacant B x.device
  uniqueId : x.entry.uniqueId = some B.hex
  manager : x.mirror.snapshots.bridgeId = B.hex
  replica : x.mirror.snapshots.snapshot = some S ∨
    ∃ S', x.mirror.snapshots.snapshot = some S' ∧ S'.commands = []

variable {R} {B : BridgeId} {S : Snapshot} {x : Installation ρ} {before : CommandReconciler ρ}

theorem vacant_restoreBegin {c : Cloner} (h : Vacant B c) (saves : Bool) (bridgeId : Bytes)
    (nextCommandId : Int32) : Vacant B (c.rfRestoreBegin saves bridgeId nextCommandId) := by
  unfold Vacant
  rw [Cloner.store_rfRestoreBegin]
  cases parseBridgeId bridgeId with
  | none => exact h
  | some id =>
    dsimp only
    unfold Op.attempt
    cases hplan : (Op.restoreBegin id nextCommandId.toUInt32).plan c.store with
    | stop result => exact h
    | write payload next undone =>
      obtain ⟨-, -, -, -, rev, -, -, rfl, rfl⟩ := restoreBeginPlan_eq_write hplan
      cases saves with
      | false => exact h
      | true => exact fun _ hclosed => absurd hclosed (show (1 : UInt8) ≠ 0 by decide)

theorem vacant_import {c : Cloner} (h : Vacant B c) (saves : Bool) (args : Cloner.ImportArgs) :
    Vacant B (c.rfImport saves args) := by
  unfold Vacant
  rw [Cloner.store_rfImport]
  unfold Op.attempt
  cases hplan : (Op.importCommand args.command).plan c.store with
  | stop result => exact h
  | write payload next undone =>
    obtain ⟨-, -, hopen, -, -, -, -, slot, rev, -, -, -, -, rfl, rfl⟩ :=
      importCommandPlan_eq_write hplan
    cases saves with
    | false => exact fun _ hclosed => absurd hclosed hopen
    | true => exact fun _ hclosed => absurd hclosed hopen

theorem vacant_clear {c : Cloner} (h : Vacant B c) (saves : Bool) : Vacant B (c.rfClear saves) := by
  unfold Vacant
  rw [Cloner.store_rfClear]
  unfold Op.attempt
  cases hplan : Op.clearAll.plan c.store with
  | stop result => exact h
  | write payload next undone =>
    obtain ⟨-, -, rev, -, -, rfl, rfl⟩ := clearAllPlan_eq_write hplan
    cases saves with
    | false => exact h
    | true =>
      intro _ _
      exact SlotTable.content_replicate _

/-- What a poll does while it is not taken for news. -/
theorem mirror_poll_of_frozen (h : Attempted B S x)
    (hfrozen : x.device.store.bridgeId ≠ B ∨ x.device.store.restoreState ≠ 0) (now : Timestamp)
    (answers : Nat → Int → ExportResult) :
    ∃ mark, x.mirror.poll R x.device.rfStatus now answers
      = ⟨{ x.mirror.reconciler with identityMismatch := mark }, x.mirror.snapshots,
          some x.device.rfStatus⟩ := by
  by_cases hid : x.device.store.bridgeId = B
  · refine ⟨false, Mirror.poll_of_incomplete h.uniqueId (congrArg BridgeId.hex hid) ?_⟩
    rw [← Bool.not_eq_false, Cloner.restoreIncomplete_rfStatus]
    exact hfrozen.resolve_left (not_not_intro hid)
  · exact ⟨true, Mirror.poll_of_foreign h.uniqueId h.manager fun heq =>
      hid (BridgeId.hex_inj heq)⟩

/-- Under the adopted identity, once the restore is closed, nothing is listed. -/
theorem Attempted.unlisted (h : Attempted B S x) (hid : x.device.store.bridgeId = B)
    (hclosed : x.device.store.restoreState = 0) : x.device.rfStatus.commands = [] := by
  rw [Cloner.commands_rfStatus, h.vacant hid hclosed]
  rfl

/-- **Every event keeps what holds throughout.** -/
theorem Attempted.restoring (h : Attempted B S x) (event : RestoreEvent) :
    Attempted B S (x.restoring R event) := by
  cases event with
  | begin saves adopted next => exact { h with vacant := vacant_restoreBegin h.vacant saves adopted next }
  | «import» saves args => exact { h with vacant := vacant_import h.vacant saves args }
  | clear saves => exact { h with vacant := vacant_clear h.vacant saves }
  | poll now answers =>
    by_cases hfrozen : x.device.store.bridgeId ≠ B ∨ x.device.store.restoreState ≠ 0
    · obtain ⟨mark, hpoll⟩ := mirror_poll_of_frozen (R := R) h hfrozen now answers
      have hmirror : (x.restoring R (.poll now answers)).mirror = _ := hpoll
      refine ⟨h.vacant, ?_, ?_, ?_⟩
      · unfold entry
        rw [hmirror]
        exact h.uniqueId
      · rw [hmirror]
        exact h.manager
      · rw [hmirror]
        exact h.replica
    · rw [not_or, not_not, not_not] at hfrozen
      obtain ⟨hid, hclosed⟩ := hfrozen
      have hnone := h.unlisted hid hclosed
      have hopen := x.device.restoreIncomplete_rfStatus.mpr hclosed
      refine ⟨h.vacant, ?_, ?_, ?_⟩
      · show (x.mirror.reconciler.asyncReconcile R x.device.rfStatus).entry.uniqueId = _
        rw [(asyncReconcile_eq h.uniqueId (congrArg BridgeId.hex hid) hopen).2,
          (entryId_prunedTo _ _ _).2.1]
        exact h.uniqueId
      · show (x.mirror.snapshots.asyncRefresh x.device.rfStatus now answers).bridgeId = _
        rw [SnapshotManager.bridgeId_asyncRefresh]
        exact h.manager
      · -- An empty listing is exported without a single call.
        have hsnapshots : (x.restoring R (.poll now answers)).mirror.snapshots
            = x.mirror.snapshots.asyncRefresh x.device.rfStatus now answers := rfl
        rw [hsnapshots]
        rcases SnapshotManager.asyncRefresh_cases x.mirror.snapshots x.device.rfStatus now answers with
          ⟨hsame, -⟩ | ⟨commands, hreplaces, hnew⟩
        · rw [hsame]
          exact h.replica
        · have hempty : commands = [] := by
            have hcalls := hreplaces.2
            rw [hnone] at hcalls
            exact List.map_eq_nil_iff.mp hcalls.symm
          exact Or.inr ⟨_, congrArg SnapshotManager.snapshot hnew, hempty⟩

/-- What is held is the replica itself, as long as its commands are. -/
theorem Attempted.held (h : Attempted B S x) (hS : S.commands ≠ [])
    (hsafe : Safe R B S before x) : x.mirror.snapshots.snapshot = some S := by
  refine h.replica.resolve_right ?_
  rintro ⟨S', hS', hempty⟩
  obtain ⟨S'', hS'', hsub⟩ := hsafe.replica
  obtain rfl := Option.some.inj (hS'.symm.trans hS'')
  obtain ⟨c, hc⟩ := List.exists_mem_of_ne_nil _ hS
  have hmem := hsub c hc
  rw [hempty] at hmem
  cases hmem

/-- An empty listing that is trusted leaves no metadata. -/
theorem Attempted.metaFor_poll (h : Attempted B S x) (hid : x.device.store.bridgeId = B)
    (hclosed : x.device.store.restoreState = 0) (now : Timestamp)
    (answers : Nat → Int → ExportResult) (id : Int) :
    metaFor (x.restoring R (.poll now answers)).mirror.reconciler.entry id = none := by
  have hafter := metaFor_asyncReconcile (R := R) h.uniqueId (congrArg BridgeId.hex hid)
    (x.device.restoreIncomplete_rfStatus.mpr hclosed) id
  refine hafter.trans ?_
  cases metaFor x.mirror.reconciler.entry id with
  | none => rfl
  | some m =>
    simp only [h.unlisted hid hclosed, List.map_nil, List.not_mem_nil, not_false_eq_true, if_true]

theorem Attempted.mem_records_poll (h : Attempted B S x) (hid : x.device.store.bridgeId = B)
    (hclosed : x.device.store.restoreState = 0) (now : Timestamp)
    (answers : Nat → Int → ExportResult) {y : RegistryEntry} :
    y ∈ (x.restoring R (.poll now answers)).mirror.reconciler.records R ↔
      y ∈ x.mirror.reconciler.records R ∧
        ∀ id, commandIdFromUniqueId B.hex y.uniqueId = some id →
          id ∈ x.device.rfStatus.commands.map CommandInfo.commandId :=
  mem_records_asyncReconcile h.uniqueId (congrArg BridgeId.hex hid)
    (x.device.restoreIncomplete_rfStatus.mpr hclosed)

/-- A foreign or open device is not listened to. -/
theorem Attempted.safe_poll_of_frozen (h : Attempted B S x)
    (hfrozen : x.device.store.bridgeId ≠ B ∨ x.device.store.restoreState ≠ 0)
    (hsafe : Safe R B S before x) (now : Timestamp) (answers : Nat → Int → ExportResult) :
    Safe R B S before (x.restoring R (.poll now answers)) := by
  obtain ⟨mark, hpoll⟩ := mirror_poll_of_frozen (R := R) h hfrozen now answers
  have hmirror : (x.restoring R (.poll now answers)).mirror = _ := hpoll
  constructor
  · rw [hmirror]
    exact hsafe.replica
  · rw [hmirror]
    exact ⟨hsafe.organisation.records, hsafe.organisation.metadata⟩

/-- What an empty listing leaves safe, there was none of, and the listing was no news. -/
theorem Attempted.unnoticed_of_safe_poll (h : Attempted B S x) (hS : S.commands ≠ [])
    (hsafe : Safe R B S before x) (hid : x.device.store.bridgeId = B)
    (hclosed : x.device.store.restoreState = 0) {now : Timestamp} {answers : Nat → Int → ExportResult}
    (hsafe' : Safe R B S before (x.restoring R (.poll now answers))) : Unnoticed R B S before x := by
  have hnone := h.unlisted hid hclosed
  refine Or.inr (Or.inr ⟨?_, ?_⟩)
  · -- were it news, the replica would be an empty one
    by_contra hrev
    have hconsiders : x.mirror.snapshots.Considers x.device.rfStatus := by
      refine ⟨(congrArg BridgeId.hex hid).trans h.manager.symm,
        x.device.restoreIncomplete_rfStatus.mpr hclosed, fun current hcurrent hsame => ?_⟩
      obtain rfl := Option.some.inj ((h.held hS hsafe).symm.trans hcurrent)
      exact hrev hsame.2
    obtain ⟨S', hS', hsub⟩ := hsafe'.replica
    change (x.mirror.snapshots.asyncRefresh x.device.rfStatus now answers).snapshot = _ at hS'
    rw [SnapshotManager.asyncRefresh_of_considers hconsiders, hnone] at hS'
    obtain rfl := Option.some.inj hS'
    obtain ⟨c, hc⟩ := List.exists_mem_of_ne_nil _ hS
    cases hsub c hc
  · rintro id hreplica (⟨y, hy, hyid⟩ | hsome)
    · have hkept := hsafe'.organisation.records y hy id hyid hreplica
      have hlisted := ((h.mem_records_poll hid hclosed now answers).mp hkept).2 id hyid
      rw [hnone] at hlisted
      cases hlisted
    · have hkept := hsafe'.organisation.metadata id hreplica
      rw [h.metaFor_poll (R := R) hid hclosed now answers] at hkept
      rw [← hkept] at hsome
      cases hsome

/-- The empty listing is trusted, but there is nothing to take and no news to store. -/
theorem Attempted.safe_poll_of_unnoticed (h : Attempted B S x) (hS : S.commands ≠ [])
    (hSB : S.bridgeId = B.hex) (hsafe : Safe R B S before x) (hid : x.device.store.bridgeId = B)
    (hclosed : x.device.store.restoreState = 0) (hunnoticed : Unnoticed R B S before x)
    (now : Timestamp) (answers : Nat → Int → ExportResult) :
    Safe R B S before (x.restoring R (.poll now answers)) := by
  obtain ⟨hrev, horganised⟩ :=
    (hunnoticed.resolve_left (not_not_intro hid)).resolve_left (not_not_intro hclosed)
  have hsame : (x.restoring R (.poll now answers)).mirror.snapshots = x.mirror.snapshots := by
    refine SnapshotManager.asyncRefresh_of_not_considers fun hconsiders => ?_
    exact hconsiders.outdated S (h.held hS hsafe) ⟨hSB.trans (congrArg BridgeId.hex hid).symm, hrev⟩
  constructor
  · rw [hsame]
    exact hsafe.replica
  · constructor
    · intro y hy id hyid hreplica
      exact absurd (Or.inl ⟨y, hy, hyid⟩) (horganised id hreplica)
    · intro id hreplica
      rw [h.metaFor_poll (R := R) hid hclosed now answers]
      by_contra hne
      exact horganised id hreplica (Or.inr (Option.isSome_iff_ne_none.mpr (Ne.symm hne)))

/-- **One poll**: what was safe stays safe exactly if the status goes unnoticed. -/
theorem Attempted.safe_poll_iff (h : Attempted B S x) (hS : S.commands ≠ [])
    (hSB : S.bridgeId = B.hex) (hsafe : Safe R B S before x) (now : Timestamp)
    (answers : Nat → Int → ExportResult) :
    Safe R B S before (x.restoring R (.poll now answers)) ↔ Unnoticed R B S before x := by
  by_cases hfrozen : x.device.store.bridgeId ≠ B ∨ x.device.store.restoreState ≠ 0
  · exact iff_of_true (h.safe_poll_of_frozen hfrozen hsafe now answers) (hfrozen.imp_right Or.inl)
  · rw [not_or, not_not, not_not] at hfrozen
    obtain ⟨hid, hclosed⟩ := hfrozen
    exact ⟨h.unnoticed_of_safe_poll hS hsafe hid hclosed,
      fun hunnoticed => h.safe_poll_of_unnoticed hS hSB hsafe hid hclosed hunnoticed now answers⟩

/-! ## Runs -/

/-- **Abandoning a restore**, in any order of begins, imports, clears and polls, on any hardware that
    had another identity: the replica keeps its commands, and their entity records and metadata are
    kept, exactly if every status that is polled goes unnoticed. -/
theorem abandoned_restore_safe_iff (R : EntityRegistry ρ) {B : BridgeId} {S : Snapshot}
    (hS : S.commands ≠ []) (hSB : S.bridgeId = B.hex) {start : Installation ρ}
    (hB : start.entry.uniqueId = some B.hex) (hmanager : start.mirror.snapshots = ⟨B.hex, some S⟩)
    (hdevice : start.device.store.bridgeId ≠ B) (events : List RestoreEvent) :
    (∀ k ≤ events.length, (start.tried R events k).Safe R B S start.mirror.reconciler) ↔
    ∀ k now answers, events[k]? = some (.poll now answers) →
      (start.tried R events k).Unnoticed R B S start.mirror.reconciler := by
  have hstart : Attempted B S start :=
    ⟨fun hid => absurd hid hdevice, hB, by rw [hmanager], Or.inl (by rw [hmanager])⟩
  have hsafe : start.Safe R B S start.mirror.reconciler :=
    ⟨⟨S, congrArg SnapshotManager.snapshot hmanager, fun c hc => hc⟩,
      ⟨fun y hy _ _ _ => hy, fun _ _ => rfl⟩⟩
  -- only a poll can do harm
  have hexact := Runs.exact_iff (restoring R) start events
    (C := fun x event => ∀ now answers, event = .poll now answers →
      x.Unnoticed R B S start.mirror.reconciler) hstart hsafe (by
    intro x event _ hx hbefore
    refine ⟨hx.restoring event, ?_⟩
    cases event with
    | poll now answers =>
      rw [hx.safe_poll_iff hS hSB hbefore now answers]
      exact ⟨fun h _ _ _ => h, fun h => h now answers rfl⟩
    | begin saves adopted next | «import» saves args | clear saves =>
      exact iff_of_true ⟨hbefore.replica, hbefore.organisation⟩ fun _ _ h => nomatch h)
  refine hexact.trans ⟨fun h k now answers hevent => h k _ hevent now answers rfl, ?_⟩
  intro h k event hevent now answers hpoll
  exact h k now answers (hpoll ▸ hevent)

/-! ## Begun and cleared -/

/-- The identity of a bridge that is to be replaced. -/
def replacedBridge : BridgeId := .filled 1

/-- Its replica, with one command. -/
def oneCommand : Snapshot :=
  ⟨replacedBridge.hex, 5, 2, 0,
    [⟨1, replacedBridge.hex, 1, str "on", 10000, 3, 433920000, 2, [350, -1050]⟩]⟩

/-- The mirror of that bridge, in front of new hardware. -/
def replacedHardware :
    Installation { l : List RegistryEntry // (l.map RegistryEntry.entityId).Nodup } where
  device := ⟨(Session.powerOn (fun _ => true) ⟨2, 4, 200, 7⟩ none).store, []⟩
  mirror := ⟨.new ⟨str "e", some replacedBridge.hex, [], []⟩ ⟨[], List.nodup_nil⟩,
    ⟨replacedBridge.hex, some oneCommand⟩, none⟩
  lastUpdateSuccess := false

/-- **A restore is begun and cleared, and the next poll replaces the replica with an empty one.** -/
theorem begun_and_cleared_unsafe :
    let events := [.begin true (utf8 replacedBridge.hex) 2, .clear true,
      .poll 1 fun _ _ => .raises]
    let x := replacedHardware.tried EntityRegistry.listed events 3
    x.mirror.snapshots.snapshot.map Snapshot.commands = some [] ∧
    ¬ x.Safe EntityRegistry.listed replacedBridge oneCommand replacedHardware.mirror.reconciler := by
  intro events x
  have hempty : x.mirror.snapshots.snapshot.map Snapshot.commands = some [] := by decide +kernel
  refine ⟨hempty, fun hsafe => ?_⟩
  obtain ⟨S', hS', hsub⟩ := hsafe.replica
  rw [hS'] at hempty
  have hmem := hsub _ (List.mem_singleton.mpr rfl)
  rw [Option.some.inj hempty] at hmem
  cases hmem

/-- A poll while the restore is open does no harm. -/
theorem begun_and_polled_safe :
    let events := [.begin true (utf8 replacedBridge.hex) 2, .poll 1 fun _ _ => .raises]
    (replacedHardware.tried EntityRegistry.listed events 2).Safe EntityRegistry.listed replacedBridge
      oneCommand replacedHardware.mirror.reconciler := by
  intro events
  have hdevice : replacedHardware.device.store.bridgeId ≠ replacedBridge := by decide +kernel
  refine (abandoned_restore_safe_iff EntityRegistry.listed (List.cons_ne_nil _ _) rfl rfl rfl hdevice
    events).mpr ?_ 2 (Nat.le_refl _)
  intro k now answers hevent
  rcases k with _ | _ | k
  · cases hevent
  · exact Or.inr (Or.inl (by decide +kernel))
  · cases hevent

end Installation

end RfCloner
