/-
  Metadata, and listings that are out of date.

  The device learns, renames and deletes while Home Assistant polls it.  Two paths prune the
  metadata.  An entry update works on what the coordinator last held and bounds what it takes for
  deleted by the counter of that read: ids are handed out in order, so what is missing below the
  counter is gone.  A delivered status is taken as current.  But the coordinator calls its listeners
  once more when a refresh fails after a success, with the data it still has
  (`live_metadata_kept_iff`).
-/
import RfCloner.Hass.Overwrite
import RfCloner.Device.Cloner
import RfCloner.Store.Authored
import RfCloner.Store.Provenance

namespace RfCloner

open CommandStore CommandReconciler

/-! ## Learns, renames and deletes -/

namespace CommandStore

variable {s next undone : CommandStore} {payload : Option Nat} {op : Op} {cfg : Config}

/-- A learn, a rename or a delete keeps the identity. -/
theorem bridgeId_of_plain_write (hplain : (Event.op op).Plain cfg)
    (h : op.plan s = .write payload next undone) : next.bridgeId = s.bridgeId := by
  cases op with
  | put c =>
    obtain ⟨-, -, -, -, slot, overwriting, id, rev, -, -, -, -, rfl, -⟩ := putPlan_eq_write h
    rfl
  | rename id name =>
    obtain ⟨-, -, slot, rev, -, -, -, -, rfl, -⟩ := renamePlan_eq_write h
    rfl
  | remove name =>
    obtain ⟨_, -, h'⟩ := removePlan_eq_write h
    obtain ⟨-, slot, rev, -, -, -, rfl, -⟩ := removeByIdPlan_eq_write h'
    rfl
  | removeById id =>
    obtain ⟨-, slot, rev, -, -, -, rfl, -⟩ := removeByIdPlan_eq_write h
    rfl
  | clearAll =>
    obtain ⟨-, -, rev, -, -, rfl, -⟩ := clearAllPlan_eq_write h
    rfl
  | factoryReset | restoreBegin | importCommand | restoreCommit => exact hplain.elim

/-- **What a learn, a rename or a delete comes to**, whether or not it is saved: the identity stays,
    the counter only moves up, and no id below it comes to be used that was not used before. -/
theorem attempt_plain (hs : s.readOnly = false → s.Sound) (hplain : (Event.op op).Plain cfg)
    (saves : Bool) :
    let t := (op.attempt saves s).2
    (t.readOnly = false → t.Sound) ∧ t.bridgeId = s.bridgeId ∧ s.nextCommandId ≤ t.nextCommandId ∧
    ∀ c ∈ t.commands, (∃ d ∈ s.commands, d.commandId = c.commandId) ∨
      s.nextCommandId ≤ c.commandId := by
  intro t
  have hsame : t = s → (t.readOnly = false → t.Sound) ∧ t.bridgeId = s.bridgeId ∧
      s.nextCommandId ≤ t.nextCommandId ∧
      ∀ c ∈ t.commands, (∃ d ∈ s.commands, d.commandId = c.commandId) ∨
        s.nextCommandId ≤ c.commandId := by
    intro heq
    rw [heq]
    exact ⟨hs, rfl, UInt32.le_refl _, fun c hc => Or.inl ⟨c, hc, rfl⟩⟩
  cases hplan : op.plan s with
  | stop result =>
    refine hsame ?_
    exact congrArg Prod.snd (Op.attempt_of_stop hplan saves)
  | write payload next undone =>
    obtain ⟨-, -, hundone⟩ := (op_change hs hplan).resolve_right
      fun ⟨random, hop, _⟩ => plain_reset hplain random hop
    cases saves with
    | false =>
      refine hsame ?_
      exact (congrArg Prod.snd (Op.attempt_of_write hplan false)).trans hundone
    | true =>
      have ht : t = next := congrArg Prod.snd (Op.attempt_of_write hplan true)
      rw [ht]
      refine ⟨fun _ => (op_next hs hplan).1, bridgeId_of_plain_write hplain hplan,
        nextCommandId_le_plan (plain_reset hplain) (plain_begin hplain) hplan, fun c hc => ?_⟩
      rcases commands_of_plain_write hplain hplan c hc with hold | ⟨-, hnew⟩
      · exact Or.inl hold
      · exact Or.inr (by rw [hnew]; exact UInt32.le_refl _)

end CommandStore

/-! ## The installation -/

/-- A device, and Home Assistant's mirror of it. -/
structure Installation (ρ : Type) where
  device : Cloner
  mirror : Mirror ρ
  lastUpdateSuccess : Bool

/-- What happens in an installation. -/
inductive BridgeEvent (ρ : Type)
  /-- Something changes the registry on the device. -/
  | device (op : Op) (saves : Bool) (lastResult : Bytes)
  /-- A refresh of the coordinator succeeds. -/
  | refreshed (now : Timestamp) (answers : Nat → Int → ExportResult)
  /-- A refresh of the coordinator fails. -/
  | failed (now : Timestamp) (answers : Nat → Int → ExportResult)
  /-- A flow records a target and an icon. -/
  | flow (step : FlowStep)
  /-- The targets change, and the entry's listeners are called. -/
  | update (subentries : List ConfigSubentry) (touch : ρ → ρ) (acceptsUserRemovals : Bool)

/-- The device only learns, renames and deletes. -/
def BridgeEvent.Plain {ρ : Type} : BridgeEvent ρ → Prop
  | device op _ _ => ∀ cfg, (Event.op op).Plain cfg
  | _ => True

/-- The command is stored on the device. -/
def Cloner.Stores (c : Cloner) (id : UInt32) : Prop := ∃ command ∈ c.store.commands, command.commandId = id

namespace Installation

variable {ρ : Type} (R : EntityRegistry ρ)

/-- One event.  A failed refresh calls the listeners if the one before succeeded. -/
def step (x : Installation ρ) : BridgeEvent ρ → Installation ρ
  | .device op saves lastResult =>
    { x with device := ⟨(op.attempt saves x.device.store).2, lastResult⟩ }
  | .refreshed now answers =>
    { x with mirror := x.mirror.poll R x.device.rfStatus now answers, lastUpdateSuccess := true }
  | .failed now answers =>
    { x with
      mirror := if x.lastUpdateSuccess then x.mirror.handleStatus R now answers else x.mirror
      lastUpdateSuccess := false }
  | .flow step =>
    { x with mirror := { x.mirror with reconciler := step.apply x.mirror.data x.mirror.reconciler } }
  | .update subentries touch accepts =>
    { x with mirror := x.mirror.update subentries touch accepts }

/-- The installation after the first `k` events. -/
def after (x : Installation ρ) (events : List (BridgeEvent ρ)) (k : Nat) : Installation ρ :=
  (events.take k).foldl (step R) x

/-- The entry, with its metadata. -/
def entry (x : Installation ρ) : ConfigEntry := x.mirror.reconciler.entry

/-- What a flow records. -/
def places (x : Installation ρ) : BridgeEvent ρ → Option (Int × CommandMeta)
  | .flow step => step.places x.mirror.data x.entry
  | _ => none

/-- The event drops no target and no icon of a command on the device, but for a target that does not
    exist, and for what a flow records anew. -/
def Preserves (x : Installation ρ) (event : BridgeEvent ρ) : Prop :=
  ∀ id : UInt32, (x.step R event).device.Stores id →
    (∀ m, x.places event ≠ some ((id.toNat : Int), m)) →
    (metaOf x.entry id).Kept (Missing (x.step R event).entry) (metaOf (x.step R event).entry id)

/-- If the listeners are called now, with the data of the last read, then every command on the device
    that has an icon or a target is in it. -/
def Covered (x : Installation ρ) : Prop :=
  x.lastUpdateSuccess = true → ∀ status, x.mirror.data = some status →
    status.restoreIncomplete = false → ∀ id : UInt32, x.device.Stores id →
      (id.toNat : Int) ∉ status.commands.map CommandInfo.commandId →
        (metaOf x.entry id).Kept (Missing x.entry) {}

/-! ## What the mirror knows of the device -/

/-- The last read was of this bridge, and what the device has stored since is above its counter. -/
structure Tracks (B : BridgeId) (x : Installation ρ) : Prop where
  uniqueId : x.entry.uniqueId = some B.hex
  identity : x.device.store.bridgeId = B
  sound : x.device.store.readOnly = false → x.device.store.Sound
  data : ∃ status, x.mirror.data = some status ∧ status.bridgeId = B.hex ∧
    status.nextCommandId ≤ x.device.store.nextCommandId.toNat ∧
    ∀ id : UInt32, x.device.Stores id → (id.toNat : Int) < status.nextCommandId →
      (id.toNat : Int) ∈ status.commands.map CommandInfo.commandId

variable {R} {B : BridgeId} {x : Installation ρ}

/-- A read lists what is stored. -/
theorem listed_of_stores {c : Cloner} {id : UInt32} (h : c.Stores id) :
    (id.toNat : Int) ∈ c.rfStatus.commands.map CommandInfo.commandId := by
  obtain ⟨command, hcommand, rfl⟩ := h
  exact c.mem_listed.mpr ⟨command, hcommand, rfl⟩

/-- A device event keeps what the mirror knows. -/
theorem Tracks.device (h : Tracks B x) {op : Op} (hplain : ∀ cfg, (Event.op op).Plain cfg)
    (saves : Bool) (lastResult : Bytes) :
    Tracks B (x.step R (.device op saves lastResult)) := by
  obtain ⟨hsound, hbridge, hnext, hids⟩ := attempt_plain h.sound (hplain x.device.store.config) saves
  obtain ⟨status, hdata, hid, hle, hlisted⟩ := h.data
  refine ⟨h.uniqueId, hbridge.trans h.identity, hsound, status, hdata, hid, ?_, ?_⟩
  · exact hle.trans (Int.ofNat_le.mpr (UInt32.le_iff_toNat_le.mp hnext))
  · rintro id ⟨c, hc, rfl⟩ hlt
    rcases hids c hc with ⟨d, hd, heq⟩ | hnew
    · exact hlisted c.commandId ⟨d, hd, heq⟩ hlt
    · have hnew' := UInt32.le_iff_toNat_le.mp hnew
      omega

/-- Delivering the data of the last read keeps what the mirror knows. -/
theorem Tracks.handleStatus (h : Tracks B x) (now : Timestamp)
    (answers : Nat → Int → ExportResult) (lastUpdateSuccess : Bool) :
    Tracks B ⟨x.device, x.mirror.handleStatus R now answers, lastUpdateSuccess⟩ := by
  obtain ⟨status, hdata, hid, hle, hlisted⟩ := h.data
  refine ⟨?_, h.identity, h.sound, status, ?_, hid, hle, hlisted⟩
  · show (x.mirror.handleStatus R now answers).reconciler.entry.uniqueId = _
    rw [Mirror.entry_handleStatus h.uniqueId hdata hid]
    split
    · exact h.uniqueId
    · rw [(entryId_prunedTo _ _ _).2.1]
      exact h.uniqueId
  · show (x.mirror.handleStatus R now answers).data = _
    rw [Mirror.data_handleStatus, hdata]

/-- **A successful refresh** makes the mirror know the device as it is. -/
theorem tracks_refreshed (hB : x.entry.uniqueId = some x.device.store.bridgeId.hex)
    (hs : x.device.store.readOnly = false → x.device.store.Sound) (now : Timestamp)
    (answers : Nat → Int → ExportResult) :
    Tracks x.device.store.bridgeId (x.step R (.refreshed now answers)) := by
  have hread : Tracks x.device.store.bridgeId
      (⟨x.device, { x.mirror with data := some x.device.rfStatus }, true⟩ : Installation ρ) :=
    ⟨hB, rfl, hs, x.device.rfStatus, rfl, rfl, Int.le_refl _, fun id hid _ => listed_of_stores hid⟩
  exact hread.handleStatus now answers true

/-- What an update of the entry leaves of it. -/
theorem entry_update (x : Installation ρ) (subentries : List ConfigSubentry) (touch : ρ → ρ)
    (accepts : Bool) :
    let entry : ConfigEntry := { x.entry with subentries := subentries }
    (x.step R (.update subentries touch accepts)).entry = entry ∨
    (x.step R (.update subentries touch accepts)).entry
      = entry.prunedTo (x.mirror.reconciler.asyncListedCommands x.mirror.data)
          (x.mirror.data.map BridgeStatus.nextCommandId) := by
  intro entry
  cases accepts with
  | false => exact Or.inl rfl
  | true => exact Or.inr rfl

/-- **Every event keeps what the mirror knows.** -/
theorem Tracks.step (h : Tracks B x) {event : BridgeEvent ρ} (hplain : event.Plain) :
    Tracks B (x.step R event) := by
  cases event with
  | device op saves lastResult => exact h.device hplain saves lastResult
  | refreshed now answers =>
    have hB : x.entry.uniqueId = some x.device.store.bridgeId.hex := by
      rw [h.identity]
      exact h.uniqueId
    have htracks := tracks_refreshed (R := R) hB h.sound now answers
    rw [h.identity] at htracks
    exact htracks
  | failed now answers =>
    cases hlast : x.lastUpdateSuccess with
    | false =>
      have hstep : x.step R (.failed now answers) = { x with lastUpdateSuccess := false } := by
        unfold Installation.step
        rw [hlast]
        rfl
      rw [hstep]
      exact { h with }
    | true =>
      have hstep : x.step R (.failed now answers)
          = ⟨x.device, x.mirror.handleStatus R now answers, false⟩ := by
        unfold Installation.step
        rw [hlast]
        rfl
      rw [hstep]
      exact h.handleStatus now answers false
  | flow step =>
    obtain ⟨-, hunique, -, -, -⟩ := step.apply_frame x.mirror.data x.mirror.reconciler
    exact ⟨hunique.trans h.uniqueId, h.identity, h.sound, h.data⟩
  | update subentries touch accepts =>
    refine ⟨?_, h.identity, h.sound, h.data⟩
    rcases entry_update (R := R) x subentries touch accepts with hentry | hentry
    · rw [hentry]
      exact h.uniqueId
    · rw [hentry, (entryId_prunedTo _ _ _).2.1]
      exact h.uniqueId

/-! ## What prunes, prunes -/

/-- Delivering a listing drops what it does not name. -/
theorem kept_handleStatus_iff {status : BridgeStatus} (now : Timestamp)
    (answers : Nat → Int → ExportResult) {y : Mirror ρ} (hB : y.reconciler.entry.uniqueId = some B.hex)
    (hdata : y.data = some status) (hid : status.bridgeId = B.hex) (id : UInt32) :
    let entry' := (y.handleStatus R now answers).reconciler.entry
    (metaOf y.reconciler.entry id).Kept (Missing entry') (metaOf entry' id) ↔
      status.restoreIncomplete = false →
        (id.toNat : Int) ∉ status.commands.map CommandInfo.commandId →
          (metaOf y.reconciler.entry id).Kept (Missing y.reconciler.entry) {} := by
  intro entry'
  have hentry : entry' = _ := Mirror.entry_handleStatus hB hdata hid
  rw [hentry]
  cases hopen : status.restoreIncomplete with
  | true =>
    rw [if_pos rfl]
    exact iff_of_true ⟨rfl, Or.inl rfl⟩ fun h => nomatch h
  | false =>
    rw [if_neg Bool.false_ne_true, missing_prunedTo]
    by_cases hlisted : (id.toNat : Int) ∈ status.commands.map CommandInfo.commandId
    · refine iff_of_true (kept_prunedTo _ ?_) fun _ hnot => absurd hlisted hnot
      unfold absentFrom
      simp [hlisted]
    · rw [metaOf_prunedTo_of_absent]
      · exact ⟨fun h _ _ => h, fun h => h rfl hlisted⟩
      · unfold absentFrom
        simp [hlisted]

/-- **A successful refresh drops nothing of a command on the device.** -/
theorem Tracks.preserves_refreshed (h : Tracks B x) (now : Timestamp)
    (answers : Nat → Int → ExportResult) : x.Preserves R (.refreshed now answers) := by
  intro id hstored _
  refine (kept_handleStatus_iff now answers (y := { x.mirror with data := some x.device.rfStatus })
    h.uniqueId rfl (congrArg BridgeId.hex h.identity) id).mpr fun _ hnot => ?_
  exact absurd (listed_of_stores hstored) hnot

/-- **An update of the entry drops nothing of a command on the device**, however old the listing. -/
theorem Tracks.preserves_update (h : Tracks B x) (subentries : List ConfigSubentry) (touch : ρ → ρ)
    (accepts : Bool) : x.Preserves R (.update subentries touch accepts) := by
  intro id hstored _
  obtain ⟨status, hdata, -, -, hlisted⟩ := h.data
  rcases entry_update (R := R) x subentries touch accepts with hentry | hentry
  · rw [hentry]
    exact ⟨rfl, Or.inl rfl⟩
  · rw [hentry, missing_prunedTo]
    refine kept_prunedTo { x.entry with subentries := subentries } ?_
    rw [hdata]
    unfold asyncListedCommands absentFrom
    dsimp only
    split
    · rfl
    · rename_i ids hids
      split at hids
      · cases hids
      · obtain rfl := Option.some.inj hids
        by_cases hbelow : (id.toNat : Int) < status.nextCommandId
        · have hmem := hlisted id hstored hbelow
          simp only [hmem, not_true_eq_false, decide_false, Bool.false_and]
        · simp [hbelow]

/-- **A failed refresh** drops something exactly if it delivers a listing that is short of it. -/
theorem Tracks.preserves_failed_iff (h : Tracks B x) (now : Timestamp)
    (answers : Nat → Int → ExportResult) : x.Preserves R (.failed now answers) ↔ x.Covered := by
  obtain ⟨status, hdata, hid, -, -⟩ := h.data
  unfold Preserves Covered Installation.step Installation.entry
  cases x.lastUpdateSuccess with
  | false =>
    refine iff_of_true (fun id _ _ => ⟨rfl, Or.inl rfl⟩) fun h => nomatch h
  | true =>
    have hkept := kept_handleStatus_iff (R := R) now answers h.uniqueId hdata hid
    constructor
    · intro hpreserves _ status' hstatus' hopen id hstored hnot
      obtain rfl := Option.some.inj (hdata.symm.trans hstatus')
      exact (hkept id).mp (hpreserves id hstored fun _ h => nomatch h) hopen hnot
    · intro hcovered id hstored _
      exact (hkept id).mpr fun hopen hnot => hcovered rfl status hdata hopen id hstored hnot

/-- A flow drops nothing of a command it is not for. -/
theorem preserves_flow (x : Installation ρ) (step : FlowStep) : x.Preserves R (.flow step) := by
  intro id _ hplaces
  have hframe := (step.apply_frame x.mirror.data x.mirror.reconciler).1
  have hmeta : metaOf (x.step R (.flow step)).entry id = metaOf x.entry id := by
    show metaOf (step.apply x.mirror.data x.mirror.reconciler).entry id = _
    cases hstep : step.places x.mirror.data x.entry with
    | none => rw [FlowStep.apply_of_none hstep]; rfl
    | some p =>
      obtain ⟨commandId, m⟩ := p
      have hne : (id.toNat : Int) ≠ commandId := by
        rintro rfl
        exact hplaces m hstep
      unfold metaOf
      rw [FlowStep.metaFor_apply_of_ne hstep hne]
      rfl
  rw [hmeta]
  exact ⟨rfl, Or.inl rfl⟩

/-! ## Runs -/

/-- **The metadata of live commands is kept exactly as long as no failed refresh delivers a listing
    that is short of one of them.**  For any device that has come to be in any way, any mirror of its
    bridge that has just read it, and any sequence of learns, renames and deletes on the device,
    refreshes that succeed or fail, flows, and changes of targets: each event drops no target and no
    icon of a command on the device, exactly if at each failed refresh that calls the listeners the
    last listing names every command on the device that has something to lose. -/
theorem live_metadata_kept_iff (R : EntityRegistry ρ) {cfg : Config} (lands : Nat → Bool)
    (random : Option BridgeId) (history : List Event) (lastResult : Bytes)
    (mirror : Mirror ρ) (hB : mirror.reconciler.entry.uniqueId
      = some (Session.run lands (Session.powerOn lands cfg random) history).store.bridgeId.hex)
    (lastUpdateSuccess : Bool) (now : Timestamp) (answers : Nat → Int → ExportResult)
    {events : List (BridgeEvent ρ)} (hplain : ∀ event ∈ events, event.Plain) :
    let device : Cloner :=
      ⟨(Session.run lands (Session.powerOn lands cfg random) history).store, lastResult⟩
    let start := step R ⟨device, mirror, lastUpdateSuccess⟩ (.refreshed now answers)
    (∀ k event, events[k]? = some event → (start.after R events k).Preserves R event) ↔
    ∀ k now answers, events[k]? = some (.failed now answers) → (start.after R events k).Covered := by
  intro device start
  have hstart : Tracks device.store.bridgeId start :=
    tracks_refreshed (x := ⟨device, mirror, lastUpdateSuccess⟩) hB
      (Session.founded_run lands cfg random history).ram now answers
  have htracks : ∀ k, Tracks device.store.bridgeId (start.after R events k) :=
    Runs.inv hstart fun x event hevent hx => hx.step (hplain event hevent)
  constructor
  · intro hpreserves k now answers hevent
    exact ((htracks k).preserves_failed_iff now answers).mp (hpreserves k _ hevent)
  · intro hcovered k event hevent
    cases event with
    | device op saves lastResult => exact fun id _ _ => ⟨rfl, Or.inl rfl⟩
    | refreshed now answers => exact (htracks k).preserves_refreshed now answers
    | failed now answers =>
      exact ((htracks k).preserves_failed_iff now answers).mpr (hcovered k now answers hevent)
    | flow step => exact preserves_flow _ step
    | update subentries touch accepts =>
      exact (htracks k).preserves_update subentries touch accepts

/-! ## A learn before a failed refresh -/

/-- A new entry of a device that has no identity source, with one target. -/
def newEntry : ConfigEntry where
  entryId := str "e"
  uniqueId := some BridgeId.zero.hex
  options := []
  subentries := [⟨str "s", subentryTypeTarget, str "Fan", [(confTargetId, .str (str "t"))]⟩]

/-- Home Assistant reads the device for the first time. -/
def firstRead (lastResult : Bytes) :
    Installation { l : List RegistryEntry // (l.map RegistryEntry.entityId).Nodup } :=
  step EntityRegistry.listed
    ⟨⟨(Session.powerOn (fun _ => true) ⟨2, 4, 200, 7⟩ none).store, lastResult⟩,
      ⟨.new newEntry ⟨[], List.nodup_nil⟩, ⟨BridgeId.zero.hex, none⟩, none⟩, false⟩
    (.refreshed 0 fun _ _ => .raises)

/-- The command is learned onto the target, and recorded. -/
def learnedOntoFan :
    List (BridgeEvent { l : List RegistryEntry // (l.map RegistryEntry.entityId).Nodup }) :=
  [.device (.put { name := ascii "on", timings := [350, -1050] }) true (ascii "stored"),
    .flow (.learned ⟨str "on", none, some (str "t")⟩ (.ok ⟨true, some 1, str "on", str "stored"⟩))]

/-- **The refresh after a learn fails, and what the flow has recorded is gone**, while the command is
    on the device and its target exists. -/
theorem failed_refresh_drops :
    let events := learnedOntoFan ++ [.failed 1 fun _ _ => .raises]
    let before := (firstRead []).after EntityRegistry.listed events 2
    let x := (firstRead []).after EntityRegistry.listed events 3
    x.device.Stores 1 ∧ metaOf before.entry 1 = ⟨some (str "t"), some (str "mdi:remote")⟩ ∧
    metaOf x.entry 1 = {} ∧ ¬ Missing x.entry (str "t") ∧
    ¬ before.Preserves EntityRegistry.listed (.failed 1 fun _ _ => .raises) := by
  intro events before x
  have hstored : x.device.Stores 1 := by
    refine ⟨{ commandId := 1, name := ascii "on", timings := [350, -1050] }, ?_, rfl⟩
    decide +kernel
  have hbefore : metaOf before.entry 1 = ⟨some (str "t"), some (str "mdi:remote")⟩ := by
    decide +kernel
  have hafter : metaOf x.entry 1 = {} := by decide +kernel
  refine ⟨hstored, hbefore, hafter, ?_, fun hpreserves => ?_⟩
  · unfold Missing
    rw [← Option.isNone_iff_eq_none]
    decide +kernel
  · have hkept := (hpreserves 1 hstored fun _ h => nomatch h).1
    rw [show (before.step EntityRegistry.listed (.failed 1 fun _ _ => .raises)).entry = x.entry from rfl,
      hafter, hbefore] at hkept
    cases hkept

/-- A refresh that succeeds after the learn names the command, and the failed refresh after it keeps
    what was recorded. -/
theorem successful_refresh_keeps :
    let events := learnedOntoFan ++
      [.refreshed 1 fun _ _ => .raises, .failed 2 fun _ _ => .raises]
    let x := (firstRead []).after EntityRegistry.listed events
    (x 3).device.Stores 1 ∧ (x 3).lastUpdateSuccess = true ∧
    ∀ k event, events[k]? = some event → (x k).Preserves EntityRegistry.listed event := by
  intro events x
  have hcommands : (x 3).device.store.commands
      = [{ commandId := 1, name := ascii "on", timings := [350, -1050] }] := by decide +kernel
  have hlisted : (x 3).mirror.data.map (fun status => status.commands.map CommandInfo.commandId)
      = some [1] := by decide +kernel
  have hplain : ∀ event ∈ events, event.Plain := by
    intro event hevent
    simp only [events, learnedOntoFan, List.cons_append, List.nil_append, List.mem_cons,
      List.not_mem_nil, or_false] at hevent
    rcases hevent with rfl | rfl | rfl | rfl
    · exact fun _ => trivial
    · trivial
    · trivial
    · trivial
  have hB : newEntry.uniqueId
      = some (Session.powerOn (fun _ => true) ⟨2, 4, 200, 7⟩ none).store.bridgeId.hex := by
    decide +kernel
  have hstored : (x 3).device.Stores 1 := ⟨_, by rw [hcommands]; exact List.mem_singleton.mpr rfl, rfl⟩
  refine ⟨hstored, by decide +kernel,
    (live_metadata_kept_iff EntityRegistry.listed (fun _ => true) none [] []
      ⟨.new newEntry ⟨[], List.nodup_nil⟩, ⟨BridgeId.zero.hex, none⟩, none⟩ hB false 0
      (fun _ _ => .raises) hplain).mpr ?_⟩
  intro k now answers hevent
  obtain rfl : k = 3 := by
    rcases k with _ | _ | _ | _ | k
    all_goals first | rfl | cases hevent
  -- What is on the device is in the listing that the failed refresh delivers again.
  intro _ status hdata _ id hid hunlisted
  obtain ⟨c, hc, rfl⟩ := hid
  change c ∈ (x 3).device.store.commands at hc
  change (x 3).mirror.data = some status at hdata
  rw [hcommands, List.mem_singleton] at hc
  rw [hdata, Option.map_some, Option.some.injEq] at hlisted
  rw [hlisted, hc] at hunlisted
  exact absurd (List.mem_singleton.mpr rfl) hunlisted

end Installation

end RfCloner
