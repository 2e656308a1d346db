/-
  What the sensors of the component show (`rf_cloner.cpp`: `set_state_`, `publish_state_`,
  `publish_store_stats_`).

  The component has no loop that publishes: each of its functions hands to the sensors what it has
  changed.  The state and the last result are handed over together, and the number of commands with
  the bytes they take.  `publications` are what an event hands over, in the order of the source.

  `sensors_show` says how far the sensors can be trusted.  The texts are always those of the device.
  The numbers are as well, but for `factory_reset`: when its write fails the commands are gone from
  RAM, and nothing is published.
-/
import RfCloner.Device.Actions
import RfCloner.Device.Replay
import RfCloner.System.Outcomes

namespace RfCloner

open CommandStore StorageBackend

/-! ## Publications -/

/-- What is handed to the text sensors, or to the sensors. -/
inductive Publication where
  | state (state : LearnState) (lastResult : Bytes)
  | storeStats (count : Nat) (usedBytes : UInt32)
  deriving DecidableEq

/-- What the sensors show. -/
structure Sensors where
  state : LearnState := .idle
  lastResult : Bytes := []
  count : Nat := 0
  usedBytes : UInt32 := 0
  deriving DecidableEq

/-- Whether the numbers are among what is handed over. -/
def Publication.isStoreStats : Publication → Bool
  | .state _ _ => false
  | .storeStats _ _ => true

def Sensors.take (s : Sensors) : Publication → Sensors
  | .state state lastResult => { s with state := state, lastResult := lastResult }
  | .storeStats count usedBytes => { s with count := count, usedBytes := usedBytes }

/-- Whether an action ends with `publish_store_stats_` when it succeeds. -/
def StoreAction.publishesStats : StoreAction → Bool
  | .rename _ _ | .restoreBegin _ _ => false
  | _ => true

/-- What an action returns; for `clear_all`, which returns nothing, whether it gets to its end. -/
def StoreAction.succeeds (saves : Bool) : StoreAction → Cloner → Bool
  | .rename commandId newName, c => (c.rename saves commandId newName).1
  | .erase name, c => (c.erase saves name).1
  | .eraseById commandId, c => (c.eraseById saves commandId).1
  | .clearAll, c => decide ((Op.clearAll.attempt saves c.store).1 = .ok)
  | .factoryReset random, c => (c.factoryReset saves random).1
  | .restoreBegin bridgeIdHex nextCommandId, c => (c.restoreBegin saves bridgeIdHex nextCommandId).1
  | .importCommand command, c => (c.importCommand saves command).1
  | .restoreCommit sourceRevision, c => (c.restoreCommit saves sourceRevision).1

namespace LearningCloner

variable (cfg : CaptureConfig)

/-- `publish_state_`. -/
def publishState (c : LearningCloner) : Publication := .state c.state c.lastResult

/-- `publish_store_stats_`. -/
def publishStoreStats (c : LearningCloner) : Publication :=
  .storeStats c.store.count c.store.usedBytes

/-- The states that a refusal passes through. -/
def refusePublished (reason : Bytes) : List Publication := [.state .failed reason, .state .idle reason]

def failPublished (failure : LearnFailure) : List Publication := [.state .failed failure.text]

def armPublished (name : Bytes) (c : LearningCloner) : List Publication :=
  if validateName name ≠ .ok then refusePublished (ascii "name_rejected:" ++ (validateName name).text)
  else if c.store.has name = false ∧ c.store.count ≥ c.store.config.maxCommands.toNat then
    refusePublished (ascii "store_full")
  else [.state .armed []]

def learnPublished (name : Bytes) (c : LearningCloner) : List Publication :=
  if c.state = .armed then failPublished .cancelled ++ armPublished name (c.fail .cancelled).1
  else armPublished name c

def cancelPublished (c : LearningCloner) : List Publication :=
  if c.state ≠ .armed then [] else failPublished .cancelled

def commitPublished (saves : Bool) (c : LearningCloner) : List Publication :=
  match (Op.put (c.captured cfg)).attempt saves c.store with
  | (.ok, store) => [.state .captured c.pendingName, .storeStats store.count store.usedBytes]
  | (result, _) => refusePublished (ascii "store_error:" ++ result.text)

def receivePublished (saves : Bool) (rawData : Frame) (nowUs nowMs : UInt32) (c : LearningCloner) :
    List Publication :=
  if c.state ≠ .armed then []
  else
    match c.capture.receive cfg rawData nowUs nowMs with
    | (_, false) => []
    | (capture, true) => { c with capture := capture }.commitPublished cfg saves

def loopPublished (saves : Bool) (nowMs : UInt32) (c : LearningCloner) : List Publication :=
  if c.state ≠ .armed then []
  else if c.capture.ready = true ∧ nowMs - c.capture.readySinceMs ≥ cfg.settleMs then
    c.commitPublished cfg saves
  else if c.capture.ready = false ∧ (nowMs - c.deadlineMs).toInt32 ≥ 0 then
    failPublished (overdue c.capture)
  else []

def actionPublished (saves : Bool) (action : StoreAction) (c : LearningCloner) : List Publication :=
  let next : LearningCloner := { c with toCloner := action.perform saves c.toCloner }
  if action.succeeds saves c.toCloner && action.publishesStats then
    [next.publishState, next.publishStoreStats]
  else [next.publishState]

/-- A send publishes the name or the id that it does not find. -/
def sendPublished (sent : Bool × Cloner × List Sent) (transmitter : Bool) (c : LearningCloner) :
    List Publication :=
  if transmitter && !sent.1 then [{ c with toCloner := sent.2.1 }.publishState] else []

/-- The publications of an event. -/
def published (c : LearningCloner) : LearnEvent → List Publication
  | .learn name _ _ => c.learnPublished name
  | .cancel => c.cancelPublished
  | .onReceive saves rawData nowUs nowMs => c.receivePublished cfg saves rawData nowUs nowMs
  | .loop saves nowMs => c.loopPublished cfg saves nowMs
  | .action saves action => c.actionPublished saves action

end LearningCloner

/-! ## The component with its sensors -/

/-- What happens to the component: an event of `LearnEvent`, or a send. -/
inductive SensorEvent where
  | learn (event : LearnEvent)
  | send (transmitter : Bool) (name : Bytes) (overrides : Overrides)
  | sendById (transmitter : Bool) (commandId : UInt32) (overrides : Overrides)

/-- The component and what its sensors show. -/
structure Sensed extends LearningCloner where
  sensors : Sensors

namespace LearningCloner

variable (cfg : CaptureConfig)

/-- One event. -/
def turn (c : LearningCloner) : SensorEvent → LearningCloner
  | .learn event => (c.step cfg event).1
  | .send transmitter name overrides =>
    { c with toCloner := (c.toCloner.send transmitter name overrides).2.1 }
  | .sendById transmitter commandId overrides =>
    { c with toCloner := (c.toCloner.sendById transmitter commandId overrides).2.1 }

/-- Its publications. -/
def publications (c : LearningCloner) : SensorEvent → List Publication
  | .learn event => c.published cfg event
  | .send transmitter name overrides =>
    c.sendPublished (c.toCloner.send transmitter name overrides) transmitter
  | .sendById transmitter commandId overrides =>
    c.sendPublished (c.toCloner.sendById transmitter commandId overrides) transmitter

/-- A factory reset whose write fails drops commands. -/
def Drops (c : LearningCloner) : SensorEvent → Prop
  | .learn (.action saves (.factoryReset random)) =>
    c.store.count ≠ 0 ∧ (c.toCloner.factoryReset saves random).1 = false
  | _ => False

/-- The event publishes the numbers. -/
def Counts (c : LearningCloner) (event : SensorEvent) : Prop :=
  ∃ p ∈ c.publications cfg event, p.isStoreStats = true

end LearningCloner

namespace Sensed

open LearningCloner

/-- `setup` publishes everything. -/
def setup (store : CommandStore) : Sensed :=
  let c := LearningCloner.boot store
  ⟨c, [c.publishState, c.publishStoreStats].foldl Sensors.take {}⟩

def step (cfg : CaptureConfig) (x : Sensed) (event : SensorEvent) : Sensed :=
  ⟨x.toLearningCloner.turn cfg event,
    (x.toLearningCloner.publications cfg event).foldl Sensors.take x.sensors⟩

/-- The component after the first `k` events. -/
abbrev after (cfg : CaptureConfig) (x : Sensed) (events : List SensorEvent) (k : Nat) : Sensed :=
  Runs.moment (step cfg) x events k

end Sensed

/-! ## What is handed over -/

namespace LearningCloner

variable {cfg : CaptureConfig} {c next : LearningCloner} {ps : List Publication} {s : Sensors}

/-- What an event hands over, by what it ends with. -/
inductive Report (c next : LearningCloner) : List Publication → Prop where
  | silent (hstate : next.state = c.state) (hresult : next.lastResult = c.lastResult) :
      Report c next []
  | texts (before : List Publication) (hbefore : ∀ p ∈ before, p.isStoreStats = false) :
      Report c next (before ++ [next.publishState])
  | everything : Report c next [next.publishState, next.publishStoreStats]

/-- The numbers stay where only texts are handed over. -/
theorem numbers_of_states (h : ∀ p ∈ ps, p.isStoreStats = false) :
    (ps.foldl Sensors.take s).count = s.count ∧ (ps.foldl Sensors.take s).usedBytes = s.usedBytes := by
  induction ps generalizing s with
  | nil => exact ⟨rfl, rfl⟩
  | cons p ps ih =>
    have hrest := ih (s := s.take p) fun q hq => h q (List.mem_cons_of_mem p hq)
    cases p with
    | state state lastResult => exact hrest
    | storeStats count usedBytes => cases h _ List.mem_cons_self

/-- The texts are those of the device. -/
theorem Report.texts_shown (h : Report c next ps) (hstate : s.state = c.state)
    (hresult : s.lastResult = c.lastResult) :
    (ps.foldl Sensors.take s).state = next.state ∧
      (ps.foldl Sensors.take s).lastResult = next.lastResult := by
  cases h with
  | silent hs hr => exact ⟨hstate.trans hs.symm, hresult.trans hr.symm⟩
  | texts before hbefore =>
    rw [List.foldl_append]
    exact ⟨rfl, rfl⟩
  | everything => exact ⟨rfl, rfl⟩

/-- The numbers are those of the device if they are handed over, and stay if not. -/
theorem Report.numbers_shown (h : Report c next ps) :
    ((∃ p ∈ ps, p.isStoreStats = true) →
      (ps.foldl Sensors.take s).count = next.store.count ∧
        (ps.foldl Sensors.take s).usedBytes = next.store.usedBytes) ∧
    ((¬ ∃ p ∈ ps, p.isStoreStats = true) →
      (ps.foldl Sensors.take s).count = s.count ∧
        (ps.foldl Sensors.take s).usedBytes = s.usedBytes) := by
  refine ⟨?_, fun hnone => numbers_of_states fun p hp => ?_⟩
  · rintro ⟨p, hp, hstats⟩
    cases h with
    | silent => cases hp
    | texts before hbefore =>
      rcases List.mem_append.mp hp with hp | hp
      · rw [hbefore p hp] at hstats
        cases hstats
      · rw [List.mem_singleton.mp hp] at hstats
        cases hstats
    | everything => exact ⟨rfl, rfl⟩
  · exact Bool.eq_false_iff.mpr fun hstats => hnone ⟨p, hp, hstats⟩

/-- A refusal passes through `FAILED`. -/
theorem report_refuse (before : List Publication) (hbefore : ∀ p ∈ before, p.isStoreStats = false)
    {reason : Bytes} (hstate : next.state = .idle) (hresult : next.lastResult = reason) :
    Report c next (before ++ refusePublished reason) := by
  have hlast : refusePublished reason = [.state .failed reason] ++ [next.publishState] := by
    rw [publishState, hstate, hresult]
    rfl
  rw [hlast, ← List.append_assoc]
  refine .texts _ fun p hp => ?_
  rcases List.mem_append.mp hp with hp | hp
  · exact hbefore p hp
  · rw [List.mem_singleton.mp hp]
    rfl

variable (cfg) in
theorem report_arm (before : List Publication) (hbefore : ∀ p ∈ before, p.isStoreStats = false)
    (name : Bytes) (timeoutMs nowMs : UInt32) (d : LearningCloner) :
    Report c (d.arm cfg name timeoutMs nowMs).1 (before ++ d.armPublished name) := by
  unfold armPublished arm
  split
  · exact report_refuse before hbefore rfl rfl
  · split
    · exact report_refuse before hbefore rfl rfl
    · exact .texts before hbefore

variable (cfg) in
theorem report_commitCapture (saves : Bool) (capture : CaptureState) :
    let d : LearningCloner := { c with capture := capture }
    Report c (d.commitCapture cfg saves).1 (d.commitPublished cfg saves) := by
  intro d
  unfold commitPublished commitCapture
  generalize (Op.put (captured cfg d)).attempt saves d.store = attempted
  obtain ⟨result, store⟩ := attempted
  cases result with
  | ok => exact .everything
  | _ => exact report_refuse [] (fun _ hp => (List.not_mem_nil hp).elim) rfl rfl

/-- One text is handed over. -/
theorem report_text (c next : LearningCloner) : Report c next [next.publishState] :=
  .texts [] fun _ hp => (List.not_mem_nil hp).elim

variable (cfg) in
/-- What an event of `LearnEvent` hands over. -/
theorem report_step (c : LearningCloner) (event : LearnEvent) :
    Report c (c.step cfg event).1 (c.published cfg event) := by
  cases event with
  | learn name timeoutMs nowMs =>
    show Report c (c.learn cfg name timeoutMs nowMs).1 (c.learnPublished name)
    unfold learnPublished learn
    split
    · refine report_arm cfg [.state .failed _] (fun p hp => ?_) name timeoutMs nowMs
        (c.fail .cancelled).1
      rw [List.mem_singleton.mp hp]
      rfl
    · exact report_arm cfg [] (fun _ hp => (List.not_mem_nil hp).elim) name timeoutMs nowMs c
  | cancel =>
    show Report c c.cancel.1 c.cancelPublished
    unfold cancelPublished cancel
    split
    · exact .silent rfl rfl
    · exact report_text c (c.fail .cancelled).1
  | onReceive saves rawData nowUs nowMs =>
    show Report c (c.onReceive cfg saves rawData nowUs nowMs).1
      (c.receivePublished cfg saves rawData nowUs nowMs)
    unfold receivePublished onReceive
    split
    · exact .silent rfl rfl
    · generalize c.capture.receive cfg rawData nowUs nowMs = received
      obtain ⟨capture, committed⟩ := received
      cases committed with
      | false => exact .silent rfl rfl
      | true => exact report_commitCapture cfg saves capture
  | loop saves nowMs =>
    show Report c (c.loop cfg saves nowMs).1 (c.loopPublished cfg saves nowMs)
    unfold loopPublished loop
    split
    · exact .silent rfl rfl
    · split
      · exact report_commitCapture cfg saves c.capture
      · split
        · exact report_text c (c.fail (overdue c.capture)).1
        · exact .silent rfl rfl
  | action saves action =>
    show Report c (c.step cfg (.action saves action)).1 (c.actionPublished saves action)
    unfold actionPublished
    split
    · exact .everything
    · exact report_text c _

/-- A send hands over that it has not found anything. -/
theorem report_send {sent : Bool × Cloner × List Sent} {transmitter : Bool}
    (h : sent.2.1.lastResult = c.lastResult ∨ transmitter = true ∧ sent.1 = false) :
    Report c { c with toCloner := sent.2.1 } (c.sendPublished sent transmitter) := by
  unfold sendPublished
  split
  · exact report_text c _
  · rename_i hnot
    refine .silent rfl (h.resolve_right fun ⟨htransmitter, hsent⟩ => hnot ?_)
    rw [htransmitter, hsent]
    rfl

/-- **Every event hands over what it leaves.** -/
theorem report_publications (cfg : CaptureConfig) (c : LearningCloner) (event : SensorEvent) :
    Report c (c.turn cfg event) (c.publications cfg event) := by
  cases event with
  | learn event => exact report_step cfg c event
  | send transmitter name overrides =>
    refine report_send ?_
    unfold Cloner.send Cloner.transmit
    cases transmitter with
    | false => exact Or.inl rfl
    | true =>
      cases c.store.get name with
      | none => exact Or.inr ⟨rfl, rfl⟩
      | some command => exact Or.inl rfl
  | sendById transmitter commandId overrides =>
    refine report_send ?_
    unfold Cloner.sendById Cloner.transmit
    cases transmitter with
    | false => exact Or.inl rfl
    | true =>
      cases c.store.getById commandId with
      | none => exact Or.inr ⟨rfl, rfl⟩
      | some command => exact Or.inl rfl

end LearningCloner

/-! ## The numbers -/

namespace CommandStore

variable {s t : CommandStore} {op : Op} {saves : Bool}

/-- Two registries of which the sensors show the same. -/
def SameNumbers (s t : CommandStore) : Prop := t.count = s.count ∧ t.usedBytes = s.usedBytes

/-- The numbers are those of the waveforms. -/
theorem sameNumbers_of_payloads (hconfig : t.config = s.config)
    (hpayloads : t.commands.map Command.payloadBytes = s.commands.map Command.payloadBytes) :
    SameNumbers s t := by
  constructor
  · rw [count_eq, count_eq]
    simpa using congrArg List.length hpayloads
  · have htotal : SlotTable.total Command.payloadBytes t.slots
        = SlotTable.total Command.payloadBytes s.slots := congrArg List.sum hpayloads
    rw [usedBytes, usedBytes, foldl_usedBytes, foldl_usedBytes, htotal, hconfig]

/-- A new name does not change the numbers. -/
theorem sameNumbers_rename (hs : s.readOnly = false → s.Sound) (id : UInt32) (name : Bytes) :
    SameNumbers s ((Op.rename id name).attempt saves s).2 := by
  cases hplan : (Op.rename id name).plan s with
  | stop result =>
    rw [Op.attempt_of_stop hplan]
    exact ⟨rfl, rfl⟩
  | write payload next undone =>
    rw [Op.attempt_of_write hplan]
    cases saves with
    | true =>
      obtain ⟨-, -, slot, rev, hfind, -, -, -, rfl, -⟩ := renamePlan_eq_write hplan
      exact sameNumbers_of_payloads rfl (SlotTable.map_content_set rfl rfl)
    | false =>
      obtain ⟨-, -, rfl⟩ := (op_change hs hplan).resolve_right
        fun ⟨random, hreset, _⟩ => by cases hreset
      exact ⟨rfl, rfl⟩

/-- Nor does the start of a restore. -/
theorem sameNumbers_restoreBegin (bridgeId : BridgeId) (id : UInt32) :
    SameNumbers s ((Op.restoreBegin bridgeId id).attempt saves s).2 := by
  cases hplan : (Op.restoreBegin bridgeId id).plan s with
  | stop result =>
    rw [Op.attempt_of_stop hplan]
    exact ⟨rfl, rfl⟩
  | write payload next undone =>
    obtain ⟨-, -, -, -, rev, -, -, rfl, rfl⟩ := restoreBeginPlan_eq_write hplan
    rw [Op.attempt_of_write hplan]
    cases saves <;> exact ⟨rfl, rfl⟩

/-- What a factory reset leaves in RAM when its write fails. -/
theorem factoryReset_failed {random : Option BridgeId}
    (h : ((Op.factoryReset random).attempt saves s).1 ≠ .ok) :
    ((Op.factoryReset random).attempt saves s).2 = s ∨
      ((Op.factoryReset random).attempt saves s).2 = s.resetStore random := by
  cases hplan : (Op.factoryReset random).plan s with
  | stop result =>
    rw [Op.attempt_of_stop hplan]
    exact Or.inl rfl
  | write payload next undone =>
    obtain ⟨-, -, -, rfl⟩ := factoryResetPlan_eq_write hplan
    rw [Op.attempt_of_write hplan] at h ⊢
    cases saves with
    | true => exact absurd rfl h
    | false => exact Or.inr rfl

theorem count_resetStore (s : CommandStore) (random : Option BridgeId) :
    (s.resetStore random).count = 0 := by
  have hnil : (s.resetStore random).commands = [] := SlotTable.content_replicate _
  rw [count_eq, hnil]
  rfl

theorem sameNumbers_resetStore (hcount : s.count = 0) (random : Option BridgeId) :
    SameNumbers s (s.resetStore random) := by
  have hnil : (s.resetStore random).commands = [] := SlotTable.content_replicate _
  rw [count_eq, List.length_eq_zero_iff] at hcount
  refine sameNumbers_of_payloads rfl ?_
  rw [hnil, hcount]

end CommandStore

namespace LearningCloner

variable {cfg : CaptureConfig} {c : LearningCloner} {event : SensorEvent}

/-- A capture that does not get as far as the numbers leaves the registry alone. -/
theorem uncounted_commitCapture {saves : Bool}
    (h : ¬ ∃ p ∈ c.commitPublished cfg saves, p.isStoreStats = true) :
    (c.commitCapture cfg saves).1.store = c.store := by
  have hkept : ((Op.put (c.captured cfg)).attempt saves c.store).1 ≠ .ok →
      ((Op.put (c.captured cfg)).attempt saves c.store).2 = c.store := attempt_put_of_ne_ok
  unfold commitPublished at h
  unfold commitCapture
  generalize (Op.put (c.captured cfg)).attempt saves c.store = attempted at h hkept ⊢
  obtain ⟨result, store⟩ := attempted
  cases result with
  | ok => exact absurd ⟨_, List.mem_cons_of_mem _ List.mem_cons_self, rfl⟩ h
  | _ => exact hkept (by simp)

/-- The registry is left alone by what is no action and does not publish the numbers. -/
theorem uncounted_step {event : LearnEvent} (hevent : ∀ saves action, event ≠ .action saves action)
    (h : ¬ ∃ p ∈ c.published cfg event, p.isStoreStats = true) :
    (c.step cfg event).1.store = c.store := by
  cases event with
  | learn name timeoutMs nowMs => exact (turn_learn cfg name timeoutMs nowMs c).2.2.2.1
  | cancel =>
    show c.cancel.1.store = c.store
    unfold cancel
    split <;> rfl
  | onReceive saves rawData nowUs nowMs =>
    change ¬ ∃ p ∈ c.receivePublished cfg saves rawData nowUs nowMs, _ at h
    show (c.onReceive cfg saves rawData nowUs nowMs).1.store = c.store
    unfold receivePublished at h
    unfold onReceive
    by_cases harmed : c.state ≠ .armed
    · rw [if_pos harmed]
    · rw [if_neg harmed] at h ⊢
      generalize c.capture.receive cfg rawData nowUs nowMs = received at h ⊢
      obtain ⟨capture, committed⟩ := received
      cases committed with
      | false => rfl
      | true => exact uncounted_commitCapture h
  | loop saves nowMs =>
    change ¬ ∃ p ∈ c.loopPublished cfg saves nowMs, _ at h
    show (c.loop cfg saves nowMs).1.store = c.store
    unfold loopPublished at h
    unfold loop
    by_cases harmed : c.state ≠ .armed
    · rw [if_pos harmed]
    · rw [if_neg harmed] at h ⊢
      by_cases hsettled : c.capture.ready = true ∧ nowMs - c.capture.readySinceMs ≥ cfg.settleMs
      · rw [if_pos hsettled] at h ⊢
        exact uncounted_commitCapture h
      · rw [if_neg hsettled]
        split <;> rfl
  | action saves action => exact absurd rfl (hevent saves action)

/-- An action that does not publish the numbers does not change them, but for a factory reset. -/
theorem uncounted_action {saves : Bool} {action : StoreAction}
    (hs : c.store.readOnly = false → c.store.Sound)
    (h : (action.succeeds saves c.toCloner && action.publishesStats) = false)
    (hdrops : ¬ c.Drops (.learn (.action saves action))) :
    SameNumbers c.store (action.perform saves c.toCloner).store := by
  have hfailed : ∀ {op : Op} {failed done : Bytes}, (∀ random, op ≠ .factoryReset random) →
      (Cloner.finish (op.attempt saves c.store) failed done).1 = false →
      SameNumbers c.store (Cloner.finish (op.attempt saves c.store) failed done).2.store := by
    intro op failed done hop hfalse
    rw [Cloner.store_finish_of_false hs hop failed done hfalse]
    exact ⟨rfl, rfl⟩
  have hfalse : action.publishesStats = true → action.succeeds saves c.toCloner = false := by
    intro hpublishes
    rwa [hpublishes, Bool.and_true] at h
  cases action with
  | rename commandId newName =>
    show SameNumbers c.store (c.toCloner.rename saves commandId newName).2.store
    rw [Cloner.rename, Cloner.store_finish]
    exact sameNumbers_rename hs commandId newName
  | erase name => exact hfailed (fun _ h => by cases h) (hfalse rfl)
  | eraseById commandId => exact hfailed (fun _ h => by cases h) (hfalse rfl)
  | clearAll =>
    have hne : (Op.clearAll.attempt saves c.store).1 ≠ .ok :=
      of_decide_eq_false (hfalse rfl)
    show SameNumbers c.store (c.toCloner.clearAll saves).store
    rw [Cloner.clearAll, Cloner.store_finish, attempt_of_ne_ok hs (fun _ h => by cases h) hne]
    exact ⟨rfl, rfl⟩
  | factoryReset random =>
    have hfalse : (c.toCloner.factoryReset saves random).1 = false := hfalse rfl
    have hcount : c.store.count = 0 := by
      by_contra hne
      exact hdrops ⟨hne, hfalse⟩
    show SameNumbers c.store (c.toCloner.factoryReset saves random).2.store
    rw [Cloner.factoryReset, Cloner.store_finish]
    have hne : ((Op.factoryReset random).attempt saves c.store).1 ≠ .ok := by
      intro hok
      exact Bool.false_ne_true (hfalse.symm.trans ((Cloner.finish_eq_true _ _ _).mpr hok))
    rcases factoryReset_failed hne with hsame | hreset
    · rw [hsame]
      exact ⟨rfl, rfl⟩
    · rw [hreset]
      exact sameNumbers_resetStore hcount random
  | restoreBegin bridgeIdHex nextCommandId =>
    show SameNumbers c.store (c.toCloner.restoreBegin saves bridgeIdHex nextCommandId).2.store
    unfold Cloner.restoreBegin
    split
    · exact ⟨rfl, rfl⟩
    · rw [Cloner.store_finish]
      exact sameNumbers_restoreBegin _ nextCommandId
  | importCommand command => exact hfailed (fun _ h => by cases h) (hfalse rfl)
  | restoreCommit sourceRevision =>
    have hfalse : (c.toCloner.restoreCommit saves sourceRevision).1 = false := hfalse rfl
    show SameNumbers c.store (c.toCloner.restoreCommit saves sourceRevision).2.store
    unfold Cloner.restoreCommit at hfalse ⊢
    by_cases hnegative : sourceRevision < 0
    · rw [if_pos hnegative]
      exact ⟨rfl, rfl⟩
    · rw [if_neg hnegative] at hfalse ⊢
      exact hfailed (fun _ h => by cases h) hfalse

/-- **What does not publish the numbers does not change them**, but for a factory reset whose write
    fails. -/
theorem uncounted_turn (hs : c.store.readOnly = false → c.store.Sound)
    (hcounts : ¬ c.Counts cfg event) (hdrops : ¬ c.Drops event) :
    SameNumbers c.store (c.turn cfg event).store := by
  cases event with
  | learn event =>
    by_cases haction : ∃ saves action, event = .action saves action
    · obtain ⟨saves, action, rfl⟩ := haction
      refine uncounted_action hs (Bool.eq_false_iff.mpr fun h => hcounts ?_) hdrops
      show ∃ p ∈ c.actionPublished saves action, p.isStoreStats = true
      rw [actionPublished, if_pos h]
      exact ⟨_, List.mem_cons_of_mem _ List.mem_cons_self, rfl⟩
    · push Not at haction
      have hsame : (c.turn cfg (.learn event)).store = c.store := uncounted_step haction hcounts
      rw [hsame]
      exact ⟨rfl, rfl⟩
  | send transmitter name overrides =>
    have hsame : (c.turn cfg (.send transmitter name overrides)).store = c.store := Cloner.store_send
    rw [hsame]
    exact ⟨rfl, rfl⟩
  | sendById transmitter commandId overrides =>
    have hsame : (c.turn cfg (.sendById transmitter commandId overrides)).store = c.store :=
      Cloner.store_sendById
    rw [hsame]
    exact ⟨rfl, rfl⟩

theorem Drops.eq_factoryReset (h : c.Drops event) :
    ∃ saves random, event = .learn (.action saves (.factoryReset random)) ∧ c.store.count ≠ 0 ∧
      (c.toCloner.factoryReset saves random).1 = false := by
  cases event with
  | learn event =>
    cases event with
    | action saves action =>
      cases action with
      | factoryReset random => exact ⟨saves, random, rfl, h⟩
      | _ => exact h.elim
    | _ => exact h.elim
  | _ => exact h.elim

variable (cfg) in
/-- **A factory reset whose write fails** has dropped the commands without a word. -/
theorem dropped_turn (hbackend : c.store.backend = true) (h : c.Drops event) :
    ¬ c.Counts cfg event ∧ c.store.count ≠ 0 ∧ (c.turn cfg event).store.count = 0 := by
  obtain ⟨saves, random, rfl, hcount, hfalse⟩ := h.eq_factoryReset
  refine ⟨?_, hcount, ?_⟩
  · rintro ⟨p, hp, hstats⟩
    change p ∈ c.actionPublished saves (.factoryReset random) at hp
    have hnot : ((StoreAction.factoryReset random).succeeds saves c.toCloner &&
        (StoreAction.factoryReset random).publishesStats) = false := by
      rw [show (StoreAction.factoryReset random).succeeds saves c.toCloner = false from hfalse]
      rfl
    rw [actionPublished, hnot] at hp
    rw [List.mem_singleton.mp hp] at hstats
    cases hstats
  · show (c.toCloner.factoryReset saves random).2.store.count = 0
    have hplan : (Op.factoryReset random).plan c.store
        = .write none (c.store.resetStore random).resume (c.store.resetStore random) := by
      show c.store.factoryResetPlan random = _
      exact if_neg (by rw [hbackend]; decide)
    rw [Cloner.factoryReset, Op.attempt_of_write hplan] at hfalse
    rw [Cloner.factoryReset, Cloner.store_finish, Op.attempt_of_write hplan]
    cases saves with
    | true => cases hfalse
    | false => exact count_resetStore c.store random

/-- What an event does to the registry is an attempt of an operation, or nothing. -/
theorem attempted_turn (cfg : CaptureConfig) (c : LearningCloner) (event : SensorEvent) :
    (c.turn cfg event).store = c.store ∨
      ∃ (op : Op) (saves : Bool), (c.turn cfg event).store = (op.attempt saves c.store).2 := by
  cases event with
  | learn event =>
    rcases turn_step cfg c event with ⟨-, -, -, hsame | ⟨saves, action, rfl⟩⟩ | ⟨-, -, -, hsame⟩ |
      ⟨-, -, -, hput, -⟩
    · exact Or.inl hsame
    · rcases action.store_perform saves c.toCloner with ⟨op, hop⟩ | hsame
      · exact Or.inr ⟨op, saves, hop⟩
      · exact Or.inl hsame
    · exact Or.inl hsame
    · exact Or.inr ⟨_, _, (congrArg Prod.snd hput).symm⟩
  | send transmitter name overrides => exact Or.inl Cloner.store_send
  | sendById transmitter commandId overrides => exact Or.inl Cloner.store_sendById

variable (cfg event) in
/-- The registry stays sound, and has its backend. -/
theorem kept_turn (hs : c.store.readOnly = false → c.store.Sound) (hbackend : c.store.backend = true) :
    ((c.turn cfg event).store.readOnly = false → (c.turn cfg event).store.Sound) ∧
      (c.turn cfg event).store.backend = true := by
  rcases attempted_turn cfg c event with hsame | ⟨op, saves, hop⟩
  · rw [hsame]
    exact ⟨hs, hbackend⟩
  · rw [hop]
    refine ⟨(sound_attempt op hs saves).1, ?_⟩
    cases hplan : op.plan c.store with
    | stop result =>
      rw [Op.attempt_of_stop hplan]
      exact hbackend
    | write payload next undone =>
      rw [Op.attempt_of_write hplan]
      cases saves with
      | true => exact (op_next hs hplan).2.2.trans hbackend
      | false =>
        rcases op_change hs hplan with ⟨-, -, rfl⟩ | ⟨random, -, -, -, rfl⟩
        · exact hbackend
        · exact hbackend

end LearningCloner

/-! ## Runs -/

namespace Sensed

open LearningCloner

variable {cfg : CaptureConfig} {x : Sensed} {event : SensorEvent}

/-- The sensors show the numbers of the registry. -/
def Exact (x : Sensed) : Prop :=
  x.sensors.count = x.store.count ∧ x.sensors.usedBytes = x.store.usedBytes

/-- What holds of the component and its sensors at every moment. -/
structure Aligned (x : Sensed) : Prop where
  sound : x.store.readOnly = false → x.store.Sound
  backend : x.store.backend = true
  state : x.sensors.state = x.state
  lastResult : x.sensors.lastResult = x.lastResult
  /-- Numbers that are not exact are those of commands that are gone. -/
  numbers : x.Exact ∨ x.store.count = 0 ∧ x.sensors.count ≠ 0

variable (cfg) in
/-- What an event does to the numbers that are shown, and what it keeps. -/
theorem Aligned.step (h : x.Aligned) (event : SensorEvent) :
    (x.step cfg event).Aligned ∧
      (x.toLearningCloner.Counts cfg event → (x.step cfg event).Exact) ∧
      (x.toLearningCloner.Drops event → ¬ (x.step cfg event).Exact) ∧
      (¬ x.toLearningCloner.Counts cfg event → ¬ x.toLearningCloner.Drops event →
        ((x.step cfg event).Exact ↔ x.Exact)) := by
  have hreport := report_publications cfg x.toLearningCloner event
  obtain ⟨hshown, hstay⟩ := hreport.numbers_shown (s := x.sensors)
  obtain ⟨hstate, hresult⟩ := hreport.texts_shown h.state h.lastResult
  obtain ⟨hsound, hbackend⟩ := kept_turn cfg event h.sound h.backend
  have haligned : ((x.step cfg event).Exact ∨
      (x.step cfg event).store.count = 0 ∧ (x.step cfg event).sensors.count ≠ 0) →
      (x.step cfg event).Aligned := fun hnumbers => ⟨hsound, hbackend, hstate, hresult, hnumbers⟩
  by_cases hcounts : x.toLearningCloner.Counts cfg event
  · have hexact : (x.step cfg event).Exact := hshown hcounts
    refine ⟨haligned (Or.inl hexact), fun _ => hexact, fun hdrops => ?_,
      fun hnot => absurd hcounts hnot⟩
    exact absurd hcounts (dropped_turn cfg h.backend hdrops).1
  · obtain ⟨hcount, hused⟩ := hstay hcounts
    have hcount : (x.step cfg event).sensors.count = x.sensors.count := hcount
    have hused : (x.step cfg event).sensors.usedBytes = x.sensors.usedBytes := hused
    by_cases hdrops : x.toLearningCloner.Drops event
    · obtain ⟨-, hsome, hnone⟩ := dropped_turn cfg h.backend hdrops
      have hnone : (x.step cfg event).store.count = 0 := hnone
      -- there were commands, so what is shown is their number
      have hwas : x.sensors.count = x.store.count :=
        (h.numbers.resolve_right fun hstale => hsome hstale.1).1
      have hstale : (x.step cfg event).sensors.count ≠ 0 := by
        rw [hcount, hwas]
        exact hsome
      refine ⟨haligned (Or.inr ⟨hnone, hstale⟩), fun hcounts' => absurd hcounts' hcounts,
        fun _ hexact => ?_, fun _ hnot => absurd hdrops hnot⟩
      exact hstale (hexact.1.trans hnone)
    · obtain ⟨hsame, hsame'⟩ := uncounted_turn h.sound hcounts hdrops
      have hsame : (x.step cfg event).store.count = x.store.count := hsame
      have hsame' : (x.step cfg event).store.usedBytes = x.store.usedBytes := hsame'
      have hiff : (x.step cfg event).Exact ↔ x.Exact := by
        unfold Exact
        rw [hcount, hused, hsame, hsame']
      refine ⟨haligned ?_, fun hcounts' => absurd hcounts' hcounts,
        fun hdrops' => absurd hdrops' hdrops, fun _ _ => hiff⟩
      rw [hiff, hsame, hcount]
      exact h.numbers

/-- **What the sensors show.**  For any device that has come to be in any way and any run of learns,
    captures, actions and sends from its `setup` on, at every moment: the text sensors show its state
    and its last result, and the sensors show its number of commands and the bytes they take unless
    a factory reset whose write failed has dropped commands and nothing has published the numbers
    since. -/
theorem sensors_show (cfg : CaptureConfig) (config : Config) (lands : Nat → Bool)
    (random : Option BridgeId) (history : List Event) (events : List SensorEvent) {k : Nat} (hk : k ≤ events.length) :
    let x := setup (Session.run lands (Session.powerOn lands config random) history).store
    let moment := x.after cfg events
    ((moment k).sensors.state = (moment k).state ∧
      (moment k).sensors.lastResult = (moment k).lastResult) ∧
    ((moment k).Exact ↔
      ∀ j < k, (∃ event, events[j]? = some event ∧ (moment j).toLearningCloner.Drops event) →
        ∃ i, j < i ∧ i < k ∧
          ∃ event, events[i]? = some event ∧ (moment i).toLearningCloner.Counts cfg event) := by
  intro x moment
  have hfounded := Session.founded_run lands config random history
  have hstart : x.Aligned := ⟨hfounded.ram, hfounded.backend, rfl, rfl, Or.inl ⟨rfl, rfl⟩⟩
  have haligned : ∀ k, (moment k).Aligned := Runs.inv hstart fun y event _ hy => (hy.step cfg event).1
  refine ⟨⟨(haligned k).state, (haligned k).lastResult⟩, ?_⟩
  refine Runs.since_iff (Q := fun k => (moment k).Exact) ⟨rfl, rfl⟩ (fun k hk => ?_) hk
  have hevent := List.getElem?_eq_getElem hk
  have hnext : moment (k + 1) = (moment k).step cfg events[k] := Runs.moment_succ hevent
  obtain ⟨-, hcounts, hdrops, hkeeps⟩ := (haligned k).step cfg events[k]
  rw [hnext]
  refine ⟨?_, ?_, fun hnot hnot' => ?_⟩
  · rintro ⟨event, hsome, h⟩
    obtain rfl := Option.some.inj (hevent.symm.trans hsome)
    exact hcounts h
  · rintro ⟨event, hsome, h⟩
    obtain rfl := Option.some.inj (hevent.symm.trans hsome)
    exact hdrops h
  · exact hkeeps (fun h => hnot ⟨_, hevent, h⟩) fun h => hnot' ⟨_, hevent, h⟩

/-- A command is learned, and a factory reset cannot write. -/
def dropped : List SensorEvent :=
  [.learn (.learn (ascii "fan") 0 0), .learn LearnCall.pressed,
    .learn (.action false (.factoryReset none))]

/-- The command is still counted when it is gone; the text says that the reset has failed. -/
theorem sensors_show_dropped :
    let x := setup (Session.run (fun _ => true)
      (Session.powerOn (fun _ => true) ⟨2, 16, 400, 7⟩ none) []).store
    let y := x.after {} dropped 3
    y.sensors.lastResult = ascii "factory_reset_failed:storage_error" ∧
      y.sensors.count = 1 ∧ y.store.count = 0 := by
  intro x y
  have hshow := (sensors_show {} ⟨2, 16, 400, 7⟩ (fun _ => true) none [] dropped (show 3 ≤ dropped.length by decide)).1.2
  refine ⟨hshow.trans ?_, ?_, ?_⟩
  · decide +kernel
  · decide +kernel
  · decide +kernel

end Sensed

end RfCloner
