/-
  What a learn is reported as (`coordinator.py`, `rf_cloner.cpp`).

  `async_learn` arms the device and reads its status until it is no longer armed.  Of how its own
  learn ended it sees two facts that others can bring about as well: that the device is in state
  captured, and that it lists a command of that name.  When it gives up it cancels without reading
  again, so a capture that comes in between is reported as a timeout.

  The run is observed with two histories: what has become of the learn that the call armed, and the
  ids under which learns have stored commands of the name since.  `outcome_truthful` says what others
  have to leave alone for the outcome to be true.
-/
import RfCloner.Hass.Flows
import RfCloner.Device.Agreement
import RfCloner.Store.Authored
import RfCloner.Store.Revision
import RfCloner.System.Link
import RfCloner.Lib.Runs

namespace RfCloner

open CommandStore

/-! ## The registry, by name -/

namespace CommandStore

/-- The id of the command that bears the name. -/
def bearer (s : CommandStore) (name : Bytes) : Option UInt32 := (s.get name).map Command.commandId

variable {s : CommandStore} {name : Bytes} {id : UInt32}

theorem bearer_eq_some (h : s.bearer name = some id) :
    ∃ i, (s.slot i).occupied = true ∧ (s.slot i).name = name ∧ (s.slot i).commandId = id := by
  obtain ⟨command, hget, rfl⟩ := Option.map_eq_some_iff.mp h
  obtain ⟨i, hfind, rfl⟩ := Option.map_eq_some_iff.mp hget
  obtain ⟨hocc, hname⟩ := findSlot_eq_some hfind
  exact ⟨i, hocc, hname, rfl⟩

/-- In a well-formed store a name has the bearer that is found. -/
theorem WellFormed.bearer_slot (hwf : s.WellFormed) {i : Nat} (hocc : (s.slot i).occupied = true) :
    s.bearer (s.slot i).name = some (s.slot i).commandId := by
  unfold bearer get
  rw [hwf.findSlot_name hocc]
  rfl

/-- A store that differs in one slot, which bears another name before and after, has the same
    bearer. -/
theorem bearer_of_set (hs : s.WellFormed) {next : CommandStore} (hn : next.WellFormed) {slot : Nat}
    {c : Command} (hslots : next.slots = s.slots.set slot c) (hlt : slot < s.slots.length)
    (hold : (s.slot slot).occupied = true → (s.slot slot).name ≠ name) (hnew : c.name ≠ name) :
    next.bearer name = s.bearer name := by
  have hslot : ∀ k, next.slot k = if k = slot then c else s.slot k := slot_of_set hslots hlt
  refine Option.ext fun id => ⟨fun h => ?_, fun h => ?_⟩
  · obtain ⟨i, hocc, hname, rfl⟩ := bearer_eq_some h
    rw [hslot] at hocc hname ⊢
    split at hname
    · exact absurd hname hnew
    · rename_i hne
      rw [if_neg hne] at hocc ⊢
      rw [← hname]
      exact hs.bearer_slot hocc
  · obtain ⟨i, hocc, hname, rfl⟩ := bearer_eq_some h
    have hne : i ≠ slot := by
      rintro rfl
      exact hold hocc hname
    have hsame : next.slot i = s.slot i := (hslot i).trans (if_neg hne)
    rw [← hsame] at hocc hname ⊢
    rw [← hname]
    exact hn.bearer_slot hocc

/-- **After a `put` the name has a bearer, and every other name has the one it had.** -/
theorem bearer_putPlan {payload : Option Nat} {next undone : CommandStore} {c : Command}
    (hs : s.Sound) (hn : next.Sound) (h : s.putPlan c = .write payload next undone) :
    (∃ id, next.bearer c.name = some id) ∧
      ∀ other, other ≠ c.name → next.bearer other = s.bearer other := by
  obtain ⟨-, -, -, -, slot, overwriting, id, rev, hput, -, -, -, hnext, -⟩ := putPlan_eq_write h
  have hslots : next.slots = s.slots.set slot { c with commandId := id } := by rw [hnext]
  have hat : slot < s.slots.length ∧ id ≠ commandIdNone ∧
      ((s.slot slot).occupied = true → (s.slot slot).name = c.name) := by
    rcases putSlot_eq_ok hput with ⟨-, hfind, rfl⟩ | ⟨-, -, hfree, -, rfl⟩
    · obtain ⟨hocc, hname⟩ := findSlot_eq_some hfind
      exact ⟨lt_of_slot_occupied hocc, Command.occupied_iff.mp hocc, fun _ => hname⟩
    · obtain ⟨hlt, hempty⟩ := findFreeSlot_eq_some hfree
      refine ⟨hlt, fun hnone => ?_, fun hocc => ?_⟩
      · have hpos : commandIdFirst ≤ s.nextCommandId := hs.next_pos
        rw [hnone] at hpos
        exact absurd hpos (by decide)
      · rw [hempty] at hocc
        cases hocc
  obtain ⟨hlt, hid, hold⟩ := hat
  constructor
  · have hslot : next.slot slot = { c with commandId := id } := by
      rw [slot_of_set hslots hlt, if_pos rfl]
    have hocc : (next.slot slot).occupied = true := by
      rw [hslot]
      exact Command.occupied_iff.mpr hid
    have hbearer := hn.bearer_slot hocc
    rw [hslot] at hbearer
    exact ⟨id, hbearer⟩
  · intro other hother
    exact bearer_of_set hs.toWellFormed hn.toWellFormed hslots hlt
      (fun hocc hname => hother (hname.symm.trans (hold hocc))) (Ne.symm hother)

/-- **Whatever is attempted**, a store that can be written to is sound and stays so. -/
theorem sound_attempt (op : Op) (hs : s.readOnly = false → s.Sound) (saves : Bool) :
    let t := (op.attempt saves s).2
    (t.readOnly = false → t.Sound) ∧ (s.readOnly = false → t.readOnly = false) := by
  intro t
  cases hplan : op.plan s with
  | stop result =>
    have ht : t = s := congrArg Prod.snd (Op.attempt_of_stop hplan saves)
    rw [ht]
    exact ⟨hs, id⟩
  | write payload next undone =>
    have ht : t = if saves then next else undone := by
      show (op.attempt saves s).2 = _
      rw [Op.attempt_of_write hplan]
      cases saves <;> rfl
    rw [ht]
    rcases op_change hs hplan with ⟨hro, hchange, rfl⟩ | ⟨random, -, -, rfl, rfl⟩
    · cases saves with
      | false => exact ⟨hs, id⟩
      | true => exact ⟨fun _ => hchange.sound (hs hro), fun _ => hchange.readOnly.trans hro⟩
    · cases saves with
      | false => exact ⟨fun _ => resetStore_sound s random, fun h => h⟩
      | true => exact ⟨fun _ => (resetStore_sound s random).resume, fun _ => rfl⟩

/-- What a `put` that returns OK makes of the registry. -/
theorem bearer_attempt_put {c : Command} {saves : Bool} {t : CommandStore}
    (hs : s.readOnly = false → s.Sound) (h : (Op.put c).attempt saves s = (.ok, t)) :
    (s.readOnly = false ∧ t.readOnly = false ∧ t.Sound) ∧ (∃ id, t.bearer c.name = some id) ∧
      ∀ other, other ≠ c.name → t.bearer other = s.bearer other := by
  obtain ⟨hsound, hwritable⟩ := sound_attempt (.put c) hs saves
  rw [h] at hsound hwritable
  cases hplan : (Op.put c).plan s with
  | stop result =>
    rw [Op.attempt_of_stop hplan] at h
    obtain ⟨rfl, -⟩ := Prod.mk.inj h
    exact absurd hplan putPlan_stop
  | write payload next undone =>
    have hro := (writable_eq_ok (putPlan_eq_write hplan).1).2.1
    have ht := hsound (hwritable hro)
    rw [Op.attempt_of_write hplan] at h
    cases saves with
    | false => cases h
    | true =>
      obtain ⟨-, rfl⟩ := Prod.mk.inj h
      exact ⟨⟨hro, hwritable hro, ht⟩, bearer_putPlan (hs hro) ht hplan⟩

end CommandStore

/-! ## What is read -/

/-- `BridgeStatus`, with the state of the learn. -/
structure LearnStatus extends BridgeStatus where
  state : Str

namespace LearningCloner

/-- `rf_status`. -/
def learnStatus (c : LearningCloner) : LearnStatus :=
  { c.rfStatus with state := ofUtf8 c.state.text }

variable {c : LearningCloner}

/-- A device that is in a state says so. -/
theorem state_learnStatus (state : LearnState) :
    c.learnStatus.state = ofUtf8 state.text ↔ c.state = state := by
  show ofUtf8 c.state.text = _ ↔ _
  cases c.state <;> cases state <;> decide

/-- **The row of a name is that of its bearer.**  A stored name is ASCII, and any other has no row. -/
theorem commandId_byName (hwf : c.store.WellFormed) (name : Str) :
    (c.learnStatus.byName name).map CommandInfo.commandId
      = (c.store.bearer (utf8 name)).map fun id => (id.toNat : Int) := by
  have hrows : c.learnStatus.commands = _ := Cloner.commands_rfStatus
  have hnamed : ∀ command ∈ c.store.commands, ofUtf8 command.name = name ↔ command.name = utf8 name := by
    intro command hcommand
    have hascii := lt_of_validateName (hwf.names_valid command hcommand)
    constructor
    · rintro rfl
      exact (utf8_ofUtf8 hascii).symm
    · intro hname
      rw [hname]
      rw [hname] at hascii
      exact ofUtf8_utf8 hascii
  unfold BridgeStatus.byName
  rw [hrows]
  cases hfind : ((c.store.commands.map fun command : Command =>
      (⟨command.commandId.toNat, ofUtf8 command.name, (UInt16.ofNat command.timings.length).toNat⟩ :
        CommandInfo)).reverse.find? fun row => row.name = name) with
  | some row =>
    have hname := List.find?_some hfind
    obtain ⟨command, hcommand, rfl⟩ := List.mem_map.mp (List.mem_reverse.mp (List.mem_of_find?_eq_some hfind))
    have hbears := (hnamed _ hcommand).mp (of_decide_eq_true hname)
    obtain ⟨i, rfl, hocc⟩ := SlotTable.mem_content.mp hcommand
    have hfound : c.store.bearer (utf8 name) = some (c.store.slot i).commandId := by
      rw [← hbears]
      exact hwf.bearer_slot hocc
    rw [hfound]
    rfl
  | none =>
    cases hbearer : c.store.bearer (utf8 name) with
    | none => rfl
    | some id =>
      obtain ⟨i, hocc, hname, -⟩ := bearer_eq_some hbearer
      have hcommand := slot_mem_commands hocc
      have hrow := List.find?_eq_none.mp hfind _ (List.mem_reverse.mpr (List.mem_map_of_mem hcommand))
      exact absurd (decide_eq_true ((hnamed _ hcommand).mpr hname)) hrow

end LearningCloner

/-! ## What one event does -/

/-- An action attempts one operation, or none. -/
theorem StoreAction.store_perform (action : StoreAction) (saves : Bool) (c : Cloner) :
    (∃ op : Op, (action.perform saves c).store = (op.attempt saves c.store).2) ∨
      (action.perform saves c).store = c.store := by
  cases action with
  | rename commandId newName => exact Or.inl ⟨_, Cloner.store_finish _ _ _⟩
  | erase name => exact Or.inl ⟨_, Cloner.store_finish _ _ _⟩
  | eraseById commandId => exact Or.inl ⟨_, Cloner.store_finish _ _ _⟩
  | clearAll => exact Or.inl ⟨_, Cloner.store_finish _ _ _⟩
  | factoryReset random => exact Or.inl ⟨_, Cloner.store_finish _ _ _⟩
  | restoreBegin bridgeIdHex nextCommandId =>
    unfold perform Cloner.restoreBegin
    dsimp only
    split
    · exact Or.inr rfl
    · exact Or.inl ⟨_, Cloner.store_finish _ _ _⟩
  | importCommand command => exact Or.inl ⟨_, Cloner.store_finish _ _ _⟩
  | restoreCommit sourceRevision =>
    unfold perform Cloner.restoreCommit
    dsimp only
    split
    · exact Or.inr rfl
    · exact Or.inl ⟨_, Cloner.store_finish _ _ _⟩

namespace LearningCloner

variable {cfg : CaptureConfig} {c : LearningCloner} {event : LearnEvent}

/-- What an event does to the learn that is open: nothing, or it ends it without a capture, or it
    stores the capture. -/
inductive Turn (cfg : CaptureConfig) (c : LearningCloner) (event : LearnEvent) : Prop where
  | quiet (hcalls : (c.step cfg event).2 = []) (hstate : (c.step cfg event).1.state = c.state)
      (hpending : (c.step cfg event).1.pendingName = c.pendingName)
      (hstore : (c.step cfg event).1.store = c.store ∨
        ∃ saves action, event = .action saves action)
  | unstored (hcalls : (c.step cfg event).2 ≠ []) (hnone : storedBy (c.step cfg event).2 = none)
      (hstate : (c.step cfg event).1.state ≠ .captured)
      (hstore : (c.step cfg event).1.store = c.store)
  | stored {saves : Bool} {command : Command} (harmed : c.state = .armed)
      (hname : command.name = c.pendingName)
      (hsome : storedBy (c.step cfg event).2 = some command)
      (hput : (Op.put command).attempt saves c.store = (.ok, (c.step cfg event).1.store))
      (hstate : (c.step cfg event).1.state = .captured)

theorem turn_commitCapture {saves : Bool} (capture : CaptureState) (harmed : c.state = .armed)
    (hstep : c.step cfg event = { c with capture := capture }.commitCapture cfg saves) :
    Turn cfg c event := by
  unfold commitCapture at hstep
  split at hstep
  · rename_i store hput
    have hsome : storedBy (c.step cfg event).2 = some ({ c with capture := capture }.captured cfg) := by
      rw [hstep]
      rfl
    have hstored : (Op.put ({ c with capture := capture }.captured cfg)).attempt saves c.store
        = (.ok, (c.step cfg event).1.store) := by
      rw [hstep]
      exact hput
    exact .stored harmed rfl hsome hstored (by rw [hstep])
  · rename_i result store hne hput
    have hfailed : ((Op.put ({ c with capture := capture }.captured cfg)).attempt saves c.store).1
        ≠ .ok := by
      intro hok
      rw [hput] at hok
      exact hne hok
    have hkept := attempt_put_of_ne_ok hfailed
    rw [hput] at hkept
    refine .unstored ?_ ?_ ?_ ?_
    · rw [hstep]
      exact List.cons_ne_nil _ _
    · rw [hstep]
      cases result <;> first | rfl | exact absurd rfl hne
    · rw [hstep]
      exact fun h => nomatch h
    · rw [hstep]
      exact hkept

variable (cfg) in
theorem turn_arm (name : Bytes) (timeoutMs nowMs : UInt32) (c : LearningCloner) :
    (c.arm cfg name timeoutMs nowMs).2 ≠ [] ∧ storedBy (c.arm cfg name timeoutMs nowMs).2 = none ∧
    (c.arm cfg name timeoutMs nowMs).1.state ≠ .captured ∧
    (c.arm cfg name timeoutMs nowMs).1.store = c.store ∧
    ((c.arm cfg name timeoutMs nowMs).1.state = .armed →
      (c.arm cfg name timeoutMs nowMs).1.pendingName = name) := by
  unfold arm refuse
  split
  · exact ⟨List.cons_ne_nil _ _, rfl, fun h => (nomatch h), rfl, fun h => (nomatch h)⟩
  · split
    · exact ⟨List.cons_ne_nil _ _, rfl, fun h => (nomatch h), rfl, fun h => (nomatch h)⟩
    · exact ⟨List.cons_ne_nil _ _, rfl, fun h => (nomatch h), rfl, fun _ => rfl⟩

variable (cfg) in
/-- What is left of a `learn`: another learn is armed under its name, or none is. -/
theorem turn_learn (name : Bytes) (timeoutMs nowMs : UInt32) (c : LearningCloner) :
    (c.learn cfg name timeoutMs nowMs).2 ≠ [] ∧
    storedBy (c.learn cfg name timeoutMs nowMs).2 = none ∧
    (c.learn cfg name timeoutMs nowMs).1.state ≠ .captured ∧
    (c.learn cfg name timeoutMs nowMs).1.store = c.store ∧
    ((c.learn cfg name timeoutMs nowMs).1.state = .armed →
      (c.learn cfg name timeoutMs nowMs).1.pendingName = name) := by
  unfold learn
  split
  · obtain ⟨-, hnone, hrest⟩ := turn_arm cfg name timeoutMs nowMs (c.fail .cancelled).1
    exact ⟨List.cons_ne_nil _ _, hnone, hrest⟩
  · exact turn_arm cfg name timeoutMs nowMs c

theorem turn_fail (failure : LearnFailure)
    (hstep : c.step cfg event = c.fail failure) : Turn cfg c event := by
  refine .unstored ?_ ?_ ?_ ?_
  · rw [hstep]
    exact List.cons_ne_nil _ _
  · rw [hstep]
    rfl
  · rw [hstep]
    exact fun h => nomatch h
  · rw [hstep]
    rfl

/-- **What one event does.** -/
theorem turn_step (cfg : CaptureConfig) (c : LearningCloner) (event : LearnEvent) :
    Turn cfg c event := by
  have hcase := step_cases cfg c event
  generalize hstep : c.step cfg event = next at hcase
  cases hcase with
  | rearmed name timeoutMs nowMs =>
    obtain ⟨hcalls, hnone, hstate, hstore, -⟩ := turn_learn cfg name timeoutMs nowMs c
    exact .unstored hcalls hnone hstate hstore
  | armed name timeoutMs nowMs =>
    obtain ⟨hcalls, hnone, hstate, hstore, -⟩ := turn_learn cfg name timeoutMs nowMs c
    exact .unstored hcalls hnone hstate hstore
  | ignored => exact .quiet (by rw [hstep]) (by rw [hstep]) (by rw [hstep]) (Or.inl (by rw [hstep]))
  | failed failure => exact turn_fail failure hstep
  | received => exact .quiet (by rw [hstep]) (by rw [hstep]) (by rw [hstep]) (Or.inl (by rw [hstep]))
  | committed saves rawData nowUs nowMs harmed => exact turn_commitCapture _ harmed hstep
  | waited => exact .quiet (by rw [hstep]) (by rw [hstep]) (by rw [hstep]) (Or.inl (by rw [hstep]))
  | settled saves nowMs harmed => exact turn_commitCapture c.capture harmed hstep
  | acted saves action => exact .quiet rfl rfl rfl (Or.inr ⟨saves, action, rfl⟩)

variable (cfg event) in
/-- **Whatever happens to it**, a registry that can be written to is sound and stays so. -/
theorem sound_step (hs : c.store.readOnly = false → c.store.Sound) :
    let t := (c.step cfg event).1.store
    (t.readOnly = false → t.Sound) ∧ (c.store.readOnly = false → t.readOnly = false) := by
  intro t
  rcases turn_step cfg c event with ⟨-, -, -, hsame | ⟨saves, action, rfl⟩⟩ | ⟨-, -, -, hsame⟩ |
    ⟨-, -, -, hput, -⟩
  · rw [show t = c.store from hsame]
    exact ⟨hs, id⟩
  · rcases action.store_perform saves c.toCloner with ⟨op, hop⟩ | hsame
    · rw [show t = (op.attempt saves c.store).2 from hop]
      exact sound_attempt op hs saves
    · rw [show t = c.store from hsame]
      exact ⟨hs, id⟩
  · rw [show t = c.store from hsame]
    exact ⟨hs, id⟩
  · rename_i saves command
    have hsound := sound_attempt (.put command) hs saves
    rw [hput] at hsound
    exact hsound

theorem sound_after (hs : c.store.readOnly = false → c.store.Sound) (events : List LearnEvent) :
    (c.after cfg events).store.readOnly = false → (c.after cfg events).store.Sound := by
  induction events generalizing c with
  | nil => exact hs
  | cons event events ih => exact ih (sound_step cfg event hs).1

end LearningCloner

/-! ## The call -/

/-- `_async_await_learn` once the device has left the armed state. -/
def LearnOutcome.ofStatus (name : Str) (status : LearnStatus) : LearnOutcome :=
  match status.byName name with
  | some command =>
    if status.state = str "captured" then ⟨true, some command.commandId, name, status.lastResult⟩
    else ⟨false, none, name, (orNone status.lastResult).getD status.state⟩
  | none => ⟨false, none, name, (orNone status.lastResult).getD status.state⟩

/-- Where `async_learn` stands once it has armed the device. -/
inductive CallPhase where
  /-- It reads the status, or sleeps until it reads again. -/
  | polling
  /-- It has given up, and is about to cancel. -/
  | cancelling
  | returned (outcome : LearnOutcome)

/-- What has become of the learn that the call armed. -/
inductive OwnLearn where
  | armed | captured | ended
  deriving DecidableEq

/-- `async_learn` and the device, with what the learns on the device have come to. -/
structure LearnCall where
  device : LearningCloner
  phase : CallPhase
  own : OwnLearn
  /-- The ids under which learns have stored commands of the name since the call armed. -/
  learned : List UInt32

inductive CallEvent where
  /-- Another client acts on the device, it receives something, or its loop runs. -/
  | device (event : LearnEvent)
  /-- A status is read.  `expired` is whether the deadline has passed by then. -/
  | polled (expired : Bool)
  /-- `async_cancel` reaches the device. -/
  | cancelled
  deriving DecidableEq

namespace LearnCall

variable (cfg : CaptureConfig) (name : Str)

/-- `async_learn` arms the device, at its time `nowMs`. -/
def arm (nowMs : UInt32) (device : LearningCloner) : LearnCall :=
  let device := (device.learn cfg (utf8 name) 0 nowMs).1
  { device := device
    phase := .polling
    own := if device.state = .armed then .armed else .ended
    learned := [] }

/-- An event on the device.  The learn that is open ends with the first call of the component; it
    has captured if that call was a `put` that returned OK. -/
def onDevice (event : LearnEvent) (x : LearnCall) : LearnCall :=
  let turn := x.device.step cfg event
  { x with
    device := turn.1
    own :=
      match x.own with
      | .armed =>
        if turn.2.isEmpty then .armed
        else if (LearningCloner.storedBy turn.2).isSome then .captured
        else .ended
      | own => own
    learned :=
      match LearningCloner.storedBy turn.2 with
      | some command =>
        if command.name = utf8 name then x.learned ++ (turn.1.store.bearer (utf8 name)).toList
        else x.learned
      | none => x.learned }

/-- One event. -/
def step (x : LearnCall) : CallEvent → LearnCall
  | .device event => x.onDevice cfg name event
  | .polled expired =>
    match x.phase with
    | .polling =>
      let status := x.device.learnStatus
      { x with
        phase :=
          if status.state = str "armed" then if expired then .cancelling else .polling
          else .returned (.ofStatus name status) }
    | _ => x
  | .cancelled =>
    match x.phase with
    -- the status is not read again
    | .cancelling =>
      { x.onDevice cfg name .cancel with phase := .returned ⟨false, none, name, str "timeout"⟩ }
    | _ => x

/-- The state after the first `k` events. -/
abbrev after (x : LearnCall) (events : List CallEvent) (k : Nat) : LearnCall :=
  Runs.moment (step cfg name) x events k

/-- The outcome is true: if it says that the learn has succeeded, then a learn has stored a command of
    the name since the call armed, and the id is that command's; if not, then the learn that the call
    armed has not captured. -/
def Truthful (x : LearnCall) : Prop :=
  ∀ outcome, x.phase = .returned outcome →
    (outcome.succeeded = true → ∃ id ∈ x.learned, outcome.commandId = some (id.toNat : Int)) ∧
    (outcome.succeeded = false → x.own ≠ .captured)

/-- An event on the device leaves the name to what has been learned under it. -/
def Leaves (x : LearnCall) (event : LearnEvent) : Prop :=
  -- a capture under another name does not pass for one under this name
  (∀ command, LearningCloner.storedBy (x.device.step cfg event).2 = some command →
    command.name ≠ utf8 name → x.own ≠ .captured →
      ∀ id, x.device.store.bearer (utf8 name) = some id → id ∈ x.learned) ∧
  -- after a capture, no action takes the name away or gives it to another command
  ((∃ saves action, event = .action saves action) →
    (x.own = .captured → ∃ id ∈ x.learned,
      (x.device.step cfg event).1.store.bearer (utf8 name) = some id) ∧
    (x.device.state = .captured → ∀ id,
      (x.device.step cfg event).1.store.bearer (utf8 name) = some id → id ∈ x.learned))

/-- What others leave alone while the call is under way. -/
def Undisturbed (x : LearnCall) : CallEvent → Prop
  | .device event => x.phase = .polling → x.Leaves cfg name event
  | .polled expired =>
    -- a learn that comes after the capture has captured as well, or may still do so
    x.phase = .polling → x.own = .captured →
      x.device.state = .captured ∨ x.device.state = .armed ∧ expired = false
  | .cancelled =>
    -- the learn does not capture between the last read and the cancel
    x.phase = .cancelling → x.own ≠ .captured

/-! ## Undisturbed calls -/

variable {cfg name} {x : LearnCall}

/-- While the learn that the call armed is open, it is the one the device is armed for. -/
def Open (name : Str) (x : LearnCall) : Prop :=
  x.own = .armed → x.device.state = .armed ∧ x.device.pendingName = utf8 name

/-- **What holds of a call that is not disturbed**, while it reads. -/
structure Followed (name : Str) (x : LearnCall) : Prop where
  sound : x.device.store.readOnly = false → x.device.store.Sound
  armed : Open name x
  /-- What the call's own learn has captured still bears the name. -/
  own : x.own = .captured → x.device.store.readOnly = false ∧
    ∃ id ∈ x.learned, x.device.store.bearer (utf8 name) = some id
  /-- In state captured, only what was learned bears the name. -/
  captured : x.device.state = .captured → x.device.store.readOnly = false ∧
    ∀ id, x.device.store.bearer (utf8 name) = some id → id ∈ x.learned

section OnDevice

variable {event : LearnEvent}

/-- An event that ends no learn leaves the histories as they are. -/
theorem onDevice_of_quiet (name : Str) (hcalls : (x.device.step cfg event).2 = []) :
    (x.onDevice cfg name event).own = x.own ∧ (x.onDevice cfg name event).learned = x.learned := by
  unfold onDevice
  dsimp only
  rw [hcalls]
  refine ⟨?_, rfl⟩
  cases x.own <;> rfl

/-- A learn that ends without a capture is over. -/
theorem onDevice_of_unstored (name : Str) (hcalls : (x.device.step cfg event).2 ≠ [])
    (hnone : LearningCloner.storedBy (x.device.step cfg event).2 = none) :
    (x.onDevice cfg name event).own = (if x.own = .armed then .ended else x.own) ∧
    (x.onDevice cfg name event).learned = x.learned := by
  unfold onDevice
  dsimp only
  rw [hnone]
  refine ⟨?_, rfl⟩
  cases x.own with
  | armed => simp [hcalls]
  | captured => rfl
  | ended => rfl

/-- A capture is that of the call's own learn while that is armed, and counts under its name. -/
theorem onDevice_of_stored (name : Str) {command : Command}
    (hsome : LearningCloner.storedBy (x.device.step cfg event).2 = some command) :
    (x.onDevice cfg name event).own = (if x.own = .armed then .captured else x.own) ∧
    (x.onDevice cfg name event).learned = if command.name = utf8 name then
      x.learned ++ ((x.device.step cfg event).1.store.bearer (utf8 name)).toList else x.learned := by
  have hcalls : (x.device.step cfg event).2 ≠ [] := by
    intro hnil
    rw [hnil] at hsome
    cases hsome
  unfold onDevice
  dsimp only
  rw [hsome]
  refine ⟨?_, rfl⟩
  cases x.own with
  | armed => simp [hcalls]
  | captured => rfl
  | ended => rfl

/-- The ids that learns have stored are not forgotten. -/
theorem learned_onDevice (x : LearnCall) {id : UInt32} (h : id ∈ x.learned) :
    id ∈ (x.onDevice cfg name event).learned := by
  unfold onDevice
  dsimp only
  split
  · split
    · exact List.mem_append_left _ h
    · exact h
  · exact h

/-- A learn that has ended stays as it ended. -/
theorem own_onDevice (h : x.own ≠ .armed) : (x.onDevice cfg name event).own = x.own := by
  unfold onDevice
  dsimp only
  cases hown : x.own with
  | armed => exact absurd hown h
  | captured => rfl
  | ended => rfl

theorem Open.onDevice (h : Open name x) : Open name (x.onDevice cfg name event) := by
  intro harmed
  rcases LearningCloner.turn_step cfg x.device event with ⟨hcalls, hstate, hpending, -⟩ |
    ⟨hcalls, hnone, -, -⟩ | ⟨-, -, hsome, -, -⟩
  · rw [(onDevice_of_quiet name hcalls).1] at harmed
    exact ⟨hstate.trans (h harmed).1, hpending.trans (h harmed).2⟩
  · rw [(onDevice_of_unstored name hcalls hnone).1] at harmed
    split at harmed
    · cases harmed
    · rename_i hnot
      exact absurd harmed hnot
  · rw [(onDevice_of_stored name hsome).1] at harmed
    split at harmed
    · cases harmed
    · rename_i hnot
      exact absurd harmed hnot

/-- What a stored capture leaves: one under the name of the call is learned and bears the name, one
    under another name leaves the name to whom it was, and is not the call's own. -/
theorem Followed.put (h : Followed name x) {command : Command} {saves : Bool}
    (hname : command.name = x.device.pendingName)
    (hsome : LearningCloner.storedBy (x.device.step cfg event).2 = some command)
    (hput : (Op.put command).attempt saves x.device.store
      = (.ok, (x.device.step cfg event).1.store)) :
    (x.device.step cfg event).1.store.readOnly = false ∧
    ((∃ id ∈ (x.onDevice cfg name event).learned,
        (x.device.step cfg event).1.store.bearer (utf8 name) = some id) ∨
      command.name ≠ utf8 name ∧ (x.onDevice cfg name event).own = x.own ∧
        (x.onDevice cfg name event).learned = x.learned ∧
        (x.device.step cfg event).1.store.bearer (utf8 name)
          = x.device.store.bearer (utf8 name)) := by
  obtain ⟨hown, hlearned⟩ := onDevice_of_stored name hsome
  obtain ⟨⟨-, hro, -⟩, ⟨id, hid⟩, hothers⟩ := bearer_attempt_put h.sound hput
  refine ⟨hro, ?_⟩
  by_cases hsame : command.name = utf8 name
  · rw [if_pos hsame, ← hsame, hid] at hlearned
    refine Or.inl ⟨id, ?_, hsame ▸ hid⟩
    rw [hlearned]
    exact List.mem_append_right _ (List.mem_singleton.mpr rfl)
  · rw [if_neg hsame] at hlearned
    -- the learn that the call armed is under its name, so it has ended before
    have hended : x.own ≠ .armed := fun hopen => hsame (hname.trans (h.armed hopen).2)
    rw [if_neg hended] at hown
    exact Or.inr ⟨hsame, hown, hlearned, hothers (utf8 name) (Ne.symm hsame)⟩

/-- **An event that leaves the name alone** leaves the call followed.  One case for each way a learn
    goes on. -/
theorem Followed.onDevice (h : Followed name x) (hevent : x.Leaves cfg name event) :
    Followed name (x.onDevice cfg name event) := by
  obtain ⟨hother, haction⟩ := hevent
  have hsound := LearningCloner.sound_step cfg event h.sound
  refine ⟨hsound.1, h.armed.onDevice, fun hcaptured => ?_, fun hcaptured => ?_⟩
  · rcases LearningCloner.turn_step cfg x.device event with ⟨hcalls, -, -, hstore⟩ |
      ⟨hcalls, hnone, -, hstore⟩ | ⟨-, hname, hsome, hput, -⟩
    · obtain ⟨hown, hlearned⟩ := onDevice_of_quiet name hcalls
      rw [hown] at hcaptured
      obtain ⟨hro, id, hid, hbears⟩ := h.own hcaptured
      rw [hlearned]
      refine ⟨hsound.2 hro, ?_⟩
      rcases hstore with hsame | hact
      · exact ⟨id, hid, (congrArg (bearer · (utf8 name)) hsame).trans hbears⟩
      · exact (haction hact).1 hcaptured
    · obtain ⟨hown, hlearned⟩ := onDevice_of_unstored name hcalls hnone
      rw [hown] at hcaptured
      split at hcaptured
      · cases hcaptured
      · obtain ⟨hro, id, hid, hbears⟩ := h.own hcaptured
        rw [hlearned]
        exact ⟨hsound.2 hro, id, hid, (congrArg (bearer · (utf8 name)) hstore).trans hbears⟩
    · obtain ⟨hro, hbears | ⟨-, hown, hlearned, hbearer⟩⟩ := h.put hname hsome hput
      · exact ⟨hro, hbears⟩
      · rw [hown] at hcaptured
        obtain ⟨-, id, hid, hbears⟩ := h.own hcaptured
        rw [hlearned]
        exact ⟨hro, id, hid, hbearer.trans hbears⟩
  · rcases LearningCloner.turn_step cfg x.device event with ⟨hcalls, hstate, -, hstore⟩ |
      ⟨-, -, hstate, -⟩ | ⟨-, hname, hsome, hput, -⟩
    · have hbefore : x.device.state = .captured := hstate.symm.trans hcaptured
      obtain ⟨hro, hbears⟩ := h.captured hbefore
      rw [(onDevice_of_quiet name hcalls).2]
      refine ⟨hsound.2 hro, ?_⟩
      rcases hstore with hsame | hact
      · exact fun id hid => hbears id ((congrArg (bearer · (utf8 name)) hsame).symm.trans hid)
      · exact (haction hact).2 hbefore
    · exact absurd hcaptured hstate
    · obtain ⟨hro, ⟨id, hid, hbears⟩ | ⟨hne, -, hlearned, hbearer⟩⟩ := h.put hname hsome hput
      · refine ⟨hro, fun id' hid' => ?_⟩
        obtain rfl := Option.some.inj (hbears.symm.trans hid')
        exact hid
      · refine ⟨hro, fun id hid => ?_⟩
        rw [hlearned]
        have hbears : x.device.store.bearer (utf8 name) = some id := hbearer.symm.trans hid
        by_cases hown : x.own = .captured
        · obtain ⟨-, id', hid', hbears'⟩ := h.own hown
          obtain rfl := Option.some.inj (hbears.symm.trans hbears')
          exact hid'
        · exact hother _ hsome hne hown id hbears

end OnDevice

variable (cfg name) in
/-- Cancelling ends the learn that the call armed. -/
theorem own_cancel (h : x.own = .armed → x.device.state = .armed) (hnot : x.own ≠ .captured) :
    (x.onDevice cfg name .cancel).own = .ended := by
  cases hown : x.own with
  | captured => exact absurd hown hnot
  | ended =>
    rw [own_onDevice (by rw [hown]; exact fun h => nomatch h)]
    exact hown
  | armed =>
    have hstep : x.device.step cfg .cancel = x.device.fail .cancelled := by
      show x.device.cancel = _
      unfold LearningCloner.cancel
      rw [if_neg (not_not_intro (h hown))]
    have hcalls : (x.device.step cfg .cancel).2 ≠ [] := by
      rw [hstep]
      exact List.cons_ne_nil _ _
    have hnone : LearningCloner.storedBy (x.device.step cfg .cancel).2 = none := by
      rw [hstep]
      rfl
    rw [(onDevice_of_unstored name hcalls hnone).1, if_pos hown]

/-- What the deciding read reports: a success with the id in the listing if the device is in state
    captured and lists the name, else a failure. -/
theorem ofStatus_cases (name : Str) (device : LearningCloner) :
    let outcome := LearnOutcome.ofStatus name device.learnStatus
    (device.state = .captured ∧ ∃ row, device.learnStatus.byName name = some row ∧
      outcome.succeeded = true ∧ outcome.commandId = some row.commandId) ∨
    (¬ (device.state = .captured ∧ (device.learnStatus.byName name).isSome = true) ∧
      outcome.succeeded = false) := by
  have hstate : device.learnStatus.state = str "captured" ↔ device.state = .captured :=
    LearningCloner.state_learnStatus .captured
  unfold LearnOutcome.ofStatus
  cases device.learnStatus.byName name with
  | none => exact Or.inr ⟨fun hboth => (nomatch hboth.2), rfl⟩
  | some row =>
    dsimp only
    by_cases hcaptured : device.state = .captured
    · rw [if_pos (hstate.mpr hcaptured)]
      exact Or.inl ⟨hcaptured, row, rfl, rfl, rfl⟩
    · rw [if_neg fun hstatus => hcaptured (hstate.mp hstatus)]
      exact Or.inr ⟨fun hboth => hcaptured hboth.1, rfl⟩

/-- **What the deciding read reports is true**, if the device is still captured where the call's own
    learn has captured. -/
theorem Followed.ofStatus (h : Followed name x)
    (hpolled : x.own = .captured → x.device.state = .captured) :
    let outcome := LearnOutcome.ofStatus name x.device.learnStatus
    (outcome.succeeded = true → ∃ id ∈ x.learned, outcome.commandId = some (id.toNat : Int)) ∧
    (outcome.succeeded = false → x.own ≠ .captured) := by
  intro outcome
  have hrow (hcaptured : x.device.state = .captured) :=
    LearningCloner.commandId_byName (h.sound (h.captured hcaptured).1).toWellFormed name
  have hcase := ofStatus_cases name x.device
  constructor
  · intro hsucceeded
    rcases hcase with ⟨hcaptured, row, hbyName, -, hid⟩ | ⟨-, hfailed⟩
    · have hbears := hrow hcaptured
      rw [hbyName] at hbears
      obtain ⟨id, hbearer, hsame⟩ := Option.map_eq_some_iff.mp hbears.symm
      exact ⟨id, (h.captured hcaptured).2 id hbearer, hid.trans (congrArg some hsame.symm)⟩
    · cases hsucceeded.symm.trans hfailed
  · intro hfailed hown
    rcases hcase with ⟨-, row, -, hsucceeded, -⟩ | ⟨hnot, -⟩
    · cases hsucceeded.symm.trans hfailed
    · -- what the learn has captured is listed
      have hcaptured := hpolled hown
      obtain ⟨-, id, -, hbearer⟩ := h.own hown
      have hbears := hrow hcaptured
      rw [hbearer] at hbears
      obtain ⟨row, hbyName, -⟩ := Option.map_eq_some_iff.mp hbears
      exact hnot ⟨hcaptured, by rw [hbyName]; rfl⟩

/-- A call that reads is followed; one that has given up knows its learn; one that has returned has
    told the truth, and its learn is over. -/
inductive Progress (name : Str) (x : LearnCall) : Prop where
  | polling (hphase : x.phase = .polling) (h : Followed name x)
  | cancelling (hphase : x.phase = .cancelling) (h : Open name x)
  | done (outcome : LearnOutcome) (hphase : x.phase = .returned outcome) (hended : x.own ≠ .armed)
      (htrue : x.Truthful)

theorem Progress.followed (h : Progress name x) (hphase : x.phase = .polling) : Followed name x := by
  cases h with
  | polling _ h => exact h
  | cancelling hother _ => cases hphase.symm.trans hother
  | done _ hother _ _ => cases hphase.symm.trans hother

theorem Progress.truthful (h : Progress name x) : x.Truthful := by
  cases h with
  | polling hphase _ =>
    intro outcome houtcome
    rw [hphase] at houtcome
    cases houtcome
  | cancelling hphase _ =>
    intro outcome houtcome
    rw [hphase] at houtcome
    cases houtcome
  | done _ _ _ htrue => exact htrue

/-- A read. -/
theorem Progress.polled (hphase : x.phase = .polling) (h : Followed name x) {expired : Bool}
    (hevent : x.Undisturbed cfg name (.polled expired)) :
    Progress name (x.step cfg name (.polled expired)) := by
  have hstate : x.device.learnStatus.state = str "armed" ↔ x.device.state = .armed :=
    LearningCloner.state_learnStatus .armed
  unfold LearnCall.step
  simp only [hphase]
  by_cases harmed : x.device.state = .armed
  · rw [if_pos (hstate.mpr harmed)]
    cases expired with
    | true => exact .cancelling rfl h.armed
    | false => exact .polling rfl ⟨h.sound, h.armed, h.own, h.captured⟩
  · rw [if_neg fun hstatus => harmed (hstate.mp hstatus)]
    have htrue := h.ofStatus fun hown =>
      (hevent hphase hown).resolve_right fun hboth => harmed hboth.1
    refine .done _ rfl (fun hown => harmed (h.armed hown).1) fun outcome houtcome => ?_
    obtain rfl := CallPhase.returned.inj houtcome
    exact htrue

/-- The cancel. -/
theorem Progress.cancelled (hphase : x.phase = .cancelling) (h : Open name x)
    (hevent : x.Undisturbed cfg name .cancelled) : Progress name (x.step cfg name .cancelled) := by
  have hown := own_cancel cfg name (fun hown => (h hown).1) (hevent hphase)
  unfold LearnCall.step
  simp only [hphase]
  refine .done _ rfl (by rw [hown]; exact fun h => nomatch h) fun outcome houtcome => ?_
  obtain rfl := CallPhase.returned.inj houtcome
  refine ⟨fun h => (nomatch h), fun _ => ?_⟩
  rw [hown]
  exact fun h => nomatch h

/-- A call that has returned has nothing more to report. -/
theorem Progress.later {outcome : LearnOutcome} (hphase : x.phase = .returned outcome)
    (hended : x.own ≠ .armed) (htrue : x.Truthful) (event : CallEvent) :
    Progress name (x.step cfg name event) := by
  cases event with
  | device event =>
    have hown : (x.onDevice cfg name event).own = x.own := own_onDevice hended
    refine .done outcome hphase (by rw [← hown] at hended; exact hended) fun outcome' houtcome => ?_
    obtain ⟨hsucceeded, hfailed⟩ := htrue outcome' houtcome
    refine ⟨fun h => ?_, fun h hcaptured => hfailed h (hown.symm.trans hcaptured)⟩
    obtain ⟨id, hid, heq⟩ := hsucceeded h
    exact ⟨id, learned_onDevice x hid, heq⟩
  | polled expired =>
    unfold LearnCall.step
    simp only [hphase]
    exact .done outcome hphase hended htrue
  | cancelled =>
    unfold LearnCall.step
    simp only [hphase]
    exact .done outcome hphase hended htrue

/-- **Every event keeps the progress of a call that is not disturbed.** -/
theorem Progress.step (h : Progress name x) {event : CallEvent}
    (hevent : x.Undisturbed cfg name event) : Progress name (x.step cfg name event) := by
  cases h with
  | done outcome hphase hended htrue => exact .later hphase hended htrue event
  | polling hphase h =>
    cases event with
    | device event => exact .polling hphase (h.onDevice (hevent hphase))
    | polled expired => exact .polled hphase h hevent
    | cancelled =>
      unfold LearnCall.step
      simp only [hphase]
      exact .polling hphase h
  | cancelling hphase h =>
    cases event with
    | device event => exact .cancelling hphase h.onDevice
    | polled expired =>
      unfold LearnCall.step
      simp only [hphase]
      exact .cancelling hphase h
    | cancelled => exact .cancelled hphase h hevent

/-- A call that has just armed the device. -/
theorem progress_arm {device : LearningCloner} (hs : device.store.readOnly = false → device.store.Sound)
    (nowMs : UInt32) : Progress name (arm cfg name nowMs device) := by
  obtain ⟨-, -, hstate, hstore, hpending⟩ :=
    LearningCloner.turn_learn cfg (utf8 name) 0 nowMs device
  refine .polling rfl ⟨?_, fun hown => ?_, fun hown => ?_, fun hcaptured => absurd hcaptured hstate⟩
  · show ((device.learn cfg (utf8 name) 0 nowMs).1.store.readOnly = false →
      (device.learn cfg (utf8 name) 0 nowMs).1.store.Sound)
    rw [hstore]
    exact hs
  · change (if (device.learn cfg (utf8 name) 0 nowMs).1.state = .armed then OwnLearn.armed else .ended)
      = .armed at hown
    split at hown
    · rename_i harmed
      exact ⟨harmed, hpending harmed⟩
    · cases hown
  · change (if (device.learn cfg (utf8 name) 0 nowMs).1.state = .armed then OwnLearn.armed else .ended)
      = .captured at hown
    split at hown <;> cases hown

/-! ## Disturbed calls -/

/-- A call that gives up after its learn has captured does not tell the truth. -/
theorem not_truthful_cancelled (hphase : x.phase = .cancelling) (hown : x.own = .captured) :
    ¬ (x.step cfg name .cancelled).Truthful := by
  intro htrue
  have hkept : (x.onDevice cfg name .cancel).own = .captured :=
    (own_onDevice (by rw [hown]; exact fun h => nomatch h)).trans hown
  have hstep : x.step cfg name .cancelled
      = { x.onDevice cfg name .cancel with phase := .returned ⟨false, none, name, str "timeout"⟩ } := by
    unfold LearnCall.step
    simp only [hphase]
  rw [hstep] at htrue
  exact (htrue _ rfl).2 rfl hkept

/-- The name is not what the device makes it look: the call's own learn has captured and what bears
    the name is not learned, or the device is captured and something that is not learned bears the
    name. -/
def Misleading (name : Str) (x : LearnCall) : Prop :=
  x.own = .captured ∧ (¬ ∃ id ∈ x.learned, x.device.store.bearer (utf8 name) = some id) ∨
  x.device.state = .captured ∧ ∃ id, x.device.store.bearer (utf8 name) = some id ∧ id ∉ x.learned

/-- **A call that reads a misleading status last** does not tell the truth. -/
theorem not_truthful_of_misleading (hwf : x.device.store.WellFormed) (hphase : x.phase = .polling)
    (hmisleading : Misleading name x) :
    ¬ (x.after cfg name [.polled true, .cancelled] 2).Truthful := by
  show ¬ ((x.step cfg name (.polled true)).step cfg name .cancelled).Truthful
  have hstate : x.device.learnStatus.state = str "armed" ↔ x.device.state = .armed :=
    LearningCloner.state_learnStatus .armed
  by_cases harmed : x.device.state = .armed
  · -- it gives up
    have hstep : x.step cfg name (.polled true) = { x with phase := .cancelling } := by
      unfold LearnCall.step
      simp only [hphase, if_pos (hstate.mpr harmed), if_true]
    rw [hstep]
    rcases hmisleading with ⟨hown, -⟩ | ⟨hcaptured, -⟩
    · exact not_truthful_cancelled rfl hown
    · cases harmed.symm.trans hcaptured
  · have hstep : (x.step cfg name (.polled true)).step cfg name .cancelled
        = { x with phase := .returned (.ofStatus name x.device.learnStatus) } := by
      unfold LearnCall.step
      simp only [hphase, if_neg fun hstatus => harmed (hstate.mp hstatus)]
    rw [hstep]
    intro htrue
    obtain ⟨hsucceeded, hfailed⟩ := htrue _ rfl
    have hbears := LearningCloner.commandId_byName hwf name
    rcases ofStatus_cases name x.device with ⟨-, row, hbyName, hsuccess, hid⟩ | ⟨hnot, hfailure⟩
    · -- the command that is reported has been learned, and bears the name
      obtain ⟨id, hlearned, heq⟩ := hsucceeded hsuccess
      rw [hbyName] at hbears
      obtain ⟨id', hbearer, hsame⟩ := Option.map_eq_some_iff.mp hbears.symm
      have hcast : (id'.toNat : Int) = id.toNat :=
        hsame.trans (Option.some.inj (hid.symm.trans heq))
      obtain rfl := UInt32.toNat_inj.mp (Int.ofNat_inj.mp hcast)
      rcases hmisleading with ⟨-, hnone⟩ | ⟨-, other, hother, hforeign⟩
      · exact hnone ⟨id', hlearned, hbearer⟩
      · obtain rfl := Option.some.inj (hbearer.symm.trans hother)
        exact hforeign hlearned
    · rcases hmisleading with ⟨hown, -⟩ | ⟨hcaptured, id, hbearer, -⟩
      · exact hfailed hfailure hown
      · rw [hbearer] at hbears
        obtain ⟨row, hbyName, -⟩ := Option.map_eq_some_iff.mp hbears
        exact hnot ⟨hcaptured, by rw [hbyName]; rfl⟩

/-- An event that does not leave the name alone makes it misleading. -/
theorem Followed.misleading (h : Followed name x) {event : LearnEvent}
    (hevent : ¬ x.Leaves cfg name event) :
    (x.onDevice cfg name event).device.store.readOnly = false ∧
      Misleading name (x.onDevice cfg name event) := by
  have hwritable := (LearningCloner.sound_step cfg event h.sound).2
  unfold Leaves at hevent
  rw [not_and_or] at hevent
  rcases hevent with hcapture | haction
  · push Not at hcapture
    obtain ⟨command, hsome, hne, hown, id, hbearer, hnot⟩ := hcapture
    rcases LearningCloner.turn_step cfg x.device event with ⟨hcalls, -, -, -⟩ | ⟨-, hnone, -, -⟩ |
      ⟨-, hname, hsome', hput, hcaptured⟩
    · rw [hcalls] at hsome
      cases hsome
    · cases hnone.symm.trans hsome
    · obtain rfl := Option.some.inj (hsome'.symm.trans hsome)
      obtain ⟨⟨-, hro, -⟩, -, hothers⟩ := bearer_attempt_put h.sound hput
      refine ⟨hro, Or.inr ⟨hcaptured, id, (hothers _ (Ne.symm hne)).trans hbearer, ?_⟩⟩
      rw [(onDevice_of_stored name hsome).2, if_neg hne]
      exact hnot
  · rw [Classical.not_imp] at haction
    obtain ⟨⟨saves, action, rfl⟩, hbears⟩ := haction
    have hcalls : (x.device.step cfg (.action saves action)).2 = [] := rfl
    obtain ⟨hown, hlearned⟩ := onDevice_of_quiet name hcalls
    rw [not_and_or, Classical.not_imp, Classical.not_imp] at hbears
    rcases hbears with ⟨hcaptured, hnone⟩ | ⟨hcaptured, hforeign⟩
    · refine ⟨hwritable (h.own hcaptured).1, Or.inl ⟨hown.trans hcaptured, ?_⟩⟩
      rw [hlearned]
      exact hnone
    · push Not at hforeign
      obtain ⟨id, hbearer, hnot⟩ := hforeign
      refine ⟨hwritable (h.captured hcaptured).1, Or.inr ⟨hcaptured, id, hbearer, ?_⟩⟩
      rw [hlearned]
      exact hnot

/-- **Every disturbance can make the outcome untrue**: a call that has not been disturbed before, and
    that reads at most once more, and cancels if it has to, then does not tell the truth. -/
theorem Progress.not_truthful (h : Progress name x) {event : CallEvent}
    (hevent : ¬ x.Undisturbed cfg name event) :
    ∃ rest : List CallEvent,
      ¬ ((x.step cfg name event).after cfg name rest rest.length).Truthful := by
  cases event with
  | device event =>
    obtain ⟨hphase, hleaves⟩ := Classical.not_imp.mp hevent
    have hfollowed := h.followed hphase
    obtain ⟨hro, hmisleading⟩ := hfollowed.misleading hleaves
    have hsound := (LearningCloner.sound_step cfg event hfollowed.sound).1 hro
    exact ⟨[.polled true, .cancelled],
      not_truthful_of_misleading hsound.toWellFormed hphase hmisleading⟩
  | polled expired =>
    obtain ⟨hphase, hevent⟩ := Classical.not_imp.mp hevent
    obtain ⟨hown, hevent⟩ := Classical.not_imp.mp hevent
    obtain ⟨hcaptured, hnext⟩ := not_or.mp hevent
    have hstate : x.device.learnStatus.state = str "armed" ↔ x.device.state = .armed :=
      LearningCloner.state_learnStatus .armed
    by_cases harmed : x.device.state = .armed
    · -- it gives up on the learn that came after its own
      have hexpired : expired = true := by
        cases expired with
        | true => rfl
        | false => exact absurd ⟨harmed, rfl⟩ hnext
      have hstep : x.step cfg name (.polled expired) = { x with phase := .cancelling } := by
        unfold LearnCall.step
        simp only [hphase, if_pos (hstate.mpr harmed), if_pos hexpired]
      rw [hstep]
      refine ⟨[.cancelled], ?_⟩
      exact not_truthful_cancelled (x := { x with phase := .cancelling }) rfl hown
    · have hstep : x.step cfg name (.polled expired)
          = { x with phase := .returned (.ofStatus name x.device.learnStatus) } := by
        unfold LearnCall.step
        simp only [hphase, if_neg fun hstatus => harmed (hstate.mp hstatus)]
      rw [hstep]
      refine ⟨[], fun htrue => ?_⟩
      rcases ofStatus_cases name x.device with ⟨hcapture, -⟩ | ⟨-, hfailed⟩
      · exact hcaptured hcapture
      · exact (htrue _ rfl).2 hfailed hown
  | cancelled =>
    obtain ⟨hphase, hown⟩ := Classical.not_imp.mp hevent
    exact ⟨[], not_truthful_cancelled hphase (not_not.mp hown)⟩

/-! ## Runs -/

/-- **The outcome of a learn is true, if others leave it alone.**  For any device that has come to be
    in any way, any name, and any run of statuses, of the cancel, and of whatever others do on the
    device in between: a reported success is that of a learn of the name, with its id, and after a
    reported failure the call's own learn has not captured, provided that
    - while the status is read, no learn of another name captures while a command bears the name that
      was not learned under it since the call armed, unless the call's own learn has captured;
    - nor does an action, once there has been a capture, take the name away or give it to such a
      command;
    - no learn that comes after the own capture is over without one when the status is read;
    - the own learn does not capture between the last read and the cancel. -/
theorem outcome_truthful (cfg : CaptureConfig) (name : Str) (config : Config) (lands : Nat → Bool)
    (random : Option BridgeId) (history : List Event) (before : List LearnEvent) (nowMs : UInt32) (events : List CallEvent) :
    let store := (Session.run lands (Session.powerOn lands config random) history).store
    let x := arm cfg name nowMs ((LearningCloner.boot store).after cfg before)
    (∀ k event, events[k]? = some event → (x.after cfg name events k).Undisturbed cfg name event) →
    ∀ k ≤ events.length, (x.after cfg name events k).Truthful := by
  intro store x hundisturbed k hk
  have hstore : store.readOnly = false → store.Sound :=
    (Session.founded_run lands config random history).ram
  have hprogress : ∀ k ≤ events.length, Progress name (x.after cfg name events k) := by
    intro k
    induction k with
    | zero => exact fun _ => progress_arm (LearningCloner.sound_after hstore before) nowMs
    | succ k ih =>
      intro hk
      have hevent := List.getElem?_eq_getElem (show k < events.length by omega)
      have hnext : x.after cfg name events (k + 1) = (x.after cfg name events k).step cfg name _ :=
        Runs.moment_succ hevent
      rw [hnext]
      exact (ih (by omega)).step (hundisturbed k _ hevent)
  exact (hprogress k hk).truthful

/-! ## A capture that comes late, and one that is not the call's -/

/-- What the call has reported: whether the learn has succeeded, and with which id. -/
def reported (x : LearnCall) : Option (Bool × Option Int) :=
  match x.phase with
  | .returned outcome => some (outcome.succeeded, outcome.commandId)
  | _ => none

theorem phase_of_reported {succeeded : Bool} {commandId : Option Int}
    (h : x.reported = some (succeeded, commandId)) :
    ∃ outcome, x.phase = .returned outcome ∧ outcome.succeeded = succeeded ∧
      outcome.commandId = commandId := by
  unfold reported at h
  split at h
  · rename_i outcome hphase
    obtain ⟨rfl, rfl⟩ := Prod.mk.inj (Option.some.inj h)
    exact ⟨outcome, hphase, rfl, rfl⟩
  · cases h

/-- A device that starts for the first time, with what happens to it before the call. -/
def startedDevice (before : List LearnEvent) : LearningCloner :=
  (LearningCloner.boot (Session.run (fun _ => true)
    (Session.powerOn (fun _ => true) ⟨2, 16, 400, 7⟩ none) []).store).after {} before

/-- The button of a remote is pressed. -/
def pressed : LearnEvent :=
  .onReceive true (Observed.windowOf 5000 [Observed.pulseTrain 400, Observed.pulseTrain 400,
    Observed.pulseTrain 400]) 5000 5

/-- The button is pressed after the call has read for the last time. -/
def pressedLate : List CallEvent := [.polled true, .device pressed, .cancelled]

/-- Another client takes the learn over for another name. -/
def takenOver : List CallEvent :=
  [.device (.learn (utf8 (str "lamp")) 0 0), .device pressed, .polled false]

/-- **Two outcomes that are not true**: a timeout, though the learn has captured, and the success of a
    learn of a name that was there before and that no learn has stored since. -/
theorem learn_misreported :
    let late := (arm {} (str "fan") 0 (startedDevice [])).after {} (str "fan") pressedLate 3
    let taken := (arm {} (str "fan") 0 (startedDevice [.learn (utf8 (str "fan")) 0 0, pressed])).after
      {} (str "fan") takenOver 3
    (late.reported = some (false, none) ∧ late.own = .captured ∧ ¬ late.Truthful) ∧
    (taken.reported = some (true, some 1) ∧ taken.learned = [] ∧ ¬ taken.Truthful) := by
  intro late taken
  have hlate : late.reported = some (false, none) := by decide +kernel
  have hcaptured : late.own = .captured := by decide +kernel
  have htaken : taken.reported = some (true, some 1) := by decide +kernel
  have hnone : taken.learned = [] := by decide +kernel
  refine ⟨⟨hlate, hcaptured, fun htrue => ?_⟩, ⟨htaken, hnone, fun htrue => ?_⟩⟩
  · obtain ⟨outcome, hphase, hfailed, -⟩ := phase_of_reported hlate
    exact (htrue outcome hphase).2 hfailed hcaptured
  · obtain ⟨outcome, hphase, hsucceeded, -⟩ := phase_of_reported htaken
    obtain ⟨id, hid, -⟩ := (htrue outcome hphase).1 hsucceeded
    rw [hnone] at hid
    cases hid

/-- The button is pressed in time, and nobody else does anything. -/
theorem outcome_truthful_alone :
    let x := arm {} (str "fan") 0 (startedDevice [])
    let events := [.device pressed, .polled false]
    (x.after {} (str "fan") events 2).reported = some (true, some 1) ∧
      (x.after {} (str "fan") events 2).Truthful := by
  intro x events
  refine ⟨by decide +kernel, ?_⟩
  refine outcome_truthful {} (str "fan") ⟨2, 16, 400, 7⟩ (fun _ => true) none [] [] 0 events (fun k event hevent => ?_) 2 (by decide)
  rcases k with _ | _ | k
  · cases hevent
    refine fun _ => ⟨fun command hsome hne => ?_, fun haction => ?_⟩
    · -- the capture is of the name of the call
      have hname : (LearningCloner.storedBy (x.device.step {} pressed).2).map Command.name
          = some (utf8 (str "fan")) := by decide +kernel
      have hsame : some command.name = some (utf8 (str "fan")) :=
        (congrArg (Option.map Command.name) hsome).symm.trans hname
      exact absurd (Option.some.inj hsame) hne
    · obtain ⟨_, _, h⟩ := haction
      cases h
  · cases hevent
    have hpolled : (x.after {} (str "fan") events 1).Undisturbed {} (str "fan") (.polled false) :=
      fun _ _ => Or.inl (by decide +kernel)
    exact hpolled
  · cases hevent

end LearnCall

end RfCloner
