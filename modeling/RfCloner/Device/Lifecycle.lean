/-
  The lifecycle of a learn.

  What a run of events calls out of the component is a word over its effects, and `Learns` is the
  language of those words: a learn is opened by `learn_started`, closed by the next callback, and
  in between there is at most the one `store_.put` that decides which callback that is.
  `learns_step` places every event in the language and `learns_occurrences` the whole run; the
  learn a word leaves open is the one the component is armed for.
-/
import RfCloner.Device.Learn
import RfCloner.Store.Changes

namespace RfCloner

namespace LearningCloner

/-! ## What put leaves -/

section Put

variable {s : CommandStore} {command : Command} {saves : Bool}

/-- A `put` that does not succeed leaves the registry alone. -/
theorem attempt_put_of_ne_ok (h : ((Op.put command).attempt saves s).1 ≠ .ok) :
    ((Op.put command).attempt saves s).2 = s := by
  cases hplan : (Op.put command).plan s with
  | stop result => rw [Op.attempt_of_stop hplan]
  | write payload next undone =>
    rw [Op.attempt_of_write hplan] at h ⊢
    cases saves with
    | true => exact absurd rfl h
    | false =>
      obtain ⟨-, -, -, -, slot, overwriting, id, rev, hslot, -, -, -, -, rfl⟩ :=
        CommandStore.putPlan_eq_write hplan
      rcases CommandStore.putSlot_eq_ok hslot with ⟨rfl, hfind, rfl⟩ | ⟨rfl, -, hfree, -, rfl⟩
      · exact CommandStore.set_slot_back
          (CommandStore.lt_of_slot_occupied (CommandStore.findSlot_eq_some hfind).1) _
      · exact CommandStore.set_slot_back (CommandStore.findFreeSlot_eq_some hfree).1 _

end Put

/-! ## What an event does -/

/-- How an event comes out.  One case for each way through the code. -/
inductive StepCase (cfg : CaptureConfig) (c : LearningCloner) :
    LearnEvent → LearningCloner × List Call → Prop where
  /-- Re-arming cancels in place. -/
  | rearmed (name : Bytes) (timeoutMs nowMs : UInt32) (harmed : c.state = .armed) :
      StepCase cfg c (.learn name timeoutMs nowMs)
        (((c.fail .cancelled).1.arm cfg name timeoutMs nowMs).1,
          (c.fail .cancelled).2 ++ ((c.fail .cancelled).1.arm cfg name timeoutMs nowMs).2)
  | armed (name : Bytes) (timeoutMs nowMs : UInt32) (hidle : c.state ≠ .armed) :
      StepCase cfg c (.learn name timeoutMs nowMs) (c.arm cfg name timeoutMs nowMs)
  /-- Anything but a `learn` finds no learn to go on with. -/
  | ignored {event : LearnEvent} (hidle : c.state ≠ .armed) : StepCase cfg c event (c, [])
  /-- The learn is cancelled, or its deadline has passed. -/
  | failed {event : LearnEvent} (failure : LearnFailure) (harmed : c.state = .armed) :
      StepCase cfg c event (c.fail failure)
  | received (saves : Bool) (rawData : Frame) (nowUs nowMs : UInt32) (harmed : c.state = .armed) :
      StepCase cfg c (.onReceive saves rawData nowUs nowMs)
        ({ c with capture := (c.capture.receive cfg rawData nowUs nowMs).1 }, [])
  /-- The window completes the capture. -/
  | committed (saves : Bool) (rawData : Frame) (nowUs nowMs : UInt32) (harmed : c.state = .armed)
      (hcommit : (c.capture.receive cfg rawData nowUs nowMs).2 = true) :
      StepCase cfg c (.onReceive saves rawData nowUs nowMs)
        ({ c with capture := (c.capture.receive cfg rawData nowUs nowMs).1 }.commitCapture cfg saves)
  | waited (saves : Bool) (nowMs : UInt32) (harmed : c.state = .armed) :
      StepCase cfg c (.loop saves nowMs) (c, [])
  /-- The capture is ready, and nothing has come for `settle`. -/
  | settled (saves : Bool) (nowMs : UInt32) (harmed : c.state = .armed)
      (hready : c.capture.ready = true) :
      StepCase cfg c (.loop saves nowMs) (c.commitCapture cfg saves)
  | acted (saves : Bool) (action : StoreAction) :
      StepCase cfg c (.action saves action)
        ({ c with toCloner := action.perform saves c.toCloner }, [])

/-- **Every event comes out in one of these ways.** -/
theorem step_cases (cfg : CaptureConfig) (c : LearningCloner) (event : LearnEvent) :
    StepCase cfg c event (c.step cfg event) := by
  cases event with
  | learn name timeoutMs nowMs =>
    show StepCase cfg c _ (c.learn cfg name timeoutMs nowMs)
    unfold learn
    split
    · rename_i harmed
      exact .rearmed name timeoutMs nowMs harmed
    · rename_i hidle
      exact .armed name timeoutMs nowMs hidle
  | cancel =>
    show StepCase cfg c _ c.cancel
    unfold cancel
    split
    · rename_i hidle
      exact .ignored hidle
    · rename_i harmed
      exact .failed .cancelled (not_not.mp harmed)
  | onReceive saves rawData nowUs nowMs =>
    show StepCase cfg c _ (c.onReceive cfg saves rawData nowUs nowMs)
    unfold onReceive
    split
    · rename_i hidle
      exact .ignored hidle
    · rename_i harmed
      split
      · rename_i capture hreceive
        obtain rfl : (c.capture.receive cfg rawData nowUs nowMs).1 = capture := by rw [hreceive]
        exact .received saves rawData nowUs nowMs (not_not.mp harmed)
      · rename_i capture hreceive
        obtain rfl : (c.capture.receive cfg rawData nowUs nowMs).1 = capture := by rw [hreceive]
        exact .committed saves rawData nowUs nowMs (not_not.mp harmed) (by rw [hreceive])
  | loop saves nowMs =>
    show StepCase cfg c _ (c.loop cfg saves nowMs)
    unfold loop
    split
    · rename_i hidle
      exact .ignored hidle
    · rename_i harmed
      have harmed := not_not.mp harmed
      split
      · rename_i hsettled
        exact .settled saves nowMs harmed hsettled.1
      · split
        · exact .failed _ harmed
        · exact .waited saves nowMs harmed
  | action saves action => exact .acted saves action

/-! ## The language of learns -/

/-- A call, with the event it came out of and the component as that event found it. -/
structure Occurrence where
  event : LearnEvent
  before : LearningCloner
  call : Call

/-- Why a learn is refused before it is armed: a bad name, or no free slot. -/
def Refuses (c : LearningCloner) (name : Bytes) : Prop :=
  validateName name ≠ .ok ∨
    c.store.has name = false ∧ c.store.count ≥ c.store.config.maxCommands.toNat

instance (c : LearningCloner) (name : Bytes) : Decidable (c.Refuses name) := by
  unfold Refuses
  infer_instance

/-- The words over the calls of a component, from the learn that is open before the word to the
    one that is open after it. -/
inductive Learns : Option Bytes → List Occurrence → Option Bytes → Prop where
  | done (opened : Option Bytes) : Learns opened [] opened
  /-- A learn opens, `ARMED`. -/
  | started {name : Bytes} {timeoutMs nowMs : UInt32} {before : LearningCloner}
      {rest : List Occurrence} {last : Option Bytes} :
      ¬ before.Refuses name → Learns (some name) rest last →
      Learns none
        (⟨.learn name timeoutMs nowMs, before, ⟨.armed, .learnStarted name⟩⟩ :: rest) last
  /-- A learn is refused before it is armed. -/
  | refused {name reason : Bytes} {timeoutMs nowMs : UInt32} {before : LearningCloner}
      {rest : List Occurrence} {last : Option Bytes} :
      before.Refuses name → Learns none rest last →
      Learns none (⟨.learn name timeoutMs nowMs, before, ⟨.failed, .learnFailed reason⟩⟩ :: rest) last
  /-- The open learn fails without having got to `put`. -/
  | failed {name : Bytes} {event : LearnEvent} {before : LearningCloner} {failure : LearnFailure}
      {rest : List Occurrence} {last : Option Bytes} :
      Learns none rest last →
      Learns (some name) (⟨event, before, ⟨.failed, .learnFailed failure.text⟩⟩ :: rest) last
  /-- The open learn succeeds: `put` returned OK for its name. -/
  | stored {name : Bytes} {event : LearnEvent} {before : LearningCloner} {command : Command}
      {saves : Bool} {rest : List Occurrence} {last : Option Bytes} :
      command.name = name → ((Op.put command).attempt saves before.store).1 = .ok →
      Learns none rest last →
      Learns (some name)
        (⟨event, before, ⟨.armed, .put command .ok⟩⟩ ::
          ⟨event, before, ⟨.captured, .learnSuccess name⟩⟩ :: rest) last
  /-- The open learn fails: `put` returned something else. -/
  | unstored {name : Bytes} {event : LearnEvent} {before : LearningCloner} {command : Command}
      {saves : Bool} {result : StoreResult} {rest : List Occurrence} {last : Option Bytes} :
      command.name = name → ((Op.put command).attempt saves before.store).1 = result →
      result ≠ .ok → Learns none rest last →
      Learns (some name)
        (⟨event, before, ⟨.armed, .put command result⟩⟩ ::
          ⟨event, before, ⟨.failed, .learnFailed (ascii "store_error:" ++ result.text)⟩⟩ :: rest) last

theorem Learns.trans {first mid last : Option Bytes} {word word' : List Occurrence}
    (h : Learns first word mid) (h' : Learns mid word' last) : Learns first (word ++ word') last := by
  induction h with
  | done opened => exact h'
  | started hok _ ih => exact .started hok (ih h')
  | refused hrefuses _ ih => exact .refused hrefuses (ih h')
  | failed _ ih => exact .failed (ih h')
  | stored hname hput _ ih => exact .stored hname hput (ih h')
  | unstored hname hput hne _ ih => exact .unstored hname hput hne (ih h')

/-! ## Every event is a word -/

/-- The name of the learn the component is armed for. -/
def learning (c : LearningCloner) : Option Bytes :=
  if c.state = .armed then some c.pendingName else none

@[simp] theorem learning_of_armed {c : LearningCloner} (h : c.state = .armed) :
    c.learning = some c.pendingName := if_pos h

@[simp] theorem learning_of_not_armed {c : LearningCloner} (h : c.state ≠ .armed) :
    c.learning = none := if_neg h

section Words

variable (cfg : CaptureConfig) (event : LearnEvent) (before : LearningCloner)

/-- The calls of an event, each with the event and the component it found. -/
def tagged (calls : List Call) : List Occurrence := calls.map (⟨event, before, ·⟩)

theorem learns_fail (name : Bytes) (failure : LearnFailure) (c : LearningCloner) :
    Learns (some name) (tagged event before (c.fail failure).2) (c.fail failure).1.learning :=
  .failed (.done none)

theorem learns_commitCapture {c : LearningCloner} (harmed : c.state = .armed)
    (hstore : c.store = before.store) (saves : Bool) :
    Learns (some c.pendingName) (tagged event before (c.commitCapture cfg saves).2)
      (c.commitCapture cfg saves).1.learning := by
  have hattempt : ((Op.put (c.captured cfg)).attempt saves before.store).1
      = ((Op.put (c.captured cfg)).attempt saves c.store).1 := by rw [hstore]
  unfold commitCapture
  split
  · rename_i store hput
    rw [hput] at hattempt
    rw [harmed]
    exact .stored rfl hattempt (.done none)
  · rename_i result store hne hput
    rw [hput] at hattempt
    rw [harmed]
    refine .unstored rfl hattempt (fun hok => ?_) (.done none)
    subst hok
    exact hne rfl

theorem learns_arm {name : Bytes} {timeoutMs nowMs : UInt32} {c : LearningCloner}
    (hstore : c.store = before.store) :
    Learns none (tagged (.learn name timeoutMs nowMs) before (c.arm cfg name timeoutMs nowMs).2)
      (c.arm cfg name timeoutMs nowMs).1.learning := by
  unfold arm
  split
  · rename_i hname
    exact .refused (Or.inl hname) (.done none)
  · rename_i hname
    rw [hstore]
    split
    · rename_i hfull
      exact .refused (Or.inr hfull) (.done none)
    · rename_i hroom
      exact .started (not_or.mpr ⟨hname, hroom⟩) (.done _)

end Words

/-- **What one event calls is a word of the language**, between the learns that are open before and
    after it. -/
theorem learns_step (cfg : CaptureConfig) (c : LearningCloner) (event : LearnEvent) :
    Learns c.learning (tagged event c (c.step cfg event).2) (c.step cfg event).1.learning := by
  have hcase := step_cases cfg c event
  generalize c.step cfg event = next at hcase ⊢
  cases hcase with
  | rearmed name timeoutMs nowMs harmed =>
    -- it may then be refused
    rw [learning_of_armed harmed]
    exact (learns_fail _ c _ .cancelled c).trans (learns_arm cfg c rfl)
  | armed name timeoutMs nowMs hidle =>
    rw [learning_of_not_armed hidle]
    exact learns_arm cfg c rfl
  | ignored => exact .done _
  | failed failure harmed =>
    rw [learning_of_armed harmed]
    exact learns_fail _ c _ failure c
  | received saves rawData nowUs nowMs => exact .done _
  | committed saves rawData nowUs nowMs harmed =>
    rw [learning_of_armed harmed]
    exact learns_commitCapture cfg _ c
      (c := { c with capture := (c.capture.receive cfg rawData nowUs nowMs).1 }) harmed rfl saves
  | waited => exact .done _
  | settled saves nowMs harmed =>
    rw [learning_of_armed harmed]
    exact learns_commitCapture cfg _ c harmed rfl saves
  | acted => exact .done _

/-- What a run of events calls. -/
def occurrences (cfg : CaptureConfig) : LearningCloner → List LearnEvent → List Occurrence
  | _, [] => []
  | c, event :: events =>
    tagged event c (c.step cfg event).2 ++ occurrences cfg (c.step cfg event).1 events

/-- What a run calls is a word of the language. -/
theorem learns_occurrences (cfg : CaptureConfig) (events : List LearnEvent) :
    ∀ c : LearningCloner, Learns c.learning (c.occurrences cfg events) (c.after cfg events).learning := by
  induction events with
  | nil => exact fun c => .done _
  | cons event events ih => exact fun c => (learns_step cfg c event).trans (ih _)

/-! ## The registry -/

/-- The command that calls stored, if they did. -/
def storedBy (calls : List Call) : Option Command :=
  calls.findSome? fun call =>
    match call.effect with
    | .put command .ok => some command
    | _ => none

/-- What a learn makes of the registry: the `put` that returned OK, or nothing. -/
def storeAfter (calls : List Call) (s : CommandStore) : CommandStore :=
  match storedBy calls with
  | some command => ((Op.put command).attempt true s).2
  | none => s

theorem store_commitCapture (cfg : CaptureConfig) (saves : Bool) (c : LearningCloner) :
    (c.commitCapture cfg saves).1.store = storeAfter (c.commitCapture cfg saves).2 c.store := by
  unfold commitCapture
  split
  · rename_i store hput
    show store = ((Op.put (c.captured cfg)).attempt true c.store).2
    cases hplan : (Op.put (c.captured cfg)).plan c.store with
    | stop result =>
      rw [Op.attempt_of_stop hplan] at hput ⊢
      exact (Prod.mk.inj hput).2.symm
    | write payload next undone =>
      rw [Op.attempt_of_write hplan] at hput ⊢
      cases saves with
      | true => exact (Prod.mk.inj hput).2.symm
      | false => cases hput
  · rename_i result store hne hput
    have hfailed : ((Op.put (c.captured cfg)).attempt saves c.store).1 ≠ .ok := by
      rw [hput]
      rintro rfl
      exact hne rfl
    have hkept := attempt_put_of_ne_ok hfailed
    rw [hput] at hkept
    have hnone : storedBy [⟨c.state, .put (c.captured cfg) result⟩,
        ⟨.failed, .learnFailed (ascii "store_error:" ++ result.text)⟩] = none := by
      cases result <;> first | rfl | exact absurd rfl hne
    show store = storeAfter _ c.store
    rw [storeAfter, hnone]
    exact hkept

theorem store_arm (cfg : CaptureConfig) (name : Bytes) (timeoutMs nowMs : UInt32)
    (c : LearningCloner) : (c.arm cfg name timeoutMs nowMs).1.store = c.store ∧
      storedBy (c.arm cfg name timeoutMs nowMs).2 = none := by
  unfold arm
  split
  · exact ⟨rfl, rfl⟩
  · split <;> exact ⟨rfl, rfl⟩

/-- **Learning changes the registry through a successful put alone.** -/
theorem store_step (cfg : CaptureConfig) (c : LearningCloner) {event : LearnEvent}
    (hevent : ∀ saves action, event ≠ .action saves action) :
    (c.step cfg event).1.store = storeAfter (c.step cfg event).2 c.store := by
  have hcase := step_cases cfg c event
  generalize c.step cfg event = next at hcase ⊢
  cases hcase with
  | rearmed name timeoutMs nowMs =>
    obtain ⟨hstore, hnone⟩ := store_arm cfg name timeoutMs nowMs (c.fail .cancelled).1
    have hcalls : storedBy ((c.fail .cancelled).2 ++
        ((c.fail .cancelled).1.arm cfg name timeoutMs nowMs).2) = none := hnone
    rw [storeAfter, hcalls]
    exact hstore
  | armed name timeoutMs nowMs =>
    obtain ⟨hstore, hnone⟩ := store_arm cfg name timeoutMs nowMs c
    rw [storeAfter, hnone]
    exact hstore
  | ignored => rfl
  | failed => rfl
  | received => rfl
  | committed saves => exact store_commitCapture cfg saves _
  | waited => rfl
  | settled saves => exact store_commitCapture cfg saves c
  | acted saves action => exact absurd rfl (hevent saves action)

/-! ## Over runs -/

/-- The component after `setup`. -/
def boot (store : CommandStore) : LearningCloner := { store := store }

/-- **The lifecycle of a learn.**  In every run, the calls of the component are a word of the
    language that leaves open exactly the learn it is armed for, and no event of a learn changes the
    registry but by the `put` that returned OK. -/
theorem learn_lifecycle (cfg : CaptureConfig) (store : CommandStore) (events : List LearnEvent) :
    Learns none ((boot store).occurrences cfg events) ((boot store).after cfg events).learning ∧
      ∀ k event, events[k]? = some event → (∀ saves action, event ≠ .action saves action) →
        ((boot store).after cfg (events.take (k + 1))).store
          = storeAfter (((boot store).after cfg (events.take k)).step cfg event).2
              ((boot store).after cfg (events.take k)).store := by
  refine ⟨learns_occurrences cfg events (boot store), fun k event hevent hlearn => ?_⟩
  have hnext : (boot store).after cfg (events.take (k + 1))
      = (((boot store).after cfg (events.take k)).step cfg event).1 := by
    unfold after
    rw [List.take_add_one, hevent, List.foldl_append]
    rfl
  rw [hnext]
  exact store_step cfg _ hlearn

end LearningCloner

end RfCloner
