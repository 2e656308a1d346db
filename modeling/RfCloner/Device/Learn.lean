/-
  Learning (`rf_cloner.cpp`): the state machine around a capture.

  A learn is armed by `learn`, fed by `on_receive`, and ended by `cancel`, by a deadline or by the
  capture it makes; the actions on the registry come in between as they like.  `CaptureState` is
  the part that only the receiver moves, so `receive` says what a window does to it and whether the
  capture is complete.  `LearningCloner` puts the learn around it.

  Every method returns what it called out of itself: the learn callbacks, and `store_.put`, each
  with the learn state at that moment.  The clocks are arguments, and so is whether the saves of a
  call succeed.
-/
import RfCloner.Device.Cloner
import RfCloner.Device.Validator
import Mathlib.Data.List.Sort

namespace RfCloner

/-! ## Configuration -/

/-- The options of learning. -/
structure CaptureConfig where
  limits : CaptureLimits := {}
  minRepeats : UInt8 := 3
  frameGapMinUs : UInt32 := 3000
  settleMs : UInt32 := 800
  learnTimeoutMs : UInt32 := 15000
  defaultRepeatTimes : UInt16 := 20
  defaultGapUs : UInt32 := 10000
  minGapUs : UInt32 := 1000
  maxGapUs : UInt32 := 200000
  frequencyHz : UInt32 := 433920000
  deriving DecidableEq, Repr

/-- `GAP_INTERVAL_TARGET`. -/
def gapIntervalTarget : UInt32 := 24
/-- `GAP_MIN_INTERVALS`. -/
def gapMinIntervals : UInt32 := 3

/-! ## The capture -/

/-- The candidate waveform, and what has been gathered about it. -/
structure CaptureState where
  candidate : Frame := []
  agreements : UInt32 := 0
  firstFrameUs : UInt32 := 0
  lastFrameUs : UInt32 := 0
  intervalCount : UInt32 := 0
  physicalGaps : List UInt32 := []
  readySinceMs : UInt32 := 0
  ready : Bool := false
  sawFrame : Bool := false
  lastReject : FrameVerdict := .ok
  deriving DecidableEq, Repr

namespace CaptureState

variable (cfg : CaptureConfig)

/-- What `learn` clears.  The interval count and the two arrival times stay. -/
def restart (s : CaptureState) : CaptureState :=
  { s with
    candidate := []
    physicalGaps := []
    agreements := 0
    ready := false
    sawFrame := false
    lastReject := .ok }

/-- What `fail_` clears. -/
def drop (s : CaptureState) : CaptureState :=
  { s with candidate := [], physicalGaps := [], agreements := 0, ready := false }

/-- Whether a frame does not repeat the candidate, or there is none. -/
def differs (candidate frame : Frame) : Bool :=
  candidate.isEmpty || !framesAgree candidate frame cfg.limits.tolerancePercent

/-- `ready_`, once there are enough agreements. -/
def settle (nowMs : UInt32) (s : CaptureState) : CaptureState :=
  if s.agreements ≥ cfg.minRepeats.toUInt32 ∧ s.ready = false then
    { s with ready := true, readySinceMs := nowMs }
  else s

/-- Two neighbours of a window that the loop of `consume_multi_frame_` does not skip. -/
def pairCounts (first second : Frame) : Bool :=
  validateFrame first cfg.limits = .ok && validateFrame second cfg.limits = .ok
    && framesAgree first second cfg.limits.tolerancePercent

/-- What the loop does with two such neighbours.  The second is not compared with the candidate. -/
def countPair (s : CaptureState) (first : Frame) (gap : UInt32) : CaptureState :=
  let s :=
    if differs cfg s.candidate first then
      { s with candidate := first, agreements := 1, physicalGaps := [], ready := false }
    else s
  { s with
    agreements := s.agreements + 1
    physicalGaps := s.physicalGaps ++ [gap]
    sawFrame := true }

/-- The loop of `consume_multi_frame_` over the neighbours of a window, with `consumed`. -/
def countPairs : CaptureState → Bool → List (Frame × Frame × UInt32) → CaptureState × Bool
  | s, consumed, [] => (s, consumed)
  | s, consumed, (first, second, gap) :: pairs =>
    if pairCounts cfg first second then countPairs (s.countPair cfg first gap) true pairs
    else countPairs s consumed pairs

/-- `consume_multi_frame_`: nothing when the window is left to the single-frame path, and else
    whether to commit. -/
def consumeMultiFrame (blob : Frame) (nowMs : UInt32) (s : CaptureState) :
    Option (CaptureState × Bool) :=
  let split := splitFrames blob cfg.frameGapMinUs
  if split.frames.length < 2 then none
  else
    match s.countPairs cfg false split.neighbours with
    | (_, false) => none
    | (s, true) =>
      let s := s.settle cfg nowMs
      some (s, s.ready && decide (s.physicalGaps.length ≥ 2))

/-- `on_receive` from the first good frame on. -/
def takeFrame (frame : Frame) (nowUs nowMs : UInt32) (s : CaptureState) : CaptureState × Bool :=
  let s := { s with sawFrame := true }
  if differs cfg s.candidate frame then
    -- first good frame, or the waveform changed
    ({ s with
        candidate := frame
        agreements := 1
        ready := false
        firstFrameUs := nowUs
        lastFrameUs := nowUs
        intervalCount := 0 }, false)
  else
    let deltaUs := nowUs - s.lastFrameUs
    let s := { s with agreements := s.agreements + 1, lastFrameUs := nowUs }
    let s :=
      -- too long to be one gap: the button was released and pressed again
      if deltaUs > frameDurationUs frame + cfg.maxGapUs then
        { s with firstFrameUs := nowUs, intervalCount := 0 }
      else { s with intervalCount := s.intervalCount + 1 }
    let s := s.settle cfg nowMs
    (s, s.ready && decide (s.intervalCount ≥ gapIntervalTarget))

/-- `on_receive` with a window that `consume_multi_frame_` has left. -/
def takeWindow (frame : Frame) (nowUs nowMs : UInt32) (s : CaptureState) : CaptureState × Bool :=
  if validateFrame frame cfg.limits = .ok then s.takeFrame cfg frame nowUs nowMs
  else ({ s with lastReject := validateFrame frame cfg.limits }, false)

/-- `on_receive` while armed: the capture after a window, and whether to commit it. -/
def receive (rawData : Frame) (nowUs nowMs : UInt32) (s : CaptureState) : CaptureState × Bool :=
  let frame := stripTerminator rawData
  match s.consumeMultiFrame cfg frame nowMs with
  | some consumed => consumed
  | none => s.takeWindow cfg frame nowUs nowMs

/-- The median of the measured gaps. -/
def medianGapUs (s : CaptureState) : UInt32 :=
  (s.physicalGaps.insertionSort (· ≤ ·)).getD (s.physicalGaps.length / 2) 0

/-- Whether there are measured gaps, and their median is plausible. -/
def measured (s : CaptureState) : Bool :=
  !s.physicalGaps.isEmpty
    && decide (s.medianGapUs ≥ cfg.minGapUs) && decide (s.medianGapUs ≤ cfg.maxGapUs)

/-- The estimate from the arrival times. -/
def estimatedGapUs (s : CaptureState) : UInt32 :=
  estimateGapUs (s.lastFrameUs - s.firstFrameUs) s.intervalCount (frameDurationUs s.candidate)
    cfg.minGapUs cfg.maxGapUs gapMinIntervals

/-- `resolve_gap_us_`. -/
def resolveGapUs (s : CaptureState) : UInt32 :=
  if s.measured cfg then s.medianGapUs
  else if s.estimatedGapUs cfg ≠ 0 then s.estimatedGapUs cfg
  else cfg.defaultGapUs

end CaptureState

/-! ## The component -/

/-- `LearnState`. -/
inductive LearnState where
  | idle | armed | captured | failed
  deriving DecidableEq, Repr

/-- `learn_state_to_string`. -/
def LearnState.text : LearnState → Bytes
  | .idle => ascii "idle"
  | .armed => ascii "armed"
  | .captured => ascii "captured"
  | .failed => ascii "failed"

/-- `LearnFailure`, as far as `fail_` is called with it. -/
inductive LearnFailure where
  | timeout | noRepeatAgreement | tooFewPulses | tooManyPulses | pulseOutOfRange | cancelled
  deriving DecidableEq, Repr

/-- `learn_failure_to_string`. -/
def LearnFailure.text : LearnFailure → Bytes
  | .timeout => ascii "timeout"
  | .noRepeatAgreement => ascii "no_repeat_agreement"
  | .tooFewPulses => ascii "too_few_pulses"
  | .tooManyPulses => ascii "too_many_pulses"
  | .pulseOutOfRange => ascii "pulse_out_of_range"
  | .cancelled => ascii "cancelled"

/-- What a learn calls out of the component. -/
inductive Effect where
  | put (command : Command) (result : StoreResult)
  | learnStarted (name : Bytes)
  | learnSuccess (name : Bytes)
  | learnFailed (reason : Bytes)
  deriving DecidableEq, Repr

/-- An effect, with the learn state in which it happens. -/
structure Call where
  state : LearnState
  effect : Effect
  deriving DecidableEq, Repr

/-- `RfCloner` with its learn state. -/
structure LearningCloner extends Cloner where
  state : LearnState := .idle
  pendingName : Bytes := []
  capture : CaptureState := {}
  armedSinceMs : UInt32 := 0
  deadlineMs : UInt32 := 0

namespace LearningCloner

variable (cfg : CaptureConfig)

/-- `fail_`. -/
def fail (failure : LearnFailure) (c : LearningCloner) : LearningCloner × List Call :=
  ({ c with capture := c.capture.drop, lastResult := failure.text, state := .failed },
    [⟨.failed, .learnFailed failure.text⟩])

/-- The two refusals of `learn`, which pass through `FAILED` on the way to `IDLE`. -/
def refuse (name reason : Bytes) (c : LearningCloner) : LearningCloner × List Call :=
  ({ c with pendingName := name, lastResult := reason, state := .idle },
    [⟨.failed, .learnFailed reason⟩])

/-- `learn` from the check of the name on. -/
def arm (name : Bytes) (timeoutMs nowMs : UInt32) (c : LearningCloner) :
    LearningCloner × List Call :=
  if validateName name ≠ .ok then
    c.refuse name (ascii "name_rejected:" ++ (validateName name).text)
  else if c.store.has name = false ∧ c.store.count ≥ c.store.config.maxCommands.toNat then
    c.refuse name (ascii "store_full")
  else
    ({ c with
        pendingName := name
        capture := c.capture.restart
        armedSinceMs := nowMs
        deadlineMs := nowMs + if timeoutMs > 0 then timeoutMs else cfg.learnTimeoutMs
        lastResult := []
        state := .armed },
      [⟨.armed, .learnStarted name⟩])

/-- `learn`.  While armed, it cancels the learn in progress first. -/
def learn (name : Bytes) (timeoutMs nowMs : UInt32) (c : LearningCloner) :
    LearningCloner × List Call :=
  if c.state = .armed then
    let cancelled := c.fail .cancelled
    let armed := cancelled.1.arm cfg name timeoutMs nowMs
    (armed.1, cancelled.2 ++ armed.2)
  else c.arm cfg name timeoutMs nowMs

/-- `cancel`. -/
def cancel (c : LearningCloner) : LearningCloner × List Call :=
  if c.state ≠ .armed then (c, []) else c.fail .cancelled

/-- The command `commit_capture_` puts. -/
def captured (c : LearningCloner) : Command where
  name := c.pendingName
  timings := c.capture.candidate
  gapUs := c.capture.resolveGapUs cfg
  repeatTimes := cfg.defaultRepeatTimes
  frequencyHz := cfg.frequencyHz
  modulation := 0

/-- `commit_capture_`. -/
def commitCapture (saves : Bool) (c : LearningCloner) : LearningCloner × List Call :=
  match (Op.put (c.captured cfg)).attempt saves c.store with
  | (.ok, store) =>
    ({ c with store := store, lastResult := c.pendingName, state := .captured },
      [⟨c.state, .put (c.captured cfg) .ok⟩, ⟨.captured, .learnSuccess c.pendingName⟩])
  | (result, store) =>
    let reason := ascii "store_error:" ++ result.text
    ({ c with store := store, lastResult := reason, state := .idle },
      [⟨c.state, .put (c.captured cfg) result⟩, ⟨.failed, .learnFailed reason⟩])

/-- `on_receive`. -/
def onReceive (saves : Bool) (rawData : Frame) (nowUs nowMs : UInt32) (c : LearningCloner) :
    LearningCloner × List Call :=
  if c.state ≠ .armed then (c, [])
  else
    match c.capture.receive cfg rawData nowUs nowMs with
    | (capture, false) => ({ c with capture := capture }, [])
    | (capture, true) => { c with capture := capture }.commitCapture cfg saves

/-- The failure `loop` reports once the deadline has passed. -/
def overdue (s : CaptureState) : LearnFailure :=
  if s.sawFrame then .noRepeatAgreement
  else
    match s.lastReject with
    | .ok => .timeout
    | .tooFewPulses => .tooFewPulses
    | .tooManyPulses => .tooManyPulses
    | .pulseOutOfRange => .pulseOutOfRange

/-- `loop`. -/
def loop (saves : Bool) (nowMs : UInt32) (c : LearningCloner) : LearningCloner × List Call :=
  if c.state ≠ .armed then (c, [])
  else if c.capture.ready = true ∧ nowMs - c.capture.readySinceMs ≥ cfg.settleMs then
    c.commitCapture cfg saves
  else if c.capture.ready = false ∧ (nowMs - c.deadlineMs).toInt32 ≥ 0 then
    c.fail (overdue c.capture)
  else (c, [])

end LearningCloner

/-! ## The other actions -/

namespace Cloner

/-- `rename`. -/
def rename (saves : Bool) (commandId : UInt32) (newName : Bytes) (c : Cloner) : Bool × Cloner :=
  finish ((Op.rename commandId newName).attempt saves c.store) (ascii "rename_failed")
    (ascii "renamed:" ++ newName)

/-- `erase`. -/
def erase (saves : Bool) (name : Bytes) (c : Cloner) : Bool × Cloner :=
  finish ((Op.remove name).attempt saves c.store) (ascii "delete_failed") (ascii "deleted:" ++ name)

/-- `erase_by_id`. -/
def eraseById (saves : Bool) (commandId : UInt32) (c : Cloner) : Bool × Cloner :=
  finish ((Op.removeById commandId).attempt saves c.store) (ascii "delete_failed")
    (ascii "deleted:" ++
      match c.store.getById commandId with
      | some command => command.name
      | none => ascii ("#" ++ toString commandId.toNat))

end Cloner

/-- An action on the registry, with its arguments. -/
inductive StoreAction where
  | rename (commandId : UInt32) (newName : Bytes)
  | erase (name : Bytes)
  | eraseById (commandId : UInt32)
  | clearAll
  | factoryReset (random : Option BridgeId)
  | restoreBegin (bridgeIdHex : Bytes) (nextCommandId : UInt32)
  | importCommand (command : Command)
  | restoreCommit (sourceRevision : Int32)
  deriving DecidableEq

/-- What an action does to the registry and to `last_result_`. -/
def StoreAction.perform (saves : Bool) : StoreAction → Cloner → Cloner
  | .rename commandId newName, c => (c.rename saves commandId newName).2
  | .erase name, c => (c.erase saves name).2
  | .eraseById commandId, c => (c.eraseById saves commandId).2
  | .clearAll, c => c.clearAll saves
  | .factoryReset random, c => (c.factoryReset saves random).2
  | .restoreBegin bridgeIdHex nextCommandId, c =>
    (c.restoreBegin saves bridgeIdHex nextCommandId).2
  | .importCommand command, c => (c.importCommand saves command).2
  | .restoreCommit sourceRevision, c => (c.restoreCommit saves sourceRevision).2

/-! ## Events -/

/-- What happens to the component: a call of its own, or an action on its registry. -/
inductive LearnEvent where
  | learn (name : Bytes) (timeoutMs nowMs : UInt32)
  | cancel
  | onReceive (saves : Bool) (rawData : Frame) (nowUs nowMs : UInt32)
  | loop (saves : Bool) (nowMs : UInt32)
  | action (saves : Bool) (action : StoreAction)
  deriving DecidableEq

namespace LearningCloner

variable (cfg : CaptureConfig)

/-- One event, with what it calls. -/
def step (c : LearningCloner) : LearnEvent → LearningCloner × List Call
  | .learn name timeoutMs nowMs => c.learn cfg name timeoutMs nowMs
  | .cancel => c.cancel
  | .onReceive saves rawData nowUs nowMs => c.onReceive cfg saves rawData nowUs nowMs
  | .loop saves nowMs => c.loop cfg saves nowMs
  | .action saves action => ({ c with toCloner := action.perform saves c.toCloner }, [])

/-- The component after a run of events. -/
def after (c : LearningCloner) (events : List LearnEvent) : LearningCloner :=
  events.foldl (fun c event => (c.step cfg event).1) c

end LearningCloner

end RfCloner
