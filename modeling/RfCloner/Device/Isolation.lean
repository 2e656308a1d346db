/-
  What a learn can tell of the attempts before it.

  Two devices with the same registry start a learn alike but for the fields that `learn` leaves
  alone.  They go on side by side until a field that is still old decides something: the count of
  intervals, which may complete the capture at once, or the span of arrivals, which the gap may be
  estimated from.  `Leaks` says which readings decide so, and `learn_isolated_iff` that a learn does not
  depend on the attempts before it exactly if none of its readings does.
-/
import RfCloner.Device.Actions
import RfCloner.Device.Stale

namespace RfCloner

open CaptureState

/-! ## Sessions -/

/-- What a learn is fed with. -/
inductive Reading where
  | window (saves : Bool) (rawData : Frame) (nowUs nowMs : UInt32)
  | loop (saves : Bool) (nowMs : UInt32)
  deriving DecidableEq

def Reading.event : Reading → LearnEvent
  | .window saves rawData nowUs nowMs => .onReceive saves rawData nowUs nowMs
  | .loop saves nowMs => .loop saves nowMs

/-- What is to be seen of the component after an event: what it reports, its registry, and the
    callbacks of the event. -/
structure Outcome where
  state : LearnState
  lastResult : Bytes
  store : CommandStore
  callbacks : List Call

def Effect.isPut : Effect → Bool
  | .put _ _ => true
  | _ => false

def outcome (next : LearningCloner × List Call) : Outcome where
  state := next.1.state
  lastResult := next.1.lastResult
  store := next.1.store
  callbacks := next.2.filter fun call => !call.effect.isPut

namespace LearningCloner

variable (cfg : CaptureConfig)

/-- The outcomes of readings, one by one. -/
def outcomes : LearningCloner → List Reading → List Outcome
  | _, [] => []
  | c, reading :: readings =>
    outcome (c.step cfg reading.event) :: outcomes (c.step cfg reading.event).1 readings

/-- `learn`, without the callback of a learn in progress, which is the outcome of that one. -/
def start (name : Bytes) (timeoutMs nowMs : UInt32) (c : LearningCloner) :
    LearningCloner × List Call :=
  ((c.learn cfg name timeoutMs nowMs).1,
    (c.learn cfg name timeoutMs nowMs).2.drop c.cancel.2.length)

/-- A learn and what comes of it. -/
def session (name : Bytes) (timeoutMs nowMs : UInt32) (readings : List Reading)
    (c : LearningCloner) : List Outcome :=
  outcome (c.start cfg name timeoutMs nowMs)
    :: outcomes cfg (c.start cfg name timeoutMs nowMs).1 readings

/-- A learn does not depend on what an earlier one has left on the device. -/
def Isolated (name : Bytes) (timeoutMs nowMs : UInt32) (readings : List Reading)
    (c : LearningCloner) : Prop :=
  ∀ d : LearningCloner, d.store = c.store →
    d.session cfg name timeoutMs nowMs readings = c.session cfg name timeoutMs nowMs readings

/-- The component with other fields in place of those that stay. -/
def withStale (c : LearningCloner) (t : Stale) : LearningCloner :=
  { c with capture := c.capture.withStale t }

/-- A window, as the component finds it. -/
def window (c : LearningCloner) (rawData : Frame) (nowUs : UInt32) : Window :=
  ⟨c.capture, stripTerminator rawData, nowUs⟩

/-- The component with the capture after a window. -/
def filled (c : LearningCloner) (rawData : Frame) (nowUs nowMs : UInt32) : LearningCloner :=
  { c with capture := (c.capture.receive cfg rawData nowUs nowMs).1 }

/-- The capture is stored, if it is committed now. -/
def Stores (saves : Bool) (c : LearningCloner) : Prop :=
  saves = true ∧ c.store.Accepts (c.captured cfg)

instance (saves : Bool) (c : LearningCloner) : Decidable (c.Stores cfg saves) := by
  unfold Stores
  infer_instance

end LearningCloner

/-- The component, with the origin of its span of arrivals. -/
structure Followed where
  cloner : LearningCloner
  origin : SpanOrigin

namespace Followed

variable (cfg : CaptureConfig)

def step (x : Followed) (reading : Reading) : Followed where
  cloner := (x.cloner.step cfg reading.event).1
  origin :=
    match reading with
    | .window _ rawData nowUs _ => x.origin.after cfg (x.cloner.window rawData nowUs)
    | .loop _ _ => x.origin

/-- Something is decided by a field that is from before the learn: whether the capture is complete,
    by the count of intervals, or the gap that is stored with it, by the span of arrivals. -/
def Leaks (x : Followed) : Reading → Prop
  | .window saves rawData nowUs nowMs =>
    let w := x.cloner.window rawData nowUs
    let filled : LearningCloner := { x.cloner with capture := (tally cfg w).settle cfg nowMs }
    x.cloner.state = .armed ∧ x.origin.after cfg w ≠ .own ∧
      (w.repeats cfg = true ∧
          (w.found.ready = true ∨ w.found.agreements + 1 ≥ cfg.minRepeats.toUInt32) ∨
        w.consumed cfg = true ∧ filled.capture.ready = true ∧ (tally cfg w).physicalGaps.length ≥ 2 ∧
          filled.Stores cfg saves ∧ filled.capture.GapOpen cfg)
  | .loop saves nowMs =>
    x.cloner.state = .armed ∧ x.origin ≠ .own ∧
      x.cloner.capture.ready = true ∧ nowMs - x.cloner.capture.readySinceMs ≥ cfg.settleMs ∧
      x.cloner.Stores cfg saves ∧ x.cloner.capture.GapOpen cfg

end Followed

/-! ## Commits -/

section Commits

variable {s : CommandStore} {command : Command}

/-- `put` refuses a command whatever its gap. -/
theorem putPlan_gap_stop {result : StoreResult} (gapUs : UInt32) (h : s.putPlan command = .stop result) :
    s.putPlan { command with gapUs := gapUs } = .stop result := by
  revert h
  unfold CommandStore.putPlan
  dsimp only
  repeat' split
  all_goals
    intro h
    first
      | exact h
      | cases h

/-- The slot that `put` writes. -/
theorem slot_of_putPlan {payload : Option Nat} {next undone : CommandStore} {slot : Nat}
    {overwriting : Bool} {id : UInt32} (hslot : s.putSlot command.name = .ok (slot, overwriting, id))
    (h : s.putPlan command = .write payload next undone) :
    next.slot slot = { command with commandId := id } := by
  obtain ⟨-, -, -, -, slot', overwriting', id', rev, hslot', -, -, -, rfl, -⟩ :=
    CommandStore.putPlan_eq_write h
  cases hslot.symm.trans hslot'
  have hlt : slot < s.slots.length := by
    rcases CommandStore.putSlot_eq_ok hslot with ⟨-, hfind, -⟩ | ⟨-, -, hfree, -⟩
    · exact CommandStore.lt_of_slot_occupied (CommandStore.findSlot_eq_some hfind).1
    · exact (CommandStore.findFreeSlot_eq_some hfree).1
  rw [CommandStore.slot_of_set rfl hlt, if_pos rfl]

/-- `put` stores the gap. -/
theorem putPlan_gap_write {payload : Option Nat} {next undone : CommandStore} (gapUs : UInt32)
    (h : s.putPlan command = .write payload next undone) :
    ∃ payload' next' undone', s.putPlan { command with gapUs := gapUs }
      = .write payload' next' undone' ∧ (gapUs ≠ command.gapUs → next' ≠ next) := by
  have haccepts : s.Accepts command := CommandStore.putPlan_write_iff.mp ⟨_, _, _, h⟩
  have haccepts : s.Accepts { command with gapUs := gapUs } := haccepts
  obtain ⟨payload', next', undone', h'⟩ := CommandStore.putPlan_write_iff.mpr haccepts
  refine ⟨payload', next', undone', h', fun hne heq => ?_⟩
  obtain ⟨-, -, -, -, slot, overwriting, id, -, hslot, -⟩ := CommandStore.putPlan_eq_write h
  have hnew : s.putSlot ({ command with gapUs := gapUs } : Command).name = .ok (slot, overwriting, id) :=
    hslot
  have hold := slot_of_putPlan hslot h
  rw [← heq, slot_of_putPlan hnew h'] at hold
  exact hne (congrArg Command.gapUs hold)

variable (s command) (saves : Bool) (gapUs : UInt32)

/-- A `put` comes out the same whatever the gap. -/
theorem attempt_put_gap : ((Op.put { command with gapUs := gapUs }).attempt saves s).1
    = ((Op.put command).attempt saves s).1 := by
  cases hplan : s.putPlan command with
  | stop result =>
    have h : (Op.put command).plan s = .stop result := hplan
    have h' : (Op.put { command with gapUs := gapUs }).plan s = .stop result :=
      putPlan_gap_stop gapUs hplan
    rw [Op.attempt_of_stop h, Op.attempt_of_stop h']
  | write payload next undone =>
    obtain ⟨payload', next', undone', hnew, -⟩ := putPlan_gap_write gapUs hplan
    have h : (Op.put command).plan s = .write payload next undone := hplan
    have h' : (Op.put { command with gapUs := gapUs }).plan s = .write payload' next' undone' := hnew
    rw [Op.attempt_of_write h, Op.attempt_of_write h']
    split <;> rfl

/-- What a `put` leaves depends on the gap exactly if it stores it. -/
theorem attempt_put_gap_store :
    ((Op.put { command with gapUs := gapUs }).attempt saves s).2 = ((Op.put command).attempt saves s).2
      ↔ gapUs = command.gapUs ∨ ¬ (saves = true ∧ s.Accepts command) := by
  have hsame := attempt_put_gap s command saves gapUs
  by_cases hstores : saves = true ∧ s.Accepts command
  · obtain ⟨rfl, haccepts⟩ := hstores
    obtain ⟨payload, next, undone, hplan⟩ := CommandStore.putPlan_write_iff.mpr haccepts
    obtain ⟨payload', next', undone', hnew, hne⟩ := putPlan_gap_write gapUs hplan
    have h : (Op.put command).plan s = .write payload next undone := hplan
    have h' : (Op.put { command with gapUs := gapUs }).plan s = .write payload' next' undone' := hnew
    rw [Op.attempt_of_write h, Op.attempt_of_write h']
    constructor
    · intro heq
      left
      by_contra hgap
      exact hne hgap heq
    · rintro (rfl | hnot)
      · cases hnew.symm.trans hplan
        rfl
      · exact absurd ⟨rfl, haccepts⟩ hnot
  · have hop : ¬ s.NoOp (.put command) := fun hnoop => hnoop
    have hfails : ((Op.put command).attempt saves s).1 ≠ .ok :=
      fun hok => hstores ((attempt_ok_iff hop).mp hok)
    refine ⟨fun _ => Or.inr hstores, fun _ => ?_⟩
    rw [LearningCloner.attempt_put_of_ne_ok hfails,
      LearningCloner.attempt_put_of_ne_ok (hsame.trans_ne hfails)]

end Commits

namespace LearningCloner

variable {cfg : CaptureConfig} {c : LearningCloner} {saves : Bool}

/-- What is to be seen of a commit. -/
theorem outcome_commitCapture (saves : Bool) (c : LearningCloner) :
    outcome (c.commitCapture cfg saves) =
      let put := (Op.put (c.captured cfg)).attempt saves c.store
      let reason := ascii "store_error:" ++ put.1.text
      if put.1 = .ok then
        ⟨.captured, c.pendingName, put.2, [⟨.captured, .learnSuccess c.pendingName⟩]⟩
      else ⟨.idle, reason, put.2, [⟨.failed, .learnFailed reason⟩]⟩ := by
  unfold commitCapture
  dsimp only
  split
  · rename_i hok
    rw [hok]
    rfl
  · rename_i result store hne hput
    rw [hput, if_neg hne]
    rfl

/-- **Two commits that differ in the gap alone look the same, unless one is stored.** -/
theorem outcome_commitCapture_withStale (saves : Bool) (c : LearningCloner) (t : Stale) :
    outcome ((c.withStale t).commitCapture cfg saves) = outcome (c.commitCapture cfg saves) ↔
      (c.capture.withStale t).resolveGapUs cfg = c.capture.resolveGapUs cfg ∨ ¬ c.Stores cfg saves := by
  have hcaptured : (c.withStale t).captured cfg
      = { c.captured cfg with gapUs := (c.capture.withStale t).resolveGapUs cfg } := rfl
  have hsame := attempt_put_gap c.store (c.captured cfg) saves
    ((c.capture.withStale t).resolveGapUs cfg)
  have hstore := attempt_put_gap_store c.store (c.captured cfg) saves
    ((c.capture.withStale t).resolveGapUs cfg)
  rw [outcome_commitCapture, outcome_commitCapture, hcaptured]
  refine Iff.trans ?_ hstore
  have hold : (c.withStale t).store = c.store := rfl
  have hname : (c.withStale t).pendingName = c.pendingName := rfl
  dsimp only
  rw [hold, hname, hsame]
  split
  · exact ⟨fun h => congrArg Outcome.store h, fun h => by rw [h]⟩
  · exact ⟨fun h => congrArg Outcome.store h, fun h => by rw [h]⟩

/-! ## One reading -/

/-- Anything but a `learn` passes a component by that is not armed. -/
theorem step_of_idle (hidle : c.state ≠ .armed) (reading : Reading) :
    c.step cfg reading.event = (c, []) := by
  cases reading with
  | window saves rawData nowUs nowMs => exact if_pos hidle
  | loop saves nowMs => exact if_pos hidle

/-- Two components that are not armed and look the same keep looking the same. -/
theorem outcomes_of_idle {d : LearningCloner} {calls calls' : List Call}
    (hlook : outcome (d, calls) = outcome (c, calls')) (hidle : c.state ≠ .armed)
    (readings : List Reading) : outcomes cfg d readings = outcomes cfg c readings := by
  have hstate : d.state = c.state := congrArg Outcome.state hlook
  have hresult : d.lastResult = c.lastResult := congrArg Outcome.lastResult hlook
  have hstore : d.store = c.store := congrArg Outcome.store hlook
  have hnext : outcome (d, []) = outcome (c, []) := by
    simp only [outcome, hstate, hresult, hstore]
  induction readings with
  | nil => rfl
  | cons reading readings ih =>
    rw [outcomes, outcomes, step_of_idle hidle, step_of_idle (hstate ▸ hidle), ih, hnext]

theorem stale_filled (c : LearningCloner) (rawData : Frame) (nowUs nowMs : UInt32) :
    (c.filled cfg rawData nowUs nowMs).capture.stale
      = (c.window rawData nowUs).next cfg nowMs c.capture.stale := by
  have hblob : (c.window rawData nowUs).blob = stripTerminator rawData := rfl
  exact stale_receive cfg nowMs hblob

variable (cfg) in
/-- A window, with other fields in place of those that stay. -/
theorem onReceive_withStale (harmed : c.state = .armed) (saves : Bool) (rawData : Frame)
    (nowUs nowMs : UInt32) (t : Stale) :
    (c.withStale t).onReceive cfg saves rawData nowUs nowMs =
      if (c.window rawData nowUs).completes cfg nowMs t then
        ((c.filled cfg rawData nowUs nowMs).withStale
          ((c.window rawData nowUs).next cfg nowMs t)).commitCapture cfg saves
      else ((c.filled cfg rawData nowUs nowMs).withStale
          ((c.window rawData nowUs).next cfg nowMs t), []) := by
  have hblob : (c.window rawData nowUs).blob = stripTerminator rawData := rfl
  have hreceive := receive_withStale cfg nowMs hblob t
  have harmed' : ¬ (c.withStale t).state ≠ .armed := not_not_intro harmed
  have hcapture : (c.withStale t).capture = (c.window rawData nowUs).found.withStale t := rfl
  unfold onReceive
  rw [if_neg harmed', hcapture]
  split
  · rename_i capture hleft
    obtain ⟨rfl, hnot⟩ := Prod.mk.inj (hreceive.symm.trans hleft)
    rw [if_neg (Bool.eq_false_iff.mp hnot)]
    rfl
  · rename_i capture hleft
    obtain ⟨rfl, hdone⟩ := Prod.mk.inj (hreceive.symm.trans hleft)
    rw [if_pos hdone]
    rfl

variable (cfg) in
theorem onReceive_of_armed (harmed : c.state = .armed) (saves : Bool) (rawData : Frame)
    (nowUs nowMs : UInt32) :
    c.onReceive cfg saves rawData nowUs nowMs =
      if (c.window rawData nowUs).completes cfg nowMs c.capture.stale then
        (c.filled cfg rawData nowUs nowMs).commitCapture cfg saves
      else (c.filled cfg rawData nowUs nowMs, []) := by
  have h := onReceive_withStale cfg harmed saves rawData nowUs nowMs c.capture.stale
  rw [← stale_filled] at h
  exact h

/-- `loop`, with another time of readiness where there is none yet. -/
theorem loop_withStale (harmed : c.state = .armed) (saves : Bool) (nowMs : UInt32) {t : Stale}
    (hready : c.capture.ready = true → t.readySinceMs = c.capture.readySinceMs) :
    (c.withStale t).loop cfg saves nowMs =
      if c.capture.ready = true ∧ nowMs - c.capture.readySinceMs ≥ cfg.settleMs then
        (c.withStale t).commitCapture cfg saves
      else ((c.loop cfg saves nowMs).1.withStale t, (c.loop cfg saves nowMs).2) := by
  have harmed' : ¬ (c.withStale t).state ≠ .armed := not_not_intro harmed
  unfold loop
  rw [if_neg harmed', if_neg (not_not_intro harmed)]
  have hsince : c.capture.ready = true →
      (c.withStale t).capture.readySinceMs = c.capture.readySinceMs := hready
  have hsame : ((c.withStale t).capture.ready = true
      ∧ nowMs - (c.withStale t).capture.readySinceMs ≥ cfg.settleMs) ↔
      c.capture.ready = true ∧ nowMs - c.capture.readySinceMs ≥ cfg.settleMs :=
    and_congr_right fun h => by rw [hsince h]
  by_cases hsettled : c.capture.ready = true ∧ nowMs - c.capture.readySinceMs ≥ cfg.settleMs
  · rw [if_pos (hsame.mpr hsettled), if_pos hsettled]
  · rw [if_neg (fun h => hsettled (hsame.mp h)), if_neg hsettled, if_neg hsettled]
    by_cases hdue : c.capture.ready = false ∧ (nowMs - c.deadlineMs).toInt32 ≥ 0
    · rw [if_pos hdue]
      exact if_pos hdue
    · rw [if_neg hdue]
      exact if_neg hdue

variable (cfg) in
/-- A ready capture is committed once it has settled. -/
theorem loop_of_settled (harmed : c.state = .armed) (saves : Bool) {nowMs : UInt32}
    (hsettled : c.capture.ready = true ∧ nowMs - c.capture.readySinceMs ≥ cfg.settleMs) :
    c.loop cfg saves nowMs = c.commitCapture cfg saves := by
  unfold loop
  rw [if_neg (not_not_intro harmed), if_pos hsettled]

variable (cfg) in
/-- Otherwise `loop` leaves the component as it is, unless the deadline has passed. -/
theorem loop_of_waiting (harmed : c.state = .armed) (saves : Bool) {nowMs : UInt32}
    (hwaits : ¬ (c.capture.ready = true ∧ nowMs - c.capture.readySinceMs ≥ cfg.settleMs))
    (hstill : (c.loop cfg saves nowMs).1.state = .armed) : c.loop cfg saves nowMs = (c, []) := by
  unfold loop at hstill ⊢
  rw [if_neg (not_not_intro harmed), if_neg hwaits] at hstill ⊢
  split at hstill
  · cases hstill
  · rename_i hdue
    rw [if_neg hdue]

end LearningCloner

namespace Followed

variable {cfg : CaptureConfig} {x : Followed} {reading : Reading}

/-- What the followed component and one that has come to the same have in common. -/
def Admits (x : Followed) (t : Stale) : Prop :=
  x.origin.Admits x.cloner.capture.ready x.cloner.capture.stale t

/-- What a window with nothing to leak completes, it completes in any component that has come to the
    same. -/
theorem completes_of_not_leaks {w : Window} {origin : SpanOrigin} {rawData : Frame} {nowMs : UInt32}
    {t : Stale} (hblob : w.blob = stripTerminator rawData)
    (hadmits : origin.Admits w.found.ready w.found.stale t)
    (hno : w.repeats cfg = true → (w.found.ready = true ∨ w.found.agreements + 1 ≥ cfg.minRepeats.toUInt32) →
      origin.after cfg w = .own) :
    w.completes cfg nowMs t = w.completes cfg nowMs w.found.stale := by
  unfold Window.completes
  split
  · rfl
  · cases hrepeats : w.repeats cfg with
    | false => rfl
    | true =>
      cases hready : (w.repeated.settle cfg nowMs).ready with
      | false => rfl
      | true =>
        have hown := hno hrepeats ((ready_settle cfg w.repeated nowMs).mp hready)
        have hnext := hadmits.next cfg nowMs hblob
        rw [hown] at hnext
        rw [hnext.2.2.2]

/-- The gap depends on the span of arrivals alone, among the fields that stay. -/
theorem resolveGapUs_congr {s : CaptureState} {t u : Stale} (hfirst : t.firstFrameUs = u.firstFrameUs)
    (hlast : t.lastFrameUs = u.lastFrameUs) (hcount : t.intervalCount = u.intervalCount) :
    (s.withStale t).resolveGapUs cfg = (s.withStale u).resolveGapUs cfg := by
  unfold CaptureState.resolveGapUs CaptureState.estimatedGapUs
  simp only [CaptureState.withStale, hfirst, hlast, hcount]
  rfl

section Window

variable (saves : Bool) (rawData : Frame) (nowUs nowMs : UInt32)

variable {saves rawData nowUs nowMs}

theorem filled_of_consumed (hconsumed : (x.cloner.window rawData nowUs).consumed cfg = true) :
    x.cloner.filled cfg rawData nowUs nowMs = { x.cloner with
      capture := (tally cfg (x.cloner.window rawData nowUs)).settle cfg nowMs } := by
  rw [LearningCloner.filled, receive_of_consumed hconsumed]
  rfl

/-- The gap of a capture that a window completes without a leak is the same in any component that has
    come to the same, if it is stored. -/
theorem gap_of_not_leaks (harmed : x.cloner.state = .armed) {t : Stale} (hadmits : x.Admits t)
    (hno : ¬ x.Leaks cfg (.window saves rawData nowUs nowMs))
    (hcommit : (x.cloner.window rawData nowUs).completes cfg nowMs x.cloner.capture.stale = true) :
    ((x.cloner.filled cfg rawData nowUs nowMs).capture.withStale
        ((x.cloner.window rawData nowUs).next cfg nowMs t)).resolveGapUs cfg
      = (x.cloner.filled cfg rawData nowUs nowMs).capture.resolveGapUs cfg ∨
    ¬ (x.cloner.filled cfg rawData nowUs nowMs).Stores cfg saves := by
  have hblob : (x.cloner.window rawData nowUs).blob = stripTerminator rawData := rfl
  by_cases hown : x.origin.after cfg (x.cloner.window rawData nowUs) = .own
  · -- the whole span is from this learn
    left
    have hnext := SpanOrigin.Admits.next cfg nowMs hblob hadmits
    rw [hown] at hnext
    obtain ⟨-, hfirst, hlast, hcount⟩ := hnext
    rw [resolveGapUs_congr hfirst hlast hcount]
    have hstale : (x.cloner.window rawData nowUs).next cfg nowMs (x.cloner.window rawData nowUs).found.stale
        = (x.cloner.filled cfg rawData nowUs nowMs).capture.stale :=
      (LearningCloner.stale_filled _ _ _ _).symm
    rw [hstale, withStale_stale]
  · cases hconsumed : (x.cloner.window rawData nowUs).consumed cfg with
    | true =>
      rw [Window.completes, if_pos hconsumed, Bool.and_eq_true, decide_eq_true_eq] at hcommit
      rw [filled_of_consumed hconsumed]
      by_cases hstores : LearningCloner.Stores cfg saves { x.cloner with
          capture := (tally cfg (x.cloner.window rawData nowUs)).settle cfg nowMs }
      · left
        have hopen : ¬ ((tally cfg (x.cloner.window rawData nowUs)).settle cfg nowMs).GapOpen cfg :=
          fun hopen => hno ⟨harmed, hown, Or.inr ⟨hconsumed, hcommit.1, hcommit.2, hstores, hopen⟩⟩
        rw [resolveGapUs_of_not_open hopen]
        conv_rhs => rw [← withStale_stale ((tally cfg (x.cloner.window rawData nowUs)).settle cfg nowMs)]
        rw [resolveGapUs_of_not_open hopen]
      · exact Or.inr hstores
    | false =>
      -- a repeat that completes the capture would have been a leak
      rw [Window.completes, hconsumed, if_neg Bool.false_ne_true, Bool.and_eq_true, Bool.and_eq_true]
        at hcommit
      exact absurd ⟨harmed, hown, Or.inl ⟨hcommit.1.1, (ready_settle cfg _ nowMs).mp hcommit.1.2⟩⟩ hno

/-- A window that leaks nothing looks the same in any component that has come to the same, and takes
    it on to the same. -/
theorem window_of_not_leaks (harmed : x.cloner.state = .armed) {t : Stale} (hadmits : x.Admits t)
    (hno : ¬ x.Leaks cfg (.window saves rawData nowUs nowMs)) :
    outcome ((x.cloner.withStale t).onReceive cfg saves rawData nowUs nowMs)
        = outcome (x.cloner.onReceive cfg saves rawData nowUs nowMs) ∧
      ((x.cloner.onReceive cfg saves rawData nowUs nowMs).1.state = .armed →
        (x.cloner.onReceive cfg saves rawData nowUs nowMs).1 = x.cloner.filled cfg rawData nowUs nowMs ∧
        ((x.cloner.withStale t).onReceive cfg saves rawData nowUs nowMs).1
          = (x.cloner.filled cfg rawData nowUs nowMs).withStale
            ((x.cloner.window rawData nowUs).next cfg nowMs t)) := by
  have hblob : (x.cloner.window rawData nowUs).blob = stripTerminator rawData := rfl
  have hsame : (x.cloner.window rawData nowUs).completes cfg nowMs t
      = (x.cloner.window rawData nowUs).completes cfg nowMs x.cloner.capture.stale := by
    refine completes_of_not_leaks hblob hadmits fun hrepeats hready => ?_
    by_contra hown
    exact hno ⟨harmed, hown, Or.inl ⟨hrepeats, hready⟩⟩
  rw [LearningCloner.onReceive_withStale cfg harmed, LearningCloner.onReceive_of_armed cfg harmed, hsame]
  cases hcommit : (x.cloner.window rawData nowUs).completes cfg nowMs x.cloner.capture.stale with
  | true =>
    simp only [if_true]
    refine ⟨?_, fun h => absurd h (LearningCloner.state_commitCapture_ne saves _)⟩
    exact (LearningCloner.outcome_commitCapture_withStale saves _ _).mpr
      (gap_of_not_leaks harmed hadmits hno hcommit)
  | false =>
    simp only [Bool.false_eq_true, if_false, true_and]
    exact ⟨rfl, fun _ => trivial⟩

/-- What a repeat completes once there are enough of them. -/
theorem completes_of_repeats {w : Window} (hrepeats : w.repeats cfg = true)
    (hready : w.found.ready = true ∨ w.found.agreements + 1 ≥ cfg.minRepeats.toUInt32) (t : Stale) :
    w.completes cfg nowMs t = decide ((w.next cfg nowMs t).intervalCount ≥ gapIntervalTarget) := by
  have hconsumed : w.consumed cfg = false := by
    cases hconsumed : w.consumed cfg with
    | false => rfl
    | true => exact hrepeats.symm.trans (repeats_of_not_taken (SpanOrigin.taken_of_consumed hconsumed))
  have hready : (w.repeated.settle cfg nowMs).ready = true := (ready_settle cfg w.repeated nowMs).mpr hready
  rw [Window.completes, hconsumed, hrepeats, hready]
  rfl

/-- A count of intervals from before the learn decides whether a repeat completes the capture. -/
theorem exists_of_count (nowMs : UInt32) {w : Window} {origin : SpanOrigin} (hblob : w.blob = stripTerminator rawData)
    (hown : origin.after cfg w ≠ .own) (hrepeats : w.repeats cfg = true)
    (hready : w.found.ready = true ∨ w.found.agreements + 1 ≥ cfg.minRepeats.toUInt32) :
    ∃ t, origin.Admits w.found.ready w.found.stale t ∧ t.readySinceMs = w.found.readySinceMs ∧
      w.completes cfg nowMs t ≠ w.completes cfg nowMs w.found.stale := by
  -- a count that has reached the target, or none at all
  have hcount : ∀ count : UInt32, ∃ t, origin.Admits w.found.ready w.found.stale t ∧
      t.readySinceMs = w.found.readySinceMs ∧
      w.completes cfg nowMs t = decide (count ≥ gapIntervalTarget) := by
    intro count
    have hafter : (origin.after cfg w).Admits (w.found.receive cfg rawData w.nowUs nowMs).1.ready
        (w.next cfg nowMs w.found.stale)
        { w.next cfg nowMs w.found.stale with intervalCount := count } :=
      SpanOrigin.admits_of_ne_own hown rfl rfl
    obtain ⟨t, hadmits, hsame, hnext⟩ := SpanOrigin.exists_before cfg nowMs hblob hafter rfl
    refine ⟨t, hadmits, hsame, ?_⟩
    rw [completes_of_repeats hrepeats hready, hnext]
  cases hdone : w.completes cfg nowMs w.found.stale with
  | true =>
    obtain ⟨t, hadmits, hsame, hcompletes⟩ := hcount 0
    exact ⟨t, hadmits, hsame, by rw [hcompletes]; decide⟩
  | false =>
    obtain ⟨t, hadmits, hsame, hcompletes⟩ := hcount gapIntervalTarget
    exact ⟨t, hadmits, hsame, by rw [hcompletes]; decide⟩

variable (saves) in
/-- A window leaves the component armed unless it completes the capture. -/
theorem armed_onReceive_iff (harmed : x.cloner.state = .armed) (t : Stale) :
    ((x.cloner.withStale t).onReceive cfg saves rawData nowUs nowMs).1.state = .armed ↔
      ¬ (x.cloner.window rawData nowUs).completes cfg nowMs t = true := by
  rw [LearningCloner.onReceive_withStale cfg harmed]
  split
  · rename_i hdone
    exact ⟨fun h => absurd h (LearningCloner.state_commitCapture_ne saves _), fun h => absurd hdone h⟩
  · rename_i hleft
    exact ⟨fun _ => hleft, fun _ => harmed⟩

/-- **A window that leaks looks different in some component that has come to the same.** -/
theorem exists_of_window_leaks (h : x.Leaks cfg (.window saves rawData nowUs nowMs)) :
    ∃ t, x.Admits t ∧ t.readySinceMs = x.cloner.capture.readySinceMs ∧
      outcome ((x.cloner.withStale t).onReceive cfg saves rawData nowUs nowMs)
        ≠ outcome (x.cloner.onReceive cfg saves rawData nowUs nowMs) := by
  have hblob : (x.cloner.window rawData nowUs).blob = stripTerminator rawData := rfl
  obtain ⟨harmed, hown, ⟨hrepeats, hready⟩ | ⟨hconsumed, hfull, hgaps, hstores, hopen⟩⟩ := h
  · obtain ⟨t, hadmits, hsame, hne⟩ := exists_of_count nowMs hblob hown hrepeats hready
    refine ⟨t, hadmits, hsame, fun heq => hne ?_⟩
    -- one of the two is armed still
    have hstate : ((x.cloner.withStale t).onReceive cfg saves rawData nowUs nowMs).1.state
        = ((x.cloner.withStale x.cloner.capture.stale).onReceive cfg saves rawData nowUs nowMs).1.state :=
      congrArg Outcome.state heq
    have hdone : ¬ (x.cloner.window rawData nowUs).completes cfg nowMs t = true ↔
        ¬ (x.cloner.window rawData nowUs).completes cfg nowMs x.cloner.capture.stale = true := by
      rw [← armed_onReceive_iff saves harmed, ← armed_onReceive_iff saves harmed, hstate]
    exact Bool.eq_iff_iff.mpr (not_iff_not.mp hdone)
  · have hfilled : x.cloner.filled cfg rawData nowUs nowMs = { x.cloner with
        capture := (tally cfg (x.cloner.window rawData nowUs)).settle cfg nowMs } :=
      filled_of_consumed hconsumed
    have hstale : (x.cloner.filled cfg rawData nowUs nowMs).capture.stale
        = (x.cloner.window rawData nowUs).next cfg nowMs (x.cloner.window rawData nowUs).found.stale :=
      LearningCloner.stale_filled x.cloner rawData nowUs nowMs
    have hcompletes : ∀ t, (x.cloner.window rawData nowUs).completes cfg nowMs t = true := by
      intro t
      rw [Window.completes, if_pos hconsumed, Bool.and_eq_true, decide_eq_true_eq]
      exact ⟨hfull, hgaps⟩
    rw [← hfilled] at hstores hopen
    obtain ⟨v, hlast, hready, hgap⟩ := exists_other_gap hopen
      (x.cloner.filled cfg rawData nowUs nowMs).capture.lastFrameUs
      (x.cloner.filled cfg rawData nowUs nowMs).capture.readySinceMs
      ((x.cloner.filled cfg rawData nowUs nowMs).capture.resolveGapUs cfg)
    have hafter : (x.origin.after cfg (x.cloner.window rawData nowUs)).Admits
        (x.cloner.filled cfg rawData nowUs nowMs).capture.ready
        (x.cloner.filled cfg rawData nowUs nowMs).capture.stale v :=
      SpanOrigin.admits_of_ne_own hown hlast hready
    rw [hstale] at hafter
    have hsame : v.readySinceMs = ((x.cloner.window rawData nowUs).next cfg nowMs
        (x.cloner.window rawData nowUs).found.stale).readySinceMs := by
      rw [hready, ← hstale]
      rfl
    obtain ⟨t, hadmits, hsince, hnext⟩ := SpanOrigin.exists_before cfg nowMs hblob hafter hsame
    refine ⟨t, hadmits, hsince, ?_⟩
    rw [LearningCloner.onReceive_withStale cfg harmed, if_pos (hcompletes t), hnext,
      LearningCloner.onReceive_of_armed cfg harmed, if_pos (hcompletes _)]
    intro heq
    rcases (LearningCloner.outcome_commitCapture_withStale saves _ v).mp heq with heq | hnot
    · exact hgap heq
    · exact hnot hstores

end Window

section Loop

variable (saves : Bool) (nowMs : UInt32)

/-- A `loop` that leaks nothing looks the same in any component that has come to the same. -/
theorem loop_of_not_leaks (harmed : x.cloner.state = .armed) {t : Stale} (hadmits : x.Admits t)
    (hno : ¬ x.Leaks cfg (.loop saves nowMs)) :
    outcome ((x.cloner.withStale t).loop cfg saves nowMs) = outcome (x.cloner.loop cfg saves nowMs) ∧
      ((x.cloner.loop cfg saves nowMs).1.state = .armed →
        (x.cloner.loop cfg saves nowMs).1 = x.cloner ∧
        ((x.cloner.withStale t).loop cfg saves nowMs).1 = x.cloner.withStale t) := by
  rw [LearningCloner.loop_withStale harmed saves nowMs hadmits.1]
  split
  · rename_i hsettled
    rw [LearningCloner.loop_of_settled cfg harmed saves hsettled]
    refine ⟨?_, fun h => absurd h (LearningCloner.state_commitCapture_ne saves _)⟩
    refine (LearningCloner.outcome_commitCapture_withStale saves _ t).mpr ?_
    by_cases hown : x.origin = .own
    · -- the whole span is from this learn
      left
      unfold Admits at hadmits
      rw [hown] at hadmits
      obtain ⟨-, hfirst, hlast, hcount⟩ := hadmits
      exact resolveGapUs_congr hfirst hlast hcount
    · by_cases hstores : x.cloner.Stores cfg saves
      · left
        have hopen : ¬ x.cloner.capture.GapOpen cfg :=
          fun hopen => hno ⟨harmed, hown, hsettled.1, hsettled.2, hstores, hopen⟩
        rw [resolveGapUs_of_not_open hopen]
        conv_rhs => rw [← withStale_stale x.cloner.capture]
        rw [resolveGapUs_of_not_open hopen]
      · exact Or.inr hstores
  · rename_i hwaits
    refine ⟨rfl, fun hstill => ?_⟩
    rw [LearningCloner.loop_of_waiting cfg harmed saves hwaits hstill]
    exact ⟨rfl, rfl⟩

/-- A `loop` that leaks looks different in some component that has come to the same. -/
theorem exists_of_loop_leaks (h : x.Leaks cfg (.loop saves nowMs)) :
    ∃ t, x.Admits t ∧ t.readySinceMs = x.cloner.capture.readySinceMs ∧
      outcome ((x.cloner.withStale t).loop cfg saves nowMs)
        ≠ outcome (x.cloner.loop cfg saves nowMs) := by
  obtain ⟨harmed, hown, hready, hsettled, hstores, hopen⟩ := h
  obtain ⟨t, hlast, hsince, hgap⟩ := exists_other_gap hopen x.cloner.capture.lastFrameUs
    x.cloner.capture.readySinceMs (x.cloner.capture.resolveGapUs cfg)
  refine ⟨t, SpanOrigin.admits_of_ne_own hown hlast hsince, hsince, ?_⟩
  rw [LearningCloner.loop_withStale harmed saves nowMs fun _ => hsince, if_pos ⟨hready, hsettled⟩,
    LearningCloner.loop_of_settled cfg harmed saves ⟨hready, hsettled⟩]
  intro heq
  rcases (LearningCloner.outcome_commitCapture_withStale saves _ t).mp heq with heq | hnot
  · exact hgap heq
  · exact hnot hstores

end Loop

/-! ## Sessions side by side -/

/-- What a window admits that leaves the component armed. -/
theorem admits_window {saves : Bool} {rawData : Frame} {nowUs nowMs : UInt32} {u : Stale}
    (hfilled : (x.cloner.onReceive cfg saves rawData nowUs nowMs).1
      = x.cloner.filled cfg rawData nowUs nowMs) :
    (x.step cfg (.window saves rawData nowUs nowMs)).Admits u ↔
      (x.origin.after cfg (x.cloner.window rawData nowUs)).Admits
        (x.cloner.filled cfg rawData nowUs nowMs).capture.ready
        ((x.cloner.window rawData nowUs).next cfg nowMs (x.cloner.window rawData nowUs).found.stale) u := by
  have hnext : (x.step cfg (.window saves rawData nowUs nowMs)).cloner
      = x.cloner.filled cfg rawData nowUs nowMs := hfilled
  unfold Admits
  rw [hnext, LearningCloner.stale_filled]
  rfl

theorem admits_loop {saves : Bool} {nowMs : UInt32} {u : Stale}
    (hwaited : (x.cloner.loop cfg saves nowMs).1 = x.cloner) :
    (x.step cfg (.loop saves nowMs)).Admits u ↔ x.Admits u := by
  have hnext : (x.step cfg (.loop saves nowMs)).cloner = x.cloner := hwaited
  unfold Admits
  rw [hnext]
  rfl

/-- **A reading that leaks nothing looks the same in any component that has come to the same, and
    takes it on to the same.** -/
theorem step_of_not_leaks (harmed : x.cloner.state = .armed) {t : Stale} (hadmits : x.Admits t)
    (hno : ¬ x.Leaks cfg reading) :
    outcome ((x.cloner.withStale t).step cfg reading.event) = outcome (x.cloner.step cfg reading.event) ∧
      ((x.step cfg reading).cloner.state = .armed → ∃ u, (x.step cfg reading).Admits u ∧
        ((x.cloner.withStale t).step cfg reading.event).1 = (x.step cfg reading).cloner.withStale u) := by
  cases reading with
  | window saves rawData nowUs nowMs =>
    obtain ⟨hsame, hnext⟩ := window_of_not_leaks harmed hadmits hno
    refine ⟨hsame, fun hstill => ?_⟩
    obtain ⟨hfilled, hfilled'⟩ := hnext hstill
    have hblob : (x.cloner.window rawData nowUs).blob = stripTerminator rawData := rfl
    refine ⟨_, (admits_window hfilled).mpr (SpanOrigin.Admits.next cfg nowMs hblob hadmits), ?_⟩
    exact hfilled'.trans (congrArg (LearningCloner.withStale · _) hfilled.symm)
  | loop saves nowMs =>
    obtain ⟨hsame, hnext⟩ := loop_of_not_leaks saves nowMs harmed hadmits hno
    refine ⟨hsame, fun hstill => ?_⟩
    obtain ⟨hwaited, hwaited'⟩ := hnext hstill
    refine ⟨t, (admits_loop hwaited).mpr hadmits, ?_⟩
    exact hwaited'.trans (congrArg (LearningCloner.withStale · t) hwaited.symm)

/-- A reading that leaks looks different in some component that has come to the same. -/
theorem exists_of_leaks (h : x.Leaks cfg reading) :
    ∃ t, x.Admits t ∧ t.readySinceMs = x.cloner.capture.readySinceMs ∧
      outcome ((x.cloner.withStale t).step cfg reading.event)
        ≠ outcome (x.cloner.step cfg reading.event) := by
  cases reading with
  | window saves rawData nowUs nowMs => exact exists_of_window_leaks h
  | loop saves nowMs => exact exists_of_loop_leaks saves nowMs h

/-- Whatever has come to the same after a reading that leaks nothing has come there from what had
    come to the same before it. -/
theorem exists_before_step (harmed : x.cloner.state = .armed) (hno : ¬ x.Leaks cfg reading)
    (hstill : (x.step cfg reading).cloner.state = .armed) {u : Stale}
    (hadmits : (x.step cfg reading).Admits u)
    (hsame : u.readySinceMs = (x.step cfg reading).cloner.capture.readySinceMs) :
    ∃ t, x.Admits t ∧ t.readySinceMs = x.cloner.capture.readySinceMs ∧
      ((x.cloner.withStale t).step cfg reading.event).1 = (x.step cfg reading).cloner.withStale u := by
  cases reading with
  | window saves rawData nowUs nowMs =>
    have hblob : (x.cloner.window rawData nowUs).blob = stripTerminator rawData := rfl
    obtain ⟨hfilled, -⟩ := (window_of_not_leaks harmed (SpanOrigin.Admits.refl _ _ _) hno).2 hstill
    have hsince : u.readySinceMs = ((x.cloner.window rawData nowUs).next cfg nowMs
        (x.cloner.window rawData nowUs).found.stale).readySinceMs := by
      refine hsame.trans ?_
      show (x.cloner.onReceive cfg saves rawData nowUs nowMs).1.capture.stale.readySinceMs = _
      rw [hfilled, LearningCloner.stale_filled]
      rfl
    obtain ⟨t, hbefore, hready, hnext⟩ :=
      SpanOrigin.exists_before cfg nowMs hblob ((admits_window hfilled).mp hadmits) hsince
    refine ⟨t, hbefore, hready, ?_⟩
    obtain ⟨-, hfilled'⟩ := (window_of_not_leaks harmed hbefore hno).2 hstill
    rw [hnext] at hfilled'
    exact hfilled'.trans (congrArg (LearningCloner.withStale · u) hfilled.symm)
  | loop saves nowMs =>
    obtain ⟨hwaited, -⟩ := (loop_of_not_leaks saves nowMs harmed (SpanOrigin.Admits.refl _ _ _) hno).2
      hstill
    have hbefore := (admits_loop hwaited).mp hadmits
    have hready : u.readySinceMs = x.cloner.capture.readySinceMs := by
      refine hsame.trans ?_
      show (x.cloner.loop cfg saves nowMs).1.capture.readySinceMs = _
      rw [hwaited]
    refine ⟨u, hbefore, hready, ?_⟩
    obtain ⟨-, hwaited'⟩ := (loop_of_not_leaks saves nowMs harmed hbefore hno).2 hstill
    exact hwaited'.trans (congrArg (LearningCloner.withStale · u) hwaited.symm)

/-- A component that is not armed has nothing to leak any more. -/
theorem not_leaks_of_idle (hidle : x.cloner.state ≠ .armed) {readings : List Reading} (k : Nat)
    (reading : Reading) : ¬ (Runs.moment (step cfg) x readings k).Leaks cfg reading := by
  have hstill : (Runs.moment (step cfg) x readings k).cloner.state ≠ .armed := by
    refine Runs.inv (I := fun y : Followed => y.cloner.state ≠ .armed) hidle (fun y event _ hy => ?_) k
    show (y.cloner.step cfg event.event).1.state ≠ .armed
    rw [LearningCloner.step_of_idle hy]
    exact hy
  cases reading with
  | window saves rawData nowUs nowMs => exact fun h => hstill h.1
  | loop saves nowMs => exact fun h => hstill h.1

/-- A run that leaks nothing looks the same in any component that has come to the same. -/
theorem outcomes_of_not_leaks (readings : List Reading) : ∀ x : Followed, x.cloner.state = .armed →
    (∀ k reading, readings[k]? = some reading →
      ¬ (Runs.moment (step cfg) x readings k).Leaks cfg reading) →
    ∀ t, x.Admits t →
      (x.cloner.withStale t).outcomes cfg readings = x.cloner.outcomes cfg readings := by
  induction readings with
  | nil => exact fun x _ _ t _ => rfl
  | cons reading readings ih =>
    intro x harmed hno t hadmits
    rw [Runs.forall_moment_cons (C := fun y r => ¬ Leaks cfg y r)] at hno
    obtain ⟨hsame, hnext⟩ := step_of_not_leaks harmed hadmits hno.1
    rw [LearningCloner.outcomes, LearningCloner.outcomes, hsame]
    refine congrArg _ ?_
    by_cases hstill : (x.step cfg reading).cloner.state = .armed
    · obtain ⟨u, hadmits', hcloner⟩ := hnext hstill
      rw [hcloner]
      exact ih _ hstill hno.2 u hadmits'
    · exact LearningCloner.outcomes_of_idle hsame hstill readings

/-- A run that looks the same in all of them leaks nothing. -/
theorem not_leaks_of_outcomes (readings : List Reading) : ∀ x : Followed, x.cloner.state = .armed →
    (∀ t, x.Admits t → t.readySinceMs = x.cloner.capture.readySinceMs →
      (x.cloner.withStale t).outcomes cfg readings = x.cloner.outcomes cfg readings) →
    ∀ k reading, readings[k]? = some reading →
      ¬ (Runs.moment (step cfg) x readings k).Leaks cfg reading := by
  induction readings with
  | nil => exact fun x _ _ k reading h => (nomatch h)
  | cons reading readings ih =>
    intro x harmed hall
    rw [Runs.forall_moment_cons (C := fun y r => ¬ Leaks cfg y r)]
    have hno : ¬ x.Leaks cfg reading := by
      intro hleaks
      obtain ⟨t, hadmits, hsame, hne⟩ := exists_of_leaks hleaks
      exact hne (List.cons.inj (hall t hadmits hsame)).1
    refine ⟨hno, ?_⟩
    by_cases hstill : (x.step cfg reading).cloner.state = .armed
    · refine ih _ hstill fun u hadmits hsame => ?_
      obtain ⟨t, hbefore, hready, hnext⟩ := exists_before_step harmed hno hstill hadmits hsame
      have htail := (List.cons.inj (hall t hbefore hready)).2
      rw [hnext] at htail
      exact htail
    · exact fun k reading _ => not_leaks_of_idle hstill k reading

end Followed

namespace LearningCloner

variable (cfg : CaptureConfig) (name : Bytes) (timeoutMs nowMs : UInt32)

/-- `learn` ends the learn in progress, and goes on from there. -/
theorem start_eq (c : LearningCloner) :
    c.start cfg name timeoutMs nowMs = c.cancel.1.arm cfg name timeoutMs nowMs := by
  unfold start learn cancel
  by_cases harmed : c.state = .armed
  · rw [if_pos harmed, if_neg (not_not_intro harmed)]
    dsimp only
    rw [List.drop_left]
  · rw [if_neg harmed, if_pos harmed]
    rfl

theorem store_cancel (c : LearningCloner) : c.cancel.1.store = c.store := by
  unfold cancel
  split <;> rfl

theorem stale_cancel (c : LearningCloner) : c.cancel.1.capture.stale = c.capture.stale := by
  unfold cancel
  split <;> rfl

/-- A learn goes the same on every device with the registry, but for the fields that stay. -/
theorem arm_cases {c d : LearningCloner} (hstore : d.store = c.store) :
    outcome (d.arm cfg name timeoutMs nowMs) = outcome (c.arm cfg name timeoutMs nowMs) ∧
      ((c.arm cfg name timeoutMs nowMs).1.state = .armed →
        (c.arm cfg name timeoutMs nowMs).1.capture.ready = false ∧
        (d.arm cfg name timeoutMs nowMs).1
          = (c.arm cfg name timeoutMs nowMs).1.withStale d.capture.stale) := by
  obtain ⟨⟨store, lastResult⟩, state, pendingName, capture, armedSinceMs, deadlineMs⟩ := c
  obtain ⟨⟨store', lastResult'⟩, state', pendingName', capture', armedSinceMs', deadlineMs'⟩ := d
  obtain rfl : store' = store := hstore
  unfold arm
  split
  · exact ⟨rfl, fun h => (nomatch h)⟩
  · dsimp only
    split
    · exact ⟨rfl, fun h => (nomatch h)⟩
    · exact ⟨rfl, fun _ => ⟨rfl, rfl⟩⟩

/-- **A learn is isolated from the attempts before it exactly if none of its readings leaks.** -/
theorem learn_isolated_iff (readings : List Reading) (c : LearningCloner) :
    c.Isolated cfg name timeoutMs nowMs readings ↔
      ∀ k reading, readings[k]? = some reading →
        ¬ (Runs.moment (Followed.step cfg) ⟨(c.start cfg name timeoutMs nowMs).1, .earlier⟩
          readings k).Leaks cfg reading := by
  have hstart : ∀ {d : LearningCloner}, d.store = c.store →
      outcome (d.start cfg name timeoutMs nowMs) = outcome (c.start cfg name timeoutMs nowMs) ∧
        ((c.start cfg name timeoutMs nowMs).1.state = .armed →
          (c.start cfg name timeoutMs nowMs).1.capture.ready = false ∧
          (d.start cfg name timeoutMs nowMs).1
            = (c.start cfg name timeoutMs nowMs).1.withStale d.capture.stale) := by
    intro d hstore
    rw [start_eq, start_eq, ← stale_cancel d]
    exact arm_cases cfg name timeoutMs nowMs
      ((store_cancel d).trans (hstore.trans (store_cancel c).symm))
  by_cases harmed : (c.start cfg name timeoutMs nowMs).1.state = .armed
  · constructor
    · -- every way the fields can stand is that of some device with the registry
      intro hisolated
      refine Followed.not_leaks_of_outcomes readings _ harmed fun t _ _ => ?_
      have hstore : (c.withStale t).store = c.store := rfl
      obtain ⟨-, hnext⟩ := hstart hstore
      have htail := (List.cons.inj (hisolated _ hstore)).2
      rw [(hnext harmed).2] at htail
      exact htail
    · intro hno d hstore
      obtain ⟨hsame, hnext⟩ := hstart hstore
      obtain ⟨hready, hcloner⟩ := hnext harmed
      unfold session
      rw [hsame, hcloner]
      refine congrArg _ (Followed.outcomes_of_not_leaks readings _ harmed hno _ ⟨fun h => ?_, trivial⟩)
      exact absurd (hready.symm.trans h) Bool.false_ne_true
  · constructor
    · exact fun _ k reading _ => Followed.not_leaks_of_idle harmed k reading
    · intro _ d hstore
      have hsame := (hstart hstore).1
      unfold session
      rw [hsame]
      exact congrArg _ (outcomes_of_idle hsame harmed readings)

/-- A learn that hears a button for 24 single frames, and is cancelled. -/
def cancelledLearn : List LearnEvent :=
  .learn (ascii "fan") 0 0 ::
    List.replicate 24 (.onReceive true (Observed.windowOf 5000 [Observed.pulseTrain 400]) 0 0)
      ++ [.cancel]

/-- A window of two repeats, and one of a third. -/
def threeRepeats : List Reading :=
  [.window true (Observed.windowOf 5000 [Observed.pulseTrain 400, Observed.pulseTrain 400]) 100000 100,
    .window true (Observed.windowOf 5000 [Observed.pulseTrain 400]) 200000 200]

/-- **A learn that was cancelled decides when the next one is complete.** -/
theorem learn_not_isolated : ¬ ∀ (cfg : CaptureConfig) (name : Bytes) (timeoutMs nowMs : UInt32)
    (readings : List Reading) (c : LearningCloner), c.Isolated cfg name timeoutMs nowMs readings := by
  intro h
  have hstore : ((boot Observed.emptyStore).after {} cancelledLearn).store
      = (boot Observed.emptyStore).store := by
    decide +kernel
  have hsame := congrArg (List.map Outcome.state)
    (h {} (ascii "fan") 0 0 threeRepeats (boot Observed.emptyStore) _ hstore)
  revert hsame
  decide +kernel

end LearningCloner

end RfCloner
