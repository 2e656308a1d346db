/-
  The windows of a learn.

  What a capture may be measured against is what the receiver has delivered since `learn`, so a run
  is observed together with that history: every window, the time it arrived, and the capture it
  found.  `put_inv` is the rule for whatever a capture owes to its history.  It holds when a learn
  starts over, every window keeps it, and so it holds of the capture that is put.
-/
import RfCloner.Device.Lifecycle
import RfCloner.Lib.Runs

namespace RfCloner

open LearningCloner

/-! ## Windows -/

/-- A receive window without its terminator, with its arrival and the capture it found. -/
structure Window where
  found : CaptureState
  blob : Frame
  nowUs : UInt32

namespace Window

variable (cfg : CaptureConfig) (w : Window)

/-- The frames of the window, when it is split. -/
def split : SplitFrames := splitFrames w.blob cfg.frameGapMinUs

/-- The neighbours that `consume_multi_frame_` counts. -/
def counted : List (Frame × Frame × UInt32) :=
  (w.split cfg).neighbours.filter fun pair => CaptureState.pairCounts cfg pair.1 pair.2.1

/-- Whether `consume_multi_frame_` takes the window. -/
def consumed : Bool := !(w.counted cfg).isEmpty

/-- The frames received with the window: those it is cut into, or the window as a whole when it is
    left to the single-frame path. -/
def frames : List Frame := if w.consumed cfg then (w.split cfg).frames else [w.blob]

end Window

namespace CaptureState

variable {cfg : CaptureConfig}

/-- A frame that does not differ from the candidate agrees with it. -/
theorem differs_eq_false {candidate frame : Frame} : differs cfg candidate frame = false ↔
    framesAgree candidate frame cfg.limits.tolerancePercent = true := by
  unfold differs
  rw [Bool.or_eq_false_iff, Bool.not_eq_false', List.isEmpty_eq_false_iff]
  exact ⟨And.right, fun h => ⟨ne_nil_of_agree h, h⟩⟩

theorem pairCounts_iff {first second : Frame} : pairCounts cfg first second = true ↔
    validateFrame first cfg.limits = .ok ∧ validateFrame second cfg.limits = .ok ∧
      framesAgree first second cfg.limits.tolerancePercent = true := by
  unfold pairCounts
  simp only [Bool.and_eq_true, decide_eq_true_eq, and_assoc]

/-- A counted pair whose first differs makes that one the candidate. -/
theorem countPair_of_differs {s : CaptureState} {first : Frame} (gap : UInt32)
    (h : differs cfg s.candidate first = true) : s.countPair cfg first gap =
      { s with
        candidate := first
        agreements := 2
        physicalGaps := [gap]
        ready := false
        sawFrame := true } := by
  unfold countPair
  rw [if_pos h]
  rfl

/-- A counted pair whose first agrees goes on with the candidate. -/
theorem countPair_of_agrees {s : CaptureState} {first : Frame} (gap : UInt32)
    (h : differs cfg s.candidate first = false) : s.countPair cfg first gap =
      { s with
        agreements := s.agreements + 1
        physicalGaps := s.physicalGaps ++ [gap]
        sawFrame := true } := by
  unfold countPair
  rw [if_neg (Bool.eq_false_iff.mp h)]

/-- Whether a frame comes too late after the last one to be the next repeat. -/
def late (cfg : CaptureConfig) (s : CaptureState) (frame : Frame) (nowUs : UInt32) : Bool :=
  nowUs - s.lastFrameUs > frameDurationUs frame + cfg.maxGapUs

/-- A single frame that differs is the new candidate. -/
theorem takeFrame_eq_of_differs {s : CaptureState} {frame : Frame} (nowUs nowMs : UInt32)
    (h : differs cfg s.candidate frame = true) : s.takeFrame cfg frame nowUs nowMs =
      ({ s with
        candidate := frame
        agreements := 1
        ready := false
        sawFrame := true
        firstFrameUs := nowUs
        lastFrameUs := nowUs
        intervalCount := 0 }, false) := by
  unfold takeFrame
  dsimp only
  rw [if_pos h]

theorem takeFrame_of_differs {s : CaptureState} {frame : Frame} (nowUs nowMs : UInt32)
    (h : differs cfg s.candidate frame = true) : (s.takeFrame cfg frame nowUs nowMs).1 =
      { s with
        candidate := frame
        agreements := 1
        ready := false
        sawFrame := true
        firstFrameUs := nowUs
        lastFrameUs := nowUs
        intervalCount := 0 } := by
  rw [takeFrame_eq_of_differs nowUs nowMs h]

/-- A single frame that agrees goes on with the candidate. -/
theorem takeFrame_of_agrees {s : CaptureState} {frame : Frame} (nowUs nowMs : UInt32)
    (h : differs cfg s.candidate frame = false) : (s.takeFrame cfg frame nowUs nowMs).1 =
      settle cfg nowMs
        { s with
          agreements := s.agreements + 1
          sawFrame := true
          firstFrameUs := if late cfg s frame nowUs then nowUs else s.firstFrameUs
          lastFrameUs := nowUs
          intervalCount := if late cfg s frame nowUs then 0 else s.intervalCount + 1 } := by
  unfold takeFrame late
  dsimp only
  rw [if_neg (Bool.eq_false_iff.mp h)]
  dsimp only
  split
  · rename_i hlate
    rw [if_pos (decide_eq_true hlate), if_pos (decide_eq_true hlate)]
  · rename_i hnext
    rw [if_neg (by simpa using hnext), if_neg (by simpa using hnext)]

/-- A repeat completes the capture once it is ready and has been timed long enough. -/
theorem commit_takeFrame_of_agrees {s : CaptureState} {frame : Frame} (nowUs nowMs : UInt32)
    (h : differs cfg s.candidate frame = false) : (s.takeFrame cfg frame nowUs nowMs).2 =
      ((s.takeFrame cfg frame nowUs nowMs).1.ready
        && decide ((s.takeFrame cfg frame nowUs nowMs).1.intervalCount ≥ gapIntervalTarget)) := by
  unfold takeFrame
  dsimp only
  rw [if_neg (Bool.eq_false_iff.mp h)]

/-- The loop over the neighbours is one over those it does not skip. -/
theorem countPairs_eq (pairs : List (Frame × Frame × UInt32)) : ∀ (s : CaptureState) (consumed : Bool),
    s.countPairs cfg consumed pairs =
      ((pairs.filter fun pair => pairCounts cfg pair.1 pair.2.1).foldl
          (fun s pair => s.countPair cfg pair.1 pair.2.2) s,
        consumed || !(pairs.filter fun pair => pairCounts cfg pair.1 pair.2.1).isEmpty) := by
  induction pairs with
  | nil =>
    intro s consumed
    show (s, consumed) = (s, consumed || false)
    rw [Bool.or_false]
  | cons pair pairs ih =>
    obtain ⟨first, second, gap⟩ := pair
    intro s consumed
    rw [countPairs, List.filter_cons]
    split
    · rw [ih]
      simp only [List.foldl_cons, Bool.true_or, List.isEmpty_cons, Bool.not_false, Bool.or_true]
    · rw [ih]

variable {rawData : Frame} {nowUs nowMs : UInt32} {s : CaptureState}

/-- A window that is cut into fewer than two frames has no neighbours. -/
theorem counted_eq_nil {w : Window} (h : (w.split cfg).frames.length < 2) : w.counted cfg = [] := by
  have htail : (w.split cfg).frames.tail = [] := by
    apply List.eq_nil_of_length_eq_zero
    rw [List.length_tail]
    omega
  rw [Window.counted, SplitFrames.neighbours, htail, List.zip_nil_left, List.zip_nil_right]
  rfl

/-- What the counted neighbours of a window leave of the capture it found. -/
def tally (cfg : CaptureConfig) (w : Window) : CaptureState :=
  (w.counted cfg).foldl (fun s pair => s.countPair cfg pair.1 pair.2.2) w.found

/-- There is a candidate once a pair has been counted. -/
theorem candidate_countPair_ne_nil {s : CaptureState} {first second : Frame} (gap : UInt32)
    (hpair : pairCounts cfg first second = true) : (s.countPair cfg first gap).candidate ≠ [] := by
  cases hdiffers : differs cfg s.candidate first with
  | true =>
    rw [countPair_of_differs gap hdiffers]
    exact ne_nil_of_agree (pairCounts_iff.mp hpair).2.2
  | false =>
    rw [countPair_of_agrees gap hdiffers]
    exact ne_nil_of_agree (differs_eq_false.mp hdiffers)

theorem pairCounts_of_mem {w : Window} {pair : Frame × Frame × UInt32} (h : pair ∈ w.counted cfg) :
    pairCounts cfg pair.1 pair.2.1 = true := (List.mem_filter.mp h).2

theorem candidate_tally_ne_nil {w : Window} (h : w.consumed cfg = true) :
    (tally cfg w).candidate ≠ [] := by
  have hcounts : ∀ pair ∈ w.counted cfg, pairCounts cfg pair.1 pair.2.1 = true :=
    fun pair => pairCounts_of_mem
  -- the last pair that was counted leaves one
  rcases List.eq_nil_or_concat (w.counted cfg) with hnil | ⟨pairs, ⟨first, second, gap⟩, hlast⟩
  · rw [Window.consumed, hnil] at h
    cases h
  · unfold tally
    rw [hlast] at hcounts ⊢
    rw [List.concat_eq_append] at hcounts ⊢
    rw [List.foldl_append]
    exact candidate_countPair_ne_nil gap (hcounts _ (List.mem_append_right _ List.mem_cons_self))

variable (cfg s nowUs nowMs) in
/-- `consume_multi_frame_` takes the windows with counted neighbours, and only those. -/
theorem consumeMultiFrame_eq (blob : Frame) : s.consumeMultiFrame cfg blob nowMs =
    if (⟨s, blob, nowUs⟩ : Window).consumed cfg = true then
      some ((tally cfg ⟨s, blob, nowUs⟩).settle cfg nowMs,
        ((tally cfg ⟨s, blob, nowUs⟩).settle cfg nowMs).ready &&
          decide (((tally cfg ⟨s, blob, nowUs⟩).settle cfg nowMs).physicalGaps.length ≥ 2))
    else none := by
  have hloop : s.countPairs cfg false (splitFrames blob cfg.frameGapMinUs).neighbours
      = (tally cfg ⟨s, blob, nowUs⟩, (⟨s, blob, nowUs⟩ : Window).consumed cfg) :=
    (countPairs_eq _ s false).trans (congrArg _ (Bool.false_or _))
  unfold consumeMultiFrame
  dsimp only
  split
  · rename_i hlt
    have hnil : (⟨s, blob, nowUs⟩ : Window).counted cfg = [] := counted_eq_nil hlt
    rw [Window.consumed, hnil]
    rfl
  · rw [hloop]
    cases (⟨s, blob, nowUs⟩ : Window).consumed cfg <;> rfl

/-- What a window does that the multi-frame path takes. -/
theorem receive_eq_of_consumed
    (h : (⟨s, stripTerminator rawData, nowUs⟩ : Window).consumed cfg = true) :
    s.receive cfg rawData nowUs nowMs =
      ((tally cfg ⟨s, stripTerminator rawData, nowUs⟩).settle cfg nowMs,
        ((tally cfg ⟨s, stripTerminator rawData, nowUs⟩).settle cfg nowMs).ready &&
          decide (((tally cfg ⟨s, stripTerminator rawData, nowUs⟩).settle cfg
            nowMs).physicalGaps.length ≥ 2)) := by
  have hsome := consumeMultiFrame_eq cfg nowUs nowMs s (stripTerminator rawData)
  rw [if_pos h] at hsome
  unfold receive
  dsimp only
  rw [hsome]

theorem receive_of_consumed
    (h : (⟨s, stripTerminator rawData, nowUs⟩ : Window).consumed cfg = true) :
    (s.receive cfg rawData nowUs nowMs).1
      = (tally cfg ⟨s, stripTerminator rawData, nowUs⟩).settle cfg nowMs := by
  rw [receive_eq_of_consumed h]

/-- What a window does that is left to the single-frame path. -/
theorem receive_of_not_consumed
    (h : (⟨s, stripTerminator rawData, nowUs⟩ : Window).consumed cfg = false) :
    s.receive cfg rawData nowUs nowMs
      = s.takeWindow cfg (stripTerminator rawData) nowUs nowMs := by
  have hnone := consumeMultiFrame_eq cfg nowUs nowMs s (stripTerminator rawData)
  rw [if_neg (Bool.eq_false_iff.mp h)] at hnone
  unfold receive
  dsimp only
  rw [hnone]

/-- Only a ready capture is committed. -/
theorem ready_of_commit (h : (s.receive cfg rawData nowUs nowMs).2 = true) :
    (s.receive cfg rawData nowUs nowMs).1.ready = true := by
  cases hconsumed : (⟨s, stripTerminator rawData, nowUs⟩ : Window).consumed cfg with
  | true =>
    rw [receive_eq_of_consumed hconsumed] at h ⊢
    exact (Bool.and_eq_true_iff.mp h).1
  | false =>
    rw [receive_of_not_consumed hconsumed] at h ⊢
    unfold takeWindow at h ⊢
    split at h
    · rename_i hvalid
      rw [if_pos hvalid]
      cases hdiffers : differs cfg s.candidate (stripTerminator rawData) with
      | true =>
        rw [takeFrame_eq_of_differs nowUs nowMs hdiffers] at h
        cases h
      | false =>
        rw [commit_takeFrame_of_agrees nowUs nowMs hdiffers] at h
        exact (Bool.and_eq_true_iff.mp h).1
    · cases h

/-! ## The candidate is valid -/

variable (cfg) in
/-- The candidate passes validation, and there is one once the capture is ready. -/
structure Valid (s : CaptureState) : Prop where
  valid : s.candidate ≠ [] → validateFrame s.candidate cfg.limits = .ok
  ready : s.ready = true → s.candidate ≠ []

theorem Valid.settle (h : s.Valid cfg) (hne : s.candidate ≠ []) (nowMs : UInt32) :
    (s.settle cfg nowMs).Valid cfg := by
  unfold CaptureState.settle
  split
  · exact ⟨h.valid, fun _ => hne⟩
  · exact h

theorem Valid.countPair (h : s.Valid cfg) {first second : Frame} (gap : UInt32)
    (hpair : pairCounts cfg first second = true) : (s.countPair cfg first gap).Valid cfg := by
  cases hdiffers : differs cfg s.candidate first with
  | true =>
    rw [countPair_of_differs gap hdiffers]
    exact ⟨fun _ => (pairCounts_iff.mp hpair).1, fun hready => (nomatch hready)⟩
  | false =>
    rw [countPair_of_agrees gap hdiffers]
    exact ⟨h.valid, h.ready⟩

theorem Valid.receive (h : s.Valid cfg) (rawData : Frame) (nowUs nowMs : UInt32) :
    (s.receive cfg rawData nowUs nowMs).1.Valid cfg := by
  cases hconsumed : (⟨s, stripTerminator rawData, nowUs⟩ : Window).consumed cfg with
  | true =>
    rw [receive_of_consumed hconsumed]
    refine Valid.settle ?_ (candidate_tally_ne_nil hconsumed) nowMs
    exact List.foldlRecOn _ _ h fun t ht pair hpair => ht.countPair _ (pairCounts_of_mem hpair)
  | false =>
    rw [receive_of_not_consumed hconsumed]
    unfold takeWindow
    split
    · rename_i hvalid
      cases hdiffers : differs cfg s.candidate (stripTerminator rawData) with
      | true =>
        rw [takeFrame_of_differs nowUs nowMs hdiffers]
        exact ⟨fun _ => hvalid, fun hready => (nomatch hready)⟩
      | false =>
        rw [takeFrame_of_agrees nowUs nowMs hdiffers]
        refine Valid.settle ?_ ?_ nowMs
        · exact ⟨h.valid, h.ready⟩
        · exact ne_nil_of_agree (differs_eq_false.mp hdiffers)
    · exact ⟨h.valid, h.ready⟩

end CaptureState

/-! ## Runs with their history -/

/-- The component, with the windows received since the last `learn`. -/
structure Observed where
  cloner : LearningCloner
  windows : List Window

namespace Observed

variable (cfg : CaptureConfig)

/-- The windows after an event. -/
def windowsAfter (x : Observed) : LearnEvent → List Window
  | .learn _ _ _ => []
  | .onReceive _ rawData nowUs _ =>
    x.windows ++ [⟨x.cloner.capture, stripTerminator rawData, nowUs⟩]
  | _ => x.windows

/-- One event. -/
def step (x : Observed) (event : LearnEvent) : Observed :=
  ⟨(x.cloner.step cfg event).1, x.windowsAfter event⟩

/-- The observed component after `setup`. -/
def boot (store : CommandStore) : Observed := ⟨LearningCloner.boot store, []⟩

end Observed

/-! ## Where a capture comes from -/

namespace LearningCloner

variable {cfg : CaptureConfig} {c : LearningCloner} {event : LearnEvent}

theorem capture_commitCapture (saves : Bool) (c : LearningCloner) :
    (c.commitCapture cfg saves).1.capture = c.capture := by
  unfold commitCapture
  split <;> rfl

theorem state_commitCapture_ne (saves : Bool) (c : LearningCloner) :
    (c.commitCapture cfg saves).1.state ≠ .armed := by
  unfold commitCapture
  split
  · exact fun h => nomatch h
  · exact fun h => nomatch h

variable (cfg) in
theorem exists_put_commitCapture (saves : Bool) (c : LearningCloner) :
    ∃ result, ⟨c.state, .put (c.captured cfg) result⟩ ∈ (c.commitCapture cfg saves).2 := by
  unfold commitCapture
  split
  · exact ⟨_, List.mem_cons_self⟩
  · exact ⟨_, List.mem_cons_self⟩

/-- Whoever arms the component restarts the capture. -/
theorem capture_arm {name : Bytes} {timeoutMs nowMs : UInt32}
    (h : (c.arm cfg name timeoutMs nowMs).1.state = .armed) :
    (c.arm cfg name timeoutMs nowMs).1.capture = c.capture.restart := by
  unfold arm at h ⊢
  split at h
  · cases h
  · rename_i hname
    rw [if_neg hname]
    split at h
    · cases h
    · rename_i hroom
      rw [if_neg hroom]

/-- Arming puts nothing. -/
theorem put_not_mem_arm {name : Bytes} {timeoutMs nowMs : UInt32} {call : Call} {command : Command}
    {result : StoreResult} (hput : call.effect = .put command result) :
    call ∉ (c.arm cfg name timeoutMs nowMs).2 := by
  intro hcall
  unfold arm at hcall
  split at hcall
  · obtain rfl := List.mem_singleton.mp hcall
    cases hput
  · split at hcall <;>
    · obtain rfl := List.mem_singleton.mp hcall
      cases hput

/-- Nor does failing. -/
theorem put_not_mem_fail {failure : LearnFailure} {call : Call} {command : Command}
    {result : StoreResult} (hput : call.effect = .put command result) :
    call ∉ (c.fail failure).2 := by
  intro hcall
  obtain rfl := List.mem_singleton.mp hcall
  cases hput

theorem put_of_commitCapture {saves : Bool} {call : Call} {command : Command} {result : StoreResult}
    (hcall : call ∈ (c.commitCapture cfg saves).2) (hput : call.effect = .put command result) :
    command = c.captured cfg := by
  unfold commitCapture at hcall
  split at hcall
  all_goals
    rcases List.mem_cons.mp hcall with rfl | hcall
    · exact (Effect.put.inj hput).1.symm
    · obtain rfl := List.mem_singleton.mp hcall
      cases hput

end LearningCloner

namespace Observed

variable {cfg : CaptureConfig} {x : Observed} {event : LearnEvent}

variable (cfg x event) in
/-- The event found the component armed, and went on with its capture: by a window, or not at all. -/
def Advances : Prop :=
  x.cloner.state = .armed ∧
    ((∃ saves rawData nowUs nowMs, event = .onReceive saves rawData nowUs nowMs ∧
      (x.step cfg event).cloner.capture = (x.cloner.capture.receive cfg rawData nowUs nowMs).1) ∨
    (x.step cfg event).windows = x.windows ∧
      (x.step cfg event).cloner.capture = x.cloner.capture)

/-- Whoever leaves the component armed: a `learn`, or an event that went on with the capture. -/
theorem advances_of_armed (h : (x.step cfg event).cloner.state = .armed) :
    ((x.step cfg event).windows = [] ∧
      (x.step cfg event).cloner.capture = x.cloner.capture.restart) ∨ x.Advances cfg event := by
  have hcase := LearningCloner.step_cases cfg x.cloner event
  have hnext : (x.step cfg event).cloner = (x.cloner.step cfg event).1 := rfl
  unfold Advances
  rw [hnext] at h ⊢
  generalize x.cloner.step cfg event = next at hcase h ⊢
  cases hcase with
  | rearmed name timeoutMs nowMs => exact Or.inl ⟨rfl, LearningCloner.capture_arm h⟩
  | armed name timeoutMs nowMs => exact Or.inl ⟨rfl, LearningCloner.capture_arm h⟩
  | ignored hidle => exact absurd h hidle
  | failed => cases h
  | received saves rawData nowUs nowMs harmed =>
    exact Or.inr ⟨harmed, Or.inl ⟨saves, rawData, nowUs, nowMs, rfl, rfl⟩⟩
  | committed saves => exact absurd h (LearningCloner.state_commitCapture_ne saves _)
  | waited saves nowMs harmed => exact Or.inr ⟨harmed, Or.inr ⟨rfl, rfl⟩⟩
  | settled saves => exact absurd h (LearningCloner.state_commitCapture_ne saves _)
  | acted saves action => exact Or.inr ⟨h, Or.inr ⟨rfl, rfl⟩⟩

/-- A capture that a window completes is put. -/
theorem put_of_commit (saves : Bool) {rawData : Frame} {nowUs nowMs : UInt32}
    (harmed : x.cloner.state = .armed)
    (hcommit : (x.cloner.capture.receive cfg rawData nowUs nowMs).2 = true) :
    ∃ command result, ⟨.armed, .put command result⟩ ∈
        (x.cloner.step cfg (.onReceive saves rawData nowUs nowMs)).2 ∧
      command.timings = (x.cloner.capture.receive cfg rawData nowUs nowMs).1.candidate ∧
      command.gapUs = (x.cloner.capture.receive cfg rawData nowUs nowMs).1.resolveGapUs cfg := by
  have hstep : x.cloner.step cfg (.onReceive saves rawData nowUs nowMs) =
      { x.cloner with capture := (x.cloner.capture.receive cfg rawData nowUs nowMs).1 }.commitCapture
        cfg saves := by
    show x.cloner.onReceive cfg saves rawData nowUs nowMs = _
    unfold LearningCloner.onReceive
    rw [if_neg (not_not_intro harmed)]
    split
    · rename_i hreceive
      rw [hreceive] at hcommit
      cases hcommit
    · rename_i hreceive
      rw [hreceive]
  obtain ⟨result, hcall⟩ := LearningCloner.exists_put_commitCapture cfg saves
    { x.cloner with capture := (x.cloner.capture.receive cfg rawData nowUs nowMs).1 }
  rw [hstep]
  exact ⟨_, result, harmed ▸ hcall, rfl, rfl⟩

/-- A ready capture is put once it has settled. -/
theorem put_of_settle (cfg : CaptureConfig) (saves : Bool) (nowMs : UInt32)
    (harmed : x.cloner.state = .armed)
    (hready : x.cloner.capture.ready = true)
    (hsettled : nowMs - x.cloner.capture.readySinceMs ≥ cfg.settleMs) :
    (x.step cfg (.loop saves nowMs)).cloner.capture = x.cloner.capture ∧
      ∃ result, ⟨.armed, .put (x.cloner.captured cfg) result⟩ ∈
        (x.cloner.step cfg (.loop saves nowMs)).2 := by
  have hstep : x.cloner.step cfg (.loop saves nowMs) = x.cloner.commitCapture cfg saves := by
    show x.cloner.loop cfg saves nowMs = _
    unfold LearningCloner.loop
    rw [if_neg (not_not_intro harmed), if_pos ⟨hready, hsettled⟩]
  obtain ⟨result, hcall⟩ := LearningCloner.exists_put_commitCapture cfg saves x.cloner
  refine ⟨?_, result, ?_⟩
  · show (x.cloner.step cfg (.loop saves nowMs)).1.capture = _
    rw [hstep]
    exact LearningCloner.capture_commitCapture saves _
  · rw [hstep]
    exact harmed ▸ hcall

/-- Whoever puts a command: a window or the settle timer, while armed. -/
theorem put_of_step {call : Call} {command : Command} {result : StoreResult}
    (hcall : call ∈ (x.cloner.step cfg event).2) (hput : call.effect = .put command result) :
    x.Advances cfg event ∧ (x.step cfg event).cloner.capture.ready = true ∧
      command.timings = (x.step cfg event).cloner.capture.candidate ∧
      command.gapUs = (x.step cfg event).cloner.capture.resolveGapUs cfg := by
  have hcase := LearningCloner.step_cases cfg x.cloner event
  have hnext : (x.step cfg event).cloner = (x.cloner.step cfg event).1 := rfl
  unfold Advances
  rw [hnext]
  generalize x.cloner.step cfg event = next at hcase hcall ⊢
  cases hcase with
  | rearmed name timeoutMs nowMs =>
    rcases List.mem_append.mp hcall with hcall | hcall
    · exact absurd hcall (LearningCloner.put_not_mem_fail hput)
    · exact absurd hcall (LearningCloner.put_not_mem_arm hput)
  | armed name timeoutMs nowMs => exact absurd hcall (LearningCloner.put_not_mem_arm hput)
  | ignored => cases hcall
  | failed failure => exact absurd hcall (LearningCloner.put_not_mem_fail hput)
  | received => cases hcall
  | committed saves rawData nowUs nowMs harmed hcommit =>
    obtain rfl := LearningCloner.put_of_commitCapture hcall hput
    rw [LearningCloner.capture_commitCapture]
    exact ⟨⟨harmed, Or.inl ⟨saves, rawData, nowUs, nowMs, rfl, rfl⟩⟩,
      CaptureState.ready_of_commit hcommit, rfl, rfl⟩
  | waited => cases hcall
  | settled saves nowMs harmed hready =>
    obtain rfl := LearningCloner.put_of_commitCapture hcall hput
    rw [LearningCloner.capture_commitCapture]
    exact ⟨⟨harmed, Or.inr ⟨rfl, rfl⟩⟩, hready, rfl, rfl⟩
  | acted => cases hcall

variable (cfg) in
/-- The observed component after the first events of a run. -/
abbrev moment (store : CommandStore) (events : List LearnEvent) (k : Nat) : Observed :=
  Runs.moment (step cfg) (boot store) events k

section Inv

variable {I : CaptureState → List Window → Prop}

/-- What every window keeps is kept by whatever goes on with the capture. -/
theorem inv_of_advances
    (hreceive : ∀ (s : CaptureState) (windows : List Window) (rawData : Frame) (nowUs nowMs : UInt32),
      I s windows → I (s.receive cfg rawData nowUs nowMs).1
        (windows ++ [⟨s, stripTerminator rawData, nowUs⟩]))
    (h : x.Advances cfg event) (hinv : x.cloner.state = .armed → I x.cloner.capture x.windows) :
    I (x.step cfg event).cloner.capture (x.step cfg event).windows := by
  rcases h with ⟨harmed, ⟨saves, rawData, nowUs, nowMs, rfl, hcapture⟩ | ⟨hwindows, hcapture⟩⟩
  · rw [hcapture]
    exact hreceive _ _ rawData nowUs nowMs (hinv harmed)
  · rw [hcapture, hwindows]
    exact hinv harmed

/-- What a capture owes to its history holds while the component is armed. -/
theorem armed_inv (hrestart : ∀ s : CaptureState, I s.restart [])
    (hreceive : ∀ (s : CaptureState) (windows : List Window) (rawData : Frame) (nowUs nowMs : UInt32),
      I s windows → I (s.receive cfg rawData nowUs nowMs).1
        (windows ++ [⟨s, stripTerminator rawData, nowUs⟩]))
    (store : CommandStore) (events : List LearnEvent) (k : Nat)
    (harmed : (moment cfg store events k).cloner.state = .armed) :
    I (moment cfg store events k).cloner.capture (moment cfg store events k).windows := by
  refine Runs.inv (I := fun y : Observed => y.cloner.state = .armed → I y.cloner.capture y.windows)
    (fun h : LearnState.idle = .armed => nomatch h) (fun y event _ hinv hstate => ?_) k harmed
  rcases advances_of_armed hstate with ⟨hwindows, hcapture⟩ | hadvances
  · rw [hwindows, hcapture]
    exact hrestart _
  · exact inv_of_advances hreceive hadvances hinv

/-- **What a capture owes to its history holds of the capture that is put.** -/
theorem put_inv (hrestart : ∀ s : CaptureState, I s.restart [])
    (hreceive : ∀ (s : CaptureState) (windows : List Window) (rawData : Frame) (nowUs nowMs : UInt32),
      I s windows → I (s.receive cfg rawData nowUs nowMs).1
        (windows ++ [⟨s, stripTerminator rawData, nowUs⟩]))
    (store : CommandStore) {events : List LearnEvent} {k : Nat} (hevent : events[k]? = some event)
    {call : Call} {command : Command} {result : StoreResult}
    (hcall : call ∈ ((moment cfg store events k).cloner.step cfg event).2)
    (hput : call.effect = .put command result) :
    I (moment cfg store events (k + 1)).cloner.capture (moment cfg store events (k + 1)).windows ∧
      (moment cfg store events (k + 1)).cloner.capture.ready = true ∧
      command.timings = (moment cfg store events (k + 1)).cloner.capture.candidate ∧
      command.gapUs = (moment cfg store events (k + 1)).cloner.capture.resolveGapUs cfg := by
  obtain ⟨hadvances, hput⟩ := put_of_step hcall hput
  have hnext : moment cfg store events (k + 1) = (moment cfg store events k).step cfg event :=
    Runs.moment_succ hevent
  rw [hnext]
  exact ⟨inv_of_advances hreceive hadvances (armed_inv hrestart hreceive store events k), hput⟩

end Inv

end Observed

end RfCloner
