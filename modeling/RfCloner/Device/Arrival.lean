/-
  The gap that is estimated from arrivals (`rf_cloner.cpp`, `capture_validator.cpp`).

  A held remote sends its frame at a fixed period, and the frames are noticed by `loop`, each at most
  a loop period late.  `on_receive` keeps the first and the last arrival of a candidate and counts the
  intervals between them on a clock of 32 bits.  `Timed` is what it then has: the span is the sum of
  the intervals, and the gap that is estimated from it is off by less than a loop period over their
  number, and the one microsecond that the division drops.

  It has this for as long as the learn is on.  From the interval on that completes the capture the
  frames pass it by, and it counts no more (`frames_pass_by`).
-/
import RfCloner.Device.Isolation
import RfCloner.Lib.Average
import Mathlib.Data.Real.Basic
import Mathlib.Tactic.IntervalCases
import Mathlib.Tactic.NormNum

namespace RfCloner

open CaptureState LearningCloner

/-! ## Frames of a held button -/

/-- A window after the first: what the component does before it, its raw data, and how long after the
    window before it is noticed. -/
structure Arrival where
  between : List LearnEvent
  saves : Bool
  rawData : Frame
  deltaUs : Nat
  nowMs : UInt32

namespace Arrival

/-- The frame of the window. -/
def frame (a : Arrival) : Frame := stripTerminator a.rawData

/-- What happens up to the window, which is noticed at `atUs`.  The clock keeps 32 bits of it. -/
def events (a : Arrival) (atUs : Nat) : List LearnEvent :=
  a.between ++ [.onReceive a.saves a.rawData (UInt32.ofNat atUs) a.nowMs]

/-- The time from the first window to the last. -/
def spanUs (arrivals : List Arrival) : Nat := (arrivals.map deltaUs).sum

/-- What happens from the first window on, which was noticed at `atUs`. -/
def run : Nat → List Arrival → List LearnEvent
  | _, [] => []
  | atUs, a :: arrivals => a.events (atUs + a.deltaUs) ++ run (atUs + a.deltaUs) arrivals

end Arrival

/-- What the component does on its own, or for its registry. -/
def LearnEvent.Passes : LearnEvent → Prop
  | .loop _ _ | .action _ _ => True
  | _ => False

/-- A frame that the single-frame path takes: `consume_multi_frame_` finds no neighbours to count. -/
structure Single (cfg : CaptureConfig) (frame : Frame) : Prop where
  whole : ∀ pair ∈ (splitFrames frame cfg.frameGapMinUs).neighbours,
    pairCounts cfg pair.1 pair.2.1 = false
  valid : validateFrame frame cfg.limits = .ok

/-- A window that repeats the first frame. -/
structure Arrival.Repeats (cfg : CaptureConfig) (first : Frame) (a : Arrival) : Prop where
  between : ∀ event ∈ a.between, event.Passes
  single : Single cfg a.frame
  agrees : framesAgree first a.frame cfg.limits.tolerancePercent = true

/-! ## What the component counts -/

/-- `on_receive` commits at the `n`-th interval, if it has not done so before. -/
def Completes (cfg : CaptureConfig) (n : Nat) : Prop :=
  gapIntervalTarget.toNat ≤ n ∧ cfg.minRepeats.toNat ≤ n + 1

/-- The component after a first frame and `n` repeats of it. -/
structure Heard (cfg : CaptureConfig) (frame : Frame) (firstUs lastUs n : Nat)
    (c : LearningCloner) : Prop where
  candidate : c.capture.candidate = frame
  first : c.capture.firstFrameUs = UInt32.ofNat firstUs
  last : c.capture.lastFrameUs = UInt32.ofNat lastUs
  count : c.capture.intervalCount = UInt32.ofNat n
  agreements : c.capture.agreements = UInt32.ofNat (n + 1)
  ready : c.capture.ready = true ↔ 0 < n ∧ cfg.minRepeats.toNat ≤ n + 1
  small : n ≤ 255
  armed : c.state = .armed ↔ ¬ Completes cfg n

section Counting

variable {cfg : CaptureConfig} {c : LearningCloner} {frame rawData : Frame}
  {firstUs lastUs n deltaUs : Nat} {event : LearnEvent}

theorem Single.not_consumed (h : Single cfg frame) (s : CaptureState) (nowUs : UInt32) :
    (⟨s, frame, nowUs⟩ : Window).consumed cfg = false := by
  have hnil : (⟨s, frame, nowUs⟩ : Window).counted cfg = [] := by
    refine List.filter_eq_nil_iff.mpr fun pair hpair => ?_
    rw [h.whole pair hpair]
    exact Bool.false_ne_true
  rw [Window.consumed, hnil]
  rfl

/-- A single frame is taken as it came. -/
theorem Single.receive (h : Single cfg (stripTerminator rawData)) (s : CaptureState)
    (nowUs nowMs : UInt32) :
    s.receive cfg rawData nowUs nowMs = s.takeFrame cfg (stripTerminator rawData) nowUs nowMs := by
  rw [receive_of_not_consumed (h.not_consumed s nowUs), takeWindow, if_pos h.valid]

variable (cfg) in
/-- What is received is the capture, and ends the learn when it is complete. -/
theorem onReceive_armed (harmed : c.state = .armed) (saves : Bool) (rawData : Frame)
    (nowUs nowMs : UInt32) :
    (c.onReceive cfg saves rawData nowUs nowMs).1.capture
        = (c.capture.receive cfg rawData nowUs nowMs).1 ∧
      ((c.onReceive cfg saves rawData nowUs nowMs).1.state = .armed ↔
        (c.capture.receive cfg rawData nowUs nowMs).2 = false) := by
  unfold onReceive
  rw [if_neg (not_not_intro harmed)]
  rcases c.capture.receive cfg rawData nowUs nowMs with ⟨capture, commits⟩
  cases commits with
  | false => exact ⟨rfl, iff_of_true harmed rfl⟩
  | true =>
    exact ⟨capture_commitCapture saves _,
      iff_of_false (state_commitCapture_ne saves _) nofun⟩

theorem toNat_ofNat_small (h : n < 2 ^ 32) : (UInt32.ofNat n).toNat = n :=
  UInt32.toNat_ofNat_of_lt' h

/-- The first frame starts the count. -/
theorem Heard.start (harmed : c.state = .armed) (hsingle : Single cfg (stripTerminator rawData))
    (hdiffers : differs cfg c.capture.candidate (stripTerminator rawData) = true) (saves : Bool)
    (firstUs : Nat) (nowMs : UInt32) :
    Heard cfg (stripTerminator rawData) firstUs firstUs 0
      (c.onReceive cfg saves rawData (UInt32.ofNat firstUs) nowMs).1 := by
  obtain ⟨hcapture, hstate⟩ := onReceive_armed cfg harmed saves rawData (UInt32.ofNat firstUs) nowMs
  rw [hsingle.receive, takeFrame_eq_of_differs _ nowMs hdiffers] at hcapture hstate
  constructor
  · rw [hcapture]
  · rw [hcapture]
  · rw [hcapture]
  · rw [hcapture]
    rfl
  · rw [hcapture]
    rfl
  · rw [hcapture]
    simp
  · exact Nat.zero_le _
  · refine iff_of_true (hstate.mpr rfl) fun h => ?_
    exact absurd h.1 (by decide)

/-- An interval on the clock, which may wrap inside it. -/
theorem ofNat_add_sub_ofNat (lastUs deltaUs : Nat) :
    UInt32.ofNat (lastUs + deltaUs) - UInt32.ofNat lastUs = UInt32.ofNat deltaUs := by
  rw [UInt32.ofNat_add, UInt32.add_comm]
  exact UInt32.add_sub_cancel _ _

variable (cfg) in
/-- Becoming ready leaves what is counted. -/
theorem settle_counts (s : CaptureState) (nowMs : UInt32) :
    (s.settle cfg nowMs).candidate = s.candidate ∧
    (s.settle cfg nowMs).firstFrameUs = s.firstFrameUs ∧
    (s.settle cfg nowMs).lastFrameUs = s.lastFrameUs ∧
    (s.settle cfg nowMs).intervalCount = s.intervalCount ∧
    (s.settle cfg nowMs).agreements = s.agreements := by
  unfold settle
  split <;> exact ⟨rfl, rfl, rfl, rfl, rfl⟩

/-- A repeat in time, before it makes the capture ready. -/
theorem takeFrame_in_time {s : CaptureState} {nowUs : UInt32} (nowMs : UInt32)
    (hdiffers : differs cfg s.candidate frame = false) (hlate : late cfg s frame nowUs = false) :
    ∃ t : CaptureState, (s.takeFrame cfg frame nowUs nowMs).1 = t.settle cfg nowMs ∧
      t.candidate = s.candidate ∧ t.firstFrameUs = s.firstFrameUs ∧ t.lastFrameUs = nowUs ∧
      t.intervalCount = s.intervalCount + 1 ∧ t.agreements = s.agreements + 1 ∧ t.ready = s.ready := by
  refine ⟨_, takeFrame_of_agrees nowUs nowMs hdiffers, rfl, ?_, rfl, ?_, rfl, rfl⟩
  · exact if_neg (Bool.eq_false_iff.mp hlate)
  · exact if_neg (Bool.eq_false_iff.mp hlate)

/-- While the learn is on, there are few intervals. -/
theorem Heard.few (h : Heard cfg frame firstUs lastUs n c) (harmed : c.state = .armed) : n < 255 := by
  have hcompletes := h.armed.mp harmed
  have hmin := cfg.minRepeats.toNat_lt
  have htarget : gapIntervalTarget.toNat = 24 := rfl
  unfold Completes at hcompletes
  omega

/-- A repeat in time is one more interval. -/
theorem Heard.next (h : Heard cfg frame firstUs lastUs n c) (harmed : c.state = .armed)
    (hsingle : Single cfg (stripTerminator rawData))
    (hagrees : framesAgree frame (stripTerminator rawData) cfg.limits.tolerancePercent = true)
    (htime : deltaUs ≤ (frameDurationUs (stripTerminator rawData) + cfg.maxGapUs).toNat)
    (saves : Bool) (nowMs : UInt32) :
    Heard cfg frame firstUs (lastUs + deltaUs) (n + 1)
      (c.onReceive cfg saves rawData (UInt32.ofNat (lastUs + deltaUs)) nowMs).1 := by
  obtain ⟨hcapture, hstate⟩ :=
    onReceive_armed cfg harmed saves rawData (UInt32.ofNat (lastUs + deltaUs)) nowMs
  have hfew := h.few harmed
  have hdiffers : differs cfg c.capture.candidate (stripTerminator rawData) = false := by
    rw [differs_eq_false, h.candidate]
    exact hagrees
  have hlate : late cfg c.capture (stripTerminator rawData) (UInt32.ofNat (lastUs + deltaUs)) = false := by
    rw [late, h.last, ofNat_add_sub_ofNat, decide_eq_false_iff_not, gt_iff_lt,
      UInt32.lt_iff_toNat_lt]
    have hlt := (frameDurationUs (stripTerminator rawData) + cfg.maxGapUs).toNat_lt
    rw [toNat_ofNat_small (by omega)]
    omega
  rw [hsingle.receive] at hcapture hstate
  rw [commit_takeFrame_of_agrees _ _ hdiffers, ← hcapture] at hstate
  obtain ⟨t, ht, htcandidate, htfirst, htlast, htcount, htagreements, htready⟩ :=
    takeFrame_in_time nowMs hdiffers hlate
  rw [ht] at hcapture
  obtain ⟨hcandidate, hfirst, hlast, hcount, hagreements⟩ := settle_counts cfg t nowMs
  rw [← hcapture] at hcandidate hfirst hlast hcount hagreements
  have hcounted : t.intervalCount = UInt32.ofNat (n + 1) := by
    rw [htcount, h.count]
    exact (UInt32.ofNat_add n 1).symm
  have hagreed : t.agreements = UInt32.ofNat (n + 2) := by
    rw [htagreements, h.agreements]
    exact (UInt32.ofNat_add (n + 1) 1).symm
  -- the capture is ready from the number of agreements on that it takes
  have hready : (t.settle cfg nowMs).ready = true ↔ 0 < n + 1 ∧ cfg.minRepeats.toNat ≤ n + 2 := by
    rw [ready_settle, htready, h.ready, hagreed, ge_iff_le, UInt32.le_iff_toNat_le,
      UInt8.toNat_toUInt32, toNat_ofNat_small (by omega)]
    omega
  rw [← hcapture] at hready
  refine ⟨?_, ?_, ?_, ?_, ?_, hready, by omega, hstate.trans ?_⟩
  · rw [hcandidate, htcandidate, h.candidate]
  · rw [hfirst, htfirst, h.first]
  · rw [hlast, htlast]
  · rw [hcount, hcounted]
  · rw [hagreements, hagreed]
  · rw [Bool.and_eq_false_iff, ← Bool.not_eq_true, ← Bool.not_eq_true, hready, decide_eq_true_iff,
      hcount, hcounted, ge_iff_le, UInt32.le_iff_toNat_le, toNat_ofNat_small (by omega)]
    unfold Completes
    omega

/-! ## Runs -/

/-- What the component does between two windows ends the learn or leaves the capture alone. -/
theorem passes_step (hpasses : event.Passes) (harmed : (c.step cfg event).1.state = .armed) :
    c.state = .armed ∧ (c.step cfg event).1.capture = c.capture := by
  cases event with
  | loop saves nowMs =>
    have hstate : c.state = .armed := by
      by_contra hidle
      have hstep : c.step cfg (.loop saves nowMs) = (c, []) := if_pos hidle
      rw [hstep] at harmed
      exact hidle harmed
    refine ⟨hstate, ?_⟩
    by_cases hsettled : c.capture.ready = true ∧ nowMs - c.capture.readySinceMs ≥ cfg.settleMs
    · have hstep : c.step cfg (.loop saves nowMs) = c.commitCapture cfg saves :=
        loop_of_settled cfg hstate saves hsettled
      rw [hstep] at harmed
      exact absurd harmed (state_commitCapture_ne saves c)
    · have hstep : c.step cfg (.loop saves nowMs) = (c, []) :=
        loop_of_waiting cfg hstate saves hsettled harmed
      rw [hstep]
  | action saves action => exact ⟨harmed, rfl⟩
  | learn _ _ _ | cancel | onReceive _ _ _ _ => cases hpasses

theorem passes_after (events : List LearnEvent) : ∀ c : LearningCloner,
    (∀ event ∈ events, event.Passes) → (c.after cfg events).state = .armed →
    c.state = .armed ∧ (c.after cfg events).capture = c.capture := by
  induction events with
  | nil => exact fun c _ harmed => ⟨harmed, rfl⟩
  | cons event events ih =>
    intro c hpasses harmed
    rw [List.forall_mem_cons] at hpasses
    obtain ⟨hnext, hlater⟩ := ih (c.step cfg event).1 hpasses.2 harmed
    obtain ⟨hstate, hcapture⟩ := passes_step hpasses.1 hnext
    exact ⟨hstate, hlater.trans hcapture⟩

/-- Nothing between two windows changes what has been heard. -/
theorem Heard.between (h : Heard cfg frame firstUs lastUs n c) {events : List LearnEvent}
    (hpasses : ∀ event ∈ events, event.Passes) (harmed : (c.after cfg events).state = .armed) :
    Heard cfg frame firstUs lastUs n (c.after cfg events) := by
  obtain ⟨hstate, hcapture⟩ := passes_after events c hpasses harmed
  constructor
  · rw [hcapture, h.candidate]
  · rw [hcapture, h.first]
  · rw [hcapture, h.last]
  · rw [hcapture, h.count]
  · rw [hcapture, h.agreements]
  · rw [hcapture, h.ready]
  · exact h.small
  · exact iff_of_true harmed (h.armed.mp hstate)

end Counting

/-- The learn is still on when a window comes. -/
def ArmedAtEach (cfg : CaptureConfig) (atUs : Nat) (arrivals : List Arrival) (c : LearningCloner) :
    Prop :=
  ∀ before a later, arrivals = before ++ a :: later →
    (c.after cfg (Arrival.run atUs before ++ a.between)).state = .armed

/-- No window comes later than one gap after the window before it, by the sum that `on_receive`
    forms. -/
def InTime (cfg : CaptureConfig) (arrivals : List Arrival) : Prop :=
  ∀ a ∈ arrivals, a.deltaUs ≤ (frameDurationUs a.frame + cfg.maxGapUs).toNat

section Runs

variable {cfg : CaptureConfig} {frame : Frame} {firstUs : Nat}

theorem LearningCloner.after_append (c : LearningCloner) (events events' : List LearnEvent) :
    c.after cfg (events ++ events') = (c.after cfg events).after cfg events' :=
  List.foldl_append

/-- **While the learn is on, every repeat in time is one more interval.** -/
theorem Heard.run (arrivals : List Arrival) : ∀ {c : LearningCloner} {lastUs n : Nat},
    Heard cfg frame firstUs lastUs n c → (∀ a ∈ arrivals, a.Repeats cfg frame) →
    InTime cfg arrivals → ArmedAtEach cfg lastUs arrivals c →
    Heard cfg frame firstUs (lastUs + Arrival.spanUs arrivals) (n + arrivals.length)
      (c.after cfg (Arrival.run lastUs arrivals)) := by
  induction arrivals with
  | nil => exact fun h _ _ _ => h
  | cons a arrivals ih =>
    intro c lastUs n h hrepeats htime harmed
    rw [List.forall_mem_cons] at hrepeats
    have harmed₀ : (c.after cfg a.between).state = .armed := harmed [] a arrivals rfl
    have hbetween := h.between hrepeats.1.between harmed₀
    have hnext := hbetween.next harmed₀ hrepeats.1.single hrepeats.1.agrees
      (htime a List.mem_cons_self) a.saves a.nowMs
    have hevents : c.after cfg (a.events (lastUs + a.deltaUs))
        = ((c.after cfg a.between).onReceive cfg a.saves a.rawData
            (UInt32.ofNat (lastUs + a.deltaUs)) a.nowMs).1 := by
      rw [Arrival.events, after_append]
      rfl
    rw [← hevents] at hnext
    have hrest := ih hnext hrepeats.2 (fun b hb => htime b (List.mem_cons_of_mem _ hb))
      fun before b later hsplit => by
        have hb := harmed (a :: before) b later (by rw [hsplit]; rfl)
        rwa [Arrival.run, List.append_assoc, after_append] at hb
    rw [Arrival.run, after_append, Arrival.spanUs, List.map_cons, List.sum_cons, List.length_cons,
      ← Nat.add_assoc, Nat.add_comm arrivals.length, ← Nat.add_assoc]
    exact hrest

theorem completes_iff {n : Nat} :
    Completes cfg n ↔ max gapIntervalTarget.toNat (cfg.minRepeats.toNat - 1) ≤ n := by
  unfold Completes
  omega

theorem ArmedAtEach.left {c : LearningCloner} {atUs : Nat} {arrivals later : List Arrival}
    (h : ArmedAtEach cfg atUs (arrivals ++ later) c) : ArmedAtEach cfg atUs arrivals c := by
  intro before a rest hsplit
  exact h before a (rest ++ later) (by rw [hsplit, List.append_assoc]; rfl)

/-- **With nothing but windows, the learn is on up to the interval that completes the capture.** -/
theorem armedAtEach_iff {c : LearningCloner} {arrivals : List Arrival}
    (h : Heard cfg frame firstUs firstUs 0 c) (hrepeats : ∀ a ∈ arrivals, a.Repeats cfg frame)
    (htime : InTime cfg arrivals) (hbetween : ∀ a ∈ arrivals, a.between = []) :
    ArmedAtEach cfg firstUs arrivals c
      ↔ arrivals.length ≤ max gapIntervalTarget.toNat (cfg.minRepeats.toNat - 1) := by
  -- the learn is on at a window exactly if the windows before it have not completed the capture
  have hat {before later : List Arrival} {a : Arrival} (hsplit : arrivals = before ++ a :: later)
      (harmed : ArmedAtEach cfg firstUs before c) :
      (c.after cfg (Arrival.run firstUs before ++ a.between)).state = .armed
        ↔ ¬ Completes cfg before.length := by
    have hbefore : ∀ b ∈ before, b ∈ arrivals := fun b hb => hsplit ▸ List.mem_append_left _ hb
    have hheard := h.run before (fun b hb => hrepeats b (hbefore b hb))
      (fun b hb => htime b (hbefore b hb)) harmed
    rw [Nat.zero_add] at hheard
    rw [hbetween a (by simp [hsplit]), List.append_nil]
    exact hheard.armed
  constructor
  · intro harmed
    rcases List.eq_nil_or_concat arrivals with rfl | ⟨before, a, hsplit⟩
    · exact Nat.zero_le _
    · rw [List.concat_eq_append] at hsplit
      have hbefore : ArmedAtEach cfg firstUs before c := (hsplit ▸ harmed).left
      have hopen := (hat hsplit hbefore).mp (harmed before a [] hsplit)
      rw [completes_iff] at hopen
      rw [hsplit, List.length_append, List.length_singleton]
      omega
  · intro hshort before
    -- the windows before each window are fewer
    induction hlen : before.length using Nat.strong_induction_on generalizing before with
    | _ m ih =>
      intro a later hsplit
      have hbefore : ArmedAtEach cfg firstUs before c := by
        intro earlier b rest hearlier
        refine ih earlier.length ?_ earlier rfl b (rest ++ a :: later) ?_
        · rw [← hlen, hearlier, List.length_append, List.length_cons]
          omega
        · rw [hsplit, hearlier, List.append_assoc]
          rfl
      rw [hat hsplit hbefore, completes_iff]
      rw [hsplit, List.length_append, List.length_cons] at hshort
      omega

end Runs

/-! ## The error of the estimate -/

/-- The frames are sent at the period of frame and gap, and each is noticed less than a loop period
    later. -/
def Noticed (frame : Frame) (startUs gapUs loopUs : ℝ) (firstUs : Nat) (arrivals : List Arrival) :
    Prop :=
  ∀ k ≤ arrivals.length,
    startUs + k * ((frameDurationUs frame).toNat + gapUs)
        ≤ (firstUs + Arrival.spanUs (arrivals.take k) : Nat) ∧
      ((firstUs + Arrival.spanUs (arrivals.take k) : Nat) : ℝ)
        < startUs + k * ((frameDurationUs frame).toNat + gapUs) + loopUs

/-- A first frame that starts a candidate, and windows that repeat it. -/
structure Held (cfg : CaptureConfig) (c : LearningCloner) (rawData : Frame) (firstUs : Nat)
    (arrivals : List Arrival) (startUs gapUs loopUs : ℝ) : Prop where
  armed : c.state = .armed
  single : Single cfg (stripTerminator rawData)
  starts : differs cfg c.capture.candidate (stripTerminator rawData) = true
  repeats : ∀ a ∈ arrivals, a.Repeats cfg (stripTerminator rawData)
  span : Arrival.spanUs arrivals < 2 ^ 32
  noticed : Noticed (stripTerminator rawData) startUs gapUs loopUs firstUs arrivals

/-- What `on_receive` has of the arrivals, and how far the gap that is estimated from it is off. -/
structure Averaged (frame : Frame) (arrivals : List Arrival) (gapUs loopUs : ℝ) (s : CaptureState) :
    Prop where
  candidate : s.candidate = frame
  span : (s.lastFrameUs - s.firstFrameUs).toNat = Arrival.spanUs arrivals
  count : s.intervalCount.toNat = arrivals.length
  error : ∀ minGapUs maxGapUs minIntervals : UInt32,
    let estimateUs := estimateGapUs (s.lastFrameUs - s.firstFrameUs) s.intervalCount
      (frameDurationUs frame) minGapUs maxGapUs minIntervals
    estimateUs ≠ 0 →
      (arrivals.length : ℝ) * |(estimateUs.toNat : ℝ) - gapUs| < loopUs + arrivals.length

section Estimates

variable {cfg : CaptureConfig} {c : LearningCloner} {frame rawData : Frame} {firstUs : Nat}
  {arrivals : List Arrival} {startUs gapUs loopUs : ℝ}

/-- The first and the last of the frames bound the error of the span. -/
theorem Noticed.span (h : Noticed frame startUs gapUs loopUs firstUs arrivals) :
    |(Arrival.spanUs arrivals : ℝ) - arrivals.length * ((frameDurationUs frame).toNat + gapUs)|
      < loopUs := by
  have hfirst := h 0 (Nat.zero_le _)
  have hlast := h arrivals.length le_rfl
  rw [List.take_length] at hlast
  simp only [List.take_zero, Arrival.spanUs, List.map_nil, List.sum_nil,
    Nat.cast_zero, zero_mul, add_zero] at hfirst
  have hspan := Average.abs_span_sub_lt hfirst hlast
  rwa [Nat.cast_add, add_sub_cancel_left] at hspan

/-- What has been heard is averaged. -/
theorem Heard.averaged {n : Nat} (h : Heard cfg frame firstUs (firstUs + Arrival.spanUs arrivals) n c)
    (hn : n = arrivals.length) (hspan : Arrival.spanUs arrivals < 2 ^ 32)
    (hnoticed : Noticed frame startUs gapUs loopUs firstUs arrivals) :
    Averaged frame arrivals gapUs loopUs c.capture := by
  subst hn
  have hsmall := h.small
  have hdifference : (c.capture.lastFrameUs - c.capture.firstFrameUs).toNat
      = Arrival.spanUs arrivals := by
    rw [h.last, h.first, ofNat_add_sub_ofNat, toNat_ofNat_small hspan]
  have hcount : c.capture.intervalCount.toNat = arrivals.length := by
    rw [h.count, toNat_ofNat_small (by omega)]
  refine ⟨h.candidate, hdifference, hcount, ?_⟩
  intro minGapUs maxGapUs minIntervals estimateUs hestimate
  obtain ⟨-, hpos, hperiod⟩ := toNat_estimateGapUs hestimate
  rw [hdifference, hcount] at hperiod
  rw [hcount] at hpos
  have hwhole : ((Arrival.spanUs arrivals / arrivals.length : Nat) : ℝ)
      = (frameDurationUs frame).toNat + estimateUs.toNat := by
    rw [← hperiod]
    exact Nat.cast_add _ _
  have herror := Average.mul_abs_average_sub_lt hpos hnoticed.span
  rwa [hwhole, add_sub_add_left_eq_sub] at herror

end Estimates

/-- The component when the first frame and its repeats have come. -/
def heldFrom (cfg : CaptureConfig) (c : LearningCloner) (saves : Bool) (rawData : Frame)
    (firstUs : Nat) (nowMs : UInt32) (arrivals : List Arrival) : LearningCloner :=
  (c.onReceive cfg saves rawData (UInt32.ofNat firstUs) nowMs).1.after cfg
    (Arrival.run firstUs arrivals)

/-- **The estimate is off by less than a loop period over the number of intervals**, and the
    microsecond that the division drops: for as long as the learn is on, and while no window comes
    later than one gap. -/
theorem estimate_error {cfg : CaptureConfig} {c : LearningCloner} {rawData : Frame} {firstUs : Nat}
    {arrivals : List Arrival} {startUs gapUs loopUs : ℝ}
    (h : Held cfg c rawData firstUs arrivals startUs gapUs loopUs) (htime : InTime cfg arrivals)
    (saves : Bool) (nowMs : UInt32)
    (harmed : ArmedAtEach cfg firstUs arrivals
      (c.onReceive cfg saves rawData (UInt32.ofNat firstUs) nowMs).1) :
    Averaged (stripTerminator rawData) arrivals gapUs loopUs
      (heldFrom cfg c saves rawData firstUs nowMs arrivals).capture := by
  have hstart := Heard.start h.armed h.single h.starts saves firstUs nowMs
  have hrun := hstart.run arrivals h.repeats htime harmed
  exact hrun.averaged (Nat.zero_add _) h.span h.noticed

/-! ## A button of 400 microsecond pulses -/

/-- What the receiver delivers for each of its frames, which take 3600 microseconds. -/
def heldButton : Frame := Observed.windowOf 5000 [Observed.pulseTrain 400]

/-- A learn that waits for it. -/
def waiting : LearningCloner := (boot Observed.emptyStore).after {} [.learn (ascii "fan") 0 0]

/-- A window of it, some time after the one before. -/
def heldFor (deltaUs : Nat) : Arrival := ⟨[], true, heldButton, deltaUs, 0⟩

theorem single_heldButton {cfg : CaptureConfig} (hlimits : cfg.limits = {})
    (hthreshold : cfg.frameGapMinUs = 3000) : Single cfg (stripTerminator heldButton) := by
  constructor
  · have hwhole : (splitFrames (stripTerminator heldButton) 3000).neighbours = [] := by decide
    rw [hthreshold, hwhole]
    exact nofun
  · rw [hlimits]
    decide

theorem repeats_heldFor {cfg : CaptureConfig} (hlimits : cfg.limits = {})
    (hthreshold : cfg.frameGapMinUs = 3000) (deltaUs : Nat) :
    (heldFor deltaUs).Repeats cfg (stripTerminator heldButton) := by
  refine ⟨nofun, single_heldButton hlimits hthreshold, ?_⟩
  show framesAgree (stripTerminator heldButton) (stripTerminator heldButton) _ = true
  rw [hlimits]
  decide

theorem toNat_duration_heldButton : (frameDurationUs (stripTerminator heldButton)).toNat = 3600 := by
  decide

/-- A gap of 10 milliseconds, noticed up to one millisecond late, is estimated as 10.2. -/
theorem held_button_estimated :
    let arrivals := [heldFor 14200, heldFor 13400, heldFor 13800]
    let s := (heldFrom {} waiting true heldButton 0 0 arrivals).capture
    Averaged (stripTerminator heldButton) arrivals 10000 1000 s ∧ s.estimatedGapUs {} = 10200 := by
  intro arrivals s
  have hrepeats : ∀ a ∈ arrivals, a.Repeats {} (stripTerminator heldButton) := by
    simp [arrivals, repeats_heldFor]
  have htime : InTime {} arrivals := by
    unfold InTime
    decide
  have hnoticed : Noticed (stripTerminator heldButton) 0 10000 1000 0 arrivals := by
    intro k hk
    rw [toNat_duration_heldButton]
    have hk : k ≤ 3 := hk
    interval_cases k <;> norm_num [arrivals, Arrival.spanUs, heldFor]
  have hheld : Held {} waiting heldButton 0 arrivals 0 10000 1000 :=
    ⟨by decide, single_heldButton rfl rfl, by decide, hrepeats, by decide, hnoticed⟩
  have hstart := Heard.start hheld.armed hheld.single hheld.starts true 0 0
  have harmed := (armedAtEach_iff hstart hrepeats htime (by decide)).mpr (by decide)
  exact ⟨estimate_error hheld htime true 0 harmed, by decide +kernel⟩

theorem spanUs_replicate (n deltaUs : Nat) :
    Arrival.spanUs (List.replicate n (heldFor deltaUs)) = n * deltaUs := by
  rw [Arrival.spanUs, List.map_replicate, List.sum_replicate_nat]
  rfl

/-- Frames that are noticed as they are sent. -/
theorem held_replicate {cfg : CaptureConfig} (hlimits : cfg.limits = {})
    (hthreshold : cfg.frameGapMinUs = 3000) {n : Nat} (hn : n ≤ 25) :
    Held cfg waiting heldButton 0 (List.replicate n (heldFor 13600)) 0 10000 1 := by
  refine ⟨by decide, single_heldButton hlimits hthreshold, rfl, ?_, ?_, ?_⟩
  · intro a ha
    rw [List.eq_of_mem_replicate ha]
    exact repeats_heldFor hlimits hthreshold 13600
  · rw [spanUs_replicate]
    omega
  · intro k hk
    rw [List.length_replicate] at hk
    rw [toNat_duration_heldButton, List.take_replicate, Nat.min_eq_left hk, spanUs_replicate]
    push_cast
    constructor <;> linarith

/-- A configuration in which the longest gap takes all of the 32 bits. -/
def longestGap : CaptureConfig where
  maxGapUs := 0xFFFFFFFF

/-- A capture that is complete counts no more: 25 intervals leave 24.  And where the sum of frame and
    longest gap is above 32 bits, a window in time starts the count again. -/
theorem estimate_error_limited :
    (¬ ∀ (cfg : CaptureConfig) (c : LearningCloner) (rawData : Frame) (firstUs : Nat)
      (arrivals : List Arrival) (startUs gapUs loopUs : ℝ) (saves : Bool) (nowMs : UInt32),
      Held cfg c rawData firstUs arrivals startUs gapUs loopUs → InTime cfg arrivals →
      Averaged (stripTerminator rawData) arrivals gapUs loopUs
        (heldFrom cfg c saves rawData firstUs nowMs arrivals).capture) ∧
    ¬ ∀ (cfg : CaptureConfig) (c : LearningCloner) (rawData : Frame) (firstUs : Nat)
      (arrivals : List Arrival) (startUs gapUs loopUs : ℝ) (saves : Bool) (nowMs : UInt32),
      Held cfg c rawData firstUs arrivals startUs gapUs loopUs →
      (∀ a ∈ arrivals, a.deltaUs ≤ (frameDurationUs a.frame).toNat + cfg.maxGapUs.toNat) →
      ArmedAtEach cfg firstUs arrivals
        (c.onReceive cfg saves rawData (UInt32.ofNat firstUs) nowMs).1 →
      Averaged (stripTerminator rawData) arrivals gapUs loopUs
        (heldFrom cfg c saves rawData firstUs nowMs arrivals).capture := by
  constructor
  · intro h
    have htime : InTime {} (List.replicate 25 (heldFor 13600)) := by
      unfold InTime
      decide
    have hcount := (h {} waiting heldButton 0 _ 0 10000 1 true 0
      (held_replicate rfl rfl le_rfl) htime).count
    revert hcount
    decide +kernel
  · intro h
    have htime : ∀ a ∈ List.replicate 1 (heldFor 13600), a.deltaUs ≤
        (frameDurationUs a.frame).toNat + longestGap.maxGapUs.toNat := by
      decide
    have harmed : ArmedAtEach longestGap 0 (List.replicate 1 (heldFor 13600))
        (waiting.onReceive longestGap true heldButton (UInt32.ofNat 0) 0).1 := by
      intro before a later hsplit
      cases before with
      | nil =>
        obtain ⟨rfl, -⟩ := List.cons.inj hsplit
        decide
      | cons b before => simp at hsplit
    have hcount := (h longestGap waiting heldButton 0 _ 0 10000 1 true 0
      (held_replicate rfl rfl (by decide)) htime harmed).count
    revert hcount
    decide +kernel

end RfCloner
