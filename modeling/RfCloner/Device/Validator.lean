/-
  Capture validation (`capture_validator.cpp`).

  What the receiver delivers is a list of signed durations, marks positive and spaces negative.  A
  frame is such a list without the entry the receiver appends; a window that held several repeats
  is split at its long spaces.  Nothing here has state.
-/
import RfCloner.Store.Types
import Mathlib.Data.UInt

namespace RfCloner

/-- The marks and spaces of one transmission. -/
abbrev Frame := List Int32

/-- `FrameVerdict`. -/
inductive FrameVerdict where
  | ok | tooFewPulses | tooManyPulses | pulseOutOfRange
  deriving DecidableEq, Repr

/-- `CaptureLimits`. -/
structure CaptureLimits where
  minPulses : UInt16 := 8
  maxPulses : UInt16 := 128
  minPulseUs : UInt32 := 100
  maxPulseUs : UInt32 := 100000
  tolerancePercent : UInt8 := 25
  deriving DecidableEq, Repr

/-- The magnitude of a duration, which for the lowest one is not an `int32_t`. -/
def magnitude (timing : Int32) : UInt32 := UInt32.ofNat timing.toInt.natAbs

/-- `strip_terminator`. -/
def stripTerminator (timings : Frame) : Frame := timings.dropLast

/-- One pulse of `validate_frame`. -/
def pulseInRange (limits : CaptureLimits) (timing : Int32) : Bool :=
  timing != 0 && !(magnitude timing < limits.minPulseUs || magnitude timing > limits.maxPulseUs)

/-- `validate_frame`. -/
def validateFrame (timings : Frame) (limits : CaptureLimits) : FrameVerdict :=
  if timings.length < limits.minPulses.toNat then .tooFewPulses
  else if timings.length > limits.maxPulses.toNat then .tooManyPulses
  else if timings.all (pulseInRange limits) then .ok
  else .pulseOutOfRange

/-- One pulse of `frames_agree`.  The bounds are computed in 64 bits and cut to 32. -/
def pulsesAgree (tolerancePercent : UInt8) (a b : Int32) : Bool :=
  let reference := (magnitude a).toUInt64
  let lower := ((100 - tolerancePercent.toUInt32).toUInt64 * reference / 100).toUInt32
  let upper := ((100 + tolerancePercent.toUInt32).toUInt64 * reference / 100).toUInt32
  decide (a < 0) == decide (b < 0) && !(magnitude b < lower || magnitude b > upper)

/-- `frames_agree`: whether `b` repeats `a`. -/
def framesAgree (a b : Frame) (tolerancePercent : UInt8) : Bool :=
  a.length == b.length && !a.isEmpty
    && (a.zip b).all fun (x, y) => pulsesAgree tolerancePercent x y

/-- `frame_duration_us`, which stops at the highest `uint32_t`. -/
def frameDurationUs (timings : Frame) : UInt32 :=
  UInt32.ofNat (min (timings.map fun timing => timing.toInt.natAbs).sum 0xFFFFFFFF)

/-- `SplitFrames`. -/
structure SplitFrames where
  frames : List Frame := []
  gaps : List UInt32 := []
  deriving DecidableEq, Repr

/-- The loop of `split_frames`, with the frame it is collecting. -/
def splitLoop (frameGapMinUs : UInt32) : Frame → SplitFrames → Frame → SplitFrames
  | current, result, [] =>
    if current.isEmpty then result else { result with frames := result.frames ++ [current] }
  | current, result, timing :: timings =>
    if timing < 0 ∧ magnitude timing ≥ frameGapMinUs then
      -- a window can open on a gap, so only a frame that holds something is closed
      if current.isEmpty then splitLoop frameGapMinUs current result timings
      else
        splitLoop frameGapMinUs []
          ⟨result.frames ++ [current], result.gaps ++ [magnitude timing]⟩ timings
    else splitLoop frameGapMinUs (current ++ [timing]) result timings

/-- `split_frames`.  A gap with no following frame separates nothing, and is dropped. -/
def splitFrames (timings : Frame) (frameGapMinUs : UInt32) : SplitFrames :=
  let result := splitLoop frameGapMinUs [] {} timings
  { result with gaps := result.gaps.take (result.frames.length - 1) }

/-- `frames[i]`, `frames[i + 1]` and `gaps[i]`, for every `i` there is. -/
def SplitFrames.neighbours (split : SplitFrames) : List (Frame × Frame × UInt32) :=
  split.frames.zip (split.frames.tail.zip split.gaps)

/-- `estimate_gap_us`. -/
def estimateGapUs (spanUs intervals frameUs minGapUs maxGapUs minIntervals : UInt32) : UInt32 :=
  if intervals < minIntervals ∨ intervals = 0 then 0
  else if spanUs / intervals ≤ frameUs then 0
  else if spanUs / intervals - frameUs < minGapUs ∨ spanUs / intervals - frameUs > maxGapUs then 0
  else spanUs / intervals - frameUs

/-! ## Validation -/

section Valid

variable {timings : Frame} {limits : CaptureLimits}

theorem validateFrame_eq_ok : validateFrame timings limits = .ok ↔
    limits.minPulses.toNat ≤ timings.length ∧ timings.length ≤ limits.maxPulses.toNat ∧
      ∀ timing ∈ timings, pulseInRange limits timing = true := by
  unfold validateFrame
  split
  · exact ⟨fun h => (nomatch h), fun h => by omega⟩
  · split
    · exact ⟨fun h => (nomatch h), fun h => by omega⟩
    · split
      · rename_i hall
        exact ⟨fun _ => ⟨by omega, by omega, List.all_eq_true.mp hall⟩, fun _ => rfl⟩
      · rename_i hall
        exact ⟨fun h => (nomatch h), fun h => absurd (List.all_eq_true.mpr h.2.2) hall⟩

theorem magnitude_le_of_inRange {timing : Int32} (h : pulseInRange limits timing = true) :
    magnitude timing ≤ limits.maxPulseUs := by
  unfold pulseInRange at h
  simp only [Bool.and_eq_true, Bool.not_eq_true', Bool.or_eq_false_iff, decide_eq_false_iff_not] at h
  exact UInt32.not_lt.mp h.2.2

end Valid

/-! ## Agreement -/

section Agreement

variable {tolerance : UInt8}

theorem framesAgree_iff {a b : Frame} : framesAgree a b tolerance = true ↔
    a.length = b.length ∧ a ≠ [] ∧ ∀ p ∈ a.zip b, pulsesAgree tolerance p.1 p.2 = true := by
  unfold framesAgree
  simp only [Bool.and_eq_true, beq_iff_eq, Bool.not_eq_true', List.isEmpty_eq_false_iff,
    List.all_eq_true, and_assoc]

/-- Nothing agrees with a frame that was not there. -/
theorem ne_nil_of_agree {a b : Frame} (h : framesAgree a b tolerance = true) : a ≠ [] :=
  (framesAgree_iff.mp h).2.1

/-- The bounds of `frames_agree`, where they fit. -/
theorem toNat_percent (factor reference : UInt32)
    (h : factor.toNat * reference.toNat / 100 < 2 ^ 32) :
    (factor.toUInt64 * reference.toUInt64 / 100).toUInt32.toNat
      = factor.toNat * reference.toNat / 100 := by
  have hprod : (factor.toUInt64 * reference.toUInt64).toNat = factor.toNat * reference.toNat := by
    rw [UInt64.toNat_mul, UInt32.toNat_toUInt64, UInt32.toNat_toUInt64]
    refine Nat.mod_eq_of_lt ?_
    calc factor.toNat * reference.toNat < 2 ^ 32 * 2 ^ 32 :=
          Nat.mul_lt_mul_of_lt_of_lt factor.toNat_lt reference.toNat_lt
      _ = 2 ^ 64 := by norm_num
  have hhundred : (100 : UInt64).toNat = 100 := rfl
  rw [UInt64.toNat_toUInt32, UInt64.toNat_div, hprod, hhundred]
  exact Nat.mod_eq_of_lt h

/-- A pulse agrees with itself, unless the upper bound is cut. -/
theorem pulsesAgree_self (htol : tolerance ≤ 100) {timing : Int32}
    (hlong : (magnitude timing).toNat < 2 ^ 31) : pulsesAgree tolerance timing timing = true := by
  have htol : tolerance.toNat ≤ 100 := UInt8.le_iff_toNat_le.mp htol
  have hless : (100 - tolerance.toUInt32).toNat = 100 - tolerance.toNat :=
    UInt32.toNat_sub_of_le _ _ (UInt32.le_iff_toNat_le.mpr htol)
  have hmore : (100 + tolerance.toUInt32).toNat = 100 + tolerance.toNat := by
    rw [UInt32.toNat_add, UInt8.toNat_toUInt32]
    exact Nat.mod_eq_of_lt (by omega : 100 + tolerance.toNat < 2 ^ 32)
  have hlo : (100 - tolerance.toNat) * (magnitude timing).toNat ≤ 100 * (magnitude timing).toNat :=
    Nat.mul_le_mul_right _ (by omega)
  have hhi : 100 * (magnitude timing).toNat ≤ (100 + tolerance.toNat) * (magnitude timing).toNat :=
    Nat.mul_le_mul_right _ (by omega)
  have hcap : (100 + tolerance.toNat) * (magnitude timing).toNat ≤ 200 * (magnitude timing).toNat :=
    Nat.mul_le_mul_right _ (by omega)
  have hlower := toNat_percent (100 - tolerance.toUInt32) (magnitude timing)
    (by rw [hless]; omega)
  have hupper := toNat_percent (100 + tolerance.toUInt32) (magnitude timing)
    (by rw [hmore]; omega)
  rw [hless] at hlower
  rw [hmore] at hupper
  unfold pulsesAgree
  simp only [beq_self_eq_true, Bool.true_and, Bool.not_eq_true', Bool.or_eq_false_iff,
    decide_eq_false_iff_not, UInt32.lt_iff_toNat_lt]
  rw [hlower, hupper]
  constructor <;> omega

/-- **A valid frame agrees with itself**, within the limits under which no bound is cut. -/
theorem framesAgree_self {limits : CaptureLimits} {frame : Frame} (htol : limits.tolerancePercent ≤ 100)
    (hlong : limits.maxPulseUs < 2 ^ 31) (hvalid : validateFrame frame limits = .ok)
    (hne : frame ≠ []) : framesAgree frame frame limits.tolerancePercent = true := by
  refine framesAgree_iff.mpr ⟨rfl, hne, fun p hp => ?_⟩
  obtain ⟨x, hx, rfl⟩ : ∃ x ∈ frame, p = (x, x) := by
    rw [List.zip_eq_zipWith, List.zipWith_self] at hp
    obtain ⟨x, hx, hp⟩ := List.mem_map.mp hp
    exact ⟨x, hx, hp.symm⟩
  refine pulsesAgree_self htol ?_
  have hle := UInt32.le_iff_toNat_le.mp (magnitude_le_of_inRange ((validateFrame_eq_ok.mp hvalid).2.2 x hx))
  have hlt : limits.maxPulseUs.toNat < 2 ^ 31 := UInt32.lt_iff_toNat_lt.mp hlong
  exact Nat.lt_of_le_of_lt hle hlt

end Agreement

/-! ## Splitting -/

section Splitting

variable (frameGapMinUs : UInt32)

/-- **What each step of the loop keeps, the loop keeps** up to its last step, which closes what is
    still being collected. -/
theorem splitLoop_inv {P : Frame → SplitFrames → Prop}
    (hclose : ∀ current result timing, timing < 0 ∧ magnitude timing ≥ frameGapMinUs → current ≠ [] →
      P current result → P [] ⟨result.frames ++ [current], result.gaps ++ [magnitude timing]⟩)
    (hcollect : ∀ current result timing, ¬ (timing < 0 ∧ magnitude timing ≥ frameGapMinUs) →
      P current result → P (current ++ [timing]) result)
    (timings : Frame) : ∀ (current : Frame) (result : SplitFrames), P current result →
    ∃ last collected, P last collected ∧
      splitLoop frameGapMinUs current result timings
        = if last.isEmpty then collected
          else { collected with frames := collected.frames ++ [last] } := by
  induction timings with
  | nil => exact fun current result h => ⟨current, result, h, rfl⟩
  | cons timing timings ih =>
    intro current result h
    rw [splitLoop]
    by_cases hlong : timing < 0 ∧ magnitude timing ≥ frameGapMinUs
    · rw [if_pos hlong]
      by_cases hempty : current.isEmpty = true
      · rw [if_pos hempty]
        exact ih current result h
      · rw [if_neg hempty]
        exact ih _ _ (hclose current result timing hlong (by simpa using hempty) h)
    · rw [if_neg hlong]
      exact ih _ _ (hcollect current result timing hlong h)

theorem splitLoop_lengths (timings : Frame) :
    (splitLoop frameGapMinUs [] {} timings).frames.length - 1 ≤
      (splitLoop frameGapMinUs [] {} timings).gaps.length := by
  obtain ⟨last, collected, hlen, hout⟩ := splitLoop_inv frameGapMinUs
    (P := fun _ result => result.gaps.length = result.frames.length)
    (fun current result timing _ _ hlen => by simp [hlen]) (fun _ _ _ _ hlen => hlen) timings [] {} rfl
  rw [hout]
  split
  · omega
  · simp only [List.length_append, List.length_singleton]
    omega

/-- There is a gap between any two neighbours, and no other. -/
theorem length_gaps (timings : Frame) : (splitFrames timings frameGapMinUs).gaps.length
    = (splitFrames timings frameGapMinUs).frames.length - 1 := by
  have hlen := splitLoop_lengths frameGapMinUs timings
  unfold splitFrames
  rw [List.length_take]
  exact Nat.min_eq_left hlen

end Splitting

/-! ## The estimate -/

/-- An estimate that is not refused is what the whole part of the average leaves beside the frame. -/
theorem toNat_estimateGapUs {spanUs intervals frameUs minGapUs maxGapUs minIntervals : UInt32}
    (h : estimateGapUs spanUs intervals frameUs minGapUs maxGapUs minIntervals ≠ 0) :
    minIntervals ≤ intervals ∧ 0 < intervals.toNat ∧
      frameUs.toNat
          + (estimateGapUs spanUs intervals frameUs minGapUs maxGapUs minIntervals).toNat
        = spanUs.toNat / intervals.toNat := by
  unfold estimateGapUs at h ⊢
  split at h
  · exact absurd rfl h
  split at h
  · exact absurd rfl h
  split at h
  · exact absurd rfl h
  rename_i hmin hperiod hrange
  rw [if_neg hmin, if_neg hperiod, if_neg hrange]
  rw [not_or] at hmin
  have hframe : frameUs ≤ spanUs / intervals := by
    rw [UInt32.le_iff_toNat_le] at hperiod ⊢
    omega
  refine ⟨UInt32.not_lt.mp hmin.1, ?_, ?_⟩
  · rcases Nat.eq_zero_or_pos intervals.toNat with hzero | hpos
    · exact absurd (UInt32.toNat_inj.mp hzero) hmin.2
    · exact hpos
  · rw [UInt32.toNat_sub_of_le _ _ hframe, UInt32.toNat_div]
    rw [UInt32.le_iff_toNat_le, UInt32.toNat_div] at hframe
    exact Nat.add_sub_cancel' hframe

/-- An estimate that is not refused is within the bounds. -/
theorem estimateGapUs_bounds {spanUs intervals frameUs minGapUs maxGapUs minIntervals : UInt32}
    (h : estimateGapUs spanUs intervals frameUs minGapUs maxGapUs minIntervals ≠ 0) :
    minGapUs ≤ estimateGapUs spanUs intervals frameUs minGapUs maxGapUs minIntervals ∧
      estimateGapUs spanUs intervals frameUs minGapUs maxGapUs minIntervals ≤ maxGapUs := by
  unfold estimateGapUs at h ⊢
  split at h
  · exact absurd rfl h
  · split at h
    · exact absurd rfl h
    · split at h
      · exact absurd rfl h
      · rename_i hmin hperiod hrange
        rw [if_neg hmin, if_neg hperiod, if_neg hrange]
        rw [not_or] at hrange
        exact ⟨UInt32.not_lt.mp hrange.1, UInt32.not_lt.mp hrange.2⟩

end RfCloner
