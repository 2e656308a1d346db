/-
  The fields that a learn leaves alone.

  `learn` clears some of the fields a capture is made in and leaves the others to be overwritten
  (`Stale`).  A window does the same to the rest of the capture whatever these are
  (`receive_withStale`), but for one decision: the count of intervals may complete it.  `SpanOrigin`
  follows how much of the span of arrivals is from this learn; two captures that agree on that part
  still do after any window (`Admits.next`), and what is left open can stand as it likes
  (`exists_before`).  `GapOpen` says when the gap of a capture hangs on the span.
-/
import RfCloner.Device.Gap

namespace RfCloner

open CaptureState

/-! ## The fields that stay -/

/-- The fields of a capture that `learn` does not clear. -/
@[ext]
structure Stale where
  firstFrameUs : UInt32
  lastFrameUs : UInt32
  intervalCount : UInt32
  readySinceMs : UInt32

namespace CaptureState

def stale (s : CaptureState) : Stale :=
  ⟨s.firstFrameUs, s.lastFrameUs, s.intervalCount, s.readySinceMs⟩

def withStale (s : CaptureState) (t : Stale) : CaptureState :=
  { s with
    firstFrameUs := t.firstFrameUs
    lastFrameUs := t.lastFrameUs
    intervalCount := t.intervalCount
    readySinceMs := t.readySinceMs }

variable (s : CaptureState) (t u : Stale)

@[simp] theorem withStale_stale : s.withStale s.stale = s := rfl
@[simp] theorem stale_withStale : (s.withStale t).stale = t := rfl
@[simp] theorem withStale_withStale : (s.withStale t).withStale u = s.withStale u := rfl
@[simp] theorem candidate_withStale : (s.withStale t).candidate = s.candidate := rfl
@[simp] theorem agreements_withStale : (s.withStale t).agreements = s.agreements := rfl
@[simp] theorem physicalGaps_withStale : (s.withStale t).physicalGaps = s.physicalGaps := rfl
@[simp] theorem ready_withStale : (s.withStale t).ready = s.ready := rfl

end CaptureState

/-- What becoming ready makes of them. -/
def Stale.settle (cfg : CaptureConfig) (s : CaptureState) (nowMs : UInt32) (t : Stale) : Stale :=
  if s.agreements ≥ cfg.minRepeats.toUInt32 ∧ s.ready = false then { t with readySinceMs := nowMs }
  else t

namespace Window

variable (cfg : CaptureConfig) (w : Window)

/-- The single-frame path takes the window as one more repeat of the candidate. -/
def repeats : Bool := w.taken cfg && !differs cfg w.found.candidate w.blob

/-- The capture after a repeat, up to the fields that stay. -/
def repeated : CaptureState := { w.found with agreements := w.found.agreements + 1, sawFrame := true }

/-- Whether a repeat comes too late after the last frame, which arrived at `lastFrameUs`. -/
def lateAfter (lastFrameUs : UInt32) : Bool :=
  w.nowUs - lastFrameUs > frameDurationUs w.blob + cfg.maxGapUs

/-- What one more arrival makes of the fields that stay. -/
def timed (t : Stale) : Stale :=
  if w.lateAfter cfg t.lastFrameUs then ⟨w.nowUs, w.nowUs, 0, t.readySinceMs⟩
  else ⟨t.firstFrameUs, w.nowUs, t.intervalCount + 1, t.readySinceMs⟩

/-- What the window makes of the fields that stay. -/
def next (nowMs : UInt32) (t : Stale) : Stale :=
  if w.consumed cfg then t.settle cfg (tally cfg w) nowMs
  else if w.repeats cfg then Stale.settle cfg w.repeated nowMs (w.timed cfg t)
  else if w.taken cfg then ⟨w.nowUs, w.nowUs, 0, t.readySinceMs⟩
  else t

/-- Whether the window completes the capture. -/
def completes (nowMs : UInt32) (t : Stale) : Bool :=
  if w.consumed cfg then
    ((tally cfg w).settle cfg nowMs).ready && decide ((tally cfg w).physicalGaps.length ≥ 2)
  else w.repeats cfg && (w.repeated.settle cfg nowMs).ready
    && decide ((w.next cfg nowMs t).intervalCount ≥ gapIntervalTarget)

end Window

/-! ## A window and the fields that stay -/

namespace CaptureState

variable (cfg : CaptureConfig)

theorem settle_withStale (s : CaptureState) (nowMs : UInt32) (t : Stale) :
    (s.withStale t).settle cfg nowMs = (s.settle cfg nowMs).withStale (t.settle cfg s nowMs) := by
  by_cases henough : s.agreements ≥ cfg.minRepeats.toUInt32 ∧ s.ready = false
  · have hold : (s.withStale t).settle cfg nowMs
        = { s.withStale t with ready := true, readySinceMs := nowMs } := if_pos henough
    rw [hold, settle, Stale.settle, if_pos henough, if_pos henough]
    rfl
  · have hold : (s.withStale t).settle cfg nowMs = s.withStale t := if_neg henough
    rw [hold, settle, Stale.settle, if_neg henough, if_neg henough]

theorem countPair_withStale (s : CaptureState) (first : Frame) (gap : UInt32) (t : Stale) :
    (s.withStale t).countPair cfg first gap = (s.countPair cfg first gap).withStale t := by
  cases hdiffers : differs cfg s.candidate first with
  | true =>
    rw [countPair_of_differs gap hdiffers,
      countPair_of_differs (s := s.withStale t) gap hdiffers]
    rfl
  | false =>
    rw [countPair_of_agrees gap hdiffers, countPair_of_agrees (s := s.withStale t) gap hdiffers]
    rfl

theorem foldl_countPair_withStale (pairs : List (Frame × Frame × UInt32)) (t : Stale) :
    ∀ s : CaptureState,
    pairs.foldl (fun s pair => s.countPair cfg pair.1 pair.2.2) (s.withStale t)
      = (pairs.foldl (fun s pair => s.countPair cfg pair.1 pair.2.2) s).withStale t := by
  induction pairs with
  | nil => exact fun s => rfl
  | cons pair pairs ih =>
    intro s
    rw [List.foldl_cons, countPair_withStale, ih]
    rfl

/-- Counting pairs does not make a capture ready. -/
theorem ready_of_foldl_countPair (pairs : List (Frame × Frame × UInt32)) : ∀ s : CaptureState,
    (pairs.foldl (fun s pair => s.countPair cfg pair.1 pair.2.2) s).ready = true → s.ready = true := by
  induction pairs with
  | nil => exact fun s h => h
  | cons pair pairs ih =>
    intro s h
    have hpair : (s.countPair cfg pair.1 pair.2.2).ready = true := ih _ h
    cases hdiffers : differs cfg s.candidate pair.1 with
    | true =>
      rw [countPair_of_differs pair.2.2 hdiffers] at hpair
      cases hpair
    | false =>
      rw [countPair_of_agrees pair.2.2 hdiffers] at hpair
      exact hpair

/-- A capture is ready after `settle` if it was, or has the agreements. -/
theorem ready_settle (s : CaptureState) (nowMs : UInt32) : (s.settle cfg nowMs).ready = true ↔
    s.ready = true ∨ s.agreements ≥ cfg.minRepeats.toUInt32 := by
  unfold settle
  split
  · rename_i henough
    exact ⟨fun _ => Or.inr henough.1, fun _ => rfl⟩
  · rename_i hshort
    constructor
    · exact Or.inl
    · rintro (hready | hagreements)
      · exact hready
      · by_contra hready
        exact hshort ⟨hagreements, Bool.eq_false_iff.mpr hready⟩

theorem physicalGaps_settle (s : CaptureState) (nowMs : UInt32) :
    (s.settle cfg nowMs).physicalGaps = s.physicalGaps := by
  unfold settle
  split <;> rfl

variable {cfg} {rawData : Frame} {nowUs nowMs : UInt32} {w : Window}

theorem taken_eq (hconsumed : w.consumed cfg = false) :
    w.taken cfg = decide (validateFrame w.blob cfg.limits = .ok) := by
  rw [Window.taken, hconsumed, Bool.not_false, Bool.true_and]

/-- A window of one good frame that does not replace the candidate repeats it. -/
theorem repeats_eq (htaken : w.taken cfg = true) :
    w.repeats cfg = !differs cfg w.found.candidate w.blob := by
  rw [Window.repeats, htaken, Bool.true_and]

theorem repeats_of_not_taken (htaken : w.taken cfg = false) : w.repeats cfg = false := by
  rw [Window.repeats, htaken, Bool.false_and]

variable (nowMs) in
/-- What a repeat makes of the capture and of the fields that stay. -/
theorem takeFrame_withStale (hconsumed : w.consumed cfg = false) (hrepeats : w.repeats cfg = true)
    (hdiffers : differs cfg w.found.candidate w.blob = false) (t : Stale) :
    ((w.found.withStale t).takeFrame cfg w.blob w.nowUs nowMs).1
      = (w.repeated.settle cfg nowMs).withStale (w.next cfg nowMs t) := by
  have hlate : late cfg (w.found.withStale t) w.blob w.nowUs = w.lateAfter cfg t.lastFrameUs := rfl
  rw [takeFrame_of_agrees (s := w.found.withStale t) w.nowUs nowMs hdiffers, hlate, Window.next,
    if_neg (Bool.eq_false_iff.mp hconsumed), if_pos hrepeats, ← settle_withStale, Window.timed]
  congr 1
  split <;> rfl

variable (cfg nowMs) in
/-- **What a window does to a capture with other fields in place of those that stay**: the same to
    all the rest. -/
theorem receive_withStale (hblob : w.blob = stripTerminator rawData) (t : Stale) :
    (w.found.withStale t).receive cfg rawData w.nowUs nowMs =
      ((w.found.receive cfg rawData w.nowUs nowMs).1.withStale (w.next cfg nowMs t),
        w.completes cfg nowMs t) := by
  obtain ⟨s, blob, nowUs⟩ := w
  obtain rfl : blob = stripTerminator rawData := hblob
  cases hconsumed : (⟨s, stripTerminator rawData, nowUs⟩ : Window).consumed cfg with
  | true =>
    have hold : (⟨s.withStale t, stripTerminator rawData, nowUs⟩ : Window).consumed cfg = true :=
      hconsumed
    have htally : tally cfg ⟨s.withStale t, stripTerminator rawData, nowUs⟩
        = (tally cfg ⟨s, stripTerminator rawData, nowUs⟩).withStale t :=
      foldl_countPair_withStale cfg _ t s
    rw [receive_eq_of_consumed hold, receive_of_consumed hconsumed, htally, settle_withStale,
      Window.next, if_pos hconsumed, Window.completes, if_pos hconsumed, ready_withStale,
      physicalGaps_withStale, physicalGaps_settle]
  | false =>
    have hold : (⟨s.withStale t, stripTerminator rawData, nowUs⟩ : Window).consumed cfg = false :=
      hconsumed
    have htaken := taken_eq hconsumed
    rw [receive_of_not_consumed hold, receive_of_not_consumed hconsumed]
    unfold takeWindow
    split
    · rename_i hvalid
      rw [decide_eq_true hvalid] at htaken
      have hrepeats := repeats_eq htaken
      cases hdiffers : differs cfg s.candidate (stripTerminator rawData) with
      | true =>
        rw [hdiffers] at hrepeats
        rw [takeFrame_eq_of_differs (s := s.withStale t) nowUs nowMs hdiffers,
          takeFrame_of_differs nowUs nowMs hdiffers, Window.next, Window.completes, hconsumed, hrepeats,
          htaken]
        rfl
      | false =>
        rw [hdiffers] at hrepeats
        have hnew := takeFrame_withStale nowMs hconsumed hrepeats hdiffers t
        have hsame := takeFrame_withStale nowMs hconsumed hrepeats hdiffers s.stale
        refine Prod.ext ?_ ?_
        · dsimp only at hnew hsame ⊢
          rw [withStale_stale] at hsame
          rw [hnew, hsame, withStale_withStale]
        · rw [commit_takeFrame_of_agrees (s := s.withStale t) nowUs nowMs hdiffers]
          dsimp only at hnew ⊢
          rw [hnew, Window.completes, hconsumed, hrepeats]
          rfl
    · rename_i hinvalid
      rw [decide_eq_false hinvalid] at htaken
      rw [Window.next, Window.completes, hconsumed, repeats_of_not_taken htaken, htaken]
      rfl

variable (cfg nowMs) in
/-- The fields that stay, after a window. -/
theorem stale_receive (hblob : w.blob = stripTerminator rawData) :
    (w.found.receive cfg rawData w.nowUs nowMs).1.stale = w.next cfg nowMs w.found.stale := by
  have h := receive_withStale cfg nowMs hblob w.found.stale
  rw [withStale_stale] at h
  conv_lhs => rw [h]
  rfl

/-- What a window of several frames leaves, up to the fields that stay. -/
theorem ready_receive_of_consumed (hblob : w.blob = stripTerminator rawData)
    (hconsumed : w.consumed cfg = true) :
    (w.found.receive cfg rawData w.nowUs nowMs).1.ready = ((tally cfg w).settle cfg nowMs).ready := by
  obtain ⟨s, blob, nowUs⟩ := w
  obtain rfl : blob = stripTerminator rawData := hblob
  rw [receive_of_consumed hconsumed]

/-- The readiness of a capture after a window that is left to the single-frame path. -/
theorem ready_receive_of_not_consumed (hblob : w.blob = stripTerminator rawData)
    (hconsumed : w.consumed cfg = false) :
    (w.found.receive cfg rawData w.nowUs nowMs).1.ready =
      if w.repeats cfg then (w.repeated.settle cfg nowMs).ready
      else !w.taken cfg && w.found.ready := by
  obtain ⟨s, blob, nowUs⟩ := w
  obtain rfl : blob = stripTerminator rawData := hblob
  have htaken := taken_eq hconsumed
  rw [receive_of_not_consumed hconsumed]
  unfold takeWindow
  split
  · rename_i hvalid
    rw [decide_eq_true hvalid] at htaken
    have hrepeats := repeats_eq htaken
    cases hdiffers : differs cfg s.candidate (stripTerminator rawData) with
    | true =>
      rw [hdiffers] at hrepeats
      rw [takeFrame_of_differs nowUs nowMs hdiffers, hrepeats, htaken]
      rfl
    | false =>
      rw [hdiffers] at hrepeats
      have h := takeFrame_withStale nowMs hconsumed hrepeats hdiffers s.stale
      dsimp only at h
      rw [withStale_stale] at h
      rw [h, hrepeats]
      rfl
  · rename_i hinvalid
    rw [decide_eq_false hinvalid] at htaken
    rw [repeats_of_not_taken htaken, htaken]
    rfl

end CaptureState

/-! ## How much of the span is from this learn -/

/-- Where the span of arrivals comes from: from before the learn, from before it but for the last
    arrival, or from the learn. -/
inductive SpanOrigin where
  | earlier | arrival | own
  deriving DecidableEq

namespace SpanOrigin

variable (cfg : CaptureConfig)

/-- What a window makes of it. -/
def after (w : Window) (origin : SpanOrigin) : SpanOrigin :=
  if w.repeats cfg then
    match origin with
    | earlier => arrival
    | arrival => if w.lateAfter cfg w.found.lastFrameUs then own else arrival
    | own => own
  else if w.taken cfg then own
  else origin

/-- What is the same in any two captures that have come to this. -/
def Admits (origin : SpanOrigin) (ready : Bool) (t u : Stale) : Prop :=
  (ready = true → u.readySinceMs = t.readySinceMs) ∧
    match origin with
    | earlier => True
    | arrival => u.lastFrameUs = t.lastFrameUs
    | own => u.firstFrameUs = t.firstFrameUs ∧ u.lastFrameUs = t.lastFrameUs ∧
        u.intervalCount = t.intervalCount

variable {cfg} {origin : SpanOrigin} {w : Window} {rawData : Frame} {nowMs : UInt32} {t u : Stale}

/-- A window that is not one good frame leaves the span alone. -/
theorem after_of_not_taken (htaken : w.taken cfg = false) : origin.after cfg w = origin := by
  unfold after
  rw [repeats_of_not_taken htaken, htaken]
  rfl

/-- A window that replaces the candidate starts the span over. -/
theorem after_of_taken (htaken : w.taken cfg = true) (hrepeats : w.repeats cfg = false) :
    origin.after cfg w = own := by
  unfold after
  rw [hrepeats, htaken]
  rfl

theorem earlier_after (hrepeats : w.repeats cfg = true) : earlier.after cfg w = arrival :=
  if_pos hrepeats

theorem arrival_after (hrepeats : w.repeats cfg = true) :
    arrival.after cfg w = if w.lateAfter cfg w.found.lastFrameUs then own else arrival :=
  if_pos hrepeats

/-- A repeat that leaves something of before the learn in the span leaves all but the arrival. -/
theorem after_of_ne_own (hrepeats : w.repeats cfg = true) (hown : origin.after cfg w ≠ .own) :
    origin.after cfg w = .arrival := by
  cases origin with
  | earlier => exact earlier_after hrepeats
  | arrival =>
    rw [arrival_after hrepeats] at hown ⊢
    exact (ite_eq_or_eq _ _ _).resolve_left hown
  | own => exact absurd (if_pos hrepeats) hown

theorem own_after (w : Window) : own.after cfg w = own := by
  unfold after
  dsimp only
  rw [ite_self, ite_self]

theorem Admits.refl (origin : SpanOrigin) (ready : Bool) (t : Stale) : origin.Admits ready t t := by
  refine ⟨fun _ => rfl, ?_⟩
  cases origin with
  | earlier => trivial
  | arrival => exact rfl
  | own => exact ⟨rfl, rfl, rfl⟩

/-- Becoming ready settles the time of it. -/
theorem Admits.settle {s : CaptureState} (h : origin.Admits s.ready t u) (nowMs : UInt32) :
    origin.Admits (s.settle cfg nowMs).ready (t.settle cfg s nowMs) (u.settle cfg s nowMs) := by
  unfold Stale.settle
  split
  · refine ⟨fun _ => rfl, ?_⟩
    cases origin with
    | earlier => trivial
    | arrival => exact h.2
    | own => exact h.2
  · rename_i hshort
    rw [CaptureState.settle, if_neg hshort]
    exact h

theorem lastFrameUs_timed (w : Window) (t : Stale) : (w.timed cfg t).lastFrameUs = w.nowUs := by
  unfold Window.timed
  split <;> rfl

theorem readySinceMs_timed (w : Window) (t : Stale) :
    (w.timed cfg t).readySinceMs = t.readySinceMs := by
  unfold Window.timed
  split <;> rfl

theorem timed_of_late (h : w.lateAfter cfg t.lastFrameUs = true) :
    w.timed cfg t = ⟨w.nowUs, w.nowUs, 0, t.readySinceMs⟩ := if_pos h

theorem timed_of_next (h : w.lateAfter cfg t.lastFrameUs = false) :
    w.timed cfg t = ⟨t.firstFrameUs, w.nowUs, t.intervalCount + 1, t.readySinceMs⟩ :=
  if_neg (Bool.eq_false_iff.mp h)

theorem lastFrameUs_settle (s : CaptureState) (t : Stale) :
    (t.settle cfg s nowMs).lastFrameUs = t.lastFrameUs := by
  unfold Stale.settle
  split <;> rfl

/-- Becoming ready is about the time of it alone. -/
theorem settle_of_same {s : CaptureState} (h : u.readySinceMs = (t.settle cfg s nowMs).readySinceMs) :
    ({ u with readySinceMs := t.readySinceMs } : Stale).settle cfg s nowMs = u := by
  unfold Stale.settle at h ⊢
  split at h
  · rename_i henough
    rw [if_pos henough, ← show u.readySinceMs = nowMs from h]
  · rename_i hshort
    rw [if_neg hshort, ← h]

/-- Another arrival. -/
theorem Admits.timed {ready : Bool} (hrepeats : w.repeats cfg = true)
    (h : origin.Admits ready w.found.stale u) :
    (origin.after cfg w).Admits ready (w.timed cfg w.found.stale) (w.timed cfg u) := by
  have hready : ready = true → (w.timed cfg u).readySinceMs = (w.timed cfg w.found.stale).readySinceMs := by
    rw [readySinceMs_timed, readySinceMs_timed]
    exact h.1
  cases origin with
  | earlier =>
    rw [earlier_after hrepeats]
    refine ⟨hready, ?_⟩
    show (w.timed cfg u).lastFrameUs = (w.timed cfg w.found.stale).lastFrameUs
    rw [lastFrameUs_timed, lastFrameUs_timed]
  | arrival =>
    have hlast : u.lastFrameUs = w.found.lastFrameUs := h.2
    rw [arrival_after hrepeats]
    cases hlate : w.lateAfter cfg w.found.lastFrameUs with
    | true =>
      refine ⟨hready, ?_⟩
      rw [timed_of_late (hlast ▸ hlate), timed_of_late (t := w.found.stale) hlate]
      exact ⟨rfl, rfl, rfl⟩
    | false =>
      refine ⟨hready, ?_⟩
      show (w.timed cfg u).lastFrameUs = (w.timed cfg w.found.stale).lastFrameUs
      rw [lastFrameUs_timed, lastFrameUs_timed]
  | own =>
    obtain ⟨hfirst, hlast, hcount⟩ := h.2
    rw [own_after]
    refine ⟨hready, ?_⟩
    cases hlate : w.lateAfter cfg w.found.lastFrameUs with
    | true =>
      rw [timed_of_late (hlast ▸ hlate), timed_of_late (t := w.found.stale) hlate]
      exact ⟨rfl, rfl, rfl⟩
    | false =>
      rw [timed_of_next (hlast ▸ hlate), timed_of_next (t := w.found.stale) hlate, hfirst, hcount]
      exact ⟨rfl, rfl, rfl⟩

theorem taken_of_consumed (hconsumed : w.consumed cfg = true) : w.taken cfg = false := by
  rw [Window.taken, hconsumed]
  rfl

variable (cfg nowMs) in
/-- **Captures that agree on what is from the learn still do so after a window.** -/
theorem Admits.next (hblob : w.blob = stripTerminator rawData)
    (h : origin.Admits w.found.ready w.found.stale u) :
    (origin.after cfg w).Admits (w.found.receive cfg rawData w.nowUs nowMs).1.ready
      (w.next cfg nowMs w.found.stale) (w.next cfg nowMs u) := by
  cases hconsumed : w.consumed cfg with
  | true =>
    rw [ready_receive_of_consumed hblob hconsumed, after_of_not_taken (taken_of_consumed hconsumed),
      Window.next, if_pos hconsumed, Window.next, if_pos hconsumed]
    exact Admits.settle ⟨fun hready => h.1 (ready_of_foldl_countPair cfg _ _ hready), h.2⟩ nowMs
  | false =>
    have hnot := Bool.eq_false_iff.mp hconsumed
    rw [ready_receive_of_not_consumed hblob hconsumed]
    cases hrepeats : w.repeats cfg with
    | true =>
      rw [if_pos rfl, Window.next, if_neg hnot, if_pos hrepeats, Window.next, if_neg hnot,
        if_pos hrepeats]
      exact Admits.settle (s := w.repeated) (h.timed hrepeats) nowMs
    | false =>
      rw [Window.next, if_neg hnot, Window.next, if_neg hnot, hrepeats]
      cases htaken : w.taken cfg with
      | true =>
        rw [after_of_taken htaken hrepeats]
        exact ⟨fun hready => (nomatch hready), rfl, rfl, rfl⟩
      | false =>
        rw [after_of_not_taken htaken]
        exact h

/-- As long as the span is not all from the learn, where it starts and over how many intervals is
    open. -/
theorem admits_of_ne_own {ready : Bool} (hown : origin ≠ .own) (hlast : u.lastFrameUs = t.lastFrameUs)
    (hready : u.readySinceMs = t.readySinceMs) : origin.Admits ready t u := by
  refine ⟨fun _ => hready, ?_⟩
  cases origin with
  | earlier => trivial
  | arrival => exact hlast
  | own => exact absurd rfl hown

/-- An arrival that does not start the span over can come to any span that ends with it. -/
theorem exists_timed {ready : Bool} {v : Stale} (hrepeats : w.repeats cfg = true)
    (hown : origin.after cfg w ≠ .own) (hnow : v.lastFrameUs = w.nowUs) :
    ∃ u, origin.Admits ready w.found.stale u ∧ u.readySinceMs = w.found.readySinceMs ∧
      w.timed cfg u = { v with readySinceMs := w.found.readySinceMs } := by
  -- the arrival before it is from before the learn, or it is fixed
  obtain ⟨last, hlate, hadmits⟩ : ∃ last, w.lateAfter cfg last = false ∧
      ∀ u : Stale, u.lastFrameUs = last → u.readySinceMs = w.found.readySinceMs →
        origin.Admits ready w.found.stale u := by
    cases origin with
    | earlier =>
      have hnext : w.lateAfter cfg w.nowUs = false := by simp [Window.lateAfter]
      exact ⟨w.nowUs, hnext, fun u _ hready => ⟨fun _ => hready, trivial⟩⟩
    | arrival =>
      cases hlate : w.lateAfter cfg w.found.lastFrameUs with
      | true => exact absurd ((arrival_after hrepeats).trans (if_pos hlate)) hown
      | false => exact ⟨_, hlate, fun u hlast hready => ⟨fun _ => hready, hlast⟩⟩
    | own => exact absurd (own_after w) hown
  refine ⟨⟨v.firstFrameUs, last, v.intervalCount - 1, w.found.readySinceMs⟩, hadmits _ rfl rfl, rfl, ?_⟩
  have hcount : v.intervalCount - 1 + 1 = v.intervalCount := UInt32.sub_add_cancel _ _
  exact (if_neg (Bool.eq_false_iff.mp hlate)).trans (Stale.ext rfl hnow.symm hcount rfl)

variable (cfg nowMs) in
/-- What a window can come to, it can come to from what it admits before. -/
theorem exists_before (hblob : w.blob = stripTerminator rawData) {v : Stale}
    (h : (origin.after cfg w).Admits (w.found.receive cfg rawData w.nowUs nowMs).1.ready
      (w.next cfg nowMs w.found.stale) v)
    (hsame : v.readySinceMs = (w.next cfg nowMs w.found.stale).readySinceMs) :
    ∃ u, origin.Admits w.found.ready w.found.stale u ∧ u.readySinceMs = w.found.readySinceMs ∧
      w.next cfg nowMs u = v := by
  by_cases hown : origin.after cfg w = .own
  · -- nothing is old, so there is nothing to choose
    rw [hown] at h
    obtain ⟨-, hfirst, hlast, hcount⟩ := h
    exact ⟨w.found.stale, Admits.refl _ _ _, rfl, (Stale.ext hfirst hlast hcount hsame).symm⟩
  cases hconsumed : w.consumed cfg with
  | true =>
    rw [after_of_not_taken (taken_of_consumed hconsumed)] at h hown
    rw [Window.next, if_pos hconsumed] at h hsame
    refine ⟨{ v with readySinceMs := w.found.readySinceMs }, ⟨fun _ => rfl, ?_⟩, rfl, ?_⟩
    · cases origin with
      | earlier => trivial
      | arrival => exact h.2.trans (lastFrameUs_settle _ _)
      | own => exact absurd rfl hown
    · rw [Window.next, if_pos hconsumed]
      exact settle_of_same hsame
  | false =>
    have hnot := Bool.eq_false_iff.mp hconsumed
    cases hrepeats : w.repeats cfg with
    | true =>
      rw [Window.next, if_neg hnot, if_pos hrepeats] at h hsame
      have hnow : v.lastFrameUs = w.nowUs := by
        rw [after_of_ne_own hrepeats hown] at h
        exact h.2.trans ((lastFrameUs_settle _ _).trans (lastFrameUs_timed _ _))
      obtain ⟨u, hadmits, hready, htimed⟩ := exists_timed hrepeats hown hnow
      refine ⟨u, hadmits, hready, ?_⟩
      have hsince : (w.timed cfg w.found.stale).readySinceMs = w.found.readySinceMs :=
        readySinceMs_timed w _
      rw [Window.next, if_neg hnot, if_pos hrepeats, htimed, ← hsince]
      exact settle_of_same hsame
    | false =>
      cases htaken : w.taken cfg with
      | true => exact absurd (after_of_taken htaken hrepeats) hown
      | false =>
        have hnext : ∀ u, w.next cfg nowMs u = u := fun u => by
          rw [Window.next, if_neg hnot, hrepeats, htaken]
          rfl
        rw [after_of_not_taken htaken, ready_receive_of_not_consumed hblob hconsumed, hrepeats, htaken,
          hnext] at h
        rw [hnext] at hsame
        exact ⟨v, h, hsame, hnext v⟩

end SpanOrigin

/-! ## What decides by them -/

namespace CaptureState

variable (cfg : CaptureConfig) (s : CaptureState)

/-- Whether the gap of the capture hangs on the span of arrivals: nothing plausible is measured, and
    there is an estimate within the bounds that is not the default. -/
def GapOpen : Prop :=
  s.measured cfg = false ∧ ∃ gapUs : UInt32, gapUs ≠ 0 ∧ gapUs ≠ cfg.defaultGapUs ∧
    cfg.minGapUs ≤ gapUs ∧ gapUs ≤ cfg.maxGapUs ∧
    gapMinIntervals.toNat * (gapUs.toNat + (frameDurationUs s.candidate).toNat) < 2 ^ 32

variable {cfg s}

/-- An estimate that is not refused leaves room for the intervals it is over. -/
theorem estimateGapUs_room {spanUs intervals frameUs minGapUs maxGapUs minIntervals : UInt32}
    (h : estimateGapUs spanUs intervals frameUs minGapUs maxGapUs minIntervals ≠ 0) :
    minIntervals.toNat *
      ((estimateGapUs spanUs intervals frameUs minGapUs maxGapUs minIntervals).toNat + frameUs.toNat)
      < 2 ^ 32 := by
  obtain ⟨hmin, -, hperiod⟩ := toNat_estimateGapUs h
  rw [Nat.add_comm, hperiod]
  have hspan := spanUs.toNat_lt
  calc minIntervals.toNat * (spanUs.toNat / intervals.toNat)
      ≤ intervals.toNat * (spanUs.toNat / intervals.toNat) :=
        Nat.mul_le_mul_right _ (UInt32.le_iff_toNat_le.mp hmin)
    _ ≤ spanUs.toNat := Nat.mul_div_le _ _
    _ < 2 ^ 32 := hspan

/-- A span of as many periods as are needed has the gap for its estimate. -/
theorem estimateGapUs_of_room {frameUs gapUs minGapUs maxGapUs : UInt32} (hpos : gapUs ≠ 0)
    (hmin : minGapUs ≤ gapUs) (hmax : gapUs ≤ maxGapUs)
    (hroom : gapMinIntervals.toNat * (gapUs.toNat + frameUs.toNat) < 2 ^ 32) :
    estimateGapUs (gapMinIntervals * (gapUs + frameUs)) gapMinIntervals frameUs minGapUs maxGapUs
      gapMinIntervals = gapUs := by
  have hthree : gapMinIntervals.toNat = 3 := rfl
  rw [hthree] at hroom
  have hgap : 0 < gapUs.toNat := by
    rcases Nat.eq_zero_or_pos gapUs.toNat with hzero | hgap
    · exact absurd (UInt32.toNat_inj.mp hzero) hpos
    · exact hgap
  have hsum : (gapUs + frameUs).toNat = gapUs.toNat + frameUs.toNat := by
    rw [UInt32.toNat_add]
    exact Nat.mod_eq_of_lt (by omega)
  have hperiod : gapMinIntervals * (gapUs + frameUs) / gapMinIntervals = gapUs + frameUs := by
    rw [← UInt32.toNat_inj, UInt32.toNat_div, UInt32.toNat_mul, hsum, hthree,
      Nat.mod_eq_of_lt hroom]
    omega
  have hframe : ¬ gapUs + frameUs ≤ frameUs := by
    rw [UInt32.le_iff_toNat_le, hsum]
    omega
  have hrest : gapUs + frameUs - frameUs = gapUs := UInt32.add_sub_cancel _ _
  unfold estimateGapUs
  rw [if_neg (by decide), hperiod, if_neg hframe, hrest, if_neg]
  rw [not_or]
  exact ⟨UInt32.not_lt.mpr hmin, UInt32.not_lt.mpr hmax⟩

theorem measured_withStale (t : Stale) : (s.withStale t).measured cfg = s.measured cfg := rfl

/-- The gap of a capture that is not open is the same whatever the span of arrivals. -/
theorem resolveGapUs_of_not_open (h : ¬ s.GapOpen cfg) (t : Stale) :
    (s.withStale t).resolveGapUs cfg = if s.measured cfg then s.medianGapUs else cfg.defaultGapUs := by
  cases hmeasured : s.measured cfg with
  | true => exact if_pos ((measured_withStale t).trans hmeasured)
  | false =>
    have hnot : ¬ (s.withStale t).measured cfg = true := by
      rw [measured_withStale, hmeasured]
      exact Bool.false_ne_true
    unfold resolveGapUs
    rw [if_neg hnot, if_neg Bool.false_ne_true]
    split
    · rename_i hestimate
      by_contra hne
      obtain ⟨hmin, hmax⟩ := estimateGapUs_bounds hestimate
      exact h ⟨hmeasured, _, hestimate, hne, hmin, hmax, estimateGapUs_room hestimate⟩
    · rfl

/-- **An open gap comes out differently for some span of arrivals that ends where it should.** -/
theorem exists_other_gap (h : s.GapOpen cfg) (lastFrameUs readySinceMs gapUs : UInt32) :
    ∃ t : Stale, t.lastFrameUs = lastFrameUs ∧ t.readySinceMs = readySinceMs ∧
      (s.withStale t).resolveGapUs cfg ≠ gapUs := by
  obtain ⟨hmeasured, other, hpos, hne, hmin, hmax, hroom⟩ := h
  have hnot : ∀ t : Stale, ¬ (s.withStale t).measured cfg = true := by
    intro t
    rw [measured_withStale, hmeasured]
    exact Bool.false_ne_true
  by_cases hdefault : gapUs = cfg.defaultGapUs
  · -- a span of three periods
    refine ⟨⟨lastFrameUs - gapMinIntervals * (other + frameDurationUs s.candidate), lastFrameUs,
      gapMinIntervals, readySinceMs⟩, rfl, rfl, ?_⟩
    have hestimate : (s.withStale ⟨lastFrameUs - gapMinIntervals * (other + frameDurationUs s.candidate),
        lastFrameUs, gapMinIntervals, readySinceMs⟩).estimatedGapUs cfg = other := by
      have hspan : lastFrameUs - (lastFrameUs - gapMinIntervals * (other + frameDurationUs s.candidate))
          = gapMinIntervals * (other + frameDurationUs s.candidate) := by
        rw [UInt32.sub_eq_iff_eq_add, UInt32.add_comm, UInt32.sub_add_cancel]
      show estimateGapUs (lastFrameUs - (lastFrameUs - gapMinIntervals * (other + _))) _ _ _ _ _ = _
      rw [hspan]
      exact estimateGapUs_of_room hpos hmin hmax hroom
    unfold resolveGapUs
    rw [if_neg (hnot _), hestimate, if_pos hpos, hdefault]
    exact hne
  · -- no interval at all
    refine ⟨⟨lastFrameUs, lastFrameUs, 0, readySinceMs⟩, rfl, rfl, ?_⟩
    have hestimate : (s.withStale ⟨lastFrameUs, lastFrameUs, 0, readySinceMs⟩).estimatedGapUs cfg = 0 := by
      show estimateGapUs _ 0 _ _ _ _ = 0
      unfold estimateGapUs
      rw [if_pos (Or.inr rfl)]
    unfold resolveGapUs
    rw [if_neg (hnot _), hestimate, if_neg (not_not_intro rfl)]
    exact fun h => hdefault h.symm

end CaptureState

end RfCloner
