/-
  Whether what a learn stores is one frame.

  `split_frames` cuts a window at its long spaces, and `consume_multi_frame_` looks at the frames it
  is cut into.  When no two neighbours of them agree, the window goes on to the single-frame path as
  it came, long spaces and all, and nothing there looks for them: it is only too long or too noisy by
  chance.  `wholeGap` follows, window by window, whether the candidate is such a window,
  `countsPairs_iff` reads off the counter of repeats whether a window has been counted by its frames
  or for one, and `one_frame_iff` says which runs never store and never count several frames as one.
-/
import RfCloner.Device.Isolation

namespace RfCloner

open CaptureState LearningCloner

/-! ## Long spaces -/

/-- Whether there is a space that `split_frames` cuts at. -/
def hasGap (frameGapMinUs : UInt32) (frame : Frame) : Bool :=
  frame.any fun timing => timing < 0 ∧ magnitude timing ≥ frameGapMinUs

section Splitting

variable {frameGapMinUs : UInt32} {frame : Frame} {timing : Int32}

theorem hasGap_concat (h : hasGap frameGapMinUs frame = false)
    (htiming : ¬ (timing < 0 ∧ magnitude timing ≥ frameGapMinUs)) :
    hasGap frameGapMinUs (frame ++ [timing]) = false := by
  unfold hasGap at h ⊢
  rw [List.any_append, h, List.any_cons, List.any_nil, decide_eq_false htiming]
  rfl

/-- The frames that a window is cut into hold no long space. -/
theorem hasGap_of_splitFrames {timings f : Frame}
    (h : f ∈ (splitFrames timings frameGapMinUs).frames) : hasGap frameGapMinUs f = false := by
  obtain ⟨last, collected, ⟨hlast, hcollected⟩, hout⟩ := splitLoop_inv frameGapMinUs
    (P := fun current result => hasGap frameGapMinUs current = false ∧
      ∀ f ∈ result.frames, hasGap frameGapMinUs f = false)
    (fun _ _ _ _ _ h =>
      ⟨rfl, List.forall_mem_append.mpr ⟨h.2, List.forall_mem_singleton.mpr h.1⟩⟩)
    (fun _ _ _ htiming h => ⟨hasGap_concat h.1 htiming, h.2⟩) timings [] {} ⟨rfl, by simp⟩
  have hf : f ∈ (splitLoop frameGapMinUs [] {} timings).frames := h
  rw [hout] at hf
  split at hf
  · exact hcollected f hf
  · exact List.forall_mem_append.mpr ⟨hcollected, List.forall_mem_singleton.mpr hlast⟩ f hf

end Splitting

/-! ## The candidate -/

/-- Whether the candidate, after some windows, is one that the single-frame path took as it came, with
    a long space in it. -/
def wholeGap (cfg : CaptureConfig) (windows : List Window) : Bool :=
  windows.foldl (fun held w =>
    if w.setsByPairs cfg then false
    else if w.setsAlone cfg then hasGap cfg.frameGapMinUs w.blob
    else held) false

section Candidate

variable {cfg : CaptureConfig} {windows : List Window} {w : Window} {s : CaptureState}

theorem wholeGap_append : wholeGap cfg (windows ++ [w]) =
    if w.setsByPairs cfg then false
    else if w.setsAlone cfg then hasGap cfg.frameGapMinUs w.blob
    else wholeGap cfg windows := by
  unfold wholeGap
  rw [List.foldl_append]
  rfl

/-- A pair that is counted puts no long space into the candidate. -/
theorem hasGap_foldl_countPair (pairs : List (Frame × Frame × UInt32))
    (hpairs : ∀ pair ∈ pairs, hasGap cfg.frameGapMinUs pair.1 = false) : ∀ s : CaptureState,
    (hasGap cfg.frameGapMinUs s.candidate = false ∨
      (pairs.any fun pair => differs cfg s.candidate pair.1) = true) →
    hasGap cfg.frameGapMinUs
      (pairs.foldl (fun s pair => s.countPair cfg pair.1 pair.2.2) s).candidate = false := by
  induction pairs with
  | nil =>
    intro s h
    exact h.resolve_right Bool.false_ne_true
  | cons pair pairs ih =>
    obtain ⟨first, second, gap⟩ := pair
    intro s h
    rw [List.foldl_cons]
    refine ih (fun pair hpair => hpairs pair (List.mem_cons_of_mem _ hpair)) _ ?_
    cases hdiffers : differs cfg s.candidate first with
    | true =>
      rw [countPair_of_differs gap hdiffers]
      exact Or.inl (hpairs _ List.mem_cons_self)
    | false =>
      rw [countPair_of_agrees gap hdiffers]
      rw [List.any_cons, hdiffers, Bool.false_or] at h
      exact h

theorem candidate_settle (s : CaptureState) (nowMs : UInt32) :
    (s.settle cfg nowMs).candidate = s.candidate := by
  unfold settle
  split <;> rfl

/-- The first frames of counted neighbours are frames of the window. -/
theorem hasGap_of_counted {pair : Frame × Frame × UInt32} (h : pair ∈ w.counted cfg) :
    hasGap cfg.frameGapMinUs pair.1 = false :=
  hasGap_of_splitFrames (List.of_mem_zip (List.mem_filter.mp h).1).1

/-- **A window keeps track of whether the candidate holds a long space.** -/
theorem hasGap_receive (rawData : Frame) (nowUs nowMs : UInt32)
    (h : hasGap cfg.frameGapMinUs s.candidate = wholeGap cfg windows) :
    hasGap cfg.frameGapMinUs (s.receive cfg rawData nowUs nowMs).1.candidate
      = wholeGap cfg (windows ++ [⟨s, stripTerminator rawData, nowUs⟩]) := by
  rw [wholeGap_append]
  cases hconsumed : (⟨s, stripTerminator rawData, nowUs⟩ : Window).consumed cfg with
  | true =>
    rw [receive_of_consumed hconsumed, candidate_settle, Window.setsAlone,
      SpanOrigin.taken_of_consumed hconsumed, Bool.false_and]
    cases hpairs : (⟨s, stripTerminator rawData, nowUs⟩ : Window).setsByPairs cfg with
    | true => exact hasGap_foldl_countPair _ (fun pair => hasGap_of_counted) s (Or.inr hpairs)
    | false =>
      rw [tally, foldl_countPair_candidate _ s hpairs]
      exact h
  | false =>
    rw [setsByPairs_of_not_consumed hconsumed, receive_of_not_consumed hconsumed]
    have htaken := taken_eq hconsumed
    unfold takeWindow
    split
    · rename_i hvalid
      rw [decide_eq_true hvalid] at htaken
      rw [Window.setsAlone, htaken, Bool.true_and]
      cases hdiffers : differs cfg s.candidate (stripTerminator rawData) with
      | true =>
        rw [takeFrame_of_differs nowUs nowMs hdiffers]
        rfl
      | false =>
        rw [takeFrame_of_agrees nowUs nowMs hdiffers, candidate_settle]
        exact h
    · rename_i hinvalid
      rw [decide_eq_false hinvalid] at htaken
      rw [Window.setsAlone, htaken, Bool.false_and]
      exact h

end Candidate

/-! ## The counter of repeats -/

namespace CaptureState

variable (cfg : CaptureConfig)

/-- Between two captures the counter has gone on by no more than the pairs of frames counted in the
    window: by all of them, or from one again with a candidate that the window has set. -/
def CountsPairs (w : Window) (s : CaptureState) : Prop :=
  s.agreements = w.found.agreements + UInt32.ofNat (w.counted cfg).length ∨
    (w.setsByPairs cfg = true ∨ w.setsAlone cfg = true) ∧
      ∃ n ≤ (w.counted cfg).length, s.agreements = 1 + UInt32.ofNat n

variable {cfg} {w : Window} {s : CaptureState}

theorem ofNat_length_cons {α : Type*} (a : α) (as : List α) :
    UInt32.ofNat (a :: as).length = 1 + UInt32.ofNat as.length := by
  rw [List.length_cons, UInt32.ofNat_add, UInt32.add_comm]
  rfl

/-- Pairs that agree with the candidate are all counted. -/
theorem agreements_foldl_of_agrees (pairs : List (Frame × Frame × UInt32)) : ∀ s : CaptureState,
    (pairs.any fun pair => differs cfg s.candidate pair.1) = false →
    (pairs.foldl (fun s pair => s.countPair cfg pair.1 pair.2.2) s).agreements
      = s.agreements + UInt32.ofNat pairs.length := by
  induction pairs with
  | nil => exact fun s _ => (UInt32.add_zero _).symm
  | cons pair pairs ih =>
    obtain ⟨first, second, gap⟩ := pair
    intro s hnone
    rw [List.any_cons, Bool.or_eq_false_iff] at hnone
    have hcount := ih (s.countPair cfg first gap)
    rw [countPair_of_agrees gap hnone.1] at hcount
    rw [List.foldl_cons, countPair_of_agrees gap hnone.1, hcount hnone.2, ofNat_length_cons,
      ← UInt32.add_assoc]

/-- From the last pair that differs the count starts again at one. -/
theorem agreements_foldl_of_differs (pairs : List (Frame × Frame × UInt32)) : ∀ s : CaptureState,
    (pairs.any fun pair => differs cfg s.candidate pair.1) = true →
    ∃ n ≤ pairs.length, (pairs.foldl (fun s pair => s.countPair cfg pair.1 pair.2.2) s).agreements
      = 1 + UInt32.ofNat n := by
  induction pairs with
  | nil =>
    intro s h
    cases h
  | cons pair pairs ih =>
    intro s hsome
    rw [List.foldl_cons]
    cases hrest : pairs.any fun p => differs cfg (s.countPair cfg pair.1 pair.2.2).candidate p.1 with
    | true =>
      obtain ⟨n, hn, hcount⟩ := ih _ hrest
      exact ⟨n, Nat.le_succ_of_le hn, hcount⟩
    | false =>
      refine ⟨(pair :: pairs).length, Nat.le_refl _, ?_⟩
      rw [agreements_foldl_of_agrees pairs _ hrest, ofNat_length_cons]
      -- none of the others differs, so it is this pair that starts the count
      cases hdiffers : differs cfg s.candidate pair.1 with
      | true =>
        rw [countPair_of_differs pair.2.2 hdiffers, ← UInt32.add_assoc]
        rfl
      | false =>
        rw [countPair_of_agrees pair.2.2 hdiffers] at hrest
        rw [List.any_cons, hdiffers, Bool.false_or] at hsome
        cases hsome.symm.trans hrest

theorem agreements_settle (s : CaptureState) (nowMs : UInt32) :
    (s.settle cfg nowMs).agreements = s.agreements := by
  unfold settle
  split <;> rfl

variable (cfg) in
/-- **A window goes for one repeat exactly if it is left whole and agrees with the candidate**: any
    other moves the counter by its pairs of frames. -/
theorem countsPairs_iff (s : CaptureState) (rawData : Frame) (nowUs nowMs : UInt32) :
    CountsPairs cfg ⟨s, stripTerminator rawData, nowUs⟩ (s.receive cfg rawData nowUs nowMs).1 ↔
      (⟨s, stripTerminator rawData, nowUs⟩ : Window).repeats cfg = false := by
  cases hconsumed : (⟨s, stripTerminator rawData, nowUs⟩ : Window).consumed cfg with
  | true =>
    refine iff_of_true ?_ (repeats_of_not_taken (SpanOrigin.taken_of_consumed hconsumed))
    rw [CountsPairs, receive_of_consumed hconsumed, agreements_settle]
    cases hpairs : (⟨s, stripTerminator rawData, nowUs⟩ : Window).setsByPairs cfg with
    | true => exact Or.inr ⟨Or.inl rfl, agreements_foldl_of_differs _ s hpairs⟩
    | false => exact Or.inl (agreements_foldl_of_agrees _ s hpairs)
  | false =>
    have hnone : (⟨s, stripTerminator rawData, nowUs⟩ : Window).counted cfg = [] :=
      List.isEmpty_iff.mp (by simpa [Window.consumed] using hconsumed)
    have htaken := taken_eq hconsumed
    rw [CountsPairs, hnone, setsByPairs_of_not_consumed hconsumed, receive_of_not_consumed hconsumed]
    unfold takeWindow
    split
    · rename_i hvalid
      rw [decide_eq_true hvalid] at htaken
      rw [Window.setsAlone, Window.repeats, htaken]
      cases hdiffers : differs cfg s.candidate (stripTerminator rawData) with
      | true =>
        rw [takeFrame_of_differs nowUs nowMs hdiffers]
        exact iff_of_true (Or.inr ⟨Or.inr rfl, 0, Nat.le_refl 0, rfl⟩) rfl
      | false =>
        rw [takeFrame_of_agrees nowUs nowMs hdiffers, agreements_settle]
        refine iff_of_false ?_ (by simp)
        rintro (hsame | ⟨hsets, -⟩)
        · exact absurd ((UInt32.add_right_inj _).mp hsame) (by decide)
        · simp at hsets
    · rename_i hinvalid
      rw [decide_eq_false hinvalid] at htaken
      exact iff_of_true (Or.inl (UInt32.add_zero _).symm) (repeats_of_not_taken htaken)

end CaptureState

/-! ## What is stored -/

namespace LearningCloner

variable {cfg : CaptureConfig} {c : LearningCloner} {saves : Bool}

/-- A commit stores a command exactly if its `put` succeeds. -/
theorem stored_of_commitCapture {call : Call} {command : Command}
    (hcall : call ∈ (c.commitCapture cfg saves).2) (hput : call.effect = .put command .ok) :
    command = c.captured cfg ∧ c.Stores cfg saves := by
  refine ⟨put_of_commitCapture hcall hput, ?_⟩
  have hop : ¬ c.store.NoOp (.put (c.captured cfg)) := fun hnoop => hnoop
  refine (attempt_ok_iff hop).mp ?_
  unfold commitCapture at hcall
  split at hcall
  · rename_i hok
    rw [hok]
  · rename_i result store hne hresult
    rcases List.mem_cons.mp hcall with rfl | hcall
    · exact absurd (Effect.put.inj hput).2 hne
    · obtain rfl := List.mem_singleton.mp hcall
      cases hput

/-- What a window makes of the capture, committed or not. -/
theorem capture_onReceive (harmed : c.state = .armed) (rawData : Frame) (nowUs nowMs : UInt32) :
    (c.onReceive cfg saves rawData nowUs nowMs).1.capture
      = (c.capture.receive cfg rawData nowUs nowMs).1 := by
  rw [onReceive_of_armed cfg harmed]
  split
  · exact capture_commitCapture saves _
  · rfl

theorem exists_stored_commitCapture (h : c.Stores cfg saves) :
    ∃ call ∈ (c.commitCapture cfg saves).2, call.effect = .put (c.captured cfg) .ok := by
  have hop : ¬ c.store.NoOp (.put (c.captured cfg)) := fun hnoop => hnoop
  have hok := (attempt_ok_iff hop).mpr h
  unfold commitCapture
  split
  · exact ⟨_, List.mem_cons_self, rfl⟩
  · rename_i result store hne hresult
    rw [hresult] at hok
    exact absurd hok hne

/-- Only windows and `loop` put anything. -/
theorem put_not_mem_learn {name : Bytes} {timeoutMs nowMs : UInt32} {call : Call} {command : Command}
    {result : StoreResult} (hput : call.effect = .put command result) :
    call ∉ (c.learn cfg name timeoutMs nowMs).2 := by
  unfold learn
  split
  · intro hcall
    rcases List.mem_append.mp hcall with hcall | hcall
    · exact put_not_mem_fail hput hcall
    · exact put_not_mem_arm hput hcall
  · exact put_not_mem_arm hput

theorem put_not_mem_cancel {call : Call} {command : Command} {result : StoreResult}
    (hput : call.effect = .put command result) : call ∉ c.cancel.2 := by
  unfold cancel
  split
  · exact List.not_mem_nil
  · exact put_not_mem_fail hput

end LearningCloner

namespace Observed

variable (cfg : CaptureConfig)

/-- An event that keeps to single frames: what it stores holds no long space, and a window that is cut
    into several frames moves the counter of repeats by its pairs of frames. -/
structure OneFrame (x : Observed) (event : LearnEvent) : Prop where
  stored : ∀ call ∈ (x.cloner.step cfg event).2, ∀ command, call.effect = .put command .ok →
    hasGap cfg.frameGapMinUs command.timings = false
  counted : ∀ saves rawData nowUs nowMs, event = .onReceive saves rawData nowUs nowMs →
    x.cloner.state = .armed → 2 ≤ ((x.cloner.window rawData nowUs).split cfg).frames.length →
    CountsPairs cfg (x.cloner.window rawData nowUs) (x.cloner.step cfg event).1.capture

/-- A window left whole goes for a frame: one of several frames repeats the candidate, or a capture
    is stored whose candidate is one with a long space. -/
def Merges (x : Observed) : LearnEvent → Prop
  | .onReceive saves rawData nowUs nowMs =>
    let w := x.cloner.window rawData nowUs
    x.cloner.state = .armed ∧
      (2 ≤ (w.split cfg).frames.length ∧ w.repeats cfg = true ∨
        wholeGap cfg (x.windows ++ [w]) = true ∧ w.completes cfg nowMs x.cloner.capture.stale = true ∧
          (x.cloner.filled cfg rawData nowUs nowMs).Stores cfg saves)
  | .loop saves nowMs =>
    x.cloner.state = .armed ∧ wholeGap cfg x.windows = true ∧ x.cloner.capture.ready = true ∧
      nowMs - x.cloner.capture.readySinceMs ≥ cfg.settleMs ∧ x.cloner.Stores cfg saves
  | _ => False

variable {cfg} {x : Observed}

/-- What a window stores. -/
theorem stored_window_iff (harmed : x.cloner.state = .armed)
    (hinv : hasGap cfg.frameGapMinUs x.cloner.capture.candidate = wholeGap cfg x.windows)
    (saves : Bool) (rawData : Frame) (nowUs nowMs : UInt32) :
    (∀ call ∈ (x.cloner.onReceive cfg saves rawData nowUs nowMs).2, ∀ command,
        call.effect = .put command .ok → hasGap cfg.frameGapMinUs command.timings = false) ↔
      ¬ (wholeGap cfg (x.windows ++ [x.cloner.window rawData nowUs]) = true ∧
        (x.cloner.window rawData nowUs).completes cfg nowMs x.cloner.capture.stale = true ∧
        (x.cloner.filled cfg rawData nowUs nowMs).Stores cfg saves) := by
  have hgap : hasGap cfg.frameGapMinUs ((x.cloner.filled cfg rawData nowUs nowMs).captured cfg).timings
      = wholeGap cfg (x.windows ++ [x.cloner.window rawData nowUs]) :=
    hasGap_receive rawData nowUs nowMs hinv
  rw [onReceive_of_armed cfg harmed]
  split
  · rename_i hdone
    constructor
    · rintro hall ⟨hwhole, -, hstores⟩
      obtain ⟨call, hcall, hput⟩ := exists_stored_commitCapture hstores
      have hnone := hall call hcall _ hput
      rw [hgap, hwhole] at hnone
      cases hnone
    · intro hno call hcall command hput
      obtain ⟨rfl, hstores⟩ := stored_of_commitCapture hcall hput
      rw [hgap]
      exact Bool.eq_false_iff.mpr fun hwhole => hno ⟨hwhole, hdone, hstores⟩
  · rename_i hleft
    exact ⟨fun _ h => hleft h.2.1, fun _ call hcall => (nomatch hcall)⟩

/-- What `loop` stores. -/
theorem stored_loop_iff (harmed : x.cloner.state = .armed)
    (hinv : hasGap cfg.frameGapMinUs x.cloner.capture.candidate = wholeGap cfg x.windows)
    (saves : Bool) (nowMs : UInt32) :
    (∀ call ∈ (x.cloner.loop cfg saves nowMs).2, ∀ command, call.effect = .put command .ok →
        hasGap cfg.frameGapMinUs command.timings = false) ↔
      ¬ (wholeGap cfg x.windows = true ∧ x.cloner.capture.ready = true ∧
        nowMs - x.cloner.capture.readySinceMs ≥ cfg.settleMs ∧ x.cloner.Stores cfg saves) := by
  by_cases hsettled : x.cloner.capture.ready = true ∧ nowMs - x.cloner.capture.readySinceMs ≥ cfg.settleMs
  · rw [loop_of_settled cfg harmed saves hsettled]
    constructor
    · rintro hall ⟨hwhole, -, -, hstores⟩
      obtain ⟨call, hcall, hput⟩ := exists_stored_commitCapture hstores
      have hnone : hasGap cfg.frameGapMinUs x.cloner.capture.candidate = false := hall call hcall _ hput
      rw [hinv, hwhole] at hnone
      cases hnone
    · intro hno call hcall command hput
      obtain ⟨rfl, hstores⟩ := stored_of_commitCapture hcall hput
      refine Eq.trans hinv ?_
      exact Bool.eq_false_iff.mpr fun hwhole => hno ⟨hwhole, hsettled.1, hsettled.2, hstores⟩
  · refine ⟨fun _ h => hsettled ⟨h.2.1, h.2.2.1⟩, fun _ call hcall command hput => ?_⟩
    unfold loop at hcall
    rw [if_neg (not_not_intro harmed), if_neg hsettled] at hcall
    split at hcall
    · exact absurd hcall (put_not_mem_fail hput)
    · cases hcall

/-- An event keeps to single frames unless it merges some. -/
theorem oneFrame_iff (event : LearnEvent)
    (hinv : x.cloner.state = .armed →
      hasGap cfg.frameGapMinUs x.cloner.capture.candidate = wholeGap cfg x.windows) :
    x.OneFrame cfg event ↔ ¬ x.Merges cfg event := by
  cases event with
  | learn name timeoutMs nowMs =>
    exact ⟨fun _ h => h, fun _ => ⟨fun call hcall command hput => absurd hcall (put_not_mem_learn hput),
      fun _ _ _ _ h => (nomatch h)⟩⟩
  | cancel =>
    exact ⟨fun _ h => h, fun _ => ⟨fun call hcall command hput => absurd hcall (put_not_mem_cancel hput),
      fun _ _ _ _ h => (nomatch h)⟩⟩
  | action saves action =>
    exact ⟨fun _ h => h, fun _ => ⟨fun call hcall => (nomatch hcall), fun _ _ _ _ h => (nomatch h)⟩⟩
  | loop saves nowMs =>
    by_cases harmed : x.cloner.state = .armed
    · have hstored := stored_loop_iff harmed (hinv harmed) saves nowMs
      constructor
      · exact fun h hmerges => hstored.mp h.stored hmerges.2
      · exact fun hno => ⟨hstored.mpr fun h => hno ⟨harmed, h⟩, fun _ _ _ _ h => (nomatch h)⟩
    · have hstep : x.cloner.step cfg (.loop saves nowMs) = (x.cloner, []) := if_pos harmed
      refine ⟨fun _ h => harmed h.1, fun _ => ⟨fun call hcall => ?_, fun _ _ _ _ h => (nomatch h)⟩⟩
      rw [hstep] at hcall
      cases hcall
  | onReceive saves rawData nowUs nowMs =>
    by_cases harmed : x.cloner.state = .armed
    · have hstored := stored_window_iff harmed (hinv harmed) saves rawData nowUs nowMs
      have hcounts : CountsPairs cfg (x.cloner.window rawData nowUs)
          (x.cloner.step cfg (.onReceive saves rawData nowUs nowMs)).1.capture ↔
          (x.cloner.window rawData nowUs).repeats cfg = false := by
        rw [show (x.cloner.step cfg (.onReceive saves rawData nowUs nowMs)).1.capture = _ from
          capture_onReceive harmed rawData nowUs nowMs]
        exact countsPairs_iff cfg x.cloner.capture rawData nowUs nowMs
      constructor
      · rintro h ⟨-, ⟨hframes, hrepeats⟩ | hmerges⟩
        · have hnot := hcounts.mp (h.counted saves rawData nowUs nowMs rfl harmed hframes)
          rw [hrepeats] at hnot
          cases hnot
        · exact hstored.mp h.stored hmerges
      · intro hno
        refine ⟨hstored.mpr fun h => hno ⟨harmed, Or.inr h⟩, ?_⟩
        rintro _ _ _ _ ⟨⟩ - hframes
        exact hcounts.mpr (Bool.eq_false_iff.mpr fun hrepeats =>
          hno ⟨harmed, Or.inl ⟨hframes, hrepeats⟩⟩)
    · have hstep : x.cloner.step cfg (.onReceive saves rawData nowUs nowMs) = (x.cloner, []) :=
        if_pos harmed
      refine ⟨fun _ h => harmed h.1, fun _ => ⟨fun call hcall => ?_, ?_⟩⟩
      · rw [hstep] at hcall
        cases hcall
      · exact fun _ _ _ _ _ h => absurd h harmed

/-- **When no run stores or counts several frames as one.**  Exactly if no window that is cut into
    several frames is left whole and repeats the candidate, and no capture is stored while its
    candidate is a window that was left whole with a long space in it. -/
theorem one_frame_iff (cfg : CaptureConfig) (store : CommandStore) (events : List LearnEvent) :
    (∀ k event, events[k]? = some event → (moment cfg store events k).OneFrame cfg event) ↔
      ∀ k event, events[k]? = some event → ¬ (moment cfg store events k).Merges cfg event := by
  have hiff : ∀ k event, (moment cfg store events k).OneFrame cfg event ↔
      ¬ (moment cfg store events k).Merges cfg event := by
    refine fun k event => oneFrame_iff event fun harmed => ?_
    exact armed_inv (I := fun s windows => hasGap cfg.frameGapMinUs s.candidate = wholeGap cfg windows)
      (fun s => rfl) (fun s windows rawData nowUs nowMs h => hasGap_receive rawData nowUs nowMs h)
      store events k harmed
  exact forall_congr' fun k => forall_congr' fun event => imp_congr_right fun _ => hiff k event

/-- A learn that hears a window of two different frames three times, and settles. -/
def learnMerged : List LearnEvent :=
  [.learn (ascii "fan") 0 0,
    .onReceive true (windowOf 5000 [pulseTrain 400, pulseTrain 1000]) 100000 100,
    .onReceive true (windowOf 5000 [pulseTrain 400, pulseTrain 1000]) 200000 200,
    .onReceive true (windowOf 5000 [pulseTrain 400, pulseTrain 1000]) 300000 300,
    .loop true 1100]

/-- **A window of two frames is stored whole.** -/
theorem merged_window_stored : ¬ ∀ (cfg : CaptureConfig) (store : CommandStore)
    (events : List LearnEvent) (k : Nat) (event : LearnEvent), events[k]? = some event →
    (moment cfg store events k).OneFrame cfg event := by
  intro h
  have hloop := h {} emptyStore learnMerged 4 _ rfl
  have harmed : (moment {} emptyStore learnMerged 4).cloner.state = .armed := by decide +kernel
  have hsettled : (moment {} emptyStore learnMerged 4).cloner.capture.ready = true ∧
      1100 - (moment {} emptyStore learnMerged 4).cloner.capture.readySinceMs ≥
        ({} : CaptureConfig).settleMs := by
    decide +kernel
  have hstores : (moment {} emptyStore learnMerged 4).cloner.Stores {} true := by decide +kernel
  obtain ⟨call, hcall, hput⟩ := exists_stored_commitCapture hstores
  rw [← loop_of_settled {} harmed true hsettled] at hcall
  have hnone := hloop.stored call hcall _ hput
  revert hnone
  decide +kernel

end Observed

end RfCloner
