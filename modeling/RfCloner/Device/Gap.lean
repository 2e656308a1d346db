/-
  Where the stored gap comes from.

  Two sources are kept next to the candidate: the gaps measured inside windows, and the arrival times
  of single frames.  Either path can replace the candidate, and each clears the one source only that
  it feeds itself.  `GapOf` says what the gap of a waveform may come from; `ownGaps` and `ownSpan`
  follow, window by window, whether the two sources are still about the candidate.  The gap is one
  of its waveform whenever the source it was taken from is (`gapOf_put`), and `foreign_gap_stored`
  is a learn in which it is not.
-/
import RfCloner.Device.Agreement

namespace RfCloner

open CaptureState

/-! ## Whose gaps -/

namespace Window

variable (cfg : CaptureConfig) (w : Window)

/-- The multi-frame path replaces the candidate the window found. -/
def setsByPairs : Bool :=
  (w.counted cfg).any fun pair => differs cfg w.found.candidate pair.1

/-- The single-frame path takes the window as a frame. -/
def taken : Bool := !w.consumed cfg && validateFrame w.blob cfg.limits = .ok

/-- The single-frame path replaces the candidate the window found. -/
def setsAlone : Bool := w.taken cfg && differs cfg w.found.candidate w.blob

/-- The single-frame path starts a new span of arrivals, with a new candidate or after a pause. -/
def startsSpan : Bool :=
  w.taken cfg && (differs cfg w.found.candidate w.blob || late cfg w.found w.blob w.nowUs)

end Window

/-- Whether the gaps that are held after some windows were measured for the candidate: the
    multi-frame path clears them with a new candidate, the single-frame path does not. -/
def ownGaps (cfg : CaptureConfig) (windows : List Window) : Bool :=
  windows.foldl (fun own w =>
    if w.setsByPairs cfg then true
    else if w.setsAlone cfg then w.found.physicalGaps.isEmpty
    else own) true

/-- Whether the span of arrivals after some windows was started for the candidate: the single-frame
    path starts one with a new candidate, the multi-frame path does not. -/
def ownSpan (cfg : CaptureConfig) (windows : List Window) : Bool :=
  windows.foldl (fun own w =>
    if w.setsByPairs cfg then false
    else if w.startsSpan cfg then true
    else own) false

/-- A gap between two neighbours of a window that agree with each other, and the first of them with
    the waveform. -/
def MeasuredOn (cfg : CaptureConfig) (windows : List Window) (waveform : Frame) (gap : UInt32) :
    Prop :=
  ∃ w ∈ windows, ∃ pair ∈ (w.split cfg).neighbours, pair.2.2 = gap ∧
    framesAgree waveform pair.1 cfg.limits.tolerancePercent = true ∧
    framesAgree pair.1 pair.2.1 cfg.limits.tolerancePercent = true

/-- The span of arrivals runs over single-frame windows that agree with the candidate, and over all
    the intervals between them. -/
def TimedOn (cfg : CaptureConfig) (windows : List Window) (s : CaptureState) : Prop :=
  ∃ arrivals : List Window, arrivals.Sublist windows ∧
    (∀ w ∈ arrivals, w.consumed cfg = false ∧
      framesAgree s.candidate w.blob cfg.limits.tolerancePercent = true) ∧
    arrivals.head?.map Window.nowUs = some s.firstFrameUs ∧
    arrivals.getLast?.map Window.nowUs = some s.lastFrameUs ∧
    UInt32.ofNat arrivals.length = s.intervalCount + 1

/-- What the gap of a capture may come from. -/
def GapOf (cfg : CaptureConfig) (windows : List Window) (s : CaptureState) (gap : UInt32) : Prop :=
  (gap = s.medianGapUs ∧ s.physicalGaps ≠ [] ∧
      ∀ g ∈ s.physicalGaps, MeasuredOn cfg windows s.candidate g) ∨
    (gap = s.estimatedGapUs cfg ∧ TimedOn cfg windows s) ∨
    gap = cfg.defaultGapUs

/-! ## What the windows leave -/

section Sources

variable {cfg : CaptureConfig} {windows : List Window} {w : Window} {s : CaptureState}

theorem MeasuredOn.mono {waveform : Frame} {gap : UInt32} (h : MeasuredOn cfg windows waveform gap) :
    MeasuredOn cfg (windows ++ [w]) waveform gap := by
  obtain ⟨v, hv, h⟩ := h
  exact ⟨v, List.mem_append_left _ hv, h⟩

/-- The span depends on the candidate and the arrival times alone. -/
theorem TimedOn.mono {t : CaptureState} (h : TimedOn cfg windows s)
    (hcandidate : t.candidate = s.candidate) (hfirst : t.firstFrameUs = s.firstFrameUs)
    (hlast : t.lastFrameUs = s.lastFrameUs) (hcount : t.intervalCount = s.intervalCount) :
    TimedOn cfg (windows ++ [w]) t := by
  obtain ⟨arrivals, hsub, hagree, hhead, hend, hlen⟩ := h
  refine ⟨arrivals, hsub.trans (List.sublist_append_left _ _), ?_, ?_, ?_, ?_⟩
  · rw [hcandidate]
    exact hagree
  · rw [hfirst]
    exact hhead
  · rw [hlast]
    exact hend
  · rw [hcount]
    exact hlen

/-- One more arrival. -/
theorem TimedOn.next {t : CaptureState} (h : TimedOn cfg windows s) (hcandidate : t.candidate = s.candidate)
    (hfirst : t.firstFrameUs = s.firstFrameUs) (hlast : t.lastFrameUs = w.nowUs)
    (hcount : t.intervalCount = s.intervalCount + 1) (hconsumed : w.consumed cfg = false)
    (hw : framesAgree s.candidate w.blob cfg.limits.tolerancePercent = true) :
    TimedOn cfg (windows ++ [w]) t := by
  obtain ⟨arrivals, hsub, hagree, hhead, -, hlen⟩ := h
  refine ⟨arrivals ++ [w], hsub.append (List.Sublist.refl _), ?_, ?_, ?_, ?_⟩
  · intro v hv
    rw [hcandidate]
    rcases List.mem_append.mp hv with hv | hv
    · exact hagree v hv
    · obtain rfl := List.mem_singleton.mp hv
      exact ⟨hconsumed, hw⟩
  · cases arrivals with
    | nil => cases hhead
    | cons a arrivals =>
      rw [hfirst]
      exact hhead
  · rw [List.getLast?_append, List.getLast?_singleton, hlast]
    rfl
  · rw [hcount, ← hlen, List.length_append]
    exact UInt32.ofNat_add _ _

/-- The first arrival of a span. -/
theorem timedOn_start {t : CaptureState} (hfirst : t.firstFrameUs = w.nowUs)
    (hlast : t.lastFrameUs = w.nowUs) (hcount : t.intervalCount = 0)
    (hconsumed : w.consumed cfg = false)
    (hw : framesAgree t.candidate w.blob cfg.limits.tolerancePercent = true) :
    TimedOn cfg (windows ++ [w]) t := by
  refine ⟨[w], List.sublist_append_right _ _, ?_, ?_, ?_, ?_⟩
  · intro v hv
    obtain rfl := List.mem_singleton.mp hv
    exact ⟨hconsumed, hw⟩
  · rw [hfirst]
    rfl
  · rw [hlast]
    rfl
  · rw [hcount]
    rfl

/-! ## Windows of several frames -/

variable (cfg) in
/-- Counting pairs leaves the span of arrivals alone. -/
theorem foldl_countPair_span (pairs : List (Frame × Frame × UInt32)) : ∀ s : CaptureState,
    (pairs.foldl (fun s pair => s.countPair cfg pair.1 pair.2.2) s).firstFrameUs = s.firstFrameUs ∧
    (pairs.foldl (fun s pair => s.countPair cfg pair.1 pair.2.2) s).lastFrameUs = s.lastFrameUs ∧
    (pairs.foldl (fun s pair => s.countPair cfg pair.1 pair.2.2) s).intervalCount
      = s.intervalCount := by
  induction pairs with
  | nil => exact fun s => ⟨rfl, rfl, rfl⟩
  | cons pair pairs ih =>
    obtain ⟨first, second, gap⟩ := pair
    intro s
    rw [List.foldl_cons]
    obtain ⟨hfirst, hlast, hcount⟩ := ih (s.countPair cfg first gap)
    rw [hfirst, hlast, hcount]
    cases hdiffers : differs cfg s.candidate first with
    | true =>
      rw [countPair_of_differs gap hdiffers]
      exact ⟨rfl, rfl, rfl⟩
    | false =>
      rw [countPair_of_agrees gap hdiffers]
      exact ⟨rfl, rfl, rfl⟩

/-- Counting pairs that all agree with the candidate leaves it. -/
theorem foldl_countPair_candidate (pairs : List (Frame × Frame × UInt32)) : ∀ s : CaptureState,
    (pairs.any fun pair => differs cfg s.candidate pair.1) = false →
    (pairs.foldl (fun s pair => s.countPair cfg pair.1 pair.2.2) s).candidate = s.candidate := by
  induction pairs with
  | nil => exact fun s _ => rfl
  | cons pair pairs ih =>
    obtain ⟨first, second, gap⟩ := pair
    intro s hnone
    rw [List.any_cons, Bool.or_eq_false_iff] at hnone
    rw [List.foldl_cons, countPair_of_agrees gap hnone.1]
    exact ih _ hnone.2

/-- Counting pairs adds gaps of the candidate, and starts over with a new one. -/
theorem foldl_countPair_gaps (htol : cfg.limits.tolerancePercent ≤ 100)
    (hlong : cfg.limits.maxPulseUs < 2 ^ 31) (hw : w ∈ windows)
    (pairs : List (Frame × Frame × UInt32)) (hpairs : ∀ pair ∈ pairs, pair ∈ w.counted cfg) :
    ∀ s : CaptureState,
    (∀ g ∈ s.physicalGaps, MeasuredOn cfg windows s.candidate g) ∨
      (pairs.any fun pair => differs cfg s.candidate pair.1) = true →
    ∀ g ∈ (pairs.foldl (fun s pair => s.countPair cfg pair.1 pair.2.2) s).physicalGaps,
      MeasuredOn cfg windows
        (pairs.foldl (fun s pair => s.countPair cfg pair.1 pair.2.2) s).candidate g := by
  induction pairs with
  | nil =>
    intro s hown
    rcases hown with hown | hsets
    · exact hown
    · cases hsets
  | cons pair pairs ih =>
    obtain ⟨first, second, gap⟩ := pair
    intro s hown
    obtain ⟨hneighbours, hcounts⟩ := List.mem_filter.mp (hpairs _ List.mem_cons_self)
    obtain ⟨hvalid, -, hagree⟩ := pairCounts_iff.mp hcounts
    rw [List.foldl_cons]
    refine ih (fun pair hpair => hpairs pair (List.mem_cons_of_mem _ hpair)) _ ?_
    cases hdiffers : differs cfg s.candidate first with
    | true =>
      rw [countPair_of_differs gap hdiffers]
      refine Or.inl fun g hg => ?_
      obtain rfl := List.mem_singleton.mp hg
      exact ⟨w, hw, _, hneighbours, rfl,
        framesAgree_self htol hlong hvalid (ne_nil_of_agree hagree), hagree⟩
    | false =>
      rw [countPair_of_agrees gap hdiffers]
      rcases hown with hown | hsets
      · refine Or.inl fun g hg => ?_
        rcases List.mem_append.mp hg with hg | hg
        · exact hown g hg
        · obtain rfl := List.mem_singleton.mp hg
          exact ⟨w, hw, _, hneighbours, rfl, differs_eq_false.mp hdiffers, hagree⟩
      · rw [List.any_cons, hdiffers, Bool.false_or] at hsets
        exact Or.inr hsets

/-! ## The sources, window by window -/

/-- Whatever source is marked as the candidate's is about the candidate. -/
structure Attributed (cfg : CaptureConfig) (s : CaptureState) (windows : List Window) : Prop where
  gaps : ownGaps cfg windows = true → ∀ g ∈ s.physicalGaps, MeasuredOn cfg windows s.candidate g
  span : ownSpan cfg windows = true → s.candidate ≠ [] → TimedOn cfg windows s

theorem ownGaps_append : ownGaps cfg (windows ++ [w]) =
    if w.setsByPairs cfg then true
    else if w.setsAlone cfg then w.found.physicalGaps.isEmpty
    else ownGaps cfg windows := by
  unfold ownGaps
  rw [List.foldl_append]
  rfl

theorem ownSpan_append : ownSpan cfg (windows ++ [w]) =
    if w.setsByPairs cfg then false
    else if w.startsSpan cfg then true
    else ownSpan cfg windows := by
  unfold ownSpan
  rw [List.foldl_append]
  rfl

/-- Becoming ready does not touch the sources. -/
theorem Attributed.settle (h : Attributed cfg s windows) (nowMs : UInt32) :
    Attributed cfg (s.settle cfg nowMs) windows := by
  unfold CaptureState.settle
  split
  · exact ⟨h.gaps, h.span⟩
  · exact h

theorem setsByPairs_of_not_consumed (h : w.consumed cfg = false) : w.setsByPairs cfg = false := by
  have hnil : w.counted cfg = [] := by
    rw [Window.consumed, Bool.not_eq_false', List.isEmpty_iff] at h
    exact h
  rw [Window.setsByPairs, hnil]
  rfl

/-- A window that goes on with the sources as they are. -/
theorem Attributed.mono {t : CaptureState} (h : Attributed cfg s windows)
    (hcandidate : t.candidate = s.candidate) (hgaps : t.physicalGaps = s.physicalGaps)
    (hfirst : t.firstFrameUs = s.firstFrameUs) (hlast : t.lastFrameUs = s.lastFrameUs)
    (hcount : t.intervalCount = s.intervalCount) (hpairs : w.setsByPairs cfg = false)
    (htaken : w.taken cfg = false) : Attributed cfg t (windows ++ [w]) where
  gaps hown := by
    rw [ownGaps_append, hpairs, Window.setsAlone, htaken] at hown
    rw [hcandidate, hgaps]
    exact fun g hg => (h.gaps hown g hg).mono
  span hown hne := by
    rw [ownSpan_append, hpairs, Window.startsSpan, htaken] at hown
    rw [hcandidate] at hne
    exact (h.span hown hne).mono hcandidate hfirst hlast hcount

/-- A window of several frames. -/
theorem Attributed.consume (htol : cfg.limits.tolerancePercent ≤ 100)
    (hlong : cfg.limits.maxPulseUs < 2 ^ 31) (hw : w.consumed cfg = true)
    (h : Attributed cfg w.found windows) : Attributed cfg (tally cfg w) (windows ++ [w]) where
  gaps hown := by
    refine foldl_countPair_gaps htol hlong (List.mem_append_right _ List.mem_cons_self) (w.counted cfg)
      (fun pair hpair => hpair) w.found ?_
    rw [ownGaps_append, Window.setsAlone, Window.taken, hw] at hown
    cases hpairs : w.setsByPairs cfg with
    | true => exact Or.inr hpairs
    | false =>
      rw [hpairs] at hown
      exact Or.inl fun g hg => (h.gaps hown g hg).mono
  span hown hne := by
    rw [ownSpan_append, Window.startsSpan, Window.taken, hw] at hown
    cases hpairs : w.setsByPairs cfg with
    | true =>
      rw [hpairs] at hown
      cases hown
    | false =>
      rw [hpairs] at hown
      have hcandidate : (tally cfg w).candidate = w.found.candidate :=
        foldl_countPair_candidate _ w.found hpairs
      obtain ⟨hfirst, hlast, hcount⟩ := foldl_countPair_span cfg (w.counted cfg) w.found
      rw [hcandidate] at hne
      exact (h.span hown hne).mono hcandidate hfirst hlast hcount

/-- A window with a single good frame. -/
theorem Attributed.takeFrame (htol : cfg.limits.tolerancePercent ≤ 100)
    (hlong : cfg.limits.maxPulseUs < 2 ^ 31) (hw : w.consumed cfg = false)
    (hvalid : validateFrame w.blob cfg.limits = .ok) (h : Attributed cfg w.found windows)
    (nowMs : UInt32) :
    Attributed cfg (w.found.takeFrame cfg w.blob w.nowUs nowMs).1 (windows ++ [w]) := by
  have hpairs := setsByPairs_of_not_consumed hw
  have htaken : w.taken cfg = true := by
    rw [Window.taken, hw, hvalid]
    rfl
  cases hdiffers : differs cfg w.found.candidate w.blob with
  | true =>
    rw [takeFrame_of_differs w.nowUs nowMs hdiffers]
    refine ⟨fun hown => ?_, fun _ hne => ?_⟩
    · rw [ownGaps_append, hpairs, Window.setsAlone, htaken, hdiffers] at hown
      intro g hg
      rw [List.isEmpty_iff.mp hown] at hg
      cases hg
    · exact timedOn_start rfl rfl rfl hw (framesAgree_self htol hlong hvalid hne)
  | false =>
    rw [takeFrame_of_agrees w.nowUs nowMs hdiffers]
    have hagree := differs_eq_false.mp hdiffers
    refine Attributed.settle ⟨fun hown => ?_, fun hown hne => ?_⟩ nowMs
    · rw [ownGaps_append, hpairs, Window.setsAlone, htaken, hdiffers] at hown
      exact fun g hg => (h.gaps hown g hg).mono
    · rw [ownSpan_append, hpairs, Window.startsSpan, htaken, hdiffers] at hown
      cases hlate : late cfg w.found w.blob w.nowUs with
      | true => exact timedOn_start rfl rfl rfl hw hagree
      | false =>
        rw [hlate] at hown
        exact (h.span hown hne).next rfl rfl rfl rfl hw hagree

theorem Attributed.receive (htol : cfg.limits.tolerancePercent ≤ 100)
    (hlong : cfg.limits.maxPulseUs < 2 ^ 31) (h : Attributed cfg s windows) (rawData : Frame)
    (nowUs nowMs : UInt32) : Attributed cfg (s.receive cfg rawData nowUs nowMs).1
      (windows ++ [⟨s, stripTerminator rawData, nowUs⟩]) := by
  cases hconsumed : (⟨s, stripTerminator rawData, nowUs⟩ : Window).consumed cfg with
  | true =>
    rw [receive_of_consumed hconsumed]
    exact (Attributed.consume (w := ⟨s, stripTerminator rawData, nowUs⟩) htol hlong hconsumed h).settle
      nowMs
  | false =>
    rw [receive_of_not_consumed hconsumed]
    unfold CaptureState.takeWindow
    split
    · rename_i hvalid
      exact Attributed.takeFrame (w := ⟨s, stripTerminator rawData, nowUs⟩) htol hlong hconsumed
        hvalid h nowMs
    · rename_i hinvalid
      refine h.mono rfl rfl rfl rfl rfl (setsByPairs_of_not_consumed hconsumed) ?_
      rw [Window.taken, decide_eq_false hinvalid, Bool.and_false]

end Sources

/-! ## Over runs -/

namespace Observed

/-- The source that the gap of a capture is taken from is about its waveform: its measured gaps, where
    their median is plausible, and else the span of arrivals, where it gives an estimate. -/
def OwnSource (cfg : CaptureConfig) (x : Observed) : Prop :=
  if x.cloner.capture.measured cfg then ownGaps cfg x.windows = true
  else x.cloner.capture.estimatedGapUs cfg = 0 ∨ ownSpan cfg x.windows = true

instance (cfg : CaptureConfig) (x : Observed) : Decidable (x.OwnSource cfg) := by
  unfold OwnSource
  infer_instance

/-- **The stored gap belongs to the stored waveform, as long as its source does.**  The gap is always
    within bounds, and it comes from windows of the learn that agree with the waveform, or it is the
    default. -/
theorem gapOf_put (cfg : CaptureConfig) (htol : cfg.limits.tolerancePercent ≤ 100)
    (hlong : cfg.limits.maxPulseUs < 2 ^ 31) (hmin : cfg.minGapUs ≤ cfg.defaultGapUs)
    (hmax : cfg.defaultGapUs ≤ cfg.maxGapUs) (store : CommandStore) (events : List LearnEvent)
    {k : Nat} {event : LearnEvent} (hevent : events[k]? = some event) {call : Call}
    {command : Command} {result : StoreResult}
    (hcall : call ∈ ((moment cfg store events k).cloner.step cfg event).2)
    (hput : call.effect = .put command result)
    (hown : (moment cfg store events (k + 1)).OwnSource cfg) :
    command.timings = (moment cfg store events (k + 1)).cloner.capture.candidate ∧
      cfg.minGapUs ≤ command.gapUs ∧ command.gapUs ≤ cfg.maxGapUs ∧
      GapOf cfg (moment cfg store events (k + 1)).windows
        (moment cfg store events (k + 1)).cloner.capture command.gapUs := by
  obtain ⟨⟨hvalid, hsources⟩, hready, htimings, hgap⟩ :=
    put_inv (I := fun s windows => s.Valid cfg ∧ Attributed cfg s windows)
      (fun s => ⟨⟨fun hne => absurd rfl hne, fun hready => (nomatch hready)⟩,
        ⟨fun _ g hg => (nomatch hg), fun hown => (nomatch hown)⟩⟩)
      (fun s windows rawData nowUs nowMs hinv =>
        ⟨hinv.1.receive rawData nowUs nowMs, hinv.2.receive htol hlong rawData nowUs nowMs⟩)
      store hevent hcall hput
  refine ⟨htimings, ?_⟩
  generalize moment cfg store events (k + 1) = x at *
  unfold OwnSource at hown
  unfold resolveGapUs at hgap
  split at hgap
  · -- the median of the gaps
    rename_i hmeasured
    rw [if_pos hmeasured] at hown
    unfold CaptureState.measured at hmeasured
    simp only [Bool.and_eq_true, Bool.not_eq_true', List.isEmpty_eq_false_iff, decide_eq_true_eq]
      at hmeasured
    rw [hgap]
    exact ⟨hmeasured.1.2, hmeasured.2, Or.inl ⟨rfl, hmeasured.1.1, hsources.gaps hown⟩⟩
  · rename_i hunmeasured
    rw [if_neg hunmeasured] at hown
    split at hgap
    · -- the estimate
      rename_i hestimate
      obtain ⟨hlow, hhigh⟩ := estimateGapUs_bounds hestimate
      rw [hgap]
      refine ⟨hlow, hhigh, Or.inr (Or.inl ⟨rfl, ?_⟩)⟩
      exact hsources.span (hown.resolve_left hestimate) (hvalid.ready hready)
    · rw [hgap]
      exact ⟨hmin, hmax, Or.inr (Or.inr rfl)⟩

/-- A window of three repeats, whose gaps are read off it. -/
theorem gapOf_put_measured : GapOf {}
    (moment {} emptyStore (learnFrom (windowOf 5000 [pulseTrain 400, pulseTrain 400, pulseTrain 400]))
      2).windows
    (moment {} emptyStore (learnFrom (windowOf 5000 [pulseTrain 400, pulseTrain 400, pulseTrain 400]))
      2).cloner.capture 5000 := by
  obtain ⟨call, command, result, hcall, hput, -, hgap⟩ :=
    put_learnFrom {} emptyStore (windowOf 5000 [pulseTrain 400, pulseTrain 400, pulseTrain 400])
      (by decide) (by decide +kernel)
  have hmedian : ((moment {} emptyStore
      (learnFrom (windowOf 5000 [pulseTrain 400, pulseTrain 400, pulseTrain 400])) 1).cloner.capture.receive
        {} (windowOf 5000 [pulseTrain 400, pulseTrain 400, pulseTrain 400]) 5000 5).1.resolveGapUs {}
      = 5000 := by
    decide +kernel
  obtain ⟨-, -, -, hsource⟩ := gapOf_put {} (by decide) (by decide) (by decide) (by decide) emptyStore
    (learnFrom (windowOf 5000 [pulseTrain 400, pulseTrain 400, pulseTrain 400])) (k := 1) rfl hcall
    hput (by decide +kernel)
  rw [hgap, hmedian] at hsource
  exact hsource

/-- A learn that hears two repeats of one remote in a window, and then three single frames of
    another. -/
def learnForeign : List LearnEvent :=
  [.learn (ascii "fan") 0 0,
    .onReceive true (windowOf 5000 [pulseTrain 400, pulseTrain 400]) 100000 100,
    .onReceive true (windowOf 5000 [pulseTrain 1000]) 200000 200,
    .onReceive true (windowOf 5000 [pulseTrain 1000]) 300000 300,
    .onReceive true (windowOf 5000 [pulseTrain 1000]) 400000 400,
    .loop true 1300]

/-- **The gap of one remote is stored with the waveform of another.** -/
theorem foreign_gap_stored : ¬ ∀ (cfg : CaptureConfig) (store : CommandStore)
    (events : List LearnEvent) (k : Nat) (event : LearnEvent) (call : Call) (command : Command)
    (result : StoreResult), cfg.limits.tolerancePercent ≤ 100 → cfg.limits.maxPulseUs < 2 ^ 31 →
    cfg.minGapUs ≤ cfg.defaultGapUs → cfg.defaultGapUs ≤ cfg.maxGapUs →
    events[k]? = some event → call ∈ ((moment cfg store events k).cloner.step cfg event).2 →
    call.effect = .put command result →
    command.timings = (moment cfg store events (k + 1)).cloner.capture.candidate ∧
      cfg.minGapUs ≤ command.gapUs ∧ command.gapUs ≤ cfg.maxGapUs ∧
      GapOf cfg (moment cfg store events (k + 1)).windows
        (moment cfg store events (k + 1)).cloner.capture command.gapUs := by
  intro h
  have harmed : (moment {} emptyStore learnForeign 5).cloner.state = .armed := by decide +kernel
  obtain ⟨hcapture, result, hcall⟩ := put_of_settle {} true 1300 harmed (by decide +kernel)
    (by decide +kernel)
  have hnext : moment {} emptyStore learnForeign 6
      = (moment {} emptyStore learnForeign 5).step {} (.loop true 1300) := Runs.moment_succ rfl
  obtain ⟨-, -, -, hgap⟩ := h {} emptyStore learnForeign 5 _ _ _ result (by decide) (by decide)
    (by decide) (by decide) rfl hcall rfl
  rw [hnext, hcapture] at hgap
  rcases hgap with ⟨-, -, hgaps⟩ | ⟨hestimate, -⟩ | hdefault
  · have hmeasured := hgaps 5000 (by decide +kernel)
    unfold MeasuredOn at hmeasured
    revert hmeasured
    decide +kernel
  · revert hestimate
    decide +kernel
  · revert hdefault
    decide +kernel

end Observed

end RfCloner
