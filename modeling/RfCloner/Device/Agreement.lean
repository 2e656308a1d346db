/-
  Agreement between repeats, the noise gate.

  `agreements_` is meant to count the frames that repeat the candidate.  The single-frame path
  compares every frame with the candidate before it counts it.  The multi-frame path compares the
  neighbours of a window with each other, and only the first of them with the candidate, so a window
  whose frames drift is counted as far as every frame agrees with the next.

  `Counted` is the meaning of the counter, over everything the learn has received.  It survives every
  window that is `steady`: along a stretch of agreeing neighbours, the frame that became the
  candidate agrees with all that follow.  `drifting_window_stored` is a window that is not.
-/
import RfCloner.Device.History

namespace RfCloner

open CaptureState

/-! ## Drift -/

/-- The frames that follow one without a break, each repeating the frame before it. -/
def stretch (cfg : CaptureConfig) : Frame → List Frame → List Frame
  | _, [] => []
  | first, second :: frames =>
    if pairCounts cfg first second then second :: stretch cfg second frames else []

/-- Whether every frame that the multi-frame path makes the candidate agrees with the whole stretch
    that follows it. -/
def steadyFrom (cfg : CaptureConfig) : Frame → List Frame → Bool
  | candidate, first :: second :: frames =>
    if pairCounts cfg first second && differs cfg candidate first then
      (stretch cfg first (second :: frames)).all
          (fun frame => framesAgree first frame cfg.limits.tolerancePercent)
        && steadyFrom cfg first (second :: frames)
    else steadyFrom cfg candidate (second :: frames)
  | _, _ => true

/-- A window that does not drift. -/
def Window.steady (cfg : CaptureConfig) (w : Window) : Bool :=
  steadyFrom cfg w.found.candidate (w.split cfg).frames

/-! ## What the counter means -/

/-- How many of the frames agree with a waveform. -/
def repeatsHeard (cfg : CaptureConfig) (waveform : Frame) (heard : List Frame) : Nat :=
  heard.countP fun frame => framesAgree waveform frame cfg.limits.tolerancePercent

/-- No more agreements are counted than frames agree with the candidate. -/
structure Counted (cfg : CaptureConfig) (s : CaptureState) (heard : List Frame) : Prop where
  ready : s.ready = true → cfg.minRepeats.toNat ≤ repeatsHeard cfg s.candidate heard
  counted : s.candidate ≠ [] → s.agreements.toNat ≤ repeatsHeard cfg s.candidate heard

section Counting

variable {cfg : CaptureConfig} {s : CaptureState} {heard more : List Frame} {frame waveform : Frame}

theorem repeatsHeard_append : repeatsHeard cfg waveform (heard ++ more)
    = repeatsHeard cfg waveform heard + repeatsHeard cfg waveform more := List.countP_append

theorem repeatsHeard_agreeing (h : framesAgree waveform frame cfg.limits.tolerancePercent = true) :
    repeatsHeard cfg waveform [frame] = 1 := by
  unfold repeatsHeard
  rw [List.countP_singleton, if_pos h]

theorem toNat_succ_le (n : UInt32) : (n + 1).toNat ≤ n.toNat + 1 := by
  rw [UInt32.toNat_add]
  exact Nat.mod_le _ _

theorem Counted.mono (h : Counted cfg s heard) : Counted cfg s (heard ++ more) where
  ready hready := by
    have := h.ready hready
    rw [repeatsHeard_append]
    omega
  counted hne := by
    have := h.counted hne
    rw [repeatsHeard_append]
    omega

/-- Becoming ready is what the counter is for. -/
theorem Counted.settle (h : Counted cfg s heard) (hne : s.candidate ≠ []) (nowMs : UInt32) :
    Counted cfg (s.settle cfg nowMs) heard := by
  unfold CaptureState.settle
  split
  · rename_i henough
    have hle : cfg.minRepeats.toNat ≤ s.agreements.toNat := UInt32.le_iff_toNat_le.mp henough.1
    exact ⟨fun _ => hle.trans (h.counted hne), h.counted⟩
  · exact h

end Counting

/-! ## Single frames -/

section Windows

variable {cfg : CaptureConfig} (htol : cfg.limits.tolerancePercent ≤ 100)
  (hlong : cfg.limits.maxPulseUs < 2 ^ 31) {s : CaptureState} {heard : List Frame}

include htol hlong

/-- A new candidate is backed by itself. -/
theorem one_le_repeatsHeard (heard : List Frame) {frame : Frame}
    (hvalid : validateFrame frame cfg.limits = .ok)
    (hne : frame ≠ []) : 1 ≤ repeatsHeard cfg frame (heard ++ [frame]) := by
  rw [repeatsHeard_append, repeatsHeard_agreeing (framesAgree_self htol hlong hvalid hne)]
  omega

theorem Counted.takeFrame (h : Counted cfg s heard) {frame : Frame}
    (hvalid : validateFrame frame cfg.limits = .ok) (nowUs nowMs : UInt32) :
    Counted cfg (s.takeFrame cfg frame nowUs nowMs).1 (heard ++ [frame]) := by
  cases hdiffers : differs cfg s.candidate frame with
  | true =>
    rw [takeFrame_of_differs nowUs nowMs hdiffers]
    exact ⟨fun hready => (nomatch hready), fun hne => one_le_repeatsHeard htol hlong heard hvalid hne⟩
  | false =>
    rw [takeFrame_of_agrees nowUs nowMs hdiffers]
    have hagree := differs_eq_false.mp hdiffers
    have hne := ne_nil_of_agree hagree
    have hsucc := toNat_succ_le s.agreements
    have hle := h.counted hne
    refine Counted.settle ?_ ?_ nowMs
    · refine ⟨h.mono.ready, fun _ => ?_⟩
      rw [repeatsHeard_append, repeatsHeard_agreeing hagree]
      dsimp only
      omega
    · exact hne

/-! ## Windows of several frames -/

omit htol hlong in
variable (cfg) in
/-- What the counted neighbours of some frames leave of a capture. -/
def tallyFrom (s : CaptureState) (frames : List Frame) (gaps : List UInt32) : CaptureState :=
  ((⟨frames, gaps⟩ : SplitFrames).neighbours.filter
      fun pair => pairCounts cfg pair.1 pair.2.1).foldl
    (fun s pair => s.countPair cfg pair.1 pair.2.2) s

/-- What the loop has come to at frame `first`, with `rest` to go.  If the last pair was counted then
    `first` may have been counted already, and is owed by the frames seen so far; then the candidate
    agrees with the whole stretch that follows. -/
structure Backed (cfg : CaptureConfig) (s : CaptureState) (seen : List Frame) (first : Frame)
    (rest : List Frame) : Prop where
  ready : s.ready = true → cfg.minRepeats.toNat ≤ repeatsHeard cfg s.candidate seen
  counted : s.candidate ≠ [] → s.agreements.toNat ≤ repeatsHeard cfg s.candidate seen ∨
    framesAgree s.candidate first cfg.limits.tolerancePercent = true ∧
      s.agreements.toNat ≤ repeatsHeard cfg s.candidate seen + 1 ∧
      ∀ frame ∈ stretch cfg first rest,
        framesAgree s.candidate frame cfg.limits.tolerancePercent = true

omit htol hlong in
/-- Once `first` is among the frames seen, nothing is owed. -/
theorem Backed.settled {seen rest : List Frame} {first : Frame} (h : Backed cfg s seen first rest) :
    Counted cfg s (seen ++ [first]) where
  ready hready := by
    have := h.ready hready
    rw [repeatsHeard_append]
    omega
  counted hne := by
    rw [repeatsHeard_append]
    rcases h.counted hne with hle | ⟨hagree, hle, -⟩
    · omega
    · rw [repeatsHeard_agreeing hagree]
      omega

omit htol hlong in
theorem Counted.backed {seen : List Frame} (h : Counted cfg s seen) (first : Frame)
    (rest : List Frame) : Backed cfg s seen first rest :=
  ⟨h.ready, fun hne => Or.inl (h.counted hne)⟩

/-- One counted pair. -/
theorem Backed.countPair {seen rest : List Frame} {first second : Frame}
    (h : Backed cfg s seen first (second :: rest)) (hpair : pairCounts cfg first second = true)
    (hsteady : steadyFrom cfg s.candidate (first :: second :: rest) = true) (gap : UInt32) :
    Backed cfg (s.countPair cfg first gap) (seen ++ [first]) second rest ∧
      steadyFrom cfg (s.countPair cfg first gap).candidate (second :: rest) = true := by
  have hstretch : stretch cfg first (second :: rest) = second :: stretch cfg second rest := by
    rw [stretch, if_pos hpair]
  obtain ⟨hvalid, -, hagree⟩ := pairCounts_iff.mp hpair
  unfold steadyFrom at hsteady
  rw [hpair, Bool.true_and] at hsteady
  cases hdiffers : differs cfg s.candidate first with
  | true =>
    -- the first becomes the candidate, and the second is owed
    rw [if_pos hdiffers, hstretch, Bool.and_eq_true, List.all_eq_true] at hsteady
    rw [countPair_of_differs gap hdiffers]
    refine ⟨⟨fun hready => (nomatch hready), fun hne => Or.inr ⟨hagree, ?_, ?_⟩⟩, hsteady.2⟩
    · have hone := one_le_repeatsHeard htol hlong seen hvalid hne
      show 2 ≤ _
      exact Nat.succ_le_succ hone
    · exact fun frame hframe => hsteady.1 frame (List.mem_cons_of_mem _ hframe)
  | false =>
    rw [if_neg (Bool.eq_false_iff.mp hdiffers)] at hsteady
    have hfirst := differs_eq_false.mp hdiffers
    have hsucc := toNat_succ_le s.agreements
    rw [countPair_of_agrees gap hdiffers]
    refine ⟨⟨h.settled.ready, fun hne => ?_⟩, hsteady⟩
    dsimp only
    rw [repeatsHeard_append, repeatsHeard_agreeing hfirst]
    rcases h.counted hne with hle | ⟨-, hle, hrest⟩
    · exact Or.inl (by omega)
    · rw [hstretch] at hrest
      exact Or.inr ⟨hrest second List.mem_cons_self, by omega,
        fun frame hframe => hrest frame (List.mem_cons_of_mem _ hframe)⟩

/-- The loop over the neighbours counts no more than there is, in a window that does not drift. -/
theorem counted_tallyFrom (rest : List Frame) : ∀ (gaps : List UInt32) (s : CaptureState)
    (first : Frame) (seen : List Frame), Backed cfg s seen first rest →
    steadyFrom cfg s.candidate (first :: rest) = true →
    Counted cfg (tallyFrom cfg s (first :: rest) gaps) (seen ++ first :: rest) := by
  induction rest with
  | nil => exact fun gaps s first seen h _ => h.settled
  | cons second rest ih =>
    intro gaps s first seen h hsteady
    have hsplit : seen ++ first :: second :: rest = (seen ++ [first]) ++ second :: rest := by
      rw [List.append_assoc, List.singleton_append]
    rw [hsplit]
    cases gaps with
    | nil => exact h.settled.mono
    | cons gap gaps =>
      cases hpair : pairCounts cfg first second with
      | true =>
        obtain ⟨hnext, hsteady⟩ := h.countPair htol hlong hpair hsteady gap
        have hcons : tallyFrom cfg s (first :: second :: rest) (gap :: gaps)
            = tallyFrom cfg (s.countPair cfg first gap) (second :: rest) gaps := by
          simp [tallyFrom, SplitFrames.neighbours, hpair]
        rw [hcons]
        exact ih gaps _ second _ hnext hsteady
      | false =>
        have hcons : tallyFrom cfg s (first :: second :: rest) (gap :: gaps)
            = tallyFrom cfg s (second :: rest) gaps := by
          simp [tallyFrom, SplitFrames.neighbours, hpair]
        unfold steadyFrom at hsteady
        rw [hpair, Bool.false_and, if_neg Bool.false_ne_true] at hsteady
        rw [hcons]
        exact ih gaps s second _ (h.settled.backed second rest) hsteady

/-- A window keeps the meaning of the counter, unless it drifts. -/
theorem Counted.receive (h : Counted cfg s heard) (rawData : Frame) (nowUs nowMs : UInt32)
    (hsteady : (⟨s, stripTerminator rawData, nowUs⟩ : Window).steady cfg = true) :
    Counted cfg (s.receive cfg rawData nowUs nowMs).1
      (heard ++ (⟨s, stripTerminator rawData, nowUs⟩ : Window).frames cfg) := by
  cases hconsumed : (⟨s, stripTerminator rawData, nowUs⟩ : Window).consumed cfg with
  | true =>
    rw [receive_of_consumed hconsumed, Window.frames, if_pos hconsumed]
    refine Counted.settle ?_ (candidate_tally_ne_nil hconsumed) nowMs
    cases hframes : ((⟨s, stripTerminator rawData, nowUs⟩ : Window).split cfg).frames with
    | nil =>
      have hnil : (⟨s, stripTerminator rawData, nowUs⟩ : Window).counted cfg = [] :=
        counted_eq_nil (by rw [hframes]; exact Nat.zero_lt_two)
      rw [Window.consumed, hnil] at hconsumed
      cases hconsumed
    | cons first rest =>
      have htally : tally cfg ⟨s, stripTerminator rawData, nowUs⟩
          = tallyFrom cfg s (first :: rest)
              ((⟨s, stripTerminator rawData, nowUs⟩ : Window).split cfg).gaps := by
        rw [← hframes]
        rfl
      rw [htally]
      rw [Window.steady, hframes] at hsteady
      exact counted_tallyFrom htol hlong rest _ s first heard (h.backed first rest) hsteady
  | false =>
    rw [receive_of_not_consumed hconsumed, Window.frames, hconsumed, if_neg Bool.false_ne_true]
    unfold CaptureState.takeWindow
    split
    · rename_i hvalid
      exact h.takeFrame htol hlong hvalid nowUs nowMs
    · have hmono : Counted cfg s (heard ++ [stripTerminator rawData]) := h.mono
      exact ⟨hmono.ready, hmono.counted⟩

end Windows

/-! ## Over runs -/

namespace Observed

/-- **Agreement between repeats is the gate, as long as no window drifts.**  Whatever a learn puts is
    a valid frame that enough of the frames it received agree with. -/
theorem repeats_of_put (cfg : CaptureConfig) (htol : cfg.limits.tolerancePercent ≤ 100)
    (hlong : cfg.limits.maxPulseUs < 2 ^ 31) (store : CommandStore) (events : List LearnEvent)
    {k : Nat} {event : LearnEvent} (hevent : events[k]? = some event) {call : Call}
    {command : Command} {result : StoreResult}
    (hcall : call ∈ ((moment cfg store events k).cloner.step cfg event).2)
    (hput : call.effect = .put command result)
    (hsteady : ∀ w ∈ (moment cfg store events (k + 1)).windows, w.steady cfg = true) :
    validateFrame command.timings cfg.limits = .ok ∧
      cfg.minRepeats.toNat ≤ repeatsHeard cfg command.timings
        ((moment cfg store events (k + 1)).windows.flatMap (Window.frames cfg)) := by
  obtain ⟨⟨hvalid, hcounted⟩, hready, htimings, -⟩ :=
    put_inv (I := fun s windows => s.Valid cfg ∧ ((∀ w ∈ windows, w.steady cfg = true) →
        Counted cfg s (windows.flatMap (Window.frames cfg))))
      (fun s => ⟨⟨fun hne => absurd rfl hne, fun hready => (nomatch hready)⟩,
        fun _ => ⟨fun hready => (nomatch hready), fun hne => absurd rfl hne⟩⟩)
      (fun s windows rawData nowUs nowMs hinv => by
        refine ⟨hinv.1.receive rawData nowUs nowMs, fun hsteady => ?_⟩
        rw [List.flatMap_append, List.flatMap_singleton]
        exact (hinv.2 fun w hw => hsteady w (List.mem_append_left _ hw)).receive htol hlong rawData
          nowUs nowMs (hsteady _ (List.mem_append_right _ List.mem_cons_self)))
      store hevent hcall hput
  rw [htimings]
  exact ⟨hvalid.valid (hvalid.ready hready), (hcounted hsteady).ready hready⟩

/-! ## One window -/

/-- Nine pulses of one length. -/
def pulseTrain (us : Int32) : Frame := [us, -us, us, -us, us, -us, us, -us, us]

/-- What the receiver delivers for some frames a gap apart. -/
def windowOf (gapUs : Int32) (frames : List Frame) : Frame :=
  (frames.intersperse [-gapUs]).flatten ++ [-20000]

/-- A learn, and one window 5 ms later. -/
def learnFrom (rawData : Frame) : List LearnEvent :=
  [.learn (ascii "fan") 0 0, .onReceive true rawData 5000 5]

/-- A window that completes a capture has it put. -/
theorem put_learnFrom (cfg : CaptureConfig) (store : CommandStore) (rawData : Frame)
    (harmed : (moment cfg store (learnFrom rawData) 1).cloner.state = .armed)
    (hcommit : ((moment cfg store (learnFrom rawData) 1).cloner.capture.receive cfg rawData 5000 5).2
      = true) : ∃ call command result,
    call ∈ ((moment cfg store (learnFrom rawData) 1).cloner.step cfg
      (.onReceive true rawData 5000 5)).2 ∧
    call.effect = .put command result ∧
    command.timings = ((moment cfg store (learnFrom rawData) 1).cloner.capture.receive cfg rawData
      5000 5).1.candidate ∧
    command.gapUs = ((moment cfg store (learnFrom rawData) 1).cloner.capture.receive cfg rawData
      5000 5).1.resolveGapUs cfg := by
  obtain ⟨command, result, hcall, hcommand⟩ := put_of_commit true harmed hcommit
  exact ⟨_, command, result, hcall, rfl, hcommand⟩

/-- A store with room. -/
def emptyStore : CommandStore := CommandStore.configure ⟨16, 128, 12288, 0⟩

/-- Three frames of a window that keep within the tolerance of the first. -/
theorem repeats_of_put_steady :
    3 ≤ repeatsHeard {} (pulseTrain 400) [pulseTrain 400, pulseTrain 480, pulseTrain 440] := by
  obtain ⟨call, command, result, hcall, hput, htimings, -⟩ :=
    put_learnFrom {} emptyStore (windowOf 5000 [pulseTrain 400, pulseTrain 480, pulseTrain 440])
      (by decide) (by decide +kernel)
  have hwindow : ((moment {} emptyStore
      (learnFrom (windowOf 5000 [pulseTrain 400, pulseTrain 480, pulseTrain 440])) 2).windows.flatMap
        (Window.frames {})) = [pulseTrain 400, pulseTrain 480, pulseTrain 440] := by
    decide +kernel
  have henough := (repeats_of_put {} (by decide) (by decide) emptyStore
    (learnFrom (windowOf 5000 [pulseTrain 400, pulseTrain 480, pulseTrain 440])) (k := 1) rfl hcall
    hput (by decide +kernel)).2
  rw [htimings, hwindow] at henough
  exact henough

/-- **A window that drifts is stored.**  Each frame agrees with the one before it, and only two of
    the three with the waveform that is put. -/
theorem drifting_window_stored : ¬ ∀ (cfg : CaptureConfig) (store : CommandStore)
    (events : List LearnEvent) (k : Nat) (event : LearnEvent) (call : Call) (command : Command)
    (result : StoreResult), cfg.limits.tolerancePercent ≤ 100 → cfg.limits.maxPulseUs < 2 ^ 31 →
    events[k]? = some event → call ∈ ((moment cfg store events k).cloner.step cfg event).2 →
    call.effect = .put command result →
    validateFrame command.timings cfg.limits = .ok ∧
      cfg.minRepeats.toNat ≤ repeatsHeard cfg command.timings
        ((moment cfg store events (k + 1)).windows.flatMap (Window.frames cfg)) := by
  intro h
  obtain ⟨call, command, result, hcall, hput, htimings, -⟩ :=
    put_learnFrom {} emptyStore (windowOf 5000 [pulseTrain 400, pulseTrain 480, pulseTrain 576])
      (by decide) (by decide +kernel)
  have henough := (h {} emptyStore _ 1 _ call command result (by decide) (by decide) rfl hcall hput).2
  rw [htimings] at henough
  revert henough
  decide +kernel

end Observed

end RfCloner
